import Veil.Interleaved
import Veil.Library.Counter

namespace Veil

open Messenger

def Messenger.Chats.unread (chats : Chats) (address : String) : Int :=
  ((chats.conversations.get? address).map Messenger.Conversation.unreadCount).getD 0

namespace Interleaved

/-- The handler of some texts of a peer, one after the other. A socket starts one for each text, `sync` one for all it has
fetched. -/
def receiver (peerAddress : String) (texts : List Text) : Operation Unit :=
  sync (texts.map (fun text => (text.now, text.incoming peerAddress)))

def receiving (peerAddress : String) (batches : List (List Text)) (chats : Chats) : Pool Call Answer Chats :=
  ⟨chats, batches.map (receiver peerAddress)⟩

/-- The same with a `markRead` beside them. -/
def receivingMarked (peerAddress : String) (batches : List (List Text)) (chats : Chats) : Pool Call Answer Chats :=
  ⟨chats, batches.map (receiver peerAddress) ++ [markRead peerAddress]⟩

/-- The process is about to read the conversation. -/
def Reads (address : String) : Operation Unit → Prop
  | .wait (.getConversation other) _ => other = address
  | _ => False

/-- The process is about to write the conversation. -/
def Writes (address : String) : Operation Unit → Prop
  | .wait (.putConversation other _ _) _ => other = address
  | _ => False

/-- A process does not read the conversation between another's read and write. -/
def Apart (address : String) (pool : Pool Call Answer Chats) (place : Nat) : Prop :=
  ∀ process, pool.processes[place]? = some process → Reads address process →
    ∀ (other : Nat) (process' : Operation Unit), other ≠ place → pool.processes[other]? = some process' → ¬Writes address process'

/-- How far a receiver has come, with the texts it has still to handle. -/
inductive Stage
  | remembering (text : Text) (rest : List Text)
  | storing (text : Text) (rest : List Text)
  | reading (text : Text) (rest : List Text)
  | writing (text : Text) (conversation : Messenger.Conversation) (rest : List Text)
  | receipting (rest : List Text)
  | finished

namespace Stage

def begin : List Text → Stage
  | [] => finished
  | text :: rest => remembering text rest

def process (peerAddress : String) : Stage → Operation Unit
  | remembering text rest => receiver peerAddress (text :: rest)
  | storing text rest => do
    onText text.now (text.incoming peerAddress)
    receiver peerAddress rest
  | reading text rest => do
    touchConversation text.now peerAddress (text.incoming peerAddress) 1
    elsewhere
    receiver peerAddress rest
  | writing text conversation rest => do
    putConversation peerAddress conversation (some (text.incoming peerAddress))
    elsewhere
    receiver peerAddress rest
  | receipting rest => do
    elsewhere
    receiver peerAddress rest
  | finished => return ()

def next (peerAddress : String) (chats : Chats) : Stage → Chats × Stage
  | remembering text rest => (chats, storing text rest)
  | storing text rest =>
    ({ chats with messages := chats.messages.set text.messageId (text.incoming peerAddress) }, reading text rest)
  | reading text rest =>
    (chats, writing text (touched text.now peerAddress text.body 1 (chats.conversations.get? peerAddress)) rest)
  | writing _ conversation rest =>
    ({ chats with conversations := chats.conversations.set peerAddress conversation }, receipting rest)
  | receipting rest => (chats, begin rest)
  | finished => (chats, finished)

/-- What is still to be stored. -/
def todo : Stage → List Text
  | remembering text rest | storing text rest => text :: rest
  | reading _ rest | writing _ _ rest | receipting rest => rest
  | finished => []

/-- How many times the conversation is still to be written. -/
def left : Stage → Nat
  | remembering _ rest | storing _ rest | reading _ rest | writing _ _ rest => rest.length + 1
  | receipting rest => rest.length
  | finished => 0

/-- The count that is about to be written. -/
def holds : Stage → Option Int
  | writing _ conversation _ => some conversation.unreadCount
  | _ => none

end Stage

section

variable {peerAddress : String} {chats : Chats} {stages : List Stage} {place : Nat}

theorem process_begin (texts : List Text) : (Stage.begin texts).process peerAddress = receiver peerAddress texts := by
  cases texts with
  | nil => rfl
  | cons text rest => rfl

/-- Receivers at their stages. -/
def staged (peerAddress : String) (chats : Chats) (stages : List Stage) : Pool Call Answer Chats :=
  ⟨chats, stages.map (Stage.process peerAddress)⟩

theorem staged_process {stage : Stage} (hstage : stages[place]? = some stage) :
    (staged peerAddress chats stages).processes[place]? = some (stage.process peerAddress) := by
  show (stages.map (Stage.process peerAddress))[place]? = _
  rw [List.getElem?_map, hstage]
  rfl

theorem staged_resume {stage : Stage} (hstage : stages[place]? = some stage) :
    (staged peerAddress chats stages).resume serve place =
      staged peerAddress (stage.next peerAddress chats).1 (stages.set place (stage.next peerAddress chats).2) := by
  have hprocess := @staged_process peerAddress chats _ _ _ hstage
  unfold staged
  rw [List.map_set]
  cases stage with
  | finished =>
    have hset : stages.set place .finished = stages := by
      obtain ⟨hplace, hsame⟩ := List.getElem?_eq_some_iff.mp hstage
      rw [← hsame, List.set_getElem_self]
    rw [← List.map_set]
    show _ = (⟨chats, (stages.set place .finished).map _⟩ : Pool Call Answer Chats)
    rw [hset]
    refine Pool.resume_done serve fun call next h => ?_
    cases hprocess.symm.trans h
  | receipting rest =>
    rw [Stage.next, process_begin]
    exact Pool.resume_wait serve hprocess
  | remembering | storing | reading | writing => exact Pool.resume_wait serve hprocess

theorem staged_outside (hstage : stages[place]? = none) :
    (staged peerAddress chats stages).resume serve place = staged peerAddress chats stages := by
  refine Pool.resume_done serve fun call next h => ?_
  have hnone : (staged peerAddress chats stages).processes[place]? = none := by
    show (stages.map (Stage.process peerAddress))[place]? = _
    rw [List.getElem?_map, hstage]
    rfl
  cases hnone.symm.trans h

theorem sum_set {counts : List Nat} {old : Nat} (h : counts[place]? = some old) (new : Nat) :
    (counts.set place new).sum + old = counts.sum + new := by
  induction counts generalizing place with
  | nil => cases h
  | cons count counts ih =>
    cases place with
    | zero =>
      obtain rfl : count = old := Option.some.inj h
      simp only [List.set_cons_zero, List.sum_cons]
      omega
    | succ place =>
      have hrest := ih (by simpa using h)
      simp only [List.set_cons_succ, List.sum_cons]
      omega

/-- The counter the receivers work on. -/
def tally (peerAddress : String) (chats : Chats) (stages : List Stage) : Counter where
  value := chats.unread peerAddress
  holds := stages.map Stage.holds
  left := (stages.map Stage.left).sum

theorem tally_holds {sum : Int} : (tally peerAddress chats stages).Holds place sum ↔
    ∃ text conversation rest, stages[place]? = some (.writing text conversation rest) ∧ conversation.unreadCount = sum := by
  show (stages.map Stage.holds)[place]? = some (some sum) ↔ _
  rw [List.getElem?_map]
  cases stages[place]? with
  | none => simp
  | some stage => cases stage <;> simp [Stage.holds]

theorem tally_left {stage stage' : Stage} (hstage : stages[place]? = some stage) :
    ((stages.set place stage').map Stage.left).sum + stage.left = (stages.map Stage.left).sum + stage'.left := by
  rw [List.map_set]
  exact sum_set (by rw [List.getElem?_map, hstage]; rfl) _

/-- A stage that neither reads nor writes the conversation does nothing to the counter. -/
theorem tally_other {stage : Stage} (hstage : stages[place]? = some stage)
    (same : (stage.next peerAddress chats).1.unread peerAddress = chats.unread peerAddress)
    (left : (stage.next peerAddress chats).2.left = stage.left)
    (holds : (stage.next peerAddress chats).2.holds = stage.holds) :
    tally peerAddress (stage.next peerAddress chats).1 (stages.set place (stage.next peerAddress chats).2) =
      tally peerAddress chats stages := by
  have hleft := @tally_left _ _ _ (stage.next peerAddress chats).2 hstage
  have hsum : ((stages.set place (stage.next peerAddress chats).2).map Stage.left).sum = (stages.map Stage.left).sum := by
    omega
  have hholds : (stages.set place (stage.next peerAddress chats).2).map Stage.holds = stages.map Stage.holds := by
    have hplace : (stages.map Stage.holds)[place]? = some stage.holds := by rw [List.getElem?_map, hstage]; rfl
    obtain ⟨hinside, hheld⟩ := List.getElem?_eq_some_iff.mp hplace
    rw [List.map_set, holds, ← hheld, List.set_getElem_self]
  unfold tally
  rw [same, hsum, hholds]

theorem touched_unread (counted : 0 ≤ chats.unread peerAddress) (now : Int) (body : String) :
    (touched now peerAddress body 1 (chats.conversations.get? peerAddress)).unreadCount = chats.unread peerAddress + 1 := by
  unfold Chats.unread at counted ⊢
  unfold touched
  cases hfound : chats.conversations.get? peerAddress with
  | none => rfl
  | some conversation =>
    rw [hfound] at counted
    have hcount : 0 ≤ conversation.unreadCount := counted
    simp only [Option.getD_some, Option.map_some]
    omega

theorem unread_set (conversation : Messenger.Conversation) :
    ({ chats with conversations := chats.conversations.set peerAddress conversation } : Chats).unread peerAddress =
      conversation.unreadCount := by
  unfold Chats.unread
  rw [OrderedMap.get?_set_self]
  rfl

theorem tally_read {text : Text} {rest : List Text} (hstage : stages[place]? = some (.reading text rest))
    (counted : 0 ≤ chats.unread peerAddress) :
    tally peerAddress chats (stages.set place ((Stage.reading text rest).next peerAddress chats).2) =
      (tally peerAddress chats stages).read place := by
  have hleft := @tally_left _ _ _ ((Stage.reading text rest).next peerAddress chats).2 hstage
  have hsum : ((stages.set place ((Stage.reading text rest).next peerAddress chats).2).map Stage.left).sum =
      (stages.map Stage.left).sum := by
    simp only [Stage.next, Stage.left] at hleft
    simp only [Stage.next]
    omega
  have hholds : (stages.set place ((Stage.reading text rest).next peerAddress chats).2).map Stage.holds =
      (stages.map Stage.holds).set place (some (chats.unread peerAddress + 1)) := by
    rw [List.map_set]
    simp only [Stage.next, Stage.holds, touched_unread counted]
  unfold tally Counter.read
  rw [hsum, hholds]

theorem tally_write {text : Text} {conversation : Messenger.Conversation} {rest : List Text}
    (hstage : stages[place]? = some (.writing text conversation rest)) :
    tally peerAddress { chats with conversations := chats.conversations.set peerAddress conversation }
        (stages.set place (.receipting rest)) =
      (tally peerAddress chats stages).write place conversation.unreadCount := by
  have hleft := @tally_left _ _ _ (.receipting rest) hstage
  have hsum : ((stages.set place (.receipting rest)).map Stage.left).sum = (stages.map Stage.left).sum - 1 := by
    simp only [Stage.left] at hleft
    omega
  have hholds : (stages.set place (.receipting rest)).map Stage.holds = (stages.map Stage.holds).set place none := by
    rw [List.map_set]
    rfl
  unfold tally Counter.write
  rw [hsum, hholds, unread_set]

/-- No count is negative. -/
structure Counted (peerAddress : String) (chats : Chats) (stages : List Stage) : Prop where
  stored : 0 ≤ chats.unread peerAddress
  held : ∀ text conversation rest, .writing text conversation rest ∈ stages → 0 ≤ conversation.unreadCount

theorem Counted.next {stage : Stage} (h : Counted peerAddress chats stages) (hstage : stages[place]? = some stage) :
    Counted peerAddress (stage.next peerAddress chats).1 (stages.set place (stage.next peerAddress chats).2) := by
  have hmem := List.mem_of_getElem? hstage
  refine ⟨?_, fun text conversation rest hwriting => ?_⟩
  · cases stage with
    | writing text conversation rest =>
      rw [Stage.next, unread_set]
      exact h.held _ _ _ hmem
    | remembering | storing | reading | receipting | finished => exact h.stored
  · rcases List.mem_or_eq_of_mem_set hwriting with hold | hnew
    · exact h.held _ _ _ hold
    · cases stage with
      | reading text' rest' =>
        simp only [Stage.next, Stage.writing.injEq] at hnew
        rw [hnew.2.1, touched_unread h.stored]
        have hstored := h.stored
        omega
      | receipting rest => cases rest <;> cases hnew
      | remembering | storing | writing | finished => cases hnew

theorem reads_iff {stage : Stage} : Reads peerAddress (stage.process peerAddress) ↔ ∃ text rest, stage = .reading text rest := by
  cases stage with
  | reading text rest => exact ⟨fun _ => ⟨text, rest, rfl⟩, fun _ => rfl⟩
  | remembering | storing | writing | receipting | finished =>
    exact ⟨fun h => h.elim, fun ⟨_, _, h⟩ => (by cases h)⟩

theorem writes_iff {stage : Stage} : Writes peerAddress (stage.process peerAddress) ↔
    ∃ text conversation rest, stage = .writing text conversation rest := by
  cases stage with
  | writing text conversation rest => exact ⟨fun _ => ⟨text, conversation, rest, rfl⟩, fun _ => rfl⟩
  | remembering | storing | reading | receipting | finished =>
    exact ⟨fun h => h.elim, fun ⟨_, _, _, h⟩ => (by cases h)⟩

theorem apart_iff : Apart peerAddress (staged peerAddress chats stages) place ↔
    ∀ text rest, stages[place]? = some (.reading text rest) →
      ∀ other sum, other ≠ place → ¬(tally peerAddress chats stages).Holds other sum := by
  have found {other : Nat} {process : Operation Unit}
      (h : (staged peerAddress chats stages).processes[other]? = some process) :
      ∃ stage, stages[other]? = some stage ∧ stage.process peerAddress = process := by
    have hmap : (stages[other]?).map (Stage.process peerAddress) = some process := by
      rw [← List.getElem?_map]
      exact h
    exact Option.map_eq_some_iff.mp hmap
  constructor
  · intro apart text rest hstage other sum hne hold
    obtain ⟨_, conversation, _, hother, _⟩ := tally_holds.mp hold
    exact apart _ (staged_process hstage) (reads_iff.mpr ⟨text, rest, rfl⟩) other _ hne (staged_process hother)
      (writes_iff.mpr ⟨_, _, _, rfl⟩)
  · intro h process hprocess hreads other process' hne hprocess' hwrites
    obtain ⟨stage, hstage, rfl⟩ := found hprocess
    obtain ⟨stage', hstage', rfl⟩ := found hprocess'
    obtain ⟨text, rest, rfl⟩ := reads_iff.mp hreads
    obtain ⟨_, conversation, _, rfl⟩ := writes_iff.mp hwrites
    exact h text rest hstage other conversation.unreadCount hne (tally_holds.mpr ⟨_, _, _, hstage', rfl⟩)

/-- One move of a receiver, seen on the counter. -/
theorem tally_resume {total : Int} (counted : Counted peerAddress chats stages) :
    ∃ chats' stages', (staged peerAddress chats stages).resume serve place = staged peerAddress chats' stages' ∧
      Counted peerAddress chats' stages' ∧
      ((tally peerAddress chats stages).Lost total → (tally peerAddress chats' stages').Lost total) ∧
      ((tally peerAddress chats stages).Sole total →
        Apart peerAddress (staged peerAddress chats stages) place ∧ (tally peerAddress chats' stages').Sole total ∨
          ¬Apart peerAddress (staged peerAddress chats stages) place ∧ (tally peerAddress chats' stages').Lost total) := by
  cases hstage : stages[place]? with
  | none =>
    refine ⟨chats, stages, staged_outside hstage, counted, id, fun sole => Or.inl ⟨apart_iff.mpr fun _ _ h => ?_, sole⟩⟩
    cases hstage.symm.trans h
  | some stage =>
    refine ⟨_, _, staged_resume hstage, counted.next hstage, ?_⟩
    have other (hreading : ∀ text rest, stage ≠ .reading text rest)
        (same : tally peerAddress (stage.next peerAddress chats).1 (stages.set place (stage.next peerAddress chats).2) =
          tally peerAddress chats stages) :
        ((tally peerAddress chats stages).Lost total → (tally peerAddress (stage.next peerAddress chats).1
          (stages.set place (stage.next peerAddress chats).2)).Lost total) ∧
        ((tally peerAddress chats stages).Sole total →
          Apart peerAddress (staged peerAddress chats stages) place ∧ (tally peerAddress (stage.next peerAddress chats).1
            (stages.set place (stage.next peerAddress chats).2)).Sole total ∨
          ¬Apart peerAddress (staged peerAddress chats stages) place ∧ (tally peerAddress (stage.next peerAddress chats).1
            (stages.set place (stage.next peerAddress chats).2)).Lost total) := by
      rw [same]
      refine ⟨id, fun sole => Or.inl ⟨apart_iff.mpr fun text rest h => ?_, sole⟩⟩
      exact absurd (Option.some.inj (hstage.symm.trans h)) (hreading text rest)
    have inside : place < (tally peerAddress chats stages).holds.length := by
      show place < (stages.map Stage.holds).length
      rw [List.length_map]
      exact (List.getElem?_eq_some_iff.mp hstage).1
    cases stage with
    | reading text rest =>
      have idle : ∀ sum, ¬(tally peerAddress chats stages).Holds place sum := by
        intro sum hold
        obtain ⟨_, _, _, hwriting, _⟩ := tally_holds.mp hold
        cases hstage.symm.trans hwriting
      have hread : tally peerAddress ((Stage.reading text rest).next peerAddress chats).1
          (stages.set place ((Stage.reading text rest).next peerAddress chats).2) =
            (tally peerAddress chats stages).read place := tally_read hstage counted.stored
      rw [hread]
      refine ⟨fun lost => lost.read inside idle, fun sole => ?_⟩
      by_cases hfree : ∃ other sum, (tally peerAddress chats stages).Holds other sum
      · obtain ⟨other, sum, hold⟩ := hfree
        have hne : other ≠ place := fun heq => idle sum (heq ▸ hold)
        exact Or.inr ⟨fun apart => apart_iff.mp apart text rest hstage other sum hne hold, sole.overlap inside hne hold⟩
      · have free : ∀ other sum, ¬(tally peerAddress chats stages).Holds other sum :=
          fun other sum hold => hfree ⟨other, sum, hold⟩
        exact Or.inl ⟨apart_iff.mpr fun _ _ _ other sum _ => free other sum, sole.read inside free⟩
    | writing text conversation rest =>
      have held : (tally peerAddress chats stages).Holds place conversation.unreadCount :=
        tally_holds.mpr ⟨text, conversation, rest, hstage, rfl⟩
      have more : 0 < (tally peerAddress chats stages).left := by
        have hleft := @tally_left _ _ _ (.receipting rest) hstage
        simp only [Stage.left] at hleft
        show 0 < (stages.map Stage.left).sum
        omega
      have hwrite : tally peerAddress ((Stage.writing text conversation rest).next peerAddress chats).1
          (stages.set place ((Stage.writing text conversation rest).next peerAddress chats).2) =
            (tally peerAddress chats stages).write place conversation.unreadCount := tally_write hstage
      rw [hwrite]
      refine ⟨fun lost => lost.write held more, fun sole => Or.inl ⟨apart_iff.mpr fun text' rest' h => ?_,
        sole.write held more⟩⟩
      cases hstage.symm.trans h
    | remembering text rest =>
      exact other (fun _ _ h => by cases h) (tally_other hstage rfl rfl rfl)
    | storing text rest => exact other (fun _ _ h => by cases h) (tally_other hstage rfl rfl rfl)
    | receipting rest =>
      refine other (fun _ _ h => by cases h) (tally_other hstage rfl ?_ ?_)
      · cases rest <;> rfl
      · cases rest <;> rfl
    | finished => exact other (fun _ _ h => by cases h) (tally_other hstage rfl rfl rfl)

theorem tally_lost {total : Int} (schedule : List Nat) (counted : Counted peerAddress chats stages)
    (lost : (tally peerAddress chats stages).Lost total) :
    ∃ chats' stages', (staged peerAddress chats stages).follow serve schedule = staged peerAddress chats' stages' ∧
      (tally peerAddress chats' stages').Lost total := by
  induction schedule generalizing chats stages with
  | nil => exact ⟨chats, stages, rfl, lost⟩
  | cons place schedule ih =>
    obtain ⟨chats', stages', hresume, hcounted, hlost, _⟩ := tally_resume counted
    rw [Pool.follow_cons, hresume]
    exact ih hcounted (hlost lost)

/-- A schedule keeps the count right or loses an increase for good, as its reads are apart from the others' writes or
not. -/
theorem tally_follow {total : Int} (schedule : List Nat) (counted : Counted peerAddress chats stages)
    (sole : (tally peerAddress chats stages).Sole total) :
    ∃ chats' stages', (staged peerAddress chats stages).follow serve schedule = staged peerAddress chats' stages' ∧
      ((staged peerAddress chats stages).Throughout serve (Apart peerAddress) schedule ∧
          (tally peerAddress chats' stages').Sole total ∨
        ¬(staged peerAddress chats stages).Throughout serve (Apart peerAddress) schedule ∧
          (tally peerAddress chats' stages').Lost total) := by
  induction schedule generalizing chats stages with
  | nil => exact ⟨chats, stages, rfl, Or.inl ⟨trivial, sole⟩⟩
  | cons place schedule ih =>
    obtain ⟨chats', stages', hresume, hcounted, _, hsole⟩ := @tally_resume peerAddress chats stages place total counted
    rw [Pool.follow_cons, hresume]
    rcases hsole sole with ⟨apart, sole'⟩ | ⟨overlap, lost⟩
    · obtain ⟨chats'', stages'', hfollow, hrest⟩ := ih hcounted sole'
      refine ⟨chats'', stages'', hfollow, ?_⟩
      rw [Pool.Throughout, hresume]
      rcases hrest with ⟨throughout, hsole'⟩ | ⟨broken, hlost⟩
      · exact Or.inl ⟨⟨apart, throughout⟩, hsole'⟩
      · exact Or.inr ⟨fun h => broken h.2, hlost⟩
    · obtain ⟨chats'', stages'', hfollow, hlost⟩ := tally_lost schedule hcounted lost
      exact ⟨chats'', stages'', hfollow, Or.inr ⟨fun h => overlap h.1, hlost⟩⟩

theorem mem_set_of_ne {stage other new : Stage} (hstage : stages[place]? = some stage) (hmem : other ∈ stages)
    (hne : other ≠ stage) : other ∈ stages.set place new := by
  obtain ⟨index, hindex⟩ := List.getElem?_of_mem hmem
  have hplace : place ≠ index := fun heq => hne (Option.some.inj (hindex.symm.trans (heq ▸ hstage)))
  exact List.mem_of_getElem? ((List.getElem?_set_ne hplace).trans hindex)

/-- Of some texts, each is stored or still to be stored by a receiver. -/
structure Storing (peerAddress : String) (texts : List Text) (chats : Chats) (stages : List Stage) : Prop where
  stored : ∀ text ∈ texts, chats.messages.get? text.messageId = some (text.incoming peerAddress) ∨
    ∃ stage ∈ stages, text ∈ stage.todo
  among : ∀ stage ∈ stages, ∀ text ∈ stage.todo, text ∈ texts

theorem Storing.next {texts : List Text} (h : Storing peerAddress texts chats stages)
    (distinct : (texts.map Text.messageId).Nodup) {stage : Stage} (hstage : stages[place]? = some stage) :
    Storing peerAddress texts (stage.next peerAddress chats).1 (stages.set place (stage.next peerAddress chats).2) := by
  have hmem := List.mem_of_getElem? hstage
  have hnew : (stage.next peerAddress chats).2 ∈ stages.set place (stage.next peerAddress chats).2 :=
    List.mem_set (List.getElem?_eq_some_iff.mp hstage).1 _
  -- what the stage has still to store is stored by this move or left to the next stage
  have moved : ∀ text ∈ stage.todo, (stage.next peerAddress chats).1.messages.get? text.messageId =
      some (text.incoming peerAddress) ∨ text ∈ (stage.next peerAddress chats).2.todo := by
    intro text htext
    cases stage with
    | storing text' rest =>
      rcases List.mem_cons.mp htext with rfl | htext
      · exact Or.inl (OrderedMap.get?_set_self _ _ _)
      · exact Or.inr htext
    | receipting rest =>
      refine Or.inr ?_
      cases rest with
      | nil => exact htext
      | cons => exact htext
    | remembering | reading | writing | finished => exact Or.inr htext
  have fewer : ∀ text ∈ (stage.next peerAddress chats).2.todo, text ∈ stage.todo := by
    intro text htext
    cases stage with
    | storing text' rest => exact List.mem_cons_of_mem _ htext
    | receipting rest =>
      cases rest with
      | nil => exact htext
      | cons => exact htext
    | remembering | reading | writing | finished => exact htext
  refine ⟨fun text htext => ?_, fun other hother text htext => ?_⟩
  · rcases h.stored text htext with hstored | ⟨other, hother, htodo⟩
    · refine Or.inl ?_
      cases stage with
      | storing text' rest =>
        have hamong := h.among _ hmem text' (List.mem_cons_self ..)
        show (chats.messages.set text'.messageId (text'.incoming peerAddress)).get? text.messageId = _
        rw [OrderedMap.get?_set]
        split
        next hid =>
          have hsame := List.inj_on_of_nodup_map distinct htext hamong hid
          rw [hsame]
        next => exact hstored
      | remembering | reading | writing | receipting | finished => exact hstored
    · by_cases heq : other = stage
      · rw [heq] at htodo
        exact (moved text htodo).imp_right fun hleft => ⟨_, hnew, hleft⟩
      · exact Or.inr ⟨other, mem_set_of_ne hstage hother heq, htodo⟩
  · rcases List.mem_or_eq_of_mem_set hother with hold | hold
    · exact h.among other hold text htext
    · rw [hold] at htext
      exact h.among stage hmem text (fewer text htext)

theorem storing_follow {texts : List Text} (schedule : List Nat) (distinct : (texts.map Text.messageId).Nodup)
    (h : Storing peerAddress texts chats stages) :
    ∃ chats' stages', (staged peerAddress chats stages).follow serve schedule = staged peerAddress chats' stages' ∧
      Storing peerAddress texts chats' stages' := by
  induction schedule generalizing chats stages with
  | nil => exact ⟨chats, stages, rfl, h⟩
  | cons place schedule ih =>
    rw [Pool.follow_cons]
    cases hstage : stages[place]? with
    | none =>
      rw [staged_outside hstage]
      exact ih h
    | some stage =>
      rw [staged_resume hstage]
      exact ih (h.next distinct hstage)

/-- `markRead` at one of its awaits, or after them. -/
def Marking (address : String) (process : Operation Unit) : Prop :=
  process = markRead address ∨ (∃ conversation : Messenger.Conversation, conversation.unreadCount = 0 ∧
    process = putConversation address conversation none) ∨ process = .done ()

theorem markRead_eq (address : String) :
    markRead address = .wait (.getConversation address) (fun (found : Option Messenger.Conversation) =>
      found.elim (.done ()) (fun conversation => putConversation address { conversation with unreadCount := 0 } none)) := by
  refine congrArg (Process.wait (Call.getConversation address)) (funext fun (found : Option Messenger.Conversation) => ?_)
  cases found with
  | none => rfl
  | some conversation => rfl

theorem marking_move {pool : Pool Call Answer Chats} {marker : Nat} {process : Operation Unit}
    (h : pool.processes[marker]? = some process) (marking : Marking peerAddress process) :
    ∃ process', Marking peerAddress process' ∧
      (pool.resume serve marker).processes = pool.processes.set marker process' ∧
      (process' = .done () → process = .done () ∧ pool.resume serve marker = pool ∨
        (pool.resume serve marker).state.unread peerAddress = 0) := by
  rcases marking with rfl | ⟨conversation, hzero, rfl⟩ | rfl
  · rw [markRead_eq] at h
    rw [Pool.resume_wait serve h]
    refine ⟨(pool.state.conversations.get? peerAddress).elim (.done ()) (fun conversation =>
      putConversation peerAddress { conversation with unreadCount := 0 } none), ?_, rfl, ?_⟩
    · cases pool.state.conversations.get? peerAddress with
      | none => exact Or.inr (Or.inr rfl)
      | some conversation => exact Or.inr (Or.inl ⟨_, rfl, rfl⟩)
    · cases hread : pool.state.conversations.get? peerAddress with
      | none =>
        intro _
        refine Or.inr ?_
        show pool.state.unread peerAddress = 0
        rw [Chats.unread, hread]
        rfl
      | some conversation => intro hdone; cases hdone
  · rw [Pool.resume_wait serve h]
    exact ⟨.done (), Or.inr (Or.inr rfl), rfl, fun _ => Or.inr ((unread_set conversation).trans hzero)⟩
  · have hstay : pool.resume serve marker = pool :=
      Pool.resume_done serve fun call next hwait => by cases h.symm.trans hwait
    obtain ⟨hinside, hsame⟩ := List.getElem?_eq_some_iff.mp h
    refine ⟨.done (), Or.inr (Or.inr rfl), ?_, fun _ => Or.inl ⟨rfl, hstay⟩⟩
    rw [hstay, ← hsame, List.set_getElem_self]

theorem marking_follow {pool : Pool Call Answer Chats} {marker : Nat} {process : Operation Unit} (schedule : List Nat)
    (h : pool.processes[marker]? = some process) (marking : Marking peerAddress process) :
    ∃ process', (pool.follow serve schedule).processes[marker]? = some process' ∧ Marking peerAddress process' := by
  induction schedule generalizing pool process with
  | nil => exact ⟨process, h, marking⟩
  | cons place schedule ih =>
    rw [Pool.follow_cons]
    by_cases hplace : place = marker
    · subst hplace
      obtain ⟨process', hmarking', hset, _⟩ := marking_move h marking
      refine ih ?_ hmarking'
      rw [hset]
      exact List.getElem?_set_self (List.getElem?_eq_some_iff.mp h).1
    · refine ih ?_ marking
      unfold Pool.resume
      split
      next => exact (List.getElem?_set_ne hplace).trans h
      next => exact h

/-- Once every other process is done, a `markRead` under way leaves nothing unread. -/
theorem markRead_last {pool : Pool Call Answer Chats} {marker : Nat} {process : Operation Unit} (schedule : List Nat)
    (h : pool.processes[marker]? = some process) (marking : Marking peerAddress process)
    (zero : process = .done () → pool.state.unread peerAddress = 0)
    (others : ∀ place process', place ≠ marker → pool.processes[place]? = some process' → process' = .done ())
    (finished : (pool.follow serve schedule).processes[marker]? = some (.done ())) :
    (pool.follow serve schedule).state.unread peerAddress = 0 := by
  induction schedule generalizing pool process with
  | nil => exact zero (Option.some.inj (h.symm.trans finished))
  | cons place schedule ih =>
    rw [Pool.follow_cons] at finished ⊢
    by_cases hplace : place = marker
    · subst hplace
      obtain ⟨process', hmarking', hset, hdone⟩ := marking_move h marking
      have hnext : (pool.resume serve place).processes[place]? = some process' := by
        rw [hset]
        exact List.getElem?_set_self (List.getElem?_eq_some_iff.mp h).1
      refine ih hnext hmarking' (fun heq => ?_) (fun other process'' hne hother => ?_) finished
      · rcases hdone heq with ⟨hwas, hstay⟩ | hunread
        · rw [hstay]
          exact zero hwas
        · exact hunread
      · rw [hset, List.getElem?_set_ne hne.symm] at hother
        exact others other process'' hne hother
    · have hstay : pool.resume serve place = pool := by
        refine Pool.resume_done serve fun call next hwait => ?_
        cases others place _ hplace hwait
      rw [hstay] at finished ⊢
      exact ih h marking zero others finished

theorem receiving_staged (batches : List (List Text)) :
    receiving peerAddress batches chats = staged peerAddress chats (batches.map Stage.begin) := by
  unfold receiving staged
  rw [List.map_map]
  refine congrArg (Pool.mk chats) (List.map_congr_left fun texts _ => ?_)
  exact (process_begin texts).symm

theorem begin_tally (batches : List (List Text)) :
    (tally peerAddress chats (batches.map Stage.begin)).Sole (chats.unread peerAddress + batches.flatten.length) := by
  have hleft : ((batches.map Stage.begin).map Stage.left).sum = batches.flatten.length := by
    induction batches with
    | nil => rfl
    | cons texts batches ih =>
      have hbegin : (Stage.begin texts).left = texts.length := by cases texts <;> rfl
      rw [List.map_cons, List.map_cons, List.sum_cons, ih, hbegin, List.flatten_cons, List.length_append]
  have idle : ∀ worker sum, ¬(tally peerAddress chats (batches.map Stage.begin)).Holds worker sum := by
    intro worker sum hold
    obtain ⟨text, conversation, rest, hstage, _⟩ := tally_holds.mp hold
    rw [List.getElem?_map] at hstage
    obtain ⟨texts, _, hbegin⟩ := Option.map_eq_some_iff.mp hstage
    cases texts <;> cases hbegin
  refine ⟨?_, fun worker sum hold => absurd hold (idle worker sum), fun worker sum _ _ hold _ => absurd hold (idle worker sum)⟩
  show chats.unread peerAddress + (((batches.map Stage.begin).map Stage.left).sum : Int) = _
  rw [hleft]

theorem begin_storing (batches : List (List Text)) :
    Storing peerAddress batches.flatten chats (batches.map Stage.begin) := by
  have htodo (texts : List Text) : (Stage.begin texts).todo = texts := by cases texts <;> rfl
  refine ⟨fun text htext => Or.inr ?_, fun stage hstage text htext => ?_⟩
  · obtain ⟨texts, htexts, hmem⟩ := List.mem_flatten.mp htext
    exact ⟨_, List.mem_map_of_mem htexts, by rwa [htodo]⟩
  · obtain ⟨texts, htexts, rfl⟩ := List.mem_map.mp hstage
    rw [htodo] at htext
    exact List.mem_flatten.mpr ⟨texts, htexts, htext⟩

/-- When all receivers have finished, nothing is left of their stages. -/
theorem staged_finished (h : (staged peerAddress chats stages).Finished) : ∀ stage ∈ stages, stage = .finished := by
  intro stage hstage
  have hdone := h (stage.process peerAddress) (List.mem_map_of_mem hstage)
  cases stage with
  | finished => rfl
  | remembering | storing | reading | writing | receipting => cases hdone

theorem finished_left (h : ∀ stage ∈ stages, stage = .finished) : (stages.map Stage.left).sum = 0 := by
  induction stages with
  | nil => rfl
  | cons stage stages ih =>
    have hfirst : stage.left = 0 := by rw [h stage (List.mem_cons_self ..)]; rfl
    rw [List.map_cons, List.sum_cons, ih fun other hother => h other (List.mem_cons_of_mem _ hother), hfirst]

/-- The count after texts of one peer that are handled in any interleaving, those of a batch one after the other. -/
theorem receiving_counted (batches : List (List Text)) (distinct : (batches.flatten.map Text.messageId).Nodup)
    (counted : 0 ≤ chats.unread peerAddress) (schedule : List Nat)
    (finished : ((receiving peerAddress batches chats).follow serve schedule).Finished) :
    (∀ text ∈ batches.flatten, ((receiving peerAddress batches chats).follow serve schedule).state.messages.get?
        text.messageId = some (text.incoming peerAddress)) ∧
      (((receiving peerAddress batches chats).follow serve schedule).state.unread peerAddress =
          chats.unread peerAddress + batches.flatten.length ↔
        (receiving peerAddress batches chats).Throughout serve (Apart peerAddress) schedule) ∧
      ∀ first last, (∀ place, place < batches.length →
          ((receivingMarked peerAddress batches chats).follow serve first).processes[place]? = some (.done ())) →
        ((receivingMarked peerAddress batches chats).follow serve first).processes[batches.length]? ≠ some (.done ()) →
        ((receivingMarked peerAddress batches chats).follow serve (first ++ last)).Finished →
          ((receivingMarked peerAddress batches chats).follow serve (first ++ last)).state.unread peerAddress = 0 := by
  rw [receiving_staged] at finished ⊢
  have begun : Counted peerAddress chats (batches.map Stage.begin) := by
    refine ⟨counted, fun text conversation rest hmem => ?_⟩
    obtain ⟨texts, _, hbegin⟩ := List.mem_map.mp hmem
    cases texts <;> cases hbegin
  refine ⟨fun text htext => ?_, ?_, fun first last done under ended => ?_⟩
  · obtain ⟨chats', stages', hfollow, hstoring⟩ := storing_follow schedule distinct (begin_storing batches)
    rw [hfollow] at finished ⊢
    rcases hstoring.stored text htext with hstored | ⟨stage, hstage, htodo⟩
    · exact hstored
    · rw [staged_finished finished stage hstage] at htodo
      cases htodo
  · obtain ⟨chats', stages', hfollow, hcases⟩ := tally_follow schedule begun (begin_tally batches)
    rw [hfollow] at finished ⊢
    have hall := staged_finished finished
    have idle : ∀ worker sum, ¬(tally peerAddress chats' stages').Holds worker sum := by
      intro worker sum hold
      obtain ⟨_, _, _, hstage, _⟩ := tally_holds.mp hold
      cases hall _ (List.mem_of_getElem? hstage)
    have hleft := finished_left hall
    rcases hcases with ⟨throughout, sole⟩ | ⟨overlap, lost⟩
    · have hcount : chats'.unread peerAddress + ((stages'.map Stage.left).sum : Int) = _ := sole.count
      rw [hleft] at hcount
      exact ⟨fun _ => throughout, fun _ => (Int.add_zero _).symm.trans hcount⟩
    · have hmissing : chats'.unread peerAddress + ((stages'.map Stage.left).sum : Int) < _ := lost.missing idle
      rw [hleft] at hmissing
      refine ⟨fun hequal => ?_, fun throughout => absurd throughout overlap⟩
      change chats'.unread peerAddress = _ at hequal
      omega
  · let pool := receivingMarked peerAddress batches chats
    have hmarker : pool.processes[batches.length]? = some (markRead peerAddress) := by
      show (batches.map (receiver peerAddress) ++ [markRead peerAddress])[batches.length]? = _
      rw [List.getElem?_append_right (by simp), List.length_map, Nat.sub_self]
      rfl
    obtain ⟨process, hprocess, hmarking⟩ := marking_follow first hmarker (Or.inl rfl)
    have hlength (schedule : List Nat) : (pool.follow serve schedule).processes.length = batches.length + 1 := by
      rw [Pool.length_follow]
      show (batches.map (receiver peerAddress) ++ [markRead peerAddress]).length = _
      simp
    have hinside : batches.length < (pool.follow serve (first ++ last)).processes.length := by rw [hlength]; omega
    have hlast : (pool.follow serve (first ++ last)).processes[batches.length]? = some (.done ()) := by
      rw [List.getElem?_eq_getElem hinside, ended _ (List.getElem_mem hinside)]
    rw [Pool.follow_append] at hlast ⊢
    refine markRead_last last hprocess hmarking (fun heq => absurd (heq ▸ hprocess) under)
      (fun place process' hne hplace => ?_) hlast
    have hplace' := (List.getElem?_eq_some_iff.mp hplace).1
    rw [hlength] at hplace'
    exact (Option.some.inj ((done place (by omega)).symm.trans hplace)).symm

/-- The call stores no negative count. -/
def Counts : Call → Prop
  | .putConversation _ conversation _ => 0 ≤ conversation.unreadCount
  | _ => True

theorem touchConversation_counts (now : Int) (address : String) (message : Message) (unreadDelta : Int) :
    (touchConversation now address message unreadDelta).Abides Counts (fun _ _ => True) :=
  ⟨trivial, fun _ _ => ⟨Int.le_max_left _ _, fun _ _ => trivial⟩⟩

theorem markRead_counts (address : String) : (markRead address).Abides Counts (fun _ _ => True) := by
  rw [markRead_eq]
  refine ⟨trivial, fun (found : Option Messenger.Conversation) => ?_⟩
  intro _
  cases found with
  | none => trivial
  | some conversation => exact ⟨Int.le_refl 0, fun _ _ => trivial⟩

theorem handleDelivered_counts (now : Int) (message : Message) :
    (handleDelivered now message).Abides Counts (fun _ _ => True) :=
  ⟨trivial, fun _ _ => ⟨trivial, fun _ _ => ⟨trivial, fun _ _ => ⟨Int.le_max_left _ _, fun _ _ =>
    ⟨trivial, fun _ _ => trivial⟩⟩⟩⟩⟩

theorem Errand.operation_counts (errand : Errand) : errand.operation.Abides Counts (fun _ _ => True) := by
  cases errand with
  | send peerAddress text sent =>
    refine Process.Abides.ignore ⟨trivial, fun _ _ => ⟨trivial, fun _ _ => ?_⟩⟩
    cases sent with
    | error e => exact ⟨trivial, fun _ _ => trivial⟩
    | ok _ => exact ⟨trivial, fun _ _ => (touchConversation_counts _ _ _ 0).bind fun _ => trivial⟩
  | deliver batch => exact sync_abides fun _ _ => handleDelivered_counts _ _
  | receipt kind ids => exact onReceipt_abides kind (fun _ => trivial) (fun _ _ => trivial) ids
  | history now address => exact (history_abides trivial (fun _ => trivial) now address).ignore
  | purge now => exact (purgeExpired_abides trivial (fun _ => trivial) now).ignore

theorem counts_serve (call : Call) (chats : Chats) (h : ∀ address, 0 ≤ chats.unread address) (counts : Counts call) :
    ∀ address, 0 ≤ (serve call chats).1.unread address := by
  cases call with
  | putConversation address conversation cutFrom =>
    intro other
    show 0 ≤ Chats.unread { chats with conversations := chats.conversations.set address conversation } other
    by_cases hother : other = address
    · rw [hother, unread_set]
      exact counts
    · have hsame : Chats.unread { chats with conversations := chats.conversations.set address conversation } other =
          chats.unread other := by
        unfold Chats.unread
        rw [OrderedMap.get?_set_of_ne _ _ hother]
      rw [hsame]
      exact h other
  | getMessage | putMessage | deleteMessage | allMessages | getConversation | elsewhere => exact h

/-- What the messenger starts on the collections, in any interleaving. -/
def busy (errands : List Errand) (marked : List String) (chats : Chats) : Pool Call Answer Chats :=
  ⟨chats, errands.map Errand.operation ++ marked.map markRead⟩

/-- `touchConversation` and `markRead` store no negative count, whatever they have read. -/
theorem busy_counts (errands : List Errand) (marked : List String) (schedule : List Nat)
    (h : ∀ address, 0 ≤ chats.unread address) :
    ∀ address, 0 ≤ ((busy errands marked chats).follow serve schedule).state.unread address := by
  have hbegun : (busy errands marked chats).Abiding (fun chats => ∀ address, 0 ≤ chats.unread address)
      (fun _ => Counts) (fun _ _ => True) := by
    refine ⟨h, fun place process hprocess => ?_⟩
    rcases List.mem_append.mp (List.mem_of_getElem? hprocess) with herrand | hmarked
    · obtain ⟨errand, _, rfl⟩ := List.mem_map.mp herrand
      exact errand.operation_counts
    · obtain ⟨address, _, rfl⟩ := List.mem_map.mp hmarked
      exact markRead_counts address
  exact (hbegun.follow (fun _ call chats hstate hcall => ⟨counts_serve call chats hstate hcall, trivial⟩) schedule).state

end

/-- Nothing the messenger does in any interleaving stores a negative count. Where texts of one peer are handled in any
interleaving, those of a batch one after the other, all are stored, the count has grown by their number exactly if no handler
reads the conversation between another's read and write, and a `markRead` that ends after them leaves nothing unread. -/
theorem unread_counted (chats : Chats) :
    (∀ (errands : List Errand) (marked : List String) (schedule : List Nat), (∀ address, 0 ≤ chats.unread address) →
      ∀ address, 0 ≤ ((busy errands marked chats).follow serve schedule).state.unread address) ∧
    ∀ (peerAddress : String) (batches : List (List Text)) (schedule : List Nat),
      (batches.flatten.map Text.messageId).Nodup → 0 ≤ chats.unread peerAddress →
        ((receiving peerAddress batches chats).follow serve schedule).Finished →
      (∀ text ∈ batches.flatten, ((receiving peerAddress batches chats).follow serve schedule).state.messages.get?
          text.messageId = some (text.incoming peerAddress)) ∧
        (((receiving peerAddress batches chats).follow serve schedule).state.unread peerAddress =
            chats.unread peerAddress + batches.flatten.length ↔
          (receiving peerAddress batches chats).Throughout serve (Apart peerAddress) schedule) ∧
        ∀ first last, (∀ place, place < batches.length →
            ((receivingMarked peerAddress batches chats).follow serve first).processes[place]? = some (.done ())) →
          ((receivingMarked peerAddress batches chats).follow serve first).processes[batches.length]? ≠ some (.done ()) →
          ((receivingMarked peerAddress batches chats).follow serve (first ++ last)).Finished →
            ((receivingMarked peerAddress batches chats).follow serve (first ++ last)).state.unread peerAddress = 0 :=
  ⟨fun errands marked schedule => busy_counts errands marked schedule,
    fun _ batches schedule distinct counted finished => receiving_counted batches distinct counted schedule finished⟩

def twoTexts : List (List Text) := [[{ messageId := "m1", body := "hello", now := 0 }],
  [{ messageId := "m2", body := "again", now := 1 }]]

/-- A first text is handled, and read. -/
def firstSchedule : List Nat := [0, 0, 0, 0, 0, 1, 1]

def firstRead : Chats :=
  ((busy [.deliver [("bob", { messageId := "m0", body := "hi", now := 0 })]] ["bob"] {}).follow serve firstSchedule).state

/-- Both handlers read the conversation before either writes it. -/
def overlapping : List Nat := [0, 0, 1, 1, 0, 1, 0, 1, 0, 1]

theorem overlapping_finished : ((receiving "bob" twoTexts firstRead).follow serve overlapping).Finished := by
  have hdone : ((receiving "bob" twoTexts firstRead).follow serve overlapping).processes = [.done (), .done ()] := rfl
  intro process hprocess
  rw [hdone] at hprocess
  rcases List.mem_cons.mp hprocess with rfl | hprocess
  · rfl
  · exact List.mem_singleton.mp hprocess

theorem overlapping_unread : ((receiving "bob" twoTexts firstRead).follow serve overlapping).state.unread "bob" = 1 := by
  decide +kernel

/-- Two texts are handled after a first one; the schedule is one whose reads and writes overlap. -/
theorem unread_counted_two : ¬(receiving "bob" twoTexts firstRead).Throughout serve (Apart "bob") overlapping := by
  intro apart
  obtain ⟨hkept, _⟩ := unread_counted {}
  obtain ⟨_, hreceiving⟩ := unread_counted firstRead
  have hdistinct : (twoTexts.flatten.map Text.messageId).Nodup := by decide
  have hcounted : 0 ≤ firstRead.unread "bob" :=
    hkept [.deliver [("bob", { messageId := "m0", body := "hi", now := 0 })]] ["bob"] firstSchedule
      (fun _ => Int.le_refl 0) "bob"
  have hcount := (hreceiving "bob" twoTexts overlapping hdistinct hcounted overlapping_finished).2.1.mpr apart
  have hunread := overlapping_unread.symm.trans hcount
  revert hunread
  decide +kernel

theorem unread_lost : ¬ ∀ (peerAddress : String) (batches : List (List Text)) (chats : Chats) (schedule : List Nat),
    (batches.flatten.map Text.messageId).Nodup → 0 ≤ chats.unread peerAddress →
      ((receiving peerAddress batches chats).follow serve schedule).Finished →
        ((receiving peerAddress batches chats).follow serve schedule).state.unread peerAddress =
          chats.unread peerAddress + batches.flatten.length := by
  intro claim
  have hdistinct : (twoTexts.flatten.map Text.messageId).Nodup := by decide
  have hcount := claim "bob" twoTexts firstRead overlapping hdistinct (by decide +kernel) overlapping_finished
  have hunread := overlapping_unread.symm.trans hcount
  revert hunread
  decide +kernel

end Interleaved

end Veil

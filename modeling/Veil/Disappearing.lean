import Veil.Interleaved

namespace Veil

open Messenger

namespace Interleaved

/-- The two collections, with the message that the preview of each conversation has been cut from. -/
structure Shelf where
  chats : Chats := {}
  cutFrom : String → Option Message := fun _ => none

def serveShelf (call : Call) (shelf : Shelf) : Shelf × Answer call :=
  ({ chats := (serve call shelf.chats).1
     cutFrom := match call with
      | .putConversation address _ cutFrom => Function.update shelf.cutFrom address cutFrom
      | _ => shelf.cutFrom },
    (serve call shelf.chats).2)

namespace Errand

/-- The texts it brings. -/
def texts : Errand → List Text
  | send _ text _ => [text]
  | deliver batch => batch.map Prod.snd
  | _ => []

end Errand

def Text.Due (now : Int) (text : Text) : Prop := ∃ expiresAt ∈ text.expiresAt, expiresAt ≤ now

instance (now : Int) (text : Text) : Decidable (text.Due now) :=
  inferInstanceAs (Decidable (∃ expiresAt ∈ text.expiresAt, expiresAt ≤ now))

def running (errands : List Errand) (shelf : Shelf) : Pool Call Answer Shelf := ⟨shelf, errands.map Errand.operation⟩

/-- A preview is the beginning of the message it is cut from. -/
def Shelf.Cut (shelf : Shelf) : Prop :=
  ∀ address conversation, shelf.chats.conversations.get? address = some conversation →
    ∃ message, shelf.cutFrom address = some message ∧ conversation.lastMessagePreview = sliceUnits message.body 120

/-- The call stores such messages only, and cuts previews from such messages only. -/
def Stores (good : Message → Prop) : Call → Prop
  | .putMessage _ message => good message
  | .putConversation _ conversation cutFrom =>
    ∃ message, cutFrom = some message ∧ good message ∧ conversation.lastMessagePreview = sliceUnits message.body 120
  | _ => True

section

variable {good : Message → Prop}

theorem sendText_stores {now : Int} {message : Message} {sent : Except Failure Unit} (hgood : good message)
    (h : ∀ status, good { message with status }) : (sendText now message sent).Abides (Stores good) (fun _ _ => True) := by
  refine ⟨hgood, fun _ _ => ⟨trivial, fun _ _ => ?_⟩⟩
  cases sent with
  | error e => exact ⟨h _, fun _ _ => trivial⟩
  | ok _ => exact ⟨h _, fun _ _ => ⟨trivial, fun _ _ => ⟨⟨_, rfl, h _, rfl⟩, fun _ _ => trivial⟩⟩⟩

theorem handleDelivered_stores {now : Int} {message : Message} (h : good message) :
    (handleDelivered now message).Abides (Stores good) (fun _ _ => True) :=
  ⟨trivial, fun _ _ => ⟨h, fun _ _ => ⟨trivial, fun _ _ => ⟨⟨message, rfl, h, rfl⟩, fun _ _ =>
    ⟨trivial, fun _ _ => trivial⟩⟩⟩⟩⟩

/-- An errand stores what it brings, or handles a receipt. -/
theorem Errand.operation_stores (errand : Errand)
    (sent : ∀ text ∈ errand.texts, ∀ peerAddress status, good { text.outgoing peerAddress with status })
    (delivered : ∀ text ∈ errand.texts, ∀ peerAddress, good (text.incoming peerAddress)) :
    errand.operation.Abides (Stores good) (fun _ _ => True) ∨ ∃ kind ids, errand.operation = onReceipt kind ids := by
  cases errand with
  | send peerAddress text outcome =>
    have hgood := sent text List.mem_cons_self peerAddress
    have hsend := @sendText_stores good text.now (text.outgoing peerAddress) outcome (hgood .pending) hgood
    exact Or.inl hsend.ignore
  | deliver batch =>
    refine Or.inl (sync_abides fun delivery hdelivery => ?_)
    obtain ⟨⟨peerAddress, text⟩, hmem, rfl⟩ := List.mem_map.mp hdelivery
    exact handleDelivered_stores (delivered text (List.mem_map_of_mem hmem) peerAddress)
  | receipt kind ids => exact Or.inr ⟨kind, ids, rfl⟩
  | history clock address => exact Or.inl (history_abides trivial (fun _ => trivial) clock address).ignore
  | purge clock => exact Or.inl (purgeExpired_abides trivial (fun _ => trivial) clock).ignore

end

theorem cut_serve (call : Call) (shelf : Shelf) (h : shelf.Cut) (hcall : Stores (fun _ => True) call) :
    (serveShelf call shelf).1.Cut := by
  cases call with
  | putConversation address conversation cutFrom =>
    intro other found hfound
    have hset : (shelf.chats.conversations.set address conversation).get? other = some found := hfound
    show ∃ message, Function.update shelf.cutFrom address cutFrom other = some message ∧ _
    by_cases hother : other = address
    · rw [hother, OrderedMap.get?_set_self] at hset
      obtain rfl := Option.some.inj hset
      obtain ⟨message, hcut, _, hpreview⟩ := hcall
      rw [hother, Function.update_self]
      exact ⟨message, hcut, hpreview⟩
    · rw [OrderedMap.get?_set_of_ne _ _ hother] at hset
      rw [Function.update_of_ne hother]
      exact h other found hset
  | getMessage | putMessage | deleteMessage | allMessages | getConversation | elsewhere => exact h

theorem running_cut (errands : List Errand) (shelf : Shelf) (h : shelf.Cut) (schedule : List Nat) :
    ((running errands shelf).follow serveShelf schedule).state.Cut := by
  have hbegun : (running errands shelf).Abiding Shelf.Cut (fun _ => Stores fun _ => True) (fun _ _ => True) := by
    refine ⟨h, fun place process hprocess => ?_⟩
    have hmap : (errands.map Errand.operation)[place]? = some process := hprocess
    obtain ⟨errand, _, rfl⟩ := List.mem_map.mp (List.mem_of_getElem? hmap)
    have hstores := @Errand.operation_stores (fun _ => True) errand (fun _ _ _ _ => trivial) (fun _ _ _ => trivial)
    rcases hstores with hstores | ⟨kind, ids, heq⟩
    · exact hstores
    · rw [heq]
      exact onReceipt_abides kind (fun _ => trivial) (fun _ _ => trivial) ids
  exact (hbegun.follow (fun _ call shelf hcut hcall => ⟨cut_serve call shelf hcut hcall, trivial⟩) schedule).state

/-- The collections of a shelf are served as they are without it. -/
theorem running_chats (errands : List Errand) (shelf : Shelf) (schedule : List Nat) :
    ((running errands shelf).follow serveShelf schedule).project Shelf.chats =
      Pool.follow serve schedule ⟨shelf.chats, errands.map Errand.operation⟩ :=
  Pool.follow_project serveShelf (fun _ _ => rfl) schedule (running errands shelf)

/-- Neither collection holds any of a message that is due. -/
def Shelf.Gone (now : Int) (shelf : Shelf) : Prop :=
  (∀ id message, shelf.chats.messages.get? id = some message → ¬Expired now message) ∧
    ∀ address message, shelf.cutFrom address = some message → ¬Expired now message

/-- A moment for a purge to read the messages: no errand that is unfinished brings a text that is due, what handlers are about
to store of messages that are due is still stored, and no preview is cut from one. -/
structure Quiet (now : Int) (errands : List Errand) (pool : Pool Call Answer Shelf) : Prop where
  brings : ∀ (place : Nat) (errand : Errand), errands[place]? = some errand →
    pool.processes[place]? ≠ some (Process.done ()) → ∀ text ∈ errand.texts, ¬text.Due now
  holding : ∀ (place : Nat) (id : String) (message : Message) (next : Unit → Operation Unit),
    pool.processes[place]? = some (.wait (.putMessage id message) next) → Expired now message →
      ∃ found, pool.state.chats.messages.get? id = some found ∧ Expired now found
  previews : ∀ address message, pool.state.cutFrom address = some message → ¬Expired now message

/-- When the purge deletes a message, no handler is about to store it again. -/
def Clear (now : Int) (purge : Nat) (pool : Pool Call Answer Shelf) (place : Nat) : Prop :=
  ∀ id next, place = purge → pool.processes[place]? = some (.wait (.deleteMessage id) next) →
    ∀ (other : Nat) (message : Message) (next' : Unit → Operation Unit),
      pool.processes[other]? = some (.wait (.putMessage id message) next') → ¬Expired now message

/-- The handler of a receipt, before it reads or before it writes. -/
inductive Receipting : Operation Unit → Prop
  | asking (kind : ReceiptKind) (ids : List String) : Receipting (onReceipt kind ids)
  | storing (kind : ReceiptKind) (id : String) (message : Message) (ids : List String) :
    Receipting (do
      putMessage id message
      onReceipt kind ids)

section

variable {now : Int}

/-- What a handler of a receipt is about to store it has just found. -/
theorem Receipting.step {call : Call} {next : Answer call → Operation Unit} (h : Receipting (.wait call next)) (shelf : Shelf) :
    Receipting (next (serveShelf call shelf).2) ∧
      (∀ address conversation cutFrom, call ≠ .putConversation address conversation cutFrom) ∧
      ∀ (id : String) (message : Message) (next' : Unit → Operation Unit),
        next (serveShelf call shelf).2 = .wait (.putMessage id message) next' → Expired now message →
          ∃ found, shelf.chats.messages.get? id = some found ∧ Expired now found := by
  generalize hprocess : Process.wait call next = process at h
  cases h with
  | asking kind ids =>
    cases ids with
    | nil => cases hprocess
    | cons id ids =>
      rw [onReceipt_cons] at hprocess
      cases hprocess
      have honward : ∀ (id' : String) (message : Message) (next' : Unit → Operation Unit),
          onReceipt kind ids ≠ .wait (.putMessage id' message) next' := by
        intro id' message next' heq
        cases ids <;> cases heq
      show Receipting ((shelf.chats.messages.get? id).elim (onReceipt kind ids) (fun message =>
          if message.direction = .outgoing then do
            putMessage id { message with status := ReceiptKind.status kind }
            onReceipt kind ids
          else onReceipt kind ids)) ∧ _ ∧ ∀ (id' : String) (message' : Message) (next' : Unit → Operation Unit),
            (shelf.chats.messages.get? id).elim (onReceipt kind ids) (fun message =>
              if message.direction = .outgoing then do
                putMessage id { message with status := ReceiptKind.status kind }
                onReceipt kind ids
              else onReceipt kind ids) = Process.wait (.putMessage id' message') next' → _
      cases hfound : shelf.chats.messages.get? id with
      | none =>
        exact ⟨.asking kind ids, fun _ _ _ heq => (by cases heq), fun id' message' next' heq => absurd heq (honward _ _ _)⟩
      | some message =>
        by_cases hdirection : message.direction = .outgoing
        · simp only [Option.elim_some, hdirection, ↓reduceIte]
          refine ⟨.storing kind id _ ids, fun _ _ _ heq => (by cases heq), fun id' message' next' heq expired => ?_⟩
          cases heq
          exact ⟨message, hfound, expired⟩
        · simp only [Option.elim_some, hdirection, ↓reduceIte]
          exact ⟨.asking kind ids, fun _ _ _ heq => (by cases heq), fun id' message' next' heq => absurd heq (honward _ _ _)⟩
  | storing kind id message ids =>
    cases hprocess
    refine ⟨.asking kind ids, fun _ _ _ heq => (by cases heq), fun id' message' next' heq => ?_⟩
    exfalso
    cases ids <;> cases heq

end

/-- The process at a place stores nothing due, or handles a receipt. -/
def Spared (now : Int) (place : Nat) (pool : Pool Call Answer Shelf) : Prop :=
  ∀ process, pool.processes[place]? = some process →
    process.Abides (Stores fun message => ¬Expired now message) (fun _ _ => True) ∨ Receipting process

/-- A purge that has still to delete some of what it has read. -/
def sweep (count : Nat) (left : List String) : Operation Unit :=
  Process.ignore (do
    deleteMessages left
    return count)

/-- Whatever is due and stored, or about to be stored, the purge has still to delete. -/
structure Sweeping (now : Int) (purge count : Nat) (left : List String) (pool : Pool Call Answer Shelf) : Prop where
  process : pool.processes[purge]? = some (sweep count left)
  stored : ∀ id message, pool.state.chats.messages.get? id = some message → Expired now message → id ∈ left
  holding : ∀ (place : Nat) (id : String) (message : Message) (next : Unit → Operation Unit),
    pool.processes[place]? = some (.wait (.putMessage id message) next) → Expired now message → id ∈ left
  previews : ∀ address message, pool.state.cutFrom address = some message → ¬Expired now message
  spared : ∀ place, Spared now place pool

section

variable {now : Int} {pool : Pool Call Answer Shelf} {purge count : Nat} {left : List String}

theorem Spared.resume {other : Nat} (h : Spared now other pool) (place : Nat) :
    Spared now other (pool.resume serveShelf place) := by
  unfold Pool.resume
  split
  next call next found =>
    intro process hprocess
    rw [List.getElem?_set] at hprocess
    split at hprocess
    next heq =>
      subst heq
      split at hprocess
      next =>
        obtain rfl := Option.some.inj hprocess
        rcases h _ found with hfresh | hreceipting
        · exact Or.inl (hfresh.2 _ trivial)
        · exact Or.inr (@Receipting.step now _ _ hreceipting pool.state).1
      next => cases hprocess
    next => exact h process hprocess
  next => exact h

/-- A message is stored after a call only if it was before or the call stores it. -/
theorem stored_before {call : Call} {shelf : Shelf} {id : String} {message : Message}
    (h : (serveShelf call shelf).1.chats.messages.get? id = some message) :
    shelf.chats.messages.get? id = some message ∧ call ≠ .deleteMessage id ∨ call = .putMessage id message := by
  cases call with
  | putMessage other put =>
    have hset : (shelf.chats.messages.set other put).get? id = some message := h
    by_cases hid : id = other
    · rw [hid, OrderedMap.get?_set_self] at hset
      obtain rfl := Option.some.inj hset
      exact Or.inr (congrArg (fun id => Call.putMessage id put) hid.symm)
    · rw [OrderedMap.get?_set_of_ne _ _ hid] at hset
      exact Or.inl ⟨hset, fun heq => by cases heq⟩
  | deleteMessage other =>
    have hdelete : (shelf.chats.messages.delete other).get? id = some message := h
    by_cases hid : id = other
    · rw [hid, OrderedMap.get?_delete_self] at hdelete
      cases hdelete
    · rw [OrderedMap.get?_delete_of_ne _ hid] at hdelete
      exact Or.inl ⟨hdelete, fun heq => hid (Call.deleteMessage.inj heq).symm⟩
  | getMessage | allMessages | getConversation | putConversation | elsewhere => exact Or.inl ⟨h, fun heq => by cases heq⟩

/-- A preview after a call was there before or comes with the call. -/
theorem cut_before {call : Call} {shelf : Shelf} {address : String} {message : Message}
    (h : (serveShelf call shelf).1.cutFrom address = some message) :
    shelf.cutFrom address = some message ∨ ∃ conversation, call = .putConversation address conversation (some message) := by
  cases call with
  | putConversation other conversation cutFrom =>
    have hupdate : Function.update shelf.cutFrom other cutFrom address = some message := h
    by_cases hother : address = other
    · rw [hother, Function.update_self] at hupdate
      subst hother hupdate
      exact Or.inr ⟨conversation, rfl⟩
    · rw [Function.update_of_ne hother] at hupdate
      exact Or.inl hupdate
  | getMessage | putMessage | deleteMessage | allMessages | getConversation | elsewhere => exact Or.inl h

/-- A process that is about to store something due after a move was so before, or the move has let it find it. -/
theorem Spared.holding {place other : Nat} (h : Spared now place pool) {id : String} {message : Message}
    {next : Unit → Operation Unit}
    (hput : (pool.resume serveShelf place).processes[other]? = some (.wait (.putMessage id message) next))
    (expired : Expired now message) :
    pool.processes[other]? = some (.wait (.putMessage id message) next) ∨
      ∃ found, pool.state.chats.messages.get? id = some found ∧ Expired now found := by
  unfold Pool.resume at hput
  split at hput
  next call rest found =>
    rw [List.getElem?_set] at hput
    split at hput
    next heq =>
      split at hput
      next =>
        have hnext := Option.some.inj hput
        rcases h _ found with hfresh | hreceipting
        · have habides := hfresh.2 (serveShelf call pool.state).2 trivial
          rw [hnext] at habides
          exact absurd expired habides.1
        · exact Or.inr ((hreceipting.step pool.state).2.2 id message next hnext expired)
      next => cases hput
    next => exact Or.inl hput
  next => exact Or.inl hput

/-- A purge goes on with what is left, if no handler is about to store again what it deletes. -/
theorem Sweeping.resume (h : Sweeping now purge count left pool) {place : Nat} (clear : Clear now purge pool place) :
    ∃ left', Sweeping now purge count left' (pool.resume serveShelf place) := by
  have hspared := fun other => (h.spared other).resume place
  by_cases hplace : place = purge
  · subst hplace
    cases left with
    | nil =>
      rw [Pool.resume_done serveShelf fun call next hwait => by cases h.process.symm.trans hwait]
      exact ⟨[], h⟩
    | cons id left =>
      have hinside := (List.getElem?_eq_some_iff.mp h.process).1
      have hwait : pool.processes[place]? = some (.wait (.deleteMessage id) fun _ => sweep count left) := h.process
      have hkeep {id' : String} (hmem : id' ∈ id :: left) (hne : id' ≠ id) : id' ∈ left :=
        (List.mem_cons.mp hmem).resolve_left hne
      rw [Pool.resume_wait serveShelf hwait] at hspared ⊢
      refine ⟨left, List.getElem?_set_self hinside, fun id' message hfound expired => ?_, fun other id' message next hput expired => ?_,
        h.previews, hspared⟩
      · rcases stored_before hfound with ⟨hfound, hother⟩ | hput
        · exact hkeep (h.stored id' message hfound expired) fun heq => hother (congrArg Call.deleteMessage heq.symm)
        · cases hput
      · have hother : other ≠ place := by
          intro heq
          subst heq
          rw [List.getElem?_set_self hinside] at hput
          cases left <;> cases hput
        have hput' := (List.getElem?_set_ne hother.symm).symm.trans hput
        refine hkeep (h.holding other id' message next hput' expired) fun heq => ?_
        subst heq
        exact clear id' _ rfl hwait other message next hput' expired
  · refine ⟨left, ?_⟩
    cases hprocess : pool.processes[place]? with
    | none =>
      rw [Pool.resume_done serveShelf fun call next hwait => by cases hprocess.symm.trans hwait]
      exact h
    | some process =>
      cases process with
      | done result =>
        rw [Pool.resume_done serveShelf fun call next hwait => by cases hprocess.symm.trans hwait]
        exact h
      | wait call next =>
        have hstored : ∀ id message, (pool.resume serveShelf place).state.chats.messages.get? id = some message →
            Expired now message → id ∈ left := by
          intro id message hfound expired
          rw [Pool.resume_wait serveShelf hprocess] at hfound
          rcases stored_before hfound with ⟨hfound, _⟩ | hput
          · exact h.stored id message hfound expired
          · subst hput
            exact h.holding place id message next hprocess expired
        have hpreviews : ∀ address message, (pool.resume serveShelf place).state.cutFrom address = some message →
            ¬Expired now message := by
          intro address message hcut
          rw [Pool.resume_wait serveShelf hprocess] at hcut
          rcases cut_before hcut with hcut | ⟨conversation, hput⟩
          · exact h.previews address message hcut
          · rcases h.spared place _ hprocess with hfresh | hreceipting
            · subst hput
              obtain ⟨cut, heq, hcut, _⟩ := hfresh.1
              obtain rfl := Option.some.inj heq
              exact hcut
            · exact absurd hput ((@Receipting.step now _ _ hreceipting pool.state).2.1 address conversation (some message))
        have hholding : ∀ (other : Nat) (id : String) (message : Message) (next : Unit → Operation Unit),
            (pool.resume serveShelf place).processes[other]? = some (.wait (.putMessage id message) next) →
              Expired now message → id ∈ left := by
          intro other id message next' hput expired
          rcases (h.spared place).holding hput expired with hput | ⟨found, hfound, hdue⟩
          · exact h.holding other id message next' hput expired
          · exact h.stored id found hfound hdue
        have hsweep : (pool.resume serveShelf place).processes[purge]? = some (sweep count left) := by
          rw [Pool.resume_wait serveShelf hprocess]
          exact (List.getElem?_set_ne hplace).trans h.process
        exact ⟨hsweep, hstored, hholding, hpreviews, hspared⟩

theorem Sweeping.follow (h : Sweeping now purge count left pool) (schedule : List Nat)
    (clear : pool.Throughout serveShelf (Clear now purge) schedule) :
    ∃ left', Sweeping now purge count left' (pool.follow serveShelf schedule) := by
  induction schedule generalizing pool left with
  | nil => exact ⟨left, h⟩
  | cons place schedule ih =>
    obtain ⟨left', h'⟩ := h.resume clear.1
    exact ih h' clear.2

/-- At a quiet moment every process that is under way stores nothing due, or handles a receipt. -/
theorem Quiet.spared {errands : List Errand} {shelf : Shelf} {schedule : List Nat}
    (quiet : Quiet now errands ((running errands shelf).follow serveShelf schedule)) (place : Nat) :
    Spared now place ((running errands shelf).follow serveShelf schedule) := by
  intro process hprocess
  by_cases hdone : process = .done ()
  · rw [hdone]
    exact Or.inl trivial
  · have hbegun : Spared now place (running errands shelf) := by
      intro begun hbegun
      have hmap : (errands.map Errand.operation)[place]? = some begun := hbegun
      rw [List.getElem?_map] at hmap
      obtain ⟨errand, herrand, rfl⟩ := Option.map_eq_some_iff.mp hmap
      have hbrings : ∀ text ∈ errand.texts, ¬text.Due now :=
        quiet.brings place errand herrand fun hfinished => hdone (Option.some.inj (hprocess.symm.trans hfinished))
      have hstores := @Errand.operation_stores (fun message => ¬Expired now message) errand
        (fun text htext _ _ => hbrings text htext) (fun text htext _ => hbrings text htext)
      rcases hstores with hstores | ⟨kind, ids, heq⟩
      · exact Or.inl hstores
      · exact Or.inr (heq ▸ .asking kind ids)
    have hstep : ∀ pool other, Spared now place pool → Spared now place (pool.resume serveShelf other) :=
      fun _ other h => h.resume other
    exact Pool.follow_preserves serveShelf hstep schedule hbegun process hprocess

/-- In every run, if a purge reads the messages at a quiet moment and is clear when it deletes them, nothing that is due is
held at any time after its end. -/
theorem purge_gone (errands : List Errand) (shelf : Shelf) (now : Int) (place : Nat) (before after : List Nat)
    (purge : errands[place]? = some (.purge now)) (first : place ∉ before)
    (quiet : Quiet now errands ((running errands shelf).follow serveShelf before))
    (clear : (((running errands shelf).follow serveShelf before).resume serveShelf place).Throughout serveShelf
      (Clear now place) after)
    (completed : ((running errands shelf).follow serveShelf (before ++ place :: after)).processes[place]? =
      some (Process.done ())) :
    ((running errands shelf).follow serveShelf (before ++ place :: after)).state.Gone now := by
  let reading := (running errands shelf).follow serveShelf before
  have hreading : reading.processes[place]? = some (purgeExpired now).ignore := by
    rw [Pool.follow_of_not_mem serveShelf before first]
    show (errands.map Errand.operation)[place]? = _
    rw [List.getElem?_map, purge]
    rfl
  have hdue {id : String} {message : Message} (hfound : reading.state.chats.messages.get? id = some message)
      (expired : Expired now message) : id ∈ due now reading.state.chats.messages.entries :=
    List.mem_map_of_mem (List.mem_filter.mpr ⟨OrderedMap.mem_of_get? hfound, decide_eq_true expired⟩)
  have hinside := (List.getElem?_eq_some_iff.mp hreading).1
  have hspared := fun other => (quiet.spared other).resume place
  have hsweeping : Sweeping now place (due now reading.state.chats.messages.entries).length
      (due now reading.state.chats.messages.entries) (reading.resume serveShelf place) := by
    have hresumed := Pool.resume_wait serveShelf hreading
    have hholding : ∀ (other : Nat) (id : String) (message : Message) (next : Unit → Operation Unit),
        (reading.resume serveShelf place).processes[other]? = some (.wait (.putMessage id message) next) →
          Expired now message → id ∈ due now reading.state.chats.messages.entries := by
      intro other id message next hput expired
      rcases (quiet.spared place).holding hput expired with hput | ⟨found, hfound, hexpired⟩
      · obtain ⟨found, hfound, hexpired⟩ := quiet.holding other id message next hput expired
        exact hdue hfound hexpired
      · exact hdue hfound hexpired
    rw [hresumed] at hholding ⊢
    exact ⟨List.getElem?_set_self hinside, fun id message hfound expired => hdue hfound expired, hholding, quiet.previews,
      hresumed ▸ hspared⟩
  rw [Pool.follow_append, Pool.follow_cons] at completed ⊢
  obtain ⟨left, hleft⟩ := hsweeping.follow after clear
  have hnone : left = [] := by
    cases left with
    | nil => rfl
    | cons id left => cases hleft.process.symm.trans completed
  refine ⟨fun id message hfound expired => ?_, hleft.previews⟩
  have hmem := hleft.stored id message hfound expired
  rw [hnone] at hmem
  exact List.not_mem_nil hmem

end

def burning : Text := { messageId := "m1", body := "burn after reading", now := 0, expiresAt := some 60000 }

def lasting : Text := { messageId := "m2", body := "see you", now := 1 }

/-- A text that lasts is sent after the one that is due, so that its preview is in the place of the other's. -/
def replaced : List Errand := [.send "bob" burning (.ok ()), .send "bob" lasting (.ok ()), .purge 120000]

theorem replaced_quiet : Quiet 120000 replaced ((running replaced {}).follow serveShelf [0, 0, 0, 0, 0, 1, 1, 1, 1, 1]) := by
  have hprocesses : ((running replaced {}).follow serveShelf [0, 0, 0, 0, 0, 1, 1, 1, 1, 1]).processes =
      [.done (), .done (), (purgeExpired 120000).ignore] := rfl
  have hcut : ((running replaced {}).follow serveShelf [0, 0, 0, 0, 0, 1, 1, 1, 1, 1]).state.cutFrom =
      Function.update (Function.update (fun _ => none) "bob" (some { burning.outgoing "bob" with status := .sent })) "bob"
        (some { lasting.outgoing "bob" with status := .sent }) := rfl
  refine ⟨fun place errand herrand hunfinished => ?_, fun place id message next hput => ?_, fun address message hmessage => ?_⟩
  · rw [hprocesses] at hunfinished
    match place with
    | 0 | 1 => exact absurd rfl hunfinished
    | 2 =>
      obtain rfl := Option.some.inj herrand
      exact fun _ htext => absurd htext List.not_mem_nil
    | place + 3 => cases herrand
  · rw [hprocesses] at hput
    match place with
    | 0 | 1 | 2 | place + 3 => cases hput
  · rw [hcut, Function.update_idem] at hmessage
    by_cases haddress : address = "bob"
    · rw [haddress, Function.update_self] at hmessage
      obtain rfl := Option.some.inj hmessage
      decide
    · rw [Function.update_of_ne haddress] at hmessage
      cases hmessage

theorem purge_gone_replaced :
    ((running replaced {}).follow serveShelf ([0, 0, 0, 0, 0, 1, 1, 1, 1, 1] ++ 2 :: [2])).state.Gone 120000 := by
  refine purge_gone replaced {} 120000 2 [0, 0, 0, 0, 0, 1, 1, 1, 1, 1] [2] rfl (by decide) replaced_quiet ?_ rfl
  refine ⟨fun id next _ _ other message next' hput => ?_, trivial⟩
  match other with
  | 0 | 1 | 2 | other + 3 => cases hput

theorem preview_kept : ¬ ∀ (errands : List Errand) (shelf : Shelf) (now : Int) (place : Nat) (before after : List Nat),
    errands[place]? = some (.purge now) → place ∉ before →
      ((running errands shelf).follow serveShelf (before ++ place :: after)).processes[place]? = some (Process.done ()) →
        ((running errands shelf).follow serveShelf (before ++ place :: after)).state.Gone now := by
  intro claim
  have hgone := claim [.send "bob" burning (.ok ()), .purge 120000] {} 120000 1 [0, 0, 0, 0, 0] [1] rfl (by decide) rfl
  exact hgone.2 "bob" { burning.outgoing "bob" with status := .sent } rfl (by decide)

end Interleaved

end Veil

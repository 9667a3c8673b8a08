import Veil.Interleaved

namespace Veil

open Messenger

/-- pending < sent < delivered < read, or pending < failed. -/
def Messenger.Forward : MessageStatus → MessageStatus → Prop
  | .pending, _ => True
  | .sent, .sent | .sent, .delivered | .sent, .read => True
  | .delivered, .delivered | .delivered, .read => True
  | .read, .read | .failed, .failed => True
  | _, _ => False

namespace Interleaved

def statusOf (id : String) (chats : Chats) : Option MessageStatus := (chats.messages.get? id).map Message.status

/-- A text has just been stored as pending; what is left of its `sendText` runs beside the handlers of receipts. -/
def sending (peerAddress : String) (text : Text) (sent : Except Failure Unit) (receipts : List (ReceiptKind × List String))
    (chats : Chats) : Pool Call Answer Chats :=
  (⟨chats, (sendText text.now (text.outgoing peerAddress) sent).ignore ::
    receipts.map (fun receipt => onReceipt receipt.1 receipt.2)⟩ : Pool Call Answer Chats).resume serve 0

/-- The stored status of a message does not go backwards in this move. -/
def Advances (id : String) (pool : Pool Call Answer Chats) (place : Nat) : Prop :=
  ∀ before after, statusOf id pool.state = some before → statusOf id (pool.resume serve place).state = some after →
    Forward before after

/-- `sendText` is past its last write of the message. -/
def Closed : Operation Unit → Prop
  | .wait (.putMessage _ _) _ | .wait .elsewhere _ => False
  | _ => True

/-- A receipt for a message is stored only when its `sendText` has stored it as sent, and `delivered` is not stored over
`read`. -/
def InOrder (id : String) (sent : Except Failure Unit) (pool : Pool Call Answer Chats) (place : Nat) : Prop :=
  ∀ message next, place ≠ 0 → pool.processes[place]? = some (.wait (.putMessage id message) next) →
    sent = .ok () ∧ (∀ sender, pool.processes[0]? = some sender → Closed sender) ∧
      ¬(message.status = .delivered ∧ statusOf id pool.state = some .read)

/-- The process stores messages as delivered or read only, and deletes none. -/
def Marks : Operation Unit → Prop
  | .done _ => True
  | .wait (.putMessage _ message) next => (message.status = .delivered ∨ message.status = .read) ∧ ∀ answer, Marks (next answer)
  | .wait (.deleteMessage _) _ => False
  | .wait _ next => ∀ answer, Marks (next answer)

theorem onReceipt_marks (receipt : ReceiptKind) (ids : List String) : Marks (onReceipt receipt ids) := by
  induction ids with
  | nil => trivial
  | cons id ids ih =>
    intro (found : Option Message)
    cases found with
    | none => exact ih
    | some message =>
      show Marks (if message.direction = .outgoing then do
          putMessage id { message with status := ReceiptKind.status receipt }
          onReceipt receipt ids
        else onReceipt receipt ids)
      by_cases hdirection : message.direction = .outgoing
      · simp only [hdirection, ↓reduceIte]
        refine ⟨?_, fun _ => ih⟩
        cases receipt with
        | delivered => exact Or.inl rfl
        | read => exact Or.inr rfl
      · simp only [hdirection, ↓reduceIte]
        exact ih

theorem forward_refl (status : MessageStatus) : Forward status status := by
  cases status <;> trivial

section

variable {peerAddress : String} {text : Text} {sent : Except Failure Unit} {pool : Pool Call Answer Chats} {id : String}
  {place : Nat}

/-- `sendText` at its last write of the message. -/
def closing (peerAddress : String) (text : Text) : Except Failure Unit → Operation Unit
  | .error _ => putMessage text.messageId { text.outgoing peerAddress with status := .failed }
  | .ok () => do
    putMessage text.messageId { text.outgoing peerAddress with status := .sent }
    (touchConversation text.now peerAddress { text.outgoing peerAddress with status := .sent } 0).ignore

theorem sending_eq (receipts : List (ReceiptKind × List String)) (chats : Chats) :
    sending peerAddress text sent receipts chats =
      ⟨{ chats with messages := chats.messages.set text.messageId (text.outgoing peerAddress) },
        .wait .elsewhere (fun _ => closing peerAddress text sent) ::
          receipts.map (fun receipt => onReceipt receipt.1 receipt.2)⟩ := by
  cases sent <;> rfl

theorem statusOf_set (message : Message) (chats : Chats) :
    statusOf id { chats with messages := chats.messages.set id message } = some message.status := by
  unfold statusOf
  rw [OrderedMap.get?_set_self]
  rfl

/-- The processes beside `sendText` handle receipts. -/
def Others (pool : Pool Call Answer Chats) : Prop :=
  ∀ place process, place ≠ 0 → pool.processes[place]? = some process → Marks process

/-- A process that stores something as delivered or read, or leaves the messages alone. -/
theorem marks_wait {call : Call} {next : Answer call → Operation Unit} (h : Marks (.wait call next)) (chats : Chats) :
    (∀ answer, Marks (next answer)) ∧
      ((∃ message, call = .putMessage id message ∧ (message.status = .delivered ∨ message.status = .read) ∧
          statusOf id (serve call chats).1 = some message.status) ∨
        (∀ message, call ≠ .putMessage id message) ∧ statusOf id (serve call chats).1 = statusOf id chats) := by
  cases call with
  | putMessage other message =>
    obtain ⟨hstatus, hnext⟩ := h
    refine ⟨hnext, ?_⟩
    by_cases hid : other = id
    · subst hid
      exact Or.inl ⟨message, rfl, hstatus, statusOf_set message chats⟩
    · refine Or.inr ⟨fun message' heq => hid (Call.putMessage.inj heq).1, ?_⟩
      show ((chats.messages.set other message).get? id).map Message.status = _
      rw [OrderedMap.get?_set_of_ne _ _ (Ne.symm hid)]
      rfl
  | deleteMessage => exact h.elim
  | getMessage | allMessages | getConversation | putConversation | elsewhere =>
    exact ⟨h, Or.inr ⟨fun _ heq => (by cases heq), rfl⟩⟩

theorem Others.resume (h : Others pool) (place : Nat) : Others (pool.resume serve place) := by
  intro other process hother hprocess
  unfold Pool.resume at hprocess
  split at hprocess
  next call next found =>
    rw [List.getElem?_set] at hprocess
    split at hprocess
    next heq =>
      subst heq
      split at hprocess
      next =>
        obtain rfl := Option.some.inj hprocess
        exact (@marks_wait "" _ _ (h place _ hother found) pool.state).1 _
      next => cases hprocess
    next => exact h other process hother hprocess
  next => exact h other process hother hprocess

/-- A move of a receipt's handler, as the message sees it. -/
theorem receipt_moves (h : Others pool) (hplace : place ≠ 0) :
    (pool.resume serve place).processes[0]? = pool.processes[0]? ∧
      ((∃ message next, pool.processes[place]? = some (.wait (.putMessage id message) next) ∧
          (message.status = .delivered ∨ message.status = .read) ∧
            statusOf id (pool.resume serve place).state = some message.status) ∨
        (∀ message next, pool.processes[place]? ≠ some (.wait (.putMessage id message) next)) ∧
          statusOf id (pool.resume serve place).state = statusOf id pool.state) := by
  cases hprocess : pool.processes[place]? with
  | none =>
    have hstay : pool.resume serve place = pool :=
      Pool.resume_done serve fun call next hwait => by cases hprocess.symm.trans hwait
    rw [hstay]
    exact ⟨rfl, Or.inr ⟨fun _ _ hwait => (by cases hwait), rfl⟩⟩
  | some process =>
    cases process with
    | done result =>
      have hstay : pool.resume serve place = pool :=
        Pool.resume_done serve fun call next hwait => by cases hprocess.symm.trans hwait
      rw [hstay]
      exact ⟨rfl, Or.inr ⟨fun _ _ hwait => (by cases hwait), rfl⟩⟩
    | wait call next =>
      obtain ⟨_, hcases⟩ := @marks_wait id _ _ (h place _ hplace hprocess) pool.state
      rw [Pool.resume_wait serve hprocess]
      refine ⟨List.getElem?_set_ne hplace, ?_⟩
      rcases hcases with ⟨message, rfl, hstatus, hafter⟩ | ⟨hother, hafter⟩
      · exact Or.inl ⟨message, next, rfl, hstatus, hafter⟩
      · refine Or.inr ⟨fun message next' hwait => ?_, hafter⟩
        cases hwait
        exact hother message rfl

/-- `sendText` has still to store what sending came to. -/
def Unclosed (peerAddress : String) (text : Text) (sent : Except Failure Unit) (pool : Pool Call Answer Chats) : Prop :=
  pool.processes[0]? = some (.wait .elsewhere (fun _ => closing peerAddress text sent)) ∨
    pool.processes[0]? = some (closing peerAddress text sent)

/-- `sendText` after that. -/
def Tail (process : Operation Unit) : Prop :=
  (∃ now address message, process = (touchConversation now address message 0).ignore) ∨
    (∃ address conversation cutFrom, process = (putConversation address conversation cutFrom).ignore) ∨ process = .done ()

/-- Nothing has been stored out of order. -/
inductive Steady (peerAddress : String) (text : Text) (sent : Except Failure Unit) (pool : Pool Call Answer Chats) : Prop
  | pending (unclosed : Unclosed peerAddress text sent pool) (status : statusOf text.messageId pool.state = some .pending)
  | accepted (ok : sent = .ok ()) (tail : ∃ process, pool.processes[0]? = some process ∧ Tail process)
      (status : ∃ status, statusOf text.messageId pool.state = some status ∧ Forward .sent status)
  | failed (failure : Failure) (error : sent = .error failure) (done : pool.processes[0]? = some (.done ()))
      (status : statusOf text.messageId pool.state = some .failed)

/-- A receipt was stored before `sendText` stored what sending came to. -/
structure Ahead (peerAddress : String) (text : Text) (sent : Except Failure Unit) (pool : Pool Call Answer Chats) : Prop where
  unclosed : Unclosed peerAddress text sent pool
  status : ∃ status, statusOf text.messageId pool.state = some status ∧ (status = .delivered ∨ status = .read)

theorem advances_of_status {before after : MessageStatus} (hbefore : statusOf id pool.state = some before)
    (hafter : statusOf id (pool.resume serve place).state = some after) : Advances id pool place ↔ Forward before after := by
  constructor
  · exact fun h => h before after hbefore hafter
  · intro h before' after' hbefore' hafter'
    obtain rfl := Option.some.inj (hbefore.symm.trans hbefore')
    obtain rfl := Option.some.inj (hafter.symm.trans hafter')
    exact h

theorem advances_of_same (h : statusOf id (pool.resume serve place).state = statusOf id pool.state) :
    Advances id pool place := by
  intro before after hbefore hafter
  obtain rfl : before = after := Option.some.inj (hbefore.symm.trans (h.symm.trans hafter))
  exact forward_refl before

/-- `sendText` goes on; it may store what sending came to. -/
theorem unclosed_moves (h : Unclosed peerAddress text sent pool) :
    Unclosed peerAddress text sent (pool.resume serve 0) ∧
        statusOf text.messageId (pool.resume serve 0).state = statusOf text.messageId pool.state ∨
      sent = .ok () ∧ (∃ process, (pool.resume serve 0).processes[0]? = some process ∧ Tail process) ∧
        statusOf text.messageId (pool.resume serve 0).state = some .sent ∨
      (∃ failure, sent = .error failure) ∧ (pool.resume serve 0).processes[0]? = some (.done ()) ∧
        statusOf text.messageId (pool.resume serve 0).state = some .failed := by
  rcases h with h | h
  · have hinside := (List.getElem?_eq_some_iff.mp h).1
    rw [Pool.resume_wait serve h]
    exact Or.inl ⟨Or.inr (List.getElem?_set_self hinside), rfl⟩
  · have hinside := (List.getElem?_eq_some_iff.mp h).1
    cases sent with
    | error failure =>
      rw [Pool.resume_wait serve h]
      exact Or.inr (Or.inr ⟨⟨failure, rfl⟩, List.getElem?_set_self hinside, statusOf_set _ _⟩)
    | ok _ =>
      rw [Pool.resume_wait serve h]
      exact Or.inr (Or.inl ⟨rfl, ⟨_, List.getElem?_set_self hinside, Or.inl ⟨_, _, _, rfl⟩⟩, statusOf_set _ _⟩)

theorem tail_moves {process : Operation Unit} (h : pool.processes[0]? = some process) (tail : Tail process) :
    (∃ process', (pool.resume serve 0).processes[0]? = some process' ∧ Tail process') ∧
      statusOf id (pool.resume serve 0).state = statusOf id pool.state := by
  have hinside := (List.getElem?_eq_some_iff.mp h).1
  rcases tail with ⟨now, address, message, rfl⟩ | ⟨address, conversation, cutFrom, rfl⟩ | rfl
  · rw [Pool.resume_wait serve h]
    exact ⟨⟨_, List.getElem?_set_self hinside, Or.inr (Or.inl ⟨_, _, _, rfl⟩)⟩, rfl⟩
  · rw [Pool.resume_wait serve h]
    exact ⟨⟨_, List.getElem?_set_self hinside, Or.inr (Or.inr rfl)⟩, rfl⟩
  · rw [Pool.resume_done serve fun call next hwait => by cases h.symm.trans hwait]
    exact ⟨⟨_, h, Or.inr (Or.inr rfl)⟩, rfl⟩

theorem tail_closed {process : Operation Unit} (tail : Tail process) : Closed process := by
  rcases tail with ⟨_, _, _, rfl⟩ | ⟨_, _, _, rfl⟩ | rfl
  all_goals trivial

theorem unclosed_not_closed (h : Unclosed peerAddress text sent pool) :
    ∃ sender, pool.processes[0]? = some sender ∧ ¬Closed sender := by
  rcases h with h | h
  · exact ⟨_, h, fun closed => closed⟩
  · refine ⟨_, h, fun closed => ?_⟩
    cases sent <;> exact closed

theorem inOrder_first : InOrder id sent pool 0 := fun _ _ hne _ => absurd rfl hne

theorem ahead_moves (h : Ahead peerAddress text sent pool) (others : Others pool) (place : Nat) :
    ¬Advances text.messageId pool place ∨ Ahead peerAddress text sent (pool.resume serve place) := by
  obtain ⟨status, hstatus, hmarked⟩ := h.status
  have back {after : MessageStatus} (hafter : statusOf text.messageId (pool.resume serve place).state = some after)
      (hlow : after = .sent ∨ after = .failed) : ¬Advances text.messageId pool place := by
    rw [advances_of_status hstatus hafter]
    rcases hmarked with rfl | rfl <;> rcases hlow with rfl | rfl <;> exact fun forward => forward
  by_cases hplace : place = 0
  · subst hplace
    rcases unclosed_moves h.unclosed with ⟨hunclosed, hsame⟩ | ⟨_, _, hafter⟩ | ⟨_, _, hafter⟩
    · exact Or.inr ⟨hunclosed, status, hsame.trans hstatus, hmarked⟩
    · exact Or.inl (back hafter (Or.inl rfl))
    · exact Or.inl (back hafter (Or.inr rfl))
  · obtain ⟨hfirst, hmoves⟩ := @receipt_moves _ text.messageId _ others hplace
    have hunclosed : Unclosed peerAddress text sent (pool.resume serve place) := by
      unfold Unclosed
      rw [hfirst]
      exact h.unclosed
    rcases hmoves with ⟨message, next, _, hmessage, hafter⟩ | ⟨_, hsame⟩
    · exact Or.inr ⟨hunclosed, message.status, hafter, hmessage⟩
    · exact Or.inr ⟨hunclosed, status, hsame.trans hstatus, hmarked⟩

theorem ahead_follow (h : Ahead peerAddress text sent pool) (others : Others pool) (schedule : List Nat)
    (finished : (pool.follow serve schedule).Finished) : ¬pool.Throughout serve (Advances text.messageId) schedule := by
  induction schedule generalizing pool with
  | nil =>
    obtain ⟨sender, hsender, hclosed⟩ := unclosed_not_closed h.unclosed
    rw [finished sender (List.mem_of_getElem? hsender)] at hclosed
    exact fun _ => hclosed trivial
  | cons place schedule ih =>
    intro throughout
    rcases ahead_moves h others place with hback | hahead
    · exact hback throughout.1
    · exact ih hahead (others.resume place) finished throughout.2

/-- A move in order does not go back; one that is not goes back, now or when `sendText` closes. -/
theorem steady_moves (h : Steady peerAddress text sent pool) (others : Others pool) (place : Nat) :
    InOrder text.messageId sent pool place ∧ Advances text.messageId pool place ∧
        Steady peerAddress text sent (pool.resume serve place) ∨
      ¬InOrder text.messageId sent pool place ∧
        (¬Advances text.messageId pool place ∨ Ahead peerAddress text sent (pool.resume serve place)) := by
  by_cases hplace : place = 0
  · subst hplace
    refine Or.inl ⟨inOrder_first, ?_⟩
    cases h with
    | pending unclosed status =>
      rcases unclosed_moves unclosed with ⟨hunclosed, hsame⟩ | ⟨hok, htail, hafter⟩ | ⟨⟨failure, herror⟩, hdone, hafter⟩
      · exact ⟨advances_of_same hsame, .pending hunclosed (hsame.trans status)⟩
      · exact ⟨(advances_of_status status hafter).mpr trivial, .accepted hok htail ⟨.sent, hafter, trivial⟩⟩
      · exact ⟨(advances_of_status status hafter).mpr trivial, .failed failure herror hdone hafter⟩
    | accepted ok tail status =>
      obtain ⟨process, hprocess, htail⟩ := tail
      obtain ⟨htail', hsame⟩ := @tail_moves _ text.messageId _ hprocess htail
      obtain ⟨current, hcurrent, hforward⟩ := status
      exact ⟨advances_of_same hsame, .accepted ok htail' ⟨current, hsame.trans hcurrent, hforward⟩⟩
    | failed failure error done status =>
      rw [Pool.resume_done serve fun call next hwait => by cases done.symm.trans hwait]
      refine ⟨advances_of_same ?_, .failed failure error done status⟩
      rw [Pool.resume_done serve fun call next hwait => by cases done.symm.trans hwait]
  · obtain ⟨hfirst, hmoves⟩ := @receipt_moves _ text.messageId _ others hplace
    rcases hmoves with ⟨message, next, hput, hmessage, hafter⟩ | ⟨hother, hsame⟩
    · cases h with
      | pending unclosed status =>
        obtain ⟨sender, hsender, hclosed⟩ := unclosed_not_closed unclosed
        have hunclosed : Unclosed peerAddress text sent (pool.resume serve place) := by
          unfold Unclosed
          rw [hfirst]
          exact unclosed
        exact Or.inr ⟨fun order => hclosed ((order message next hplace hput).2.1 sender hsender),
          Or.inr ⟨hunclosed, message.status, hafter, hmessage⟩⟩
      | accepted ok tail status =>
        obtain ⟨process, hprocess, htail⟩ := tail
        obtain ⟨current, hcurrent, hforward⟩ := status
        by_cases hover : message.status = .delivered ∧ current = .read
        · refine Or.inr ⟨fun order => (order message next hplace hput).2.2 ⟨hover.1, hover.2 ▸ hcurrent⟩, Or.inl ?_⟩
          rw [advances_of_status hcurrent hafter, hover.1, hover.2]
          exact fun forward => forward
        · have hsender : ∀ sender, pool.processes[0]? = some sender → Closed sender := by
            intro sender hsender
            obtain rfl := Option.some.inj (hprocess.symm.trans hsender)
            exact tail_closed htail
          refine Or.inl ⟨fun message' next' _ hput' => ?_, ?_, .accepted ok ⟨process, hfirst.trans hprocess, htail⟩
            ⟨message.status, hafter, ?_⟩⟩
          · cases hput.symm.trans hput'
            refine ⟨ok, hsender, fun hread => hover ⟨hread.1, ?_⟩⟩
            exact Option.some.inj (hcurrent.symm.trans hread.2)
          · rw [advances_of_status hcurrent hafter]
            rcases hmessage with hdelivered | hread
            · rw [hdelivered]
              cases current with
              | pending | failed => exact hforward.elim
              | sent | delivered => trivial
              | read => exact absurd ⟨hdelivered, rfl⟩ hover
            · rw [hread]
              cases current with
              | pending | failed => exact hforward.elim
              | sent | delivered | read => trivial
          · rcases hmessage with hdelivered | hread
            · rw [hdelivered]
              trivial
            · rw [hread]
              trivial
      | failed failure error done status =>
        refine Or.inr ⟨fun order => ?_, Or.inl ?_⟩
        · cases error.symm.trans (order message next hplace hput).1
        · rw [advances_of_status status hafter]
          rcases hmessage with hdelivered | hread
          · rw [hdelivered]
            exact fun forward => forward
          · rw [hread]
            exact fun forward => forward
    · refine Or.inl ⟨fun message next _ hput => absurd hput (hother message next), advances_of_same hsame, ?_⟩
      cases h with
      | pending unclosed status =>
        refine .pending ?_ (hsame.trans status)
        unfold Unclosed
        rw [hfirst]
        exact unclosed
      | accepted ok tail status =>
        obtain ⟨process, hprocess, htail⟩ := tail
        obtain ⟨current, hcurrent, hforward⟩ := status
        exact .accepted ok ⟨process, hfirst.trans hprocess, htail⟩ ⟨current, hsame.trans hcurrent, hforward⟩
      | failed failure error done status => exact .failed failure error (hfirst.trans done) (hsame.trans status)

theorem steady_follow (h : Steady peerAddress text sent pool) (others : Others pool) (schedule : List Nat)
    (finished : (pool.follow serve schedule).Finished) :
    pool.Throughout serve (Advances text.messageId) schedule ↔
      pool.Throughout serve (InOrder text.messageId sent) schedule := by
  induction schedule generalizing pool with
  | nil => exact Iff.rfl
  | cons place schedule ih =>
    rcases steady_moves h others place with ⟨horder, hadvances, hsteady⟩ | ⟨horder, hback⟩
    · have hrest := ih hsteady (others.resume place) finished
      exact ⟨fun throughout => ⟨horder, hrest.mp throughout.2⟩, fun throughout => ⟨hadvances, hrest.mpr throughout.2⟩⟩
    · refine ⟨fun throughout => ?_, fun throughout => absurd throughout.1 horder⟩
      rcases hback with hback | hahead
      · exact absurd throughout.1 hback
      · exact absurd throughout.2 (ahead_follow hahead (others.resume place) schedule finished)

theorem sending_others (receipts : List (ReceiptKind × List String)) (chats : Chats) :
    Others (sending peerAddress text sent receipts chats) := by
  rw [sending_eq]
  intro place process hplace hprocess
  cases place with
  | zero => exact absurd rfl hplace
  | succ place =>
    have hmap : (receipts.map (fun receipt => onReceipt receipt.1 receipt.2))[place]? = some process := hprocess
    obtain ⟨receipt, _, rfl⟩ := List.mem_map.mp (List.mem_of_getElem? hmap)
    exact onReceipt_marks receipt.1 receipt.2

/-- While what is left of a `sendText` runs beside any handlers of receipts, the status of its message goes forward if and
only if they store in order. -/
theorem status_forward (peerAddress : String) (text : Text) (sent : Except Failure Unit)
    (receipts : List (ReceiptKind × List String)) (chats : Chats) (schedule : List Nat)
    (finished : ((sending peerAddress text sent receipts chats).follow serve schedule).Finished) :
    (sending peerAddress text sent receipts chats).Throughout serve (Advances text.messageId) schedule ↔
      (sending peerAddress text sent receipts chats).Throughout serve (InOrder text.messageId sent) schedule := by
  have begun : Steady peerAddress text sent (sending peerAddress text sent receipts chats) := by
    rw [sending_eq]
    exact .pending (Or.inl rfl) (statusOf_set (text.outgoing peerAddress) chats)
  exact steady_follow begun (sending_others receipts chats) schedule finished

end

def greeting : Text := { messageId := "m1", body := "hello", now := 0 }

/-- The receipt is stored while `sendText` still waits for the relay. -/
def early : List Nat := [1, 1, 0, 0, 0, 0]

theorem early_finished : ((sending "bob" greeting (.ok ()) [(.delivered, ["m1"])] {}).follow serve early).Finished := by
  have hdone : ((sending "bob" greeting (.ok ()) [(.delivered, ["m1"])] {}).follow serve early).processes =
      [.done (), .done ()] := rfl
  intro process hprocess
  rw [hdone] at hprocess
  rcases List.mem_cons.mp hprocess with heq | hprocess
  · exact heq
  · exact List.mem_singleton.mp hprocess

theorem early_back : ¬(sending "bob" greeting (.ok ()) [(.delivered, ["m1"])] {}).Throughout serve (Advances "m1") early := by
  intro throughout
  have hclosing : Advances "m1" ((sending "bob" greeting (.ok ()) [(.delivered, ["m1"])] {}).follow serve [1, 1, 0]) 0 :=
    throughout.2.2.2.1
  exact hclosing .delivered .sent rfl rfl

theorem status_forward_early :
    ¬(sending "bob" greeting (.ok ()) [(.delivered, ["m1"])] {}).Throughout serve (InOrder "m1" (.ok ())) early := by
  intro order
  have hforward := status_forward "bob" greeting (.ok ()) [(.delivered, ["m1"])] {} early early_finished
  exact early_back (hforward.mpr order)

theorem status_backward : ¬ ∀ (peerAddress : String) (text : Text) (sent : Except Failure Unit)
    (receipts : List (ReceiptKind × List String)) (chats : Chats) (schedule : List Nat),
    ((sending peerAddress text sent receipts chats).follow serve schedule).Finished →
      (sending peerAddress text sent receipts chats).Throughout serve (Advances text.messageId) schedule :=
  fun claim => early_back (claim "bob" greeting (.ok ()) [(.delivered, ["m1"])] {} early early_finished)

end Interleaved

end Veil

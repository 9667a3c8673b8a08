import Veil.SocketTotality

namespace Veil

namespace Relay

/-- The connections in the set of an address. -/
def registered (relay : Relay) (address : String) : List Nat := (relay.sockets.get? address).getD []

/-- The connection is open, and the address is the one it authenticated as last. -/
def Live (relay : Relay) (connection : Nat) (address : String) : Prop :=
  ∃ state, relay.connections[connection]? = some state ∧ state.isOpen = true ∧ state.address = some address

/-- The sets hold the live connections, each once. -/
structure Attached (relay : Relay) : Prop where
  live : ∀ address connection, connection ∈ relay.registered address ↔ relay.Live connection address
  nodup : ∀ address, (relay.registered address).Nodup

/-- A connection that has authenticated does not authenticate as another address. -/
def Steady (relay : Relay) : RelayMove → Prop
  | .message connection (some parsed) now => (parsed.field "type").bind Json.text? = some "authenticate" →
      ∀ address, (relay.auth.resolve (parsed.field "token") now).2 = some address →
        ∀ current, relay.connections[connection]?.bind Connection.address = some current → current = address
  | _ => True

/-- Sets and connections. -/
def registry (relay : Relay) : OrderedMap String (List Nat) × List Connection := (relay.sockets, relay.connections)

section

variable {K : Type} {crypto : Cryptography K} {js : NumberText} {relay next : Relay} {connection : Nat} {now : Int}

@[simp] theorem registry_send (message : ServerSocketMessage) : (relay.send connection message).registry = relay.registry := by
  unfold send
  split <;> rfl

@[simp] theorem registry_accept (origin : Origin) : (relay.accept origin).registry = relay.registry := by
  cases origin with
  | request => rfl
  | socket => exact registry_send _

theorem registry_foldl_send {α : Type} (items : List α) (connection : α → Nat) (message : α → ServerSocketMessage) :
    (items.foldl (fun relay item => relay.send (connection item) (message item)) relay).registry = relay.registry := by
  induction items generalizing relay with
  | nil => rfl
  | cons item items ih =>
    rw [List.foldl_cons, ih]
    exact registry_send _

theorem handle_registry (ip : String) (request : Request) (random : Bytes) :
    (relay.handle crypto js ip request random now).registry = relay.registry := by
  cases request <;> simp only [handle, register, challenge, authenticate, uploadKeys, countKeys, sendMessage, fetchMessages,
    acknowledge]
  all_goals repeat' split
  all_goals rfl

theorem resume_registry (origin : Origin) (handler : Handler) (random : Bytes) :
    (relay.resume crypto js origin handler random now).registry = relay.registry := by
  unfold resume
  split
  next =>
    split
    next => rfl
    next => exact registry_accept _
  next => exact (registry_accept _).trans (registry_foldl_send _ id _)
  next => exact registry_foldl_send _ (fun _ => _) _
  next request _ _ =>
    cases handler <;> simp only [resumeRequest, upload]
    all_goals repeat' split
    all_goals rfl
  next => rfl

/-- Only an authentication changes sets and connections when a message comes. -/
theorem onMessage_registry (parsed : Option Json) :
    (relay.onMessage js connection parsed now).registry = relay.registry ∨
      ∃ value address, parsed = some value ∧ (value.field "type").bind Json.text? = some "authenticate" ∧
        (relay.auth.resolve (value.field "token") now).2 = some address ∧
          (relay.onMessage js connection parsed now).registry =
            (relay.sockets.set address (if connection ∈ relay.registered address then relay.registered address
              else relay.registered address ++ [connection]),
              relay.connections.modify connection (fun state => { state with address := some address })) := by
  cases parsed with
  | none => exact Or.inl (registry_send _)
  | some value =>
    by_cases hasked : (value.field "type").bind Json.text? = some "authenticate"
    · rw [onMessage_authenticate hasked, socketAuthenticate]
      cases hresolved : (relay.auth.resolve (value.field "token") now).2 with
      | none => exact Or.inl (registry_send _)
      | some address => exact Or.inr ⟨value, address, rfl, hasked, hresolved, registry_send _⟩
    · refine Or.inl ?_
      have hserved := @onMessage_cases js relay connection now (some value)
      rcases hserved with ⟨_, failure, hthrows⟩ | ⟨_, hserved⟩
      · rw [hthrows]
        rfl
      · revert hserved
        generalize relay.onMessage js connection (some value) now = next
        intro hserved
        cases hserved with
        | refused => exact registry_send _
        | authenticated asked => exact absurd asked hasked
        | ponged => exact registry_send _
        | submitted => rfl
        | acknowledged => rfl

/-- What a connection is at an index after a change there. -/
theorem live_modify {states : List Connection} {f : Connection → Connection} {other : Nat} {state : Connection} :
    (states.modify connection f)[other]? = some state ↔
      if connection = other then ∃ old, states[other]? = some old ∧ f old = state else states[other]? = some state := by
  rw [List.getElem?_modify]
  split
  next => rw [Option.map_eq_map, Option.map_eq_some_iff]
  next => rw [Option.map_eq_map, Option.map_id']

theorem Attached.of_registry (h : relay.Attached) (same : next.registry = relay.registry) : next.Attached := by
  obtain ⟨hsockets, hconnections⟩ := Prod.mk.inj same
  have hregistered (address : String) : next.registered address = relay.registered address := by
    rw [registered, hsockets, registered]
  refine ⟨fun address connection => ?_, fun address => ?_⟩
  · rw [hregistered, h.live, Live, Live, hconnections]
  · rw [hregistered]
    exact h.nodup address

/-- A connection joins the set of the only address it can have been in. -/
theorem Attached.join (h : relay.Attached) {address : String} {state : Connection}
    (found : relay.connections[connection]? = some state) (isOpen : state.isOpen = true)
    (steady : ∀ current, state.address = some current → current = address)
    (same : next.registry = (relay.sockets.set address (if connection ∈ relay.registered address then relay.registered address
        else relay.registered address ++ [connection]),
      relay.connections.modify connection (fun state => { state with address := some address }))) : next.Attached := by
  obtain ⟨hsockets, hconnections⟩ := Prod.mk.inj same
  have hmem (other : String) (member : Nat) : member ∈ next.registered other ↔
      member ∈ relay.registered other ∨ other = address ∧ member = connection := by
    rw [registered, hsockets, OrderedMap.get?_set]
    by_cases heq : other = address
    · subst heq
      rw [if_pos rfl, Option.getD_some]
      split
      next hin => exact ⟨Or.inl, fun hor => hor.elim id fun hnew => hnew.2 ▸ hin⟩
      next => simp
    · simp [heq, registered]
  have hlive (other : String) (member : Nat) : next.Live member other ↔
      member ≠ connection ∧ relay.Live member other ∨ member = connection ∧ other = address := by
    unfold Live
    rw [hconnections]
    constructor
    · rintro ⟨after, hafter, hopen, haddress⟩
      have hafter := live_modify.mp hafter
      by_cases heq : connection = member
      · rw [if_pos heq] at hafter
        obtain ⟨old, _, rfl⟩ := hafter
        exact Or.inr ⟨heq.symm, (Option.some.inj haddress).symm⟩
      · rw [if_neg heq] at hafter
        exact Or.inl ⟨Ne.symm heq, after, hafter, hopen, haddress⟩
    · rintro (⟨hne, held, hheld, hopen, haddress⟩ | ⟨rfl, rfl⟩)
      · have hafter : if connection = member then ∃ old, relay.connections[member]? = some old ∧
            { old with address := some address } = held else relay.connections[member]? = some held := by
          rw [if_neg (Ne.symm hne)]
          exact hheld
        exact ⟨held, live_modify.mpr hafter, hopen, haddress⟩
      · have hafter : if member = member then ∃ old, relay.connections[member]? = some old ∧
            { old with address := some other } = { state with address := some other }
              else relay.connections[member]? = some { state with address := some other } := by
          rw [if_pos rfl]
          exact ⟨state, found, rfl⟩
        exact ⟨_, live_modify.mpr hafter, isOpen, rfl⟩
  refine ⟨fun other member => ?_, fun other => ?_⟩
  · rw [hmem, hlive, h.live]
    by_cases heq : member = connection
    · subst heq
      constructor
      · rintro (⟨held, hheld, _, haddress⟩ | ⟨rfl, _⟩)
        · obtain rfl := Option.some.inj (hheld.symm.trans found)
          exact Or.inr ⟨rfl, steady other haddress⟩
        · exact Or.inr ⟨rfl, rfl⟩
      · rintro (⟨hne, _⟩ | ⟨_, rfl⟩)
        · exact absurd rfl hne
        · exact Or.inr ⟨rfl, rfl⟩
    · simp [heq]
  · rw [registered, hsockets, OrderedMap.get?_set]
    split
    next =>
      rw [Option.getD_some]
      split
      next => exact h.nodup address
      next hout => exact List.nodup_append.mpr ⟨h.nodup address, List.nodup_singleton _, fun a ha b hb heq =>
        hout (List.mem_singleton.mp hb ▸ heq ▸ ha)⟩
    next => exact h.nodup other

theorem filter_of_not_mem {members : List Nat} (h : connection ∉ members) :
    members.filter (fun member => member ≠ connection) = members := by
  refine List.filter_eq_self.mpr fun member hmem => decide_eq_true fun heq => ?_
  exact h (heq ▸ hmem)

/-- A connection that closes leaves the set it is in. -/
theorem Attached.registered_onClose (h : relay.Attached) (address : String) :
    (relay.onClose connection).registered address = (relay.registered address).filter (fun member => member ≠ connection) := by
  have hstate : (relay.connections.modify connection (fun state => { state with isOpen := false }))[connection]?.bind
      Connection.address = relay.connections[connection]?.bind Connection.address := by
    rw [List.getElem?_modify_eq]
    cases relay.connections[connection]? <;> rfl
  have hout : relay.connections[connection]?.bind Connection.address ≠ some address → connection ∉ relay.registered address := by
    intro hother hmem
    obtain ⟨state, hfound, _, haddress⟩ := (h.live address connection).mp hmem
    rw [hfound] at hother
    exact hother haddress
  simp only [Relay.onClose, hstate]
  cases hat : relay.connections[connection]?.bind Connection.address with
  | none => exact (filter_of_not_mem (hout (by rw [hat]; exact fun heq => by cases heq))).symm
  | some last =>
    dsimp only
    by_cases heq : address = last
    · subst heq
      cases hset : relay.sockets.get? address with
      | none =>
        have hempty : relay.registered address = [] := by rw [registered, hset, Option.getD_none]
        rw [hempty]
        exact hempty
      | some set =>
        have hregistered : relay.registered address = set := by rw [registered, hset, Option.getD_some]
        rw [hregistered, registered]
        dsimp only
        split
        next hnone => rw [OrderedMap.get?_delete_self, Option.getD_none, hnone]
        next => rw [OrderedMap.get?_set_self, Option.getD_some]
    · have hkept : connection ∉ relay.registered address := hout (by rw [hat]; exact fun hlast => heq (Option.some.inj hlast).symm)
      rw [filter_of_not_mem hkept]
      cases hset : relay.sockets.get? last with
      | none => rfl
      | some set =>
        rw [registered, registered]
        dsimp only
        split
        next => rw [OrderedMap.get?_delete_of_ne _ heq]
        next => rw [OrderedMap.get?_set_of_ne _ _ heq]

theorem connections_onClose : (relay.onClose connection).connections =
    relay.connections.modify connection (fun state => { state with isOpen := false }) := by
  simp only [Relay.onClose]
  repeat' split
  all_goals rfl

theorem Attached.onClose (h : relay.Attached) : (relay.onClose connection).Attached := by
  refine ⟨fun address member => ?_, fun address => ?_⟩
  · rw [h.registered_onClose, List.mem_filter, h.live, decide_eq_true_iff]
    unfold Live
    rw [connections_onClose]
    constructor
    · rintro ⟨⟨state, hfound, hopen, haddress⟩, hne⟩
      have hafter : if connection = member then ∃ old, relay.connections[member]? = some old ∧
          { old with isOpen := false } = state else relay.connections[member]? = some state := by
        rw [if_neg (Ne.symm hne)]
        exact hfound
      exact ⟨state, live_modify.mpr hafter, hopen, haddress⟩
    · rintro ⟨after, hafter, hopen, haddress⟩
      have hafter := live_modify.mp hafter
      split at hafter
      next =>
        obtain ⟨old, _, rfl⟩ := hafter
        cases hopen
      next hne => exact ⟨⟨after, hafter, hopen, haddress⟩, Ne.symm hne⟩
  · rw [h.registered_onClose]
    exact (h.nodup address).filter _

/-- A connection that is new is in no set. -/
theorem Attached.connect (h : relay.Attached) (ip : String) :
    ({ relay with connections := relay.connections ++ [{ ip }] } : Relay).Attached := by
  refine ⟨fun address member => (h.live address member).trans ?_, h.nodup⟩
  unfold Live
  constructor
  · rintro ⟨state, hfound, hopen, haddress⟩
    have hlt : member < relay.connections.length := (List.getElem?_eq_some_iff.mp hfound).1
    exact ⟨state, (List.getElem?_append_left hlt).trans hfound, hopen, haddress⟩
  · rintro ⟨state, hfound, hopen, haddress⟩
    by_cases hlt : member < relay.connections.length
    · exact ⟨state, (List.getElem?_append_left hlt).symm.trans hfound, hopen, haddress⟩
    · have hnew := hfound
      rw [List.getElem?_append_right (Nat.le_of_not_lt hlt)] at hnew
      obtain rfl := List.mem_singleton.mp (List.mem_of_getElem? hnew)
      cases haddress

theorem Attached.perform (h : relay.Attached) {move : RelayMove} (possible : relay.Possible move) (steady : relay.Steady move) :
    (relay.perform crypto js move).Attached := by
  cases move with
  | request ip request random now => exact h.of_registry (handle_registry ip request random)
  | connect ip => exact h.connect ip
  | message connection parsed now =>
    have hmessage := @onMessage_registry js relay connection now parsed
    rcases hmessage with hsame | ⟨value, address, rfl, hasked, hresolved, hjoined⟩
    · exact h.of_registry hsame
    · obtain ⟨state, hfound, hopen⟩ := (Option.any_eq_true _ _).mp possible
      refine h.join hfound hopen (fun current hcurrent => ?_) hjoined
      exact steady hasked address hresolved current (by rw [hfound]; exact hcurrent)
  | close connection => exact h.onClose
  | housekeeping => exact h.of_registry rfl
  | resume index random now =>
    simp only [Relay.perform]
    split
    next => exact h
    next origin handler hfound => exact h.of_registry (resume_registry origin handler random)

/-- A push reaches the connections of the address that are open. -/
theorem pushToAddress_sent (h : relay.Attached) (address : String) (message : ServerSocketMessage) :
    (relay.pushToAddress address message).sent = relay.sent ++ (relay.registered address).map (fun connection =>
      .message connection message) := by
  have hall : ∀ (members : List Nat) (now : Relay), now.connections = relay.connections →
      (∀ member ∈ members, relay.Live member address) →
        (members.foldl (fun relay connection => relay.send connection message) now).sent =
          now.sent ++ members.map (fun connection => .message connection message) := by
    intro members
    induction members with
    | nil => exact fun now _ _ => (List.append_nil _).symm
    | cons member members ih =>
      intro now hconnections hlive
      obtain ⟨state, hfound, hopen, _⟩ := hlive member List.mem_cons_self
      have hany : now.connections[member]?.any Connection.isOpen = true := by
        rw [hconnections, hfound]
        exact hopen
      have hsend : now.send member message = now.emit (.message member message) := if_pos hany
      rw [List.foldl_cons, hsend, ih (now.emit (.message member message)) hconnections
        (fun other hmem => hlive other (List.mem_cons_of_mem _ hmem)), List.map_cons]
      exact List.append_assoc _ _ _
  exact hall (relay.registered address) relay rfl fun member hmem => (h.live address member).mp hmem

end

/-- As long as no connection authenticates as a second address, the set of an address holds the connections that are open and
authenticated as it last, and a push to the address reaches each of them once and no other. -/
theorem sockets_live {K : Type} (crypto : Cryptography K) (js : NumberText) {start relay : Relay}
    (unconnected : start.sockets = .empty ∧ start.connections = [])
    (run : Relation.ReflTransGen (Step crypto js Steady) start relay) :
    (∀ address connection, connection ∈ relay.registered address ↔ relay.Live connection address) ∧
      ∀ address message, ∃ reached : List Nat, (relay.pushToAddress address message).sent =
          relay.sent ++ reached.map (fun connection => Sent.message connection message) ∧
        reached.Nodup ∧ ∀ connection, connection ∈ reached ↔ relay.Live connection address := by
  have hattached : relay.Attached := by
    refine Runs.preserved (P := Attached) ?_ run ?_
    · rintro relay _ ⟨move, possible, steady, rfl⟩ h
      exact h.perform possible steady
    · obtain ⟨hsockets, hconnections⟩ := unconnected
      have hempty (address : String) : start.registered address = [] := by
        rw [registered, hsockets]
        rfl
      refine ⟨fun address connection => ?_, fun address => hempty address ▸ List.nodup_nil⟩
      rw [hempty, Live, hconnections]
      exact ⟨nofun, nofun⟩
  exact ⟨hattached.live, fun address message => ⟨relay.registered address, pushToAddress_sent hattached address message,
    hattached.nodup address, hattached.live address⟩⟩

/-- A relay that holds tokens of two accounts, and that nobody has connected to. -/
def unconnected : Relay where
  sendLimiter := { limit := 120, windowMs := 60000 }
  auth := { tokens := ((OrderedMap.empty : OrderedMap String Token).set "b" ⟨"bob", 100⟩).set "c" ⟨"carol", 100⟩ }

def presents (token : String) : Option Json := some (.obj [("type", .str "authenticate"), ("token", .str token)])

/-- A socket that authenticates with one token. -/
def attachedOnce : Relay :=
  (unconnected.perform spelled plainNumbers (.connect "10.0.0.1")).perform spelled plainNumbers (.message 0 (presents "b") 0)

theorem attachedOnce_run {allowed : Relay → RelayMove → Prop}
    (connects : allowed unconnected (.connect "10.0.0.1"))
    (authenticates : allowed (unconnected.perform spelled plainNumbers (.connect "10.0.0.1")) (.message 0 (presents "b") 0)) :
    Relation.ReflTransGen (Step spelled plainNumbers allowed) unconnected attachedOnce := by
  have hconnected : Step spelled plainNumbers allowed unconnected
      (unconnected.perform spelled plainNumbers (.connect "10.0.0.1")) := ⟨.connect "10.0.0.1", trivial, connects, rfl⟩
  exact (Relation.ReflTransGen.single hconnected).tail ⟨.message 0 (presents "b") 0, by decide +kernel, authenticates, rfl⟩

theorem sockets_live_once : attachedOnce.registered "bob" = [0] ∧
    ∀ address connection, connection ∈ attachedOnce.registered address ↔ attachedOnce.Live connection address := by
  have run := @attachedOnce_run Steady trivial fun _ address _ current hcurrent => by cases hcurrent
  exact ⟨by decide +kernel, (sockets_live spelled plainNumbers ⟨rfl, rfl⟩ run).1⟩

/-- A socket that authenticates with one token and then with another's, and closes, stays in the first set. -/
theorem closed_registered : ¬ ∀ start relay : Relay, start.sockets = .empty ∧ start.connections = [] →
    Relation.ReflTransGen (Step spelled plainNumbers fun _ _ => True) start relay →
      ∀ address connection, connection ∈ relay.registered address ↔ relay.Live connection address := by
  intro claim
  have hagain : Step spelled plainNumbers (fun _ _ => True) attachedOnce
      (attachedOnce.perform spelled plainNumbers (.message 0 (presents "c") 0)) :=
    ⟨.message 0 (presents "c") 0, by decide +kernel, trivial, rfl⟩
  have hclosed : Step spelled plainNumbers (fun _ _ => True)
      (attachedOnce.perform spelled plainNumbers (.message 0 (presents "c") 0))
      ((attachedOnce.perform spelled plainNumbers (.message 0 (presents "c") 0)).perform spelled plainNumbers (.close 0)) :=
    ⟨.close 0, by decide +kernel, trivial, rfl⟩
  have hlive := claim unconnected _ ⟨rfl, rfl⟩ (((attachedOnce_run trivial trivial).tail hagain).tail hclosed) "bob" 0
  have hmem : 0 ∈ ((attachedOnce.perform spelled plainNumbers (.message 0 (presents "c") 0)).perform spelled plainNumbers
      (.close 0)).registered "bob" := by decide +kernel
  obtain ⟨state, hfound, hopen, _⟩ := hlive.mp hmem
  have hshut : (((attachedOnce.perform spelled plainNumbers (.message 0 (presents "c") 0)).perform spelled plainNumbers
      (.close 0)).connections[0]?).any Connection.isOpen = false := by decide +kernel
  rw [hfound, Option.any_some, hopen] at hshut
  cases hshut

end Relay

end Veil

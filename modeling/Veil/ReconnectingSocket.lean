import Veil.Library.Timers

namespace Veil

inductive ReadyState
  | connecting
  | open
  | closing
  | closed
  deriving DecidableEq

/-- What goes up a socket. -/
inductive SocketFrame (M : Type)
  | authenticate (token : String)
  | message (message : M)

/-- A socket of the platform, with the `connect` call whose handlers it reports to and what has been sent on it. -/
structure WebSocket (M : Type) where
  channel : Nat
  readyState : ReadyState := .connecting
  sent : List (SocketFrame M) := []

/-- `WebSocketTransport`, with the sockets it has opened and the timers it has set. A timer calls the `open` of a
`connect` call. -/
structure WebSocketTransport (M : Type) where
  sockets : List (WebSocket M) := []
  timers : Timers Nat := {}
  channels : Nat := 0
  socket : Option Nat := none
  closedByUs : Bool := false
  retryDelayMs : Int := 1000

/-- What the app and the platform do to a transport. -/
inductive TransportEvent (M : Type)
  | connect
  | opened (socket : Nat) (token : Option String)
  | closed (socket : Nat) (uptime : Int)
  | ring (id : Nat) (uptime : Int)
  | send (message : M)
  | close

namespace WebSocket

variable {M : Type} (socket : WebSocket M)

def push (frame : SocketFrame M) : WebSocket M := { socket with sent := socket.sent ++ [frame] }

/-- The body of `onopen`: the token is sent first; there may be none, or an empty one. -/
def authenticated (token : Option String) : WebSocket M :=
  match token.filter (· ≠ "") with
  | some token => { socket with readyState := .open }.push (.authenticate token)
  | none => { socket with readyState := .open }

/-- `close` of the platform's socket. -/
def close : WebSocket M :=
  if socket.readyState = .closing ∨ socket.readyState = .closed then socket else { socket with readyState := .closing }

/-- Neither closed nor on the way to it. -/
def Usable : Prop := socket.readyState = .connecting ∨ socket.readyState = .open

theorem authenticated_same (token : Option String) : (socket.authenticated token).channel = socket.channel ∧
    (socket.authenticated token).readyState = .open := by
  unfold authenticated
  split <;> exact ⟨rfl, rfl⟩

theorem close_same : socket.close.channel = socket.channel ∧
    (socket.close.readyState = .closed ↔ socket.readyState = .closed) ∧ socket.close.sent = socket.sent := by
  unfold close
  split
  next hshut => exact ⟨rfl, Iff.rfl, rfl⟩
  next hlive =>
    refine ⟨rfl, ?_, rfl⟩
    simp only [reduceCtorEq, false_iff]
    exact fun hclosed => hlive (Or.inr hclosed)

/-- Of this `connect` call, and not closed yet. -/
def LiveOn (channel : Nat) : Prop := socket.channel = channel ∧ socket.readyState ≠ .closed

instance (channel : Nat) : Decidable (socket.LiveOn channel) := inferInstanceAs (Decidable (_ ∧ _))

end WebSocket

namespace WebSocketTransport

variable {M : Type} (transport : WebSocketTransport M)

/-- The inner `open` of a `connect` call. -/
def openChannel (channel : Nat) : WebSocketTransport M :=
  { transport with sockets := transport.sockets ++ [{ channel }], socket := some transport.sockets.length }

def connect : WebSocketTransport M :=
  { transport with closedByUs := false, channels := transport.channels + 1 }.openChannel transport.channels

def onOpen (i : Nat) (socket : WebSocket M) (token : Option String) : WebSocketTransport M :=
  { transport with sockets := transport.sockets.set i (socket.authenticated token), retryDelayMs := 1000 }

def onClose (i : Nat) (socket : WebSocket M) (uptime : Int) : WebSocketTransport M :=
  let transport := { transport with sockets := transport.sockets.set i { socket with readyState := .closed } }
  if transport.closedByUs then transport
  else
    { transport with
      timers := (transport.timers.setTimeout (uptime + transport.retryDelayMs) socket.channel).1
      retryDelayMs := min (transport.retryDelayMs * 2) 60000 }

/-- The socket the transport holds. -/
def current? : Option (Nat × WebSocket M) := do
  let i ← transport.socket
  let socket ← transport.sockets[i]?
  return (i, socket)

def send (message : M) : WebSocketTransport M :=
  match transport.current? with
  | some (i, socket) =>
    if socket.readyState = .open then { transport with sockets := transport.sockets.set i (socket.push (.message message)) }
    else transport
  | none => transport

def close : WebSocketTransport M :=
  match transport.current? with
  | some (i, socket) => { transport with closedByUs := true, sockets := transport.sockets.set i socket.close }
  | none => { transport with closedByUs := true }

/-- A socket opens while it is connecting and closes once; a timer rings when it is pending and due. -/
def step : TransportEvent M → Option (WebSocketTransport M)
  | .connect => some transport.connect
  | .opened i token => do
    let socket ← transport.sockets[i]?
    if socket.readyState = .connecting then some (transport.onOpen i socket token) else none
  | .closed i uptime => do
    let socket ← transport.sockets[i]?
    if socket.readyState = .closed then none else some (transport.onClose i socket uptime)
  | .ring id uptime => do
    let (channel, timers) ← transport.timers.ring id uptime
    return { transport with timers }.openChannel channel
  | .send message => some (transport.send message)
  | .close => some transport.close

def run : WebSocketTransport M → List (TransportEvent M) → Option (WebSocketTransport M)
  | transport, [] => some transport
  | transport, event :: events => (transport.step event).bind (run · events)

/-- The sockets of a `connect` call that have not closed. -/
def live (channel : Nat) : Nat :=
  transport.sockets.countP (fun socket => socket.LiveOn channel)

/-- The retries of a `connect` call that are pending. -/
def retries (channel : Nat) : Nat := transport.timers.pending.countP (fun timer => timer.call = channel)

end WebSocketTransport

/-- What the app knows of the connection: whether it has closed it, and how often it has failed since it was last up. -/
structure Outages where
  closedByUs : Bool := false
  failures : Nat := 0

def Outages.see {M : Type} (seen : Outages) : TransportEvent M → Outages
  | .connect => { seen with closedByUs := false }
  | .opened _ _ => { seen with failures := 0 }
  | .closed _ _ => if seen.closedByUs then seen else { seen with failures := seen.failures + 1 }
  | .close => { seen with closedByUs := true }
  | _ => seen

def Outages.ofRun {M : Type} (events : List (TransportEvent M)) : Outages := events.foldl Outages.see {}

/-- One second, doubled with every failure, and a minute at most. -/
def Outages.delay (seen : Outages) : Int := min (1000 * 2 ^ seen.failures) 60000

theorem countP_set_of_getElem? {α : Type} {xs : List α} {i : Nat} {a b : α} (h : xs[i]? = some a) (p : α → Bool) :
    (xs.set i b).countP p + (if p a then 1 else 0) = xs.countP p + (if p b then 1 else 0) := by
  induction xs generalizing i with
  | nil => simp at h
  | cons x xs ih =>
    cases i with
    | zero =>
      obtain rfl : x = a := by simpa using h
      rw [List.set_cons_zero, List.countP_cons, List.countP_cons]
      omega
    | succ i =>
      have := ih (show xs[i]? = some a by simpa using h)
      rw [List.set_cons_succ, List.countP_cons, List.countP_cons]
      omega

namespace WebSocketTransport

variable {M : Type} {transport next : WebSocketTransport M} {event : TransportEvent M} {i : Nat} {socket : WebSocket M}

/-- Changing one socket changes what is live by that socket alone. -/
theorem live_set {changed : WebSocket M} (h : transport.sockets[i]? = some socket)
    (hsockets : next.sockets = transport.sockets.set i changed) (channel : Nat) :
    next.live channel + (if socket.LiveOn channel then 1 else 0) =
      transport.live channel + (if changed.LiveOn channel then 1 else 0) := by
  have hcount := @countP_set_of_getElem? _ _ _ _ changed h (fun socket => decide (socket.LiveOn channel))
  simp only [decide_eq_true_eq] at hcount
  unfold live
  rw [hsockets]
  exact hcount

/-- A change that leaves a socket on its channel, and neither closes nor revives it. -/
theorem live_eq {changed : WebSocket M} (h : transport.sockets[i]? = some socket)
    (hsockets : next.sockets = transport.sockets.set i changed) (hchannel : changed.channel = socket.channel)
    (hstate : changed.readyState = .closed ↔ socket.readyState = .closed) (channel : Nat) :
    next.live channel = transport.live channel := by
  have hset := live_set h hsockets channel
  have hsame : changed.LiveOn channel ↔ socket.LiveOn channel := by
    unfold WebSocket.LiveOn
    rw [hchannel, Ne, Ne, hstate]
  simp only [hsame] at hset
  omega

theorem live_openChannel (opened channel : Nat) :
    (transport.openChannel opened).live channel = transport.live channel + if opened = channel then 1 else 0 := by
  unfold live openChannel
  rw [List.countP_append, List.countP_singleton]
  by_cases h : opened = channel
  · simp [h, WebSocket.LiveOn]
  · simp [h, WebSocket.LiveOn]

theorem retries_setTimeout {timers : Timers Nat} (due : Int) (called channel : Nat) :
    (timers.setTimeout due called).1.pending.countP (fun timer => timer.call = channel) =
      timers.pending.countP (fun timer => timer.call = channel) + if called = channel then 1 else 0 := by
  rw [Timers.setTimeout_pending, List.countP_append, List.countP_singleton]
  simp

theorem current?_eq {found : Nat × WebSocket M} (h : transport.current? = some found) :
    transport.socket = some found.1 ∧ transport.sockets[found.1]? = some found.2 := by
  obtain ⟨i, hi, h⟩ := Option.bind_eq_some_iff.mp h
  obtain ⟨socket, hsocket, h⟩ := Option.bind_eq_some_iff.mp h
  obtain rfl := Option.some.inj h
  exact ⟨hi, hsocket⟩

theorem send_conserves (message : M) (channel : Nat) :
    (transport.send message).live channel = transport.live channel ∧
      (transport.send message).timers = transport.timers := by
  unfold send
  cases hcurrent : transport.current? with
  | none => exact ⟨rfl, rfl⟩
  | some found =>
    obtain ⟨_, hsocket⟩ := current?_eq hcurrent
    dsimp only
    by_cases hopen : found.2.readyState = .open
    · rw [if_pos hopen]
      exact ⟨@live_eq _ _ _ _ _ (found.2.push (.message message)) hsocket rfl rfl Iff.rfl channel, rfl⟩
    · rw [if_neg hopen]
      exact ⟨rfl, rfl⟩

theorem close_conserves (channel : Nat) :
    transport.close.live channel = transport.live channel ∧ transport.close.timers = transport.timers := by
  unfold close
  cases hcurrent : transport.current? with
  | none => exact ⟨rfl, rfl⟩
  | some found =>
    obtain ⟨_, hsocket⟩ := current?_eq hcurrent
    obtain ⟨hchannel, hstate, _⟩ := found.2.close_same
    exact ⟨@live_eq _ _ _ _ _ found.2.close hsocket rfl hchannel hstate channel, rfl⟩

/-- What a step does, with what it asks for. -/
inductive Happens (transport : WebSocketTransport M) : TransportEvent M → WebSocketTransport M → Prop
  | connect : Happens transport .connect transport.connect
  | opened {i : Nat} {socket : WebSocket M} (token : Option String) (found : transport.sockets[i]? = some socket)
      (connecting : socket.readyState = .connecting) :
      Happens transport (.opened i token) (transport.onOpen i socket token)
  | closed {i : Nat} {socket : WebSocket M} (uptime : Int) (found : transport.sockets[i]? = some socket)
      (live : socket.readyState ≠ .closed) : Happens transport (.closed i uptime) (transport.onClose i socket uptime)
  | ring {timer : Timer Nat} {uptime : Int} (pending : timer ∈ transport.timers.pending) (due : timer.due ≤ uptime) :
      Happens transport (.ring timer.id uptime)
        ({ transport with timers := transport.timers.clearTimeout timer.id }.openChannel timer.call)
  | send (message : M) : Happens transport (.send message) (transport.send message)
  | close : Happens transport .close transport.close

theorem happens_of_step (h : transport.step event = some next) : transport.Happens event next := by
  cases event with
  | connect =>
    obtain rfl := Option.some.inj h
    exact .connect
  | opened i token =>
    obtain ⟨socket, hsocket, h⟩ := Option.bind_eq_some_iff.mp h
    split at h
    next hconnecting =>
      obtain rfl := Option.some.inj h
      exact .opened token hsocket hconnecting
    next => cases h
  | closed i uptime =>
    obtain ⟨socket, hsocket, h⟩ := Option.bind_eq_some_iff.mp h
    split at h
    next => cases h
    next hlive =>
      obtain rfl := Option.some.inj h
      exact .closed uptime hsocket hlive
  | ring id uptime =>
    obtain ⟨⟨called, timers⟩, hring, h⟩ := Option.bind_eq_some_iff.mp h
    obtain rfl := Option.some.inj h
    obtain ⟨⟨timer, hmem, rfl, rfl, hdue⟩, rfl⟩ := Timers.ring_eq_some hring
    exact .ring hmem hdue
  | send message =>
    obtain rfl := Option.some.inj h
    exact .send message
  | close =>
    obtain rfl := Option.some.inj h
    exact .close

/-- A connection is neither lost nor doubled by anything but the call that makes it, and a socket that closes after
`close`. -/
theorem step_conserves (h : transport.step event = some next) (channel : Nat) :
    (event = .connect ∧ next.live channel + next.retries channel =
      transport.live channel + transport.retries channel + (if transport.channels = channel then 1 else 0)) ∨
    (transport.closedByUs = true ∧ next.live channel + next.retries channel ≤
      transport.live channel + transport.retries channel) ∨
    (event ≠ .connect ∧ next.live channel + next.retries channel =
      transport.live channel + transport.retries channel) := by
  cases happens_of_step h with
  | connect =>
    have hlive := @live_openChannel _ { transport with closedByUs := false, channels := transport.channels + 1 }
      transport.channels channel
    refine Or.inl ⟨rfl, ?_⟩
    show live (openChannel _ _) channel + transport.retries channel = _
    rw [hlive]
    show transport.live channel + _ + _ = _
    omega
  | @opened i socket token hsocket hconnecting =>
    have hlive : (transport.onOpen i socket token).live channel = transport.live channel := by
      obtain ⟨hchannel, hopen⟩ := socket.authenticated_same token
      refine @live_eq _ _ _ _ _ (socket.authenticated token) hsocket rfl hchannel ?_ channel
      rw [hopen, hconnecting]
      simp
    refine Or.inr (Or.inr ⟨nofun, ?_⟩)
    rw [hlive]
    rfl
  | @closed i socket uptime hsocket hlive =>
    have hset := @live_set _ _ (transport.onClose i socket uptime) _ _ _ hsocket
      (by unfold onClose; dsimp only; split <;> rfl) channel
    have hdead : ¬({ socket with readyState := .closed } : WebSocket M).LiveOn channel := fun h => h.2 rfl
    rw [if_neg hdead] at hset
    have hwas : socket.LiveOn channel ↔ socket.channel = channel := and_iff_left hlive
    by_cases hclosed : transport.closedByUs = true
    · have hretries : (transport.onClose i socket uptime).retries channel = transport.retries channel := by
        unfold onClose retries
        rw [if_pos hclosed]
      exact Or.inr (Or.inl ⟨hclosed, by omega⟩)
    · have hretries : (transport.onClose i socket uptime).retries channel =
          transport.retries channel + if socket.channel = channel then 1 else 0 := by
        unfold onClose retries
        rw [if_neg hclosed]
        exact retries_setTimeout _ _ _
      simp only [hwas] at hset
      exact Or.inr (Or.inr ⟨nofun, by omega⟩)
  | @ring timer uptime hmem hdue =>
    have hcount := Timers.countP_clearTimeout hmem (fun timer => decide (timer.call = channel))
    have hlive := @live_openChannel _ { transport with timers := transport.timers.clearTimeout timer.id } timer.call
      channel
    refine Or.inr (Or.inr ⟨nofun, ?_⟩)
    simp only [decide_eq_true_eq] at hcount
    show live (openChannel _ _) channel + List.countP _ (transport.timers.clearTimeout timer.id).pending = _
    rw [hlive]
    show transport.live channel + _ + _ = transport.live channel + List.countP _ transport.timers.pending
    omega
  | send message =>
    obtain ⟨hlive, htimers⟩ := @send_conserves _ transport message channel
    refine Or.inr (Or.inr ⟨nofun, ?_⟩)
    rw [hlive, retries, htimers, retries]
  | close =>
    obtain ⟨hlive, htimers⟩ := @close_conserves _ transport channel
    refine Or.inr (Or.inr ⟨nofun, ?_⟩)
    rw [hlive, retries, htimers, retries]

/-- How the fields of a transport follow what the app has seen. -/
structure Tracks (transport : WebSocketTransport M) (seen : Outages) : Prop where
  closedByUs : transport.closedByUs = seen.closedByUs
  retryDelayMs : transport.retryDelayMs = seen.delay

theorem delay_failed (seen : Outages) : ({ seen with failures := seen.failures + 1 } : Outages).delay =
    min (seen.delay * 2) 60000 := by
  unfold Outages.delay
  rw [Int.pow_succ]
  generalize (2 : Int) ^ seen.failures = factor
  omega

theorem current?_flags {found : Nat × WebSocket M} (message : M) (h : transport.current? = some found) :
    (transport.send message).closedByUs = transport.closedByUs ∧
      (transport.send message).retryDelayMs = transport.retryDelayMs ∧
      (transport.send message).channels = transport.channels ∧ (transport.send message).socket = transport.socket := by
  unfold send
  rw [h]
  dsimp only
  split <;> exact ⟨rfl, rfl, rfl, rfl⟩

theorem send_flags (message : M) : (transport.send message).closedByUs = transport.closedByUs ∧
    (transport.send message).retryDelayMs = transport.retryDelayMs ∧
    (transport.send message).channels = transport.channels ∧ (transport.send message).socket = transport.socket := by
  cases hcurrent : transport.current? with
  | none =>
    unfold send
    rw [hcurrent]
    exact ⟨rfl, rfl, rfl, rfl⟩
  | some found => exact current?_flags message hcurrent

theorem close_flags : transport.close.closedByUs = true ∧ transport.close.retryDelayMs = transport.retryDelayMs ∧
    transport.close.channels = transport.channels ∧ transport.close.socket = transport.socket := by
  unfold close
  split <;> exact ⟨rfl, rfl, rfl, rfl⟩

theorem Tracks.started : ({} : WebSocketTransport M).Tracks {} :=
  ⟨rfl, show (1000 : Int) = min (1000 * 2 ^ 0) 60000 by decide⟩

theorem Tracks.step {seen : Outages} (tracks : transport.Tracks seen) (h : transport.step event = some next) :
    next.Tracks (seen.see event) := by
  obtain ⟨hclosed, hdelay⟩ := tracks
  cases happens_of_step h with
  | connect => exact ⟨rfl, hdelay⟩
  | opened => exact ⟨hclosed, rfl⟩
  | closed =>
    unfold onClose Outages.see
    dsimp only
    by_cases hby : transport.closedByUs = true
    · rw [if_pos hby, if_pos (hclosed ▸ hby)]
      exact ⟨hclosed, hdelay⟩
    · rw [if_neg hby, if_neg (hclosed ▸ hby)]
      refine ⟨hclosed, ?_⟩
      rw [delay_failed, ← hdelay]
  | ring => exact ⟨hclosed, hdelay⟩
  | send message =>
    obtain ⟨hsame, hsame', _⟩ := @send_flags _ transport message
    exact ⟨hsame.trans hclosed, hsame'.trans hdelay⟩
  | close =>
    obtain ⟨hsame, hsame', _⟩ := @close_flags _ transport
    exact ⟨hsame, hsame'.trans hdelay⟩

theorem step_channels (h : transport.step event = some next) :
    (event = .connect ∧ next.channels = transport.channels + 1) ∨
      (event ≠ .connect ∧ next.channels = transport.channels) := by
  cases happens_of_step h with
  | connect => exact Or.inl ⟨rfl, rfl⟩
  | opened => exact Or.inr ⟨nofun, rfl⟩
  | closed =>
    refine Or.inr ⟨nofun, ?_⟩
    unfold onClose
    dsimp only
    split <;> rfl
  | ring => exact Or.inr ⟨nofun, rfl⟩
  | send message => exact Or.inr ⟨nofun, (@send_flags _ transport message).2.2.1⟩
  | close => exact Or.inr ⟨nofun, (@close_flags _ transport).2.2.1⟩

/-- A `connect` call has one connection or one retry, unless the app has closed the transport, and one at most then. -/
structure Kept (transport : WebSocketTransport M) : Prop where
  most : ∀ channel, transport.live channel + transport.retries channel ≤ if channel < transport.channels then 1 else 0

theorem Kept.step (kept : transport.Kept) (h : transport.step event = some next) : next.Kept := by
  refine ⟨fun channel => ?_⟩
  have hmost := kept.most channel
  rcases step_channels h with ⟨hevent, hchannels⟩ | ⟨hevent, hchannels⟩
  · rcases step_conserves h channel with ⟨_, hsum⟩ | ⟨_, hsum⟩ | ⟨hnot, _⟩
    · rw [hsum, hchannels]
      split <;> split at hmost <;> split <;> omega
    · rw [hchannels]
      split at hmost <;> split <;> omega
    · exact absurd hevent hnot
  · rcases step_conserves h channel with ⟨hconnect, _⟩ | ⟨_, hsum⟩ | ⟨_, hsum⟩
    · exact absurd hconnect hevent
    · rw [hchannels]
      omega
    · rw [hchannels]
      omega

theorem Kept.run (kept : transport.Kept) {events : List (TransportEvent M)} (h : transport.run events = some next) :
    next.Kept := by
  induction events generalizing transport with
  | nil =>
    obtain rfl := Option.some.inj h
    exact kept
  | cons event events ih =>
    obtain ⟨mid, hmid, h⟩ := Option.bind_eq_some_iff.mp h
    exact ih (kept.step hmid) h

theorem Kept.started : ({} : WebSocketTransport M).Kept := ⟨fun _ => Nat.zero_le _⟩

theorem Tracks.run {seen : Outages} (tracks : transport.Tracks seen) {events : List (TransportEvent M)}
    (h : transport.run events = some next) : next.Tracks (events.foldl Outages.see seen) := by
  induction events generalizing transport seen with
  | nil =>
    obtain rfl := Option.some.inj h
    exact tracks
  | cons event events ih =>
    obtain ⟨mid, hmid, h⟩ := Option.bind_eq_some_iff.mp h
    exact ih (tracks.step hmid) h

theorem step_closedByUs (h : transport.step event = some next) (hclosed : next.closedByUs = true) :
    transport.closedByUs = true ∨ event = .close := by
  cases happens_of_step h with
  | connect => cases hclosed
  | opened => exact Or.inl hclosed
  | closed =>
    unfold onClose at hclosed
    dsimp only at hclosed
    split at hclosed <;> exact Or.inl hclosed
  | ring => exact Or.inl hclosed
  | send message => exact Or.inl ((@send_flags _ transport message).1.symm.trans hclosed)
  | close => exact Or.inr rfl

/-- What holds as long as the app does not close the transport. -/
structure Unbroken (transport : WebSocketTransport M) : Prop where
  closedByUs : transport.closedByUs = false
  one : ∀ channel, transport.live channel + transport.retries channel = if channel < transport.channels then 1 else 0

theorem Unbroken.step (unbroken : transport.Unbroken) (hevent : event ≠ .close)
    (h : transport.step event = some next) : next.Unbroken := by
  obtain ⟨hclosed, hone⟩ := unbroken
  have hnot : ¬transport.closedByUs = true := by
    rw [hclosed]
    exact Bool.false_ne_true
  refine ⟨?_, fun channel => ?_⟩
  · by_contra hnext
    rcases step_closedByUs h (Bool.not_eq_false _ ▸ hnext) with hclosed | hclose
    · exact hnot hclosed
    · exact hevent hclose
  · have hchannel := hone channel
    rcases step_conserves h channel with ⟨hconnect, hsum⟩ | ⟨hclosed, _⟩ | ⟨hconnect, hsum⟩
    · rcases step_channels h with ⟨_, hchannels⟩ | ⟨hconnect', _⟩
      · rw [hsum, hchannels]
        split <;> split at hchannel <;> split <;> omega
      · exact absurd hconnect hconnect'
    · exact absurd hclosed hnot
    · rcases step_channels h with ⟨hconnect', _⟩ | ⟨_, hchannels⟩
      · exact absurd hconnect' hconnect
      · rw [hsum, hchannels]
        exact hchannel

theorem Unbroken.run (unbroken : transport.Unbroken) {events : List (TransportEvent M)}
    (hevents : ∀ event ∈ events, event ≠ .close) (h : transport.run events = some next) : next.Unbroken := by
  induction events generalizing transport with
  | nil =>
    obtain rfl := Option.some.inj h
    exact unbroken
  | cons event events ih =>
    obtain ⟨mid, hmid, h⟩ := Option.bind_eq_some_iff.mp h
    have hstep := unbroken.step (hevents event List.mem_cons_self) hmid
    exact ih hstep (fun event hmem => hevents event (List.mem_cons_of_mem _ hmem)) h

end WebSocketTransport

/-- A token goes up a socket first, if at all, and nothing before the socket is open. -/
structure WebSocket.TokenFirst {M : Type} (socket : WebSocket M) : Prop where
  silent : socket.readyState = .connecting → socket.sent = []
  first : ∀ frame ∈ socket.sent.tail, ∃ message, frame = .message message

namespace WebSocketTransport

variable {M : Type} {transport next : WebSocketTransport M} {event : TransportEvent M}

theorem tokenFirst_set {sockets : List (WebSocket M)} (h : ∀ socket ∈ sockets, socket.TokenFirst) {i : Nat}
    {changed : WebSocket M} (hchanged : changed.TokenFirst) : ∀ socket ∈ sockets.set i changed, socket.TokenFirst := by
  intro socket hmem
  rcases List.mem_or_eq_of_mem_set hmem with hmem | rfl
  · exact h socket hmem
  · exact hchanged

theorem tokenFirst_open {sockets : List (WebSocket M)} (h : ∀ socket ∈ sockets, socket.TokenFirst) (channel : Nat) :
    ∀ socket ∈ sockets ++ [({ channel := channel } : WebSocket M)], socket.TokenFirst := by
  intro socket hmem
  rcases List.mem_append.mp hmem with hmem | hmem
  · exact h socket hmem
  · obtain rfl := List.mem_singleton.mp hmem
    exact ⟨fun _ => rfl, fun _ h => absurd h List.not_mem_nil⟩

theorem step_tokenFirst (h : transport.step event = some next) (tokens : ∀ socket ∈ transport.sockets, socket.TokenFirst) :
    ∀ socket ∈ next.sockets, socket.TokenFirst := by
  cases happens_of_step h with
  | connect => exact tokenFirst_open tokens _
  | @opened i socket token found connecting =>
    have hsilent := (tokens socket (List.mem_of_getElem? found)).silent connecting
    refine tokenFirst_set tokens ⟨fun h => ?_, ?_⟩
    · rw [(socket.authenticated_same token).2] at h
      cases h
    · unfold WebSocket.authenticated WebSocket.push
      split <;> simp [hsilent]
  | @closed i socket uptime found live =>
    have hsent := tokens socket (List.mem_of_getElem? found)
    have hset := @tokenFirst_set _ _ tokens i { socket with readyState := .closed } ⟨nofun, hsent.first⟩
    unfold onClose
    dsimp only
    split <;> exact hset
  | ring => exact tokenFirst_open tokens _
  | send message =>
    unfold send
    cases hcurrent : transport.current? with
    | none => exact tokens
    | some found =>
      dsimp only
      by_cases hopen : found.2.readyState = .open
      · rw [if_pos hopen]
        have hsent := tokens found.2 (List.mem_of_getElem? (current?_eq hcurrent).2)
        refine tokenFirst_set tokens ⟨fun h => ?_, ?_⟩
        · rw [show (found.2.push (.message message)).readyState = .open from hopen] at h
          cases h
        · intro frame hmem
          unfold WebSocket.push at hmem
          rcases hempty : found.2.sent with _ | ⟨first, rest⟩
          · rw [hempty] at hmem
            cases hmem
          · rw [hempty, List.cons_append, List.tail_cons] at hmem
            rcases List.mem_append.mp hmem with hmem | hmem
            · exact hsent.first frame (by rw [hempty]; exact hmem)
            · exact ⟨message, List.mem_singleton.mp hmem⟩
      · rw [if_neg hopen]
        exact tokens
  | close =>
    unfold close
    cases hcurrent : transport.current? with
    | none => exact tokens
    | some found =>
      have hsent := tokens found.2 (List.mem_of_getElem? (current?_eq hcurrent).2)
      refine tokenFirst_set tokens ⟨fun h => ?_, ?_⟩
      · rw [found.2.close_same.2.2]
        unfold WebSocket.close at h
        split at h
        next => exact hsent.silent h
        next => cases h
      · rw [found.2.close_same.2.2]
        exact hsent.first

theorem run_tokenFirst {events : List (TransportEvent M)} (h : transport.run events = some next)
    (tokens : ∀ socket ∈ transport.sockets, socket.TokenFirst) : ∀ socket ∈ next.sockets, socket.TokenFirst := by
  induction events generalizing transport with
  | nil =>
    obtain rfl := Option.some.inj h
    exact tokens
  | cons event events ih =>
    obtain ⟨mid, hmid, h⟩ := Option.bind_eq_some_iff.mp h
    exact ih h (step_tokenFirst hmid tokens)

/-- Whatever happens to the network, a `connect` call has one connection or one retry pending and never two, as long as
the app does not close the transport, and one at most if it does. A connection that fails is tried again after a second,
doubled with each failure since one was last up, and a minute at most; and a token goes up a socket before any message. -/
theorem channel_kept {events : List (TransportEvent M)} (h : run {} events = some transport) :
    (∀ channel, transport.live channel + transport.retries channel ≤ 1) ∧
    ((∀ event ∈ events, event ≠ .close) →
      ∀ channel, channel < transport.channels → transport.live channel + transport.retries channel = 1) ∧
    (∀ i uptime next, transport.step (.closed i uptime) = some next → transport.closedByUs = false →
      ∃ timer ∈ next.timers.pending, timer.due = uptime + (Outages.ofRun events).delay ∧
        ∃ socket, transport.sockets[i]? = some socket ∧ timer.call = socket.channel) ∧
    ∀ socket ∈ transport.sockets, socket.TokenFirst := by
  have tracks := Tracks.started.run h
  refine ⟨?_, ?_, ?_, ?_⟩
  · intro channel
    have hmost := (Kept.started.run h).most channel
    split at hmost <;> omega
  · intro hevents channel hchannel
    have hunbroken := @Unbroken.run _ _ _ ⟨rfl, fun _ => rfl⟩ _ hevents h
    rw [hunbroken.one channel, if_pos hchannel]
  · intro i uptime next hstep hopen
    cases happens_of_step hstep with
    | @closed i socket uptime found live =>
      refine ⟨⟨transport.timers.nextId, uptime + transport.retryDelayMs, socket.channel⟩, ?_, ?_, socket, found, rfl⟩
      · unfold onClose
        dsimp only
        rw [if_neg (by rw [hopen]; exact Bool.false_ne_true)]
        exact List.mem_append_right _ List.mem_cons_self
      · rw [tracks.retryDelayMs]
        rfl
  · exact run_tokenFirst h (fun _ hmem => absurd hmem List.not_mem_nil)

/-- A connection that has dropped, and its retry. -/
theorem channel_kept_dropped : ∃ transport : WebSocketTransport Unit,
    run {} [.connect, .opened 0 (some "token"), .closed 0 5, .ring 0 1005] = some transport ∧
      transport.live 0 + transport.retries 0 = 1 := by
  refine ⟨_, rfl, ?_⟩
  have hkept := @channel_kept Unit _ [.connect, .opened 0 (some "token"), .closed 0 5, .ring 0 1005] rfl
  refine hkept.2.1 ?_ 0 (by decide)
  intro event hevent
  simp only [List.mem_cons, List.not_mem_nil, or_false] at hevent
  rcases hevent with rfl | rfl | rfl | rfl <;> exact nofun

/-- With one `connect` call, the socket that the transport holds is the only one that has not closed. -/
structure Single (transport : WebSocketTransport M) : Prop where
  unopened : transport.channels = 0 → transport.sockets = []
  channel : ∀ socket ∈ transport.sockets, socket.channel < transport.channels
  call : ∀ timer ∈ transport.timers.pending, timer.call < transport.channels
  held : transport.channels = 1 → ∀ (i : Nat) (socket : WebSocket M), transport.sockets[i]? = some socket →
    socket.readyState ≠ .closed → transport.socket = some i

theorem getElem?_append_one {sockets : List (WebSocket M)} {opened socket : WebSocket M} {i : Nat}
    (h : (sockets ++ [opened])[i]? = some socket) : sockets[i]? = some socket ∨ (i = sockets.length ∧ socket = opened) := by
  by_cases hi : i < sockets.length
  · rw [List.getElem?_append_left hi] at h
    exact Or.inl h
  · rw [List.getElem?_append_right (Nat.le_of_not_lt hi)] at h
    have hzero : i - sockets.length = 0 := by
      by_contra hne
      rw [List.getElem?_eq_none (by simpa using Nat.one_le_iff_ne_zero.mpr hne)] at h
      cases h
    rw [hzero] at h
    exact Or.inr ⟨by omega, (Option.some.inj h).symm⟩

/-- Changing a socket in place, on its channel and without reviving it. -/
theorem Single.set (single : transport.Single) {i : Nat} {socket changed : WebSocket M}
    (found : transport.sockets[i]? = some socket) (hchannel : changed.channel = socket.channel)
    (hstate : changed.readyState ≠ .closed → socket.readyState ≠ .closed)
    (hsockets : next.sockets = transport.sockets.set i changed) (hchannels : next.channels = transport.channels)
    (hsocket : next.socket = transport.socket)
    (hcall : ∀ timer ∈ next.timers.pending, timer.call < transport.channels) : next.Single := by
  refine ⟨?_, ?_, ?_, ?_⟩
  · intro h
    rw [hsockets, single.unopened (hchannels ▸ h)]
    rfl
  · intro other hother
    rw [hsockets] at hother
    rw [hchannels]
    rcases List.mem_or_eq_of_mem_set hother with hother | rfl
    · exact single.channel other hother
    · rw [hchannel]
      exact single.channel socket (List.mem_of_getElem? found)
  · rw [hchannels]
    exact hcall
  · intro hone j other hother hlive
    rw [hsockets, List.getElem?_set] at hother
    rw [hsocket]
    rw [hchannels] at hone
    split at hother
    next hsame =>
      subst hsame
      split at hother
      next =>
        obtain rfl := Option.some.inj hother
        exact single.held hone i socket found (hstate hlive)
      next => cases hother
    next => exact single.held hone j other hother hlive

theorem Single.openChannel (single : transport.Single) {opened : Nat}
    (hopened : opened < transport.channels) (hnone : transport.channels = 1 → transport.live 0 = 0) :
    (transport.openChannel opened).Single := by
  refine ⟨fun h => ?_, ?_, single.call, ?_⟩
  · have hzero : transport.channels = 0 := h
    omega
  · intro socket hsocket
    rcases List.mem_append.mp hsocket with hsocket | hsocket
    · exact single.channel socket hsocket
    · rw [List.mem_singleton.mp hsocket]
      exact hopened
  · intro hone i socket hsocket hlive
    rcases getElem?_append_one hsocket with hsocket | ⟨rfl, _⟩
    · have hcount := hnone hone
      have hmem := List.mem_of_getElem? hsocket
      have hchannel : socket.channel = 0 := by
        have := single.channel socket hmem
        have hone' : transport.channels = 1 := hone
        omega
      unfold live at hcount
      rw [List.countP_eq_zero] at hcount
      exact absurd (decide_eq_true (show socket.LiveOn 0 from ⟨hchannel, hlive⟩)) (hcount socket hmem)
    · rfl

theorem Single.step (kept : transport.Kept) (single : transport.Single) (h : transport.step event = some next) :
    next.Single := by
  cases happens_of_step h with
  | connect =>
    refine ⟨nofun, ?_, ?_, ?_⟩
    · intro socket hsocket
      rcases List.mem_append.mp hsocket with hsocket | hsocket
      · exact Nat.lt_succ_of_lt (single.channel socket hsocket)
      · rw [List.mem_singleton.mp hsocket]
        exact Nat.lt_succ_self _
    · exact fun timer hmem => Nat.lt_succ_of_lt (single.call timer hmem)
    · intro hone i socket hsocket _
      have hfirst : transport.channels = 0 := Nat.succ.inj hone
      rcases getElem?_append_one hsocket with hsocket | ⟨rfl, _⟩
      · rw [show transport.sockets = [] from single.unopened hfirst] at hsocket
        cases hsocket
      · rfl
  | @opened i socket token found connecting =>
    obtain ⟨hchannel, hopen⟩ := socket.authenticated_same token
    refine single.set found hchannel (fun _ => ?_) rfl rfl rfl single.call
    rw [connecting]
    exact nofun
  | @closed i socket uptime found live =>
    have hset := @Single.set _ _ (transport.onClose i socket uptime) single i socket { socket with readyState := .closed }
      found rfl (fun h => absurd rfl h)
    unfold onClose at hset ⊢
    dsimp only at hset ⊢
    split
    next hclosed =>
      rw [if_pos hclosed] at hset
      exact hset rfl rfl rfl single.call
    next hopen =>
      rw [if_neg hopen] at hset
      refine hset rfl rfl rfl (fun timer hmem => ?_)
      rcases List.mem_append.mp hmem with hmem | hmem
      · exact single.call timer hmem
      · rw [List.mem_singleton.mp hmem]
        exact single.channel socket (List.mem_of_getElem? found)
  | @ring timer uptime pending due =>
    have hcleared : ({ transport with timers := transport.timers.clearTimeout timer.id } : WebSocketTransport M).Single :=
      ⟨single.unopened, single.channel, fun other hmem => single.call other (List.mem_of_mem_filter hmem), single.held⟩
    refine hcleared.openChannel (single.call timer pending) (fun hone => ?_)
    -- The one call of `connect` has a retry pending, and so no connection.
    have hmost := kept.most 0
    have hcall : timer.call = 0 := by
      have := single.call timer pending
      have hone' : transport.channels = 1 := hone
      omega
    have hretries : 0 < transport.retries 0 := List.countP_pos_iff.mpr ⟨timer, pending, decide_eq_true hcall⟩
    show transport.live 0 = 0
    split at hmost <;> omega
  | send message =>
    unfold send
    cases hcurrent : transport.current? with
    | none => exact single
    | some found =>
      dsimp only
      split
      · exact @Single.set _ _ _ single _ _ (found.2.push (.message message)) (current?_eq hcurrent).2 rfl id rfl rfl rfl
          single.call
      · exact single
  | close =>
    unfold close
    cases hcurrent : transport.current? with
    | none => exact ⟨single.unopened, single.channel, single.call, single.held⟩
    | some found =>
      obtain ⟨hchannel, hstate, _⟩ := found.2.close_same
      exact single.set (current?_eq hcurrent).2 hchannel (fun h h' => h (hstate.mpr h')) rfl rfl rfl single.call

theorem Single.run (kept : transport.Kept) (single : transport.Single) {events : List (TransportEvent M)}
    (h : transport.run events = some next) : next.Single := by
  induction events generalizing transport with
  | nil =>
    obtain rfl := Option.some.inj h
    exact single
  | cons event events ih =>
    obtain ⟨mid, hmid, h⟩ := Option.bind_eq_some_iff.mp h
    exact ih (kept.step hmid) (single.step kept hmid) h

theorem Single.started : ({} : WebSocketTransport M).Single :=
  ⟨fun _ => rfl, fun _ h => absurd h List.not_mem_nil, fun _ h => absurd h List.not_mem_nil, nofun⟩

/-- No connection is up or coming up, and nothing can bring one up but another `connect`. -/
structure Ended (transport : WebSocketTransport M) : Prop where
  closedByUs : transport.closedByUs = true
  pending : transport.timers.pending = []
  sockets : ∀ socket ∈ transport.sockets, ¬socket.Usable

theorem Ended.step (ended : transport.Ended) (hevent : event ≠ .connect) (h : transport.step event = some next) :
    next.Ended := by
  obtain ⟨hclosed, hpending, hsockets⟩ := ended
  cases happens_of_step h with
  | connect => exact absurd rfl hevent
  | @opened i socket token found connecting =>
    exact absurd (Or.inl connecting) (hsockets socket (List.mem_of_getElem? found))
  | @closed i socket uptime found live =>
    unfold onClose
    dsimp only
    rw [if_pos hclosed]
    refine ⟨hclosed, hpending, fun other hmem => ?_⟩
    rcases List.mem_or_eq_of_mem_set hmem with hmem | rfl
    · exact hsockets other hmem
    · rintro (h | h) <;> cases h
  | @ring timer uptime pending due =>
    rw [hpending] at pending
    cases pending
  | send message =>
    unfold send
    cases hcurrent : transport.current? with
    | none => exact ⟨hclosed, hpending, hsockets⟩
    | some found =>
      dsimp only
      by_cases hopen : found.2.readyState = .open
      · exact absurd (Or.inr hopen) (hsockets found.2 (List.mem_of_getElem? (current?_eq hcurrent).2))
      · rw [if_neg hopen]
        exact ⟨hclosed, hpending, hsockets⟩
  | close =>
    unfold close
    cases hcurrent : transport.current? with
    | none => exact ⟨rfl, hpending, hsockets⟩
    | some found =>
      refine ⟨rfl, hpending, fun other hmem => ?_⟩
      rcases List.mem_or_eq_of_mem_set hmem with hmem | rfl
      · exact hsockets other hmem
      · unfold WebSocket.close
        split
        next => exact hsockets found.2 (List.mem_of_getElem? (current?_eq hcurrent).2)
        next => rintro (h | h) <;> cases h

theorem Ended.run (ended : transport.Ended) {events : List (TransportEvent M)}
    (hevents : ∀ event ∈ events, event ≠ .connect) (h : transport.run events = some next) : next.Ended := by
  induction events generalizing transport with
  | nil =>
    obtain rfl := Option.some.inj h
    exact ended
  | cons event events ih =>
    obtain ⟨mid, hmid, h⟩ := Option.bind_eq_some_iff.mp h
    have hstep := ended.step (hevents event List.mem_cons_self) hmid
    exact ih hstep (fun event hmem => hevents event (List.mem_cons_of_mem _ hmem)) h

theorem current?_of {i : Nat} {socket : WebSocket M} (hsocket : transport.socket = some i)
    (found : transport.sockets[i]? = some socket) : transport.current? = some (i, socket) := by
  unfold current?
  rw [hsocket]
  show (transport.sockets[i]?.bind fun socket => some (i, socket)) = _
  rw [found]
  rfl

/-- Closing a transport with one `connect` call and no retry pending ends it. -/
theorem Single.ended (single : transport.Single) (hone : transport.channels = 1)
    (hpending : transport.timers.pending = []) : transport.close.Ended := by
  have hheld : ∀ (j : Nat) (socket : WebSocket M), transport.sockets[j]? = some socket → socket.Usable →
      transport.current? = some (j, socket) := by
    intro j socket found usable
    refine current?_of (single.held hone j socket found ?_) found
    rcases usable with h | h <;> rw [h] <;> exact nofun
  unfold close
  cases hcurrent : transport.current? with
  | none =>
    refine ⟨rfl, hpending, fun socket hmem usable => ?_⟩
    obtain ⟨j, found⟩ := List.mem_iff_getElem?.mp hmem
    rw [hheld j socket found usable] at hcurrent
    cases hcurrent
  | some found =>
    refine ⟨rfl, hpending, fun socket hmem usable => ?_⟩
    obtain ⟨j, hj⟩ := List.mem_iff_getElem?.mp hmem
    rw [List.getElem?_set] at hj
    split at hj
    next hsame =>
      split at hj
      next =>
        obtain rfl := Option.some.inj hj
        unfold WebSocket.close WebSocket.Usable at usable
        split at usable
        next hshut => rcases usable with h | h <;> rw [h] at hshut <;> rcases hshut with h | h <;> cases h
        next => rcases usable with h | h <;> cases h
      next => cases hj
    next hother =>
      rw [hheld j socket hj usable] at hcurrent
      obtain rfl := Option.some.inj hcurrent
      exact hother rfl

/-- A retry that is pending when the transport is closed opens another socket, and the token goes up it. -/
theorem reopens {timer : Timer Nat} (hmem : timer ∈ transport.timers.pending) {token : String} (htoken : token ≠ "") :
    ∃ final, run transport.close [.ring timer.id timer.due, .opened transport.close.sockets.length (some token)] =
      some final ∧ ∃ socket ∈ final.sockets, socket.readyState = .open ∧ .authenticate token ∈ socket.sent := by
  have hpending : timer ∈ transport.close.timers.pending := by
    rw [(@close_conserves _ transport 0).2]
    exact hmem
  have hring := Timers.ring_pending hpending (Int.le_refl timer.due)
  generalize transport.close = closed at hring ⊢
  let socket : WebSocket M := { channel := timer.call }
  let mid := { closed with timers := closed.timers.clearTimeout timer.id }.openChannel timer.call
  have hfirst : closed.step (.ring timer.id timer.due) = some mid := by
    show (closed.timers.ring timer.id timer.due).bind _ = _
    rw [hring]
    rfl
  have hfound : mid.sockets[closed.sockets.length]? = some socket := List.getElem?_concat_length
  have hsecond : mid.step (.opened closed.sockets.length (some token)) =
      some (mid.onOpen closed.sockets.length socket (some token)) := by
    show mid.sockets[closed.sockets.length]?.bind _ = _
    rw [hfound]
    rfl
  have hrun : closed.run [.ring timer.id timer.due, .opened closed.sockets.length (some token)] =
      some (mid.onOpen closed.sockets.length socket (some token)) := by
    rw [run, hfirst, Option.bind_some, run, hsecond]
    rfl
  refine ⟨_, hrun, socket.authenticated (some token), ?_, (socket.authenticated_same _).2, ?_⟩
  · exact List.mem_set (by simp [mid, openChannel]) _
  · have hfilter : (some token).filter (· ≠ "") = some token := by simp [htoken]
    unfold WebSocket.authenticated
    rw [hfilter]
    exact List.mem_singleton.mpr rfl

/-- A transport on which `connect` was called once is closed for good by `close` exactly where no retry is pending then;
a retry that is opens another socket, on which the token of the moment goes up. -/
theorem closed_for_good_iff {events : List (TransportEvent M)} (h : run {} events = some transport)
    (hone : transport.channels = 1) :
    ((∀ later final, (∀ event ∈ later, event ≠ .connect) → run transport.close later = some final →
        ∀ socket ∈ final.sockets, ¬socket.Usable) ↔ transport.timers.pending = []) ∧
    (transport.timers.pending ≠ [] → ∀ token, token ≠ "" → ∃ later final, (∀ event ∈ later, event ≠ .connect) ∧
      run transport.close later = some final ∧
        ∃ socket ∈ final.sockets, socket.readyState = .open ∧ .authenticate token ∈ socket.sent) := by
  have single := Single.started.run Kept.started h
  have hreopens : transport.timers.pending ≠ [] → ∀ token, token ≠ "" → ∃ later final,
      (∀ event ∈ later, event ≠ .connect) ∧ run transport.close later = some final ∧
        ∃ socket ∈ final.sockets, socket.readyState = .open ∧ .authenticate token ∈ socket.sent := by
    intro hpending token htoken
    obtain ⟨timer, hmem⟩ := List.exists_mem_of_ne_nil _ hpending
    obtain ⟨final, hrun, hopen⟩ := @reopens _ transport timer hmem token htoken
    refine ⟨_, final, ?_, hrun, hopen⟩
    intro event hevent
    simp only [List.mem_cons, List.not_mem_nil, or_false] at hevent
    rcases hevent with rfl | rfl <;> exact nofun
  refine ⟨⟨?_, ?_⟩, hreopens⟩
  · intro hended
    by_contra hpending
    obtain ⟨later, final, hlater, hrun, socket, hsocket, hopen, _⟩ := hreopens hpending "token" (by decide)
    exact hended later final hlater hrun socket hsocket (Or.inr hopen)
  · intro hpending later final hlater hrun
    exact ((single.ended hone hpending).run hlater hrun).sockets

/-- A transport whose one connection has dropped. -/
def dropped : WebSocketTransport Unit := (run {} [.connect, .closed 0 5]).getD {}

/-- A phone that is locked while its connection is down comes back to the relay afterwards. -/
theorem closed_for_good_iff_dropped : ∃ (final : WebSocketTransport Unit) (later : List (TransportEvent Unit)),
    run dropped.close later = some final ∧
      ∃ socket ∈ final.sockets, socket.readyState = .open ∧ .authenticate "token" ∈ socket.sent := by
  have hrun : run {} [.connect, .closed 0 5] = some dropped := rfl
  obtain ⟨_, hreopens⟩ := closed_for_good_iff hrun rfl
  obtain ⟨later, final, _, hlater, hopen⟩ := hreopens (List.cons_ne_nil _ _) "token" (by decide)
  exact ⟨final, later, hlater, hopen⟩

end WebSocketTransport

end Veil

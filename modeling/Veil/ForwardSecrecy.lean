import Veil.Symbolic

namespace Veil

open Secret

section

variable (world : SymbolicSetting)

/-- One end of a session, with the message keys of everything it has sent or read. -/
structure RatchetEnd where
  state : RatchetState Secret
  spent : List Secret := []

namespace RatchetEnd

def send (plaintext : Bytes) (w : RatchetEnd) : RatchetEnd where
  state := (ratchetEncrypt (symbolic world) w.state plaintext).1
  spent := (sendingMessageKey (symbolic world) w.state).toList ++ w.spent

def receive (fresh : KeyPair Secret) (message : RatchetMessage) (w : RatchetEnd) : RatchetEnd :=
  match ratchetDecrypt (symbolic world) fresh w.state message with
  | (state, .error _) => { w with state }
  | (state, .ok _) =>
    { state, spent := (receivingMessageKey (symbolic world) fresh w.state message).toList ++ w.spent }

/-- Anything may be sent, and anything at all may arrive. -/
inductive Step : RatchetEnd → RatchetEnd → Prop
  | send (w : RatchetEnd) (plaintext : Bytes) : Step w (w.send world plaintext)
  | receive (w : RatchetEnd) {fresh : KeyPair Secret} (hfresh : IsGenerated fresh.secretKey) (message : RatchetMessage) :
      Step w (w.receive world fresh message)

/-- Either end of a session straight after the handshake. -/
inductive Start : RatchetEnd → Prop
  | initiator {sending : KeyPair Secret} {peer associatedData : Bytes} {state : RatchetState Secret}
      (generated : IsGenerated sending.secretKey)
      (h : initialiseInitiator (symbolic world) sending handshake peer associatedData = .ok state) : Start { state }
  | responder {pair : KeyPair Secret} (generated : IsGenerated pair.secretKey) (associatedData : Bytes) :
      Start { state := initialiseResponder handshake pair associatedData }

end RatchetEnd

/-- Where the keys of a state stand: one chain to a root step, and no key in two places. -/
structure Tracked (state : RatchetState Secret) : Prop where
  root : IsRoot state.rootKey
  pair : IsGenerated state.sending.secretKey
  sending : ∀ c, state.sendingChainKey = some c → IsChain c ∧ c.depth ≤ state.rootKey.depth
  receiving : ∀ c, state.receivingChainKey = some c → IsChain c ∧ c.depth ≤ state.rootKey.depth ∧
    ∀ c', state.sendingChainKey = some c' → c'.depth ≠ c.depth
  cached : ∀ id entry, state.skipped.get? id = some entry → ∃ c, entry.messageKey = message c ∧ IsChain c ∧
    c.depth ≤ state.rootKey.depth ∧ (∀ c', state.sendingChainKey = some c' → c'.depth ≠ c.depth) ∧
    ∀ c', state.receivingChainKey = some c' → c'.depth = c.depth → c.index < c'.index
  distinct : ∀ id id' entry entry', state.skipped.get? id = some entry → state.skipped.get? id' = some entry' →
    entry.messageKey = entry'.messageKey → id = id'

end

namespace Tracked

section

variable {world : SymbolicSetting} {fresh : KeyPair Secret} {state next : RatchetState Secret}

theorem encrypt (h : Tracked state) (plaintext : Bytes) :
    Tracked (ratchetEncrypt (symbolic world) state plaintext).1 := by
  unfold ratchetEncrypt
  split
  next => exact h
  next c hc =>
    obtain ⟨hchain, hdepth⟩ := h.sending c hc
    refine ⟨h.root, h.pair, ?_, ?_, ?_, h.distinct⟩
    · rintro _ ⟨rfl⟩
      exact ⟨.next hchain, hdepth⟩
    · intro r hr
      obtain ⟨hrchain, hrdepth, hapart⟩ := h.receiving r hr
      refine ⟨hrchain, hrdepth, ?_⟩
      rintro _ ⟨rfl⟩
      exact hapart c hc
    · intro id entry hget
      obtain ⟨k, hkey, hk, hkdepth, hapart, hbehind⟩ := h.cached id entry hget
      refine ⟨k, hkey, hk, hkdepth, ?_, hbehind⟩
      rintro _ ⟨rfl⟩
      exact hapart c hc

theorem move (hfresh : IsGenerated fresh.secretKey) (h : Tracked state)
    (move : RatchetMove (symbolic world) fresh state next) : Tracked next := by
  cases move with
  | @skip receiving c hr hc =>
    obtain ⟨hchain, hdepth, hapart⟩ := h.receiving c hc
    have hold : ∀ id entry, (evictOldest state.skipped).get? id = some entry → entry.messageKey ≠ message c := by
      intro id entry hget heq
      obtain ⟨k, hkey, _, _, _, hbehind⟩ := h.cached id entry (evictOldest_get? hget)
      obtain rfl : k = c := message.inj (hkey.symm.trans heq)
      exact absurd (hbehind k hc rfl) (lt_irrefl _)
    simp only [skipOne, hc, rememberSkipped]
    refine ⟨h.root, h.pair, h.sending, ?_, ?_, ?_⟩
    · rintro _ ⟨rfl⟩
      exact ⟨.next hchain, hdepth, hapart⟩
    · intro id entry hget
      simp only [OrderedMap.get?_set] at hget
      split at hget
      next =>
        obtain rfl := Option.some.inj hget
        refine ⟨c, rfl, hchain, hdepth, hapart, ?_⟩
        rintro _ ⟨rfl⟩ _
        exact Nat.lt_succ_self _
      next =>
        obtain ⟨k, hkey, hk, hkdepth, hkapart, hbehind⟩ := h.cached id entry (evictOldest_get? hget)
        refine ⟨k, hkey, hk, hkdepth, hkapart, ?_⟩
        rintro _ ⟨rfl⟩ heq
        exact (hbehind c hc heq).trans (Nat.lt_succ_self _)
    · intro id id' entry entry' hget hget' heq
      simp only [OrderedMap.get?_set] at hget hget'
      split at hget
      next hid =>
        obtain rfl := Option.some.inj hget
        split at hget'
        next hid' => rw [hid, hid']
        next => exact absurd heq.symm (hold _ _ hget')
      next =>
        split at hget'
        next =>
          obtain rfl := Option.some.inj hget'
          exact absurd heq (hold _ _ hget)
        next => exact h.distinct id id' entry entry' (evictOldest_get? hget) (evictOldest_get? hget') heq
  | @turn header receivingDh hd =>
    refine ⟨.root h.root _, hfresh, ?_, ?_, ?_, h.distinct⟩
    · intro c hc
      exact ⟨(h.sending c hc).1, (h.sending c hc).2.trans (Nat.le_succ _)⟩
    · rintro _ ⟨rfl⟩
      refine ⟨.chain h.root _, le_rfl, ?_⟩
      intro c' hc'
      exact Nat.ne_of_lt (Nat.lt_succ_of_le (h.sending c' hc').2)
    · intro id entry hget
      obtain ⟨k, hkey, hk, hkdepth, hapart, _⟩ := h.cached id entry hget
      refine ⟨k, hkey, hk, hkdepth.trans (Nat.le_succ _), hapart, ?_⟩
      rintro _ ⟨rfl⟩ heq
      exact absurd heq (Nat.ne_of_gt (Nat.lt_succ_of_le hkdepth))
  | @reply publicKey sendingDh hd =>
    refine ⟨.root h.root _, h.pair, ?_, ?_, ?_, h.distinct⟩
    · rintro _ ⟨rfl⟩
      exact ⟨.chain h.root _, le_rfl⟩
    · intro c hc
      obtain ⟨hchain, hdepth, _⟩ := h.receiving c hc
      refine ⟨hchain, hdepth.trans (Nat.le_succ _), ?_⟩
      rintro _ ⟨rfl⟩
      exact Nat.ne_of_gt (Nat.lt_succ_of_le hdepth)
    · intro id entry hget
      obtain ⟨k, hkey, hk, hkdepth, _, hbehind⟩ := h.cached id entry hget
      refine ⟨k, hkey, hk, hkdepth.trans (Nat.le_succ _), ?_, hbehind⟩
      rintro _ ⟨rfl⟩
      exact Nat.ne_of_gt (Nat.lt_succ_of_le hkdepth)
  | drop id =>
    have hold : ∀ id' entry, (state.skipped.delete id).get? id' = some entry → state.skipped.get? id' = some entry := by
      intro id' entry hget
      rw [OrderedMap.get?_delete] at hget
      split at hget
      next => cases hget
      next => exact hget
    exact ⟨h.root, h.pair, h.sending, h.receiving, fun id' entry hget => h.cached id' entry (hold _ _ hget),
      fun _ _ _ _ hget hget' heq => h.distinct _ _ _ _ (hold _ _ hget) (hold _ _ hget') heq⟩
  | @take c hc =>
    obtain ⟨hchain, hdepth, hapart⟩ := h.receiving c hc
    refine ⟨h.root, h.pair, h.sending, ?_, ?_, h.distinct⟩
    · rintro _ ⟨rfl⟩
      exact ⟨.next hchain, hdepth, hapart⟩
    · intro id entry hget
      obtain ⟨k, hkey, hk, hkdepth, hkapart, hbehind⟩ := h.cached id entry hget
      refine ⟨k, hkey, hk, hkdepth, hkapart, ?_⟩
      rintro _ ⟨rfl⟩ heq
      exact (hbehind c hc heq).trans (Nat.lt_succ_self _)

theorem moves (hfresh : IsGenerated fresh.secretKey) (h : Tracked state)
    (moves : RatchetMoves (symbolic world) fresh state next) : Tracked next :=
  Runs.preserved (fun _ _ hmove hs => hs.move hfresh hmove) moves h

end

end Tracked

section

variable {world : SymbolicSetting} {fresh : KeyPair Secret} {state next : RatchetState Secret} {w : RatchetEnd}

/-- The state holds neither this message key nor anything it was derived from. -/
structure Gone (state : RatchetState Secret) (key : Secret) : Prop where
  form : ∃ c, key = message c ∧ IsChain c
  unheld : ∀ s ∈ key.origins, ¬Held state s

namespace Gone

/-- A chain key whose chain has moved on, if it is still there at all, and whose message key is not cached. -/
theorem of_passed (h : Tracked state) {c : Secret} (chain : IsChain c) (depth : c.depth ≤ state.rootKey.depth)
    (sending : ∀ c', state.sendingChainKey = some c' → c'.depth = c.depth → c.index < c'.index)
    (receiving : ∀ c', state.receivingChainKey = some c' → c'.depth = c.depth → c.index < c'.index)
    (uncached : ∀ id entry, state.skipped.get? id = some entry → entry.messageKey ≠ message c) :
    Gone state (message c) := by
  refine ⟨⟨c, rfl, chain⟩, ?_⟩
  intro s hs hheld
  have horigin : s = message c ∨ IsChain s ∧ s.depth = c.depth ∧ s.index ≤ c.index ∨
      IsRoot s ∧ s.depth < c.depth := (List.mem_cons.mp hs).imp_right chain.origins
  cases hheld with
  | rootKey =>
    rcases horigin with heq | ⟨hs, _⟩ | ⟨_, hlt⟩
    · exact not_isRoot_message c (heq ▸ h.root)
    · exact h.root.not_isChain hs
    · omega
  | sending =>
    rcases horigin with heq | ⟨hs, _⟩ | ⟨hs, _⟩
    · exact h.pair.ne_message c heq
    · exact h.pair.not_isChain hs
    · exact h.pair.not_isRoot hs
  | sendingChainKey hc =>
    rcases horigin with heq | ⟨_, hdepth, hindex⟩ | ⟨hs, _⟩
    · exact not_isChain_message c (heq ▸ (h.sending s hc).1)
    · exact absurd hindex (Nat.not_le.mpr (sending s hc hdepth))
    · exact hs.not_isChain (h.sending s hc).1
  | receivingChainKey hc =>
    rcases horigin with heq | ⟨_, hdepth, hindex⟩ | ⟨hs, _⟩
    · exact not_isChain_message c (heq ▸ (h.receiving s hc).1)
    · exact absurd hindex (Nat.not_le.mpr (receiving s hc hdepth))
    · exact hs.not_isChain (h.receiving s hc).1
  | skipped hget =>
    obtain ⟨k, hkey, _⟩ := h.cached _ _ hget
    rcases horigin with heq | ⟨hs, _⟩ | ⟨hs, _⟩
    · exact uncached _ _ hget heq
    · exact not_isChain_message k (hkey ▸ hs)
    · exact not_isRoot_message k (hkey ▸ hs)

theorem not_exposed {key s : Secret} (h : Gone state key) (hs : s ∈ key.origins) :
    ¬Exposed (symbolic world) IsGenerated state s := by
  obtain ⟨⟨c, rfl, chain⟩, unheld⟩ := h
  refine Derivation.not_derives (fun _ _ => origins_closed chain) ?_ hs
  rintro a ha (hheld | hgenerated)
  · exact unheld a ha hheld
  · rcases List.mem_cons.mp ha with rfl | ha
    · exact hgenerated.ne_message c rfl
    · rcases chain.origins ha with ⟨hs, _⟩ | ⟨hs, _⟩
      · exact hgenerated.not_isChain hs
      · exact hgenerated.not_isRoot hs

/-- A key that is gone stays gone, since nothing a later state holds was out of reach before. -/
theorem later {key : Secret} (h : Gone state key)
    (held : ∀ s, Held next s → Exposed (symbolic world) IsGenerated state s) : Gone next key :=
  ⟨h.form, fun s hs hheld => h.not_exposed hs (held s hheld)⟩

end Gone

theorem Tracked.encrypt_gone (h : Tracked state) {plaintext : Bytes} {c : Secret}
    (hc : state.sendingChainKey = some c) : Gone (ratchetEncrypt (symbolic world) state plaintext).1 (message c) := by
  obtain ⟨hchain, hdepth⟩ := h.sending c hc
  have htracked := @Tracked.encrypt world _ h plaintext
  have hnext : (ratchetEncrypt (symbolic world) state plaintext).1 =
      { state with sendingChainKey := some c.next, sentCount := state.sentCount + 1 } := by
    simp only [ratchetEncrypt, hc]
    rfl
  rw [hnext] at htracked ⊢
  refine .of_passed htracked hchain hdepth ?_ ?_ ?_
  · rintro _ ⟨rfl⟩ _
    exact Nat.lt_succ_self _
  · intro r hr heq
    exact absurd heq.symm ((h.receiving r hr).2.2 c hc)
  · intro id entry hget heq
    obtain ⟨k, hkey, _, _, hapart, _⟩ := h.cached id entry hget
    obtain rfl : k = c := message.inj (hkey.symm.trans heq)
    exact hapart k hc rfl

theorem Tracked.decrypt_gone (hfresh : IsGenerated fresh.secretKey) (h : Tracked state) {received : RatchetMessage}
    {plaintext : Bytes} (hd : ratchetDecrypt (symbolic world) fresh state received = (next, .ok plaintext)) :
    ∃ key, receivingMessageKey (symbolic world) fresh state received = some key ∧
      openWith (symbolic world) key state.associatedData received = .ok plaintext ∧ Gone next key := by
  have hmoves := @ratchetDecrypt_moves _ (symbolic world) fresh state received
  have htracked : Tracked next := by
    rw [hd] at hmoves
    exact h.moves hfresh hmoves
  obtain ⟨key, hkey, hopen, ⟨id, entry, hget, rfl, rfl⟩ | ⟨before, c, hbefore, hc, rfl, rfl⟩⟩ := ratchetDecrypt_spends hd
  · obtain ⟨k, hk, hchain, hdepth, hapart, hbehind⟩ := h.cached id entry hget
    refine ⟨_, hkey, hopen, ?_⟩
    rw [hk]
    refine .of_passed htracked hchain hdepth ?_ hbehind ?_
    · intro c' hc' heq
      exact absurd heq (hapart c' hc')
    · intro id' entry' hget' heq
      rw [OrderedMap.get?_delete] at hget'
      split at hget'
      next => cases hget'
      next hne => exact hne (h.distinct _ _ _ _ hget' hget (heq.trans hk.symm))
  · have hb := h.moves hfresh hbefore
    obtain ⟨hchain, hdepth, hapart⟩ := hb.receiving c hc
    refine ⟨_, hkey, hopen, .of_passed htracked hchain hdepth ?_ ?_ ?_⟩
    · intro c' hc' heq
      exact absurd heq (hapart c' hc')
    · rintro _ ⟨rfl⟩ _
      exact Nat.lt_succ_self _
    · intro id entry hget heq
      obtain ⟨k, hk, _, _, _, hbehind⟩ := hb.cached id entry hget
      obtain rfl : k = c := message.inj (hk.symm.trans heq)
      exact absurd (hbehind k hc rfl) (lt_irrefl _)

namespace RatchetEnd

/-- The invariant of a run: the state is tracked and everything spent is gone. -/
structure Secure (w : RatchetEnd) : Prop where
  tracked : Tracked w.state
  gone : ∀ key ∈ w.spent, Gone w.state key

theorem Start.secure (h : Start world w) : w.Secure := by
  refine ⟨?_, ?_⟩
  · cases h with
    | initiator generated hinit =>
      simp only [initialiseInitiator, Outcome.bind_eq_ok_iff, Outcome.pure_eq_ok_iff] at hinit
      obtain ⟨dhOutput, _, rfl⟩ := hinit
      refine ⟨.root .handshake _, generated, ?_, nofun, nofun, nofun⟩
      rintro _ ⟨rfl⟩
      exact ⟨.chain .handshake _, le_rfl⟩
    | responder generated ad => exact ⟨.handshake, generated, nofun, nofun, nofun, nofun⟩
  · cases h <;> exact fun _ hmem => absurd hmem List.not_mem_nil

theorem Secure.send (h : w.Secure) (plaintext : Bytes) : (w.send world plaintext).Secure := by
  refine ⟨h.tracked.encrypt plaintext, ?_⟩
  intro key hmem
  rcases List.mem_append.mp hmem with hnew | hold
  · obtain ⟨c, hc, rfl⟩ := Option.map_eq_some_iff.mp (Option.mem_toList.mp hnew)
    exact h.tracked.encrypt_gone hc
  · exact (h.gone key hold).later (fun s hs => Exposed.of_encrypt plaintext hs)

theorem Secure.receive (h : w.Secure) (hfresh : IsGenerated fresh.secretKey) (received : RatchetMessage) :
    (w.receive world fresh received).Secure := by
  have hmoves := @ratchetDecrypt_moves _ (symbolic world) fresh w.state received
  have hkept : ∀ key ∈ w.spent, Gone (ratchetDecrypt (symbolic world) fresh w.state received).1 key :=
    fun key hmem => (h.gone key hmem).later (fun s hs => Exposed.before_moves hfresh hmoves (Exposed.held hs))
  have htracked := h.tracked.moves hfresh hmoves
  unfold RatchetEnd.receive
  cases hd : ratchetDecrypt (symbolic world) fresh w.state received with
  | mk next result =>
    rw [hd] at hkept htracked
    cases result with
    | error e => exact ⟨htracked, hkept⟩
    | ok plaintext =>
      refine ⟨htracked, ?_⟩
      intro key hmem
      rcases List.mem_append.mp hmem with hnew | hold
      · obtain ⟨key', hkey', _, hgone⟩ := h.tracked.decrypt_gone hfresh hd
        rw [hkey', Option.toList_some, List.mem_singleton] at hnew
        exact hnew ▸ hgone
      · exact hkept key hold

theorem Step.secure {w next : RatchetEnd} (step : Step world w next) (h : w.Secure) : next.Secure := by
  cases step with
  | send plaintext => exact h.send plaintext
  | receive hfresh received => exact h.receive hfresh received

/-- In every run, once a message is sealed or opened, its key is out of reach of whoever sees the state, with every
private key ever generated thrown in; and it stays out of reach for the rest of the run. -/
theorem forward_secrecy {start w : RatchetEnd} (hstart : Start world start)
    (run : Relation.ReflTransGen (Step world) start w) :
    (∀ plaintext next sealed, ratchetEncrypt (symbolic world) w.state plaintext = (next, .ok sealed) →
      ∃ key, sendingMessageKey (symbolic world) w.state = some key ∧
        ¬Exposed (symbolic world) IsGenerated next key) ∧
    (∀ fresh received next plaintext, IsGenerated fresh.secretKey →
      ratchetDecrypt (symbolic world) fresh w.state received = (next, .ok plaintext) →
      ∃ key, receivingMessageKey (symbolic world) fresh w.state received = some key ∧
        openWith (symbolic world) key w.state.associatedData received = .ok plaintext ∧
        ¬Exposed (symbolic world) IsGenerated next key) ∧
    (∀ key ∈ w.spent, ¬Exposed (symbolic world) IsGenerated w.state key) := by
  have hsecure := Runs.preserved (P := Secure) (fun _ _ step h => step.secure h) run hstart.secure
  refine ⟨?_, ?_, ?_⟩
  · intro plaintext next sealed henc
    obtain ⟨c, _, hc, _, _⟩ := ratchetEncrypt_spends henc
    have hgone := (@Tracked.encrypt_gone world _ hsecure.tracked plaintext) hc
    rw [henc] at hgone
    exact ⟨message c, by rw [sendingMessageKey, hc]; rfl, hgone.not_exposed (mem_origins_self _)⟩
  · intro fresh received next plaintext hfresh hd
    obtain ⟨key, hkey, hopen, hgone⟩ := hsecure.tracked.decrypt_gone hfresh hd
    exact ⟨key, hkey, hopen, hgone.not_exposed (mem_origins_self _)⟩
  · intro key hmem
    exact (hsecure.gone key hmem).not_exposed (mem_origins_self _)

end RatchetEnd

end

def initiatorEnd : RatchetEnd := { state := bareInitiator }

theorem initiatorEnd_start : RatchetEnd.Start bareSetting initiatorEnd :=
  (@RatchetEnd.Start.initiator _ _ (List.replicate 32 2)) ⟨1, rfl⟩ rfl

/-- The first message key of the initiator. -/
theorem RatchetEnd.forward_secrecy_first :
    .message (.chain .handshake (.shared 32)) ∈ (initiatorEnd.send bareSetting [1]).spent ∧
      ¬Exposed (symbolic bareSetting) IsGenerated (initiatorEnd.send bareSetting [1]).state
        (.message (.chain .handshake (.shared 32))) :=
  ⟨List.mem_cons_self, (forward_secrecy initiatorEnd_start (.single (.send initiatorEnd [1]))).2.2 _ List.mem_cons_self⟩

end Veil

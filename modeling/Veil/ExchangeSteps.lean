import Veil.Exchange

namespace Veil

section

variable {K : Type} {prim : RatchetPrimitives K} {generated : KeyPair K → Prop}

namespace Exchange

open Conversation

variable {w : Exchange K} {c c' : Conversation K} {p p' : Progress} {turn : Role → Nat}

theorem Sealed.slot {letter : Letter} {e n : Nat} (h : Sealed prim c p turn letter e n) :
    slot letter = ((c.pair e).publicKey, n) := by
  simp only [Exchange.slot, (compose_eq_ok_iff.mp h.2.2.2).1]
  rfl

theorem synced_of (r : Role) {state : Role → RatchetState K}
    (h : Synced prim generated c p (turn r) (turn r.other) (state r) (state r.other)) (s : Role) :
    Synced prim generated c p (turn s) (turn s.other) (state s) (state s.other) := by
  rcases Role.eq_or_eq_other r s with rfl | rfl
  · exact h
  · rw [Role.other_other]
    exact h.symm

theorem synced_update (r : Role) {state : Role → RatchetState K} {next : RatchetState K} {me' : Nat}
    (h : Synced prim generated c p me' (turn r.other) next (state r.other)) (s : Role) :
    Synced prim generated c p (Function.update turn r me' s) (Function.update turn r me' s.other)
      (Function.update state r next s) (Function.update state r next s.other) := by
  apply synced_of r
  simpa only [Function.update_self, Function.update_of_ne r.other_ne] using h

namespace Tracked

theorem le_top (h : Tracked prim generated w c p turn) (r : Role) : turn r ≤ c.top := by
  have := (h.synced r).top
  omega

theorem fresh (h : Tracked prim generated w c p turn) {fresh : KeyPair K}
    (draws : w.Generates generated fresh) : c.Fresh generated fresh where
  honest := draws.1
  new := by
    intro e he heq
    exact draws.2 (heq ▸ h.used e he)

theorem slot_inj (h : Tracked prim generated w c p turn) {q q' : Progress} {letter letter' : Letter} {e e' n n' : Nat}
    (hs : Sealed prim c q turn letter e n) (hs' : Sealed prim c q' turn letter' e' n')
    (heq : slot letter = slot letter') : e = e' ∧ n = n' := by
  rw [hs.slot, hs'.slot, Prod.mk.injEq] at heq
  exact ⟨(h.synced .initiator).linked.distinct e (Nat.le_trans hs.1 (h.le_top _)) e'
    (Nat.le_trans hs'.1 (h.le_top _)) heq.1, heq.2⟩

/-- Reading or rejecting a message moves one party on; every letter stays as it was. -/
theorem decrypt (h : Tracked prim generated w c p turn) (r : Role) {fresh : KeyPair K}
    {message : RatchetMessage} {me' : Nat}
    (later : c.Later (StartsTurn prim (w.state r) message.header) fresh p (turn r) c' p' me')
    (synced : Synced prim generated c' p' me' (turn r.other) (ratchetDecrypt prim fresh (w.state r) message).1
      (w.state r.other))
    {inFlight : List Letter} (sub : inFlight.Sublist w.inFlight) :
    Tracked prim generated { w.decrypt prim r fresh message with inFlight } c' p' (Function.update turn r me') ∧
      ∀ letter e n, Sealed prim c p turn letter e n →
        Sealed prim c' p' (Function.update turn r me') letter e n := by
  have hle : ∀ s, turn s ≤ Function.update turn r me' s ∧ Function.update turn r me' s % 2 = turn s % 2 := by
    intro s
    by_cases hs : s = r
    · subst hs
      rw [Function.update_self]
      exact later.le
    · rw [Function.update_of_ne hs]
      exact ⟨Nat.le_refl _, rfl⟩
  have hsealed : ∀ letter e n, Sealed prim c p turn letter e n →
      Sealed prim c' p' (Function.update turn r me') letter e n := by
    intro letter e n ⟨he, hpar, hsent, hc⟩
    obtain ⟨hturn, hturnpar⟩ := hle letter.recipient.other
    refine ⟨by omega, by omega, by rw [later.onward.sent]; exact hsent, ?_⟩
    rw [later.compose (Nat.le_trans he (h.le_top _))]
    exact hc
  refine ⟨⟨synced_update r synced, ?_, ?_⟩, hsealed⟩
  · intro e he
    simp only [Exchange.decrypt]
    rcases Nat.lt_or_ge c.top e with hlt | hge
    · obtain ⟨hturns, hfresh⟩ := later.drawn hlt he
      simp [hturns, hfresh]
    · have hold := h.used e hge
      rw [later.ext.pair e hge]
      split
      next => exact List.mem_cons_of_mem _ hold
      next => exact hold
  · intro letter hl
    obtain ⟨e, n, hs⟩ := h.genuine letter (sub.subset hl)
    exact ⟨e, n, hsealed letter e n hs⟩

/-- What one call of `ratchetEncrypt` adds to the exchange. -/
theorem encrypt (h : Tracked prim generated w c p turn) (r : Role) (plaintext : Bytes) :
    ∃ q : Progress, q.taken = p.taken ∧ (∀ e, p.sent e ≤ q.sent e) ∧
      Tracked prim generated (w.encrypt prim r plaintext) c q turn ∧
      ((w.encrypt prim r plaintext).inFlight = w.inFlight ∨
        ∃ letter, (w.encrypt prim r plaintext).inFlight = w.inFlight ++ [letter] ∧
          Sealed prim c q turn letter (turn r) (p.sent (turn r))) := by
  have hr := h.synced r
  match hturn : turn r with
  | 0 =>
    rw [hturn] at hr
    have heq : ratchetEncrypt prim (w.state r) plaintext = (w.state r, .error (.sessionState
        "no sending chain: the responder must receive one message before sending")) := by
      rw [hr.mine.shape]
      exact endpoint_encrypt_zero c p _ _ plaintext
    have hsame : w.encrypt prim r plaintext = w := by
      simp only [Exchange.encrypt, heq, setState, Function.update_eq_self]
    rw [hsame]
    exact ⟨p, rfl, fun _ => Nat.le_refl _, h, Or.inl rfl⟩
  | me + 1 =>
    rw [hturn] at hr
    obtain ⟨hcomposed, hsynced⟩ := hr.encrypt plaintext
    have hprevious : ∀ s, ∀ e ≤ turn s, (p.send (me + 1)).previous e = p.previous e := by
      intro s e he
      apply Progress.previous_send
      have hadj := hr.adjacent
      rcases Role.eq_or_eq_other r s with rfl | rfl <;> omega
    have hsent : ∀ e, p.sent e ≤ (p.send (me + 1)).sent e := by
      intro e
      by_cases he : e = me + 1
      · subst he; simp [Progress.send]
      · simp [Progress.send, Function.update_of_ne he]
    have hgenuine : ∀ letter ∈ w.inFlight, ∃ e n, Sealed prim c (p.send (me + 1)) turn letter e n := by
      intro letter hl
      obtain ⟨e, n, he, hpar, hlt, hc⟩ := h.genuine letter hl
      refine ⟨e, n, he, hpar, Nat.lt_of_lt_of_le hlt (hsent e), ?_⟩
      rw [compose_congr (hprevious _ e he)]
      exact hc
    have hsync : ∀ s, Synced prim generated c (p.send (me + 1)) (turn s) (turn s.other)
        (Function.update w.state r (ratchetEncrypt prim (w.state r) plaintext).1 s)
        (Function.update w.state r (ratchetEncrypt prim (w.state r) plaintext).1 s.other) := by
      apply synced_of r
      rw [hturn]
      simpa only [Function.update_self, Function.update_of_ne r.other_ne] using hsynced
    refine ⟨p.send (me + 1), rfl, hsent, ?_⟩
    cases hresult : (ratchetEncrypt prim (w.state r) plaintext).2 with
    | error e =>
      simp only [Exchange.encrypt, hresult, setState]
      exact ⟨⟨hsync, h.used, hgenuine⟩, Or.inl trivial⟩
    | ok message =>
      simp only [Exchange.encrypt, hresult, setState]
      have hnew : Sealed prim c (p.send (me + 1)) turn ⟨r.other, message, plaintext⟩ (me + 1) (p.sent (me + 1)) := by
        refine ⟨by simp [hturn], by simp [hturn], by simp [Progress.send], ?_⟩
        rw [compose_congr (hprevious r (me + 1) (by omega)), ← hcomposed, hresult]
      refine ⟨⟨hsync, h.used, ?_⟩, Or.inr ⟨_, rfl, hnew⟩⟩
      intro letter hl
      rcases List.mem_append.mp hl with hl | hl
      · exact hgenuine letter hl
      · rw [List.mem_singleton.mp hl]
        exact ⟨me + 1, p.sent (me + 1), hnew⟩

end Tracked

namespace Consistent

theorem encrypt (h : Consistent prim generated w c p turn) (r : Role) (plaintext : Bytes) :
    ∃ q, Consistent prim generated (w.encrypt prim r plaintext) c q turn := by
  obtain ⟨q, htaken, hsent, htracked, hnew⟩ := h.toTracked.encrypt r plaintext
  have hread : ∀ e n, q.taken e n → n < q.sent e := by
    intro e n ht
    rw [htaken] at ht
    exact Nat.lt_of_lt_of_le (h.read e n ht) (hsent e)
  have hold : ∀ letter ∈ w.inFlight, ∀ e n, Sealed prim c q turn letter e n → ¬ q.taken e n := by
    intro letter hl e n hs
    obtain ⟨e', n', hs'⟩ := h.genuine letter hl
    obtain ⟨rfl, rfl⟩ := h.slot_inj hs hs' rfl
    rw [htaken]
    exact h.unread letter hl e n hs'
  refine ⟨q, htracked, hread, ?_, ?_⟩
  · intro letter hl e n hs
    rcases hnew with hsame | ⟨letter', happend, hs'⟩
    · exact hold letter (hsame ▸ hl) e n hs
    · rw [happend, List.mem_append, List.mem_singleton] at hl
      rcases hl with hl | rfl
      · exact hold letter hl e n hs
      · obtain ⟨rfl, rfl⟩ := h.slot_inj hs hs' rfl
        rw [htaken]
        intro ht
        have := h.read _ _ ht
        omega
  · rcases hnew with hsame | ⟨letter', happend, hs'⟩
    · rw [hsame]
      exact h.once
    · rw [happend, List.map_append, List.nodup_append]
      refine ⟨h.once, by simp, ?_⟩
      intro a ha b hb
      obtain ⟨letter, hl, rfl⟩ := List.mem_map.mp ha
      rw [List.map_singleton, List.mem_singleton] at hb
      subst hb
      intro heq
      obtain ⟨e, n, hs⟩ := h.genuine letter hl
      obtain ⟨rfl, rfl⟩ := h.slot_inj hs hs' heq
      have := hs.2.2.1
      omega

/-- A genuine letter within the skip limits decrypts to its plaintext, and the exchange stays consistent. -/
theorem deliver (lawful : prim.Lawful generated) (h : Consistent prim generated w c p turn)
    {before after : List Letter} {letter : Letter} {fresh : KeyPair K}
    (inFlight : w.inFlight = before ++ letter :: after)
    (within : WithinSkipLimits (w.state letter.recipient) letter.message.header)
    (draws : StartsTurn prim (w.state letter.recipient) letter.message.header → w.Generates generated fresh) :
    (ratchetDecrypt prim fresh (w.state letter.recipient) letter.message).2 = .ok letter.plaintext ∧
      ∃ c' p' turn', Consistent prim generated
        { w.decrypt prim letter.recipient fresh letter.message with inFlight := before ++ after } c' p' turn' := by
  have mem : letter ∈ w.inFlight := by simp [inFlight]
  obtain ⟨e, n, hs⟩ := h.genuine letter mem
  have ⟨he, hpar, hsent, hc⟩ := hs
  obtain ⟨hok, c', p', me', hlater, _, htaken, hsynced⟩ := (h.synced letter.recipient).receive lawful he hpar hsent
    (h.unread letter mem e n hs) hc within.1 (fun hturns => h.fresh (draws hturns))
  have htaken := htaken within.2
  have sub : (before ++ after).Sublist w.inFlight := by
    rw [inFlight]
    exact (List.Sublist.refl before).append (List.sublist_cons_self letter after)
  obtain ⟨htracked, hsealed⟩ := h.decrypt letter.recipient hlater hsynced sub
  refine ⟨hok, c', p', Function.update turn letter.recipient me', htracked, ?_, ?_, h.once.sublist (sub.map _)⟩
  · intro e' n' ht
    rw [htaken] at ht
    rw [hlater.onward.sent]
    rcases ht with ⟨rfl, rfl⟩ | ht
    · exact hsent
    · exact h.read e' n' ht
  · intro letter' hl' e' n' hs'
    obtain ⟨e₀, n₀, hs₀⟩ := h.genuine letter' (sub.subset hl')
    obtain ⟨rfl, rfl⟩ := htracked.slot_inj hs' (hsealed letter' _ _ hs₀) rfl
    rw [htaken]
    rintro (⟨rfl, rfl⟩ | ht)
    · have honce := h.once
      rw [inFlight, List.map_append, List.map_cons, List.nodup_middle, ← List.map_append, List.nodup_cons] at honce
      exact honce.1 (List.mem_map.mpr ⟨letter', hl', by rw [hs₀.slot, hs.slot]⟩)
    · exact h.unread letter' (sub.subset hl') e' n' hs₀ ht

end Consistent

end Exchange

end

end Veil

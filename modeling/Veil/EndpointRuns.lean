import Veil.EndpointBuffers
import Veil.Redelivery

namespace Veil

namespace Buffered

namespace Endpoint

/-- Bob as his app starts: four keys, each in a buffer of its own. -/
def bobStarts : Endpoint Bytes where
  heap := Cells.allocAll ⟨0, fun _ => []⟩ [bob.signing.secretKey, bob.exchange.secretKey, (spelledPair 32 13).secretKey,
    (spelledPair 1568 14).secretKey]
  self := ⟨⟨bob.signing.publicKey, 0⟩, ⟨bob.exchange.publicKey, 1⟩, bob.exchangeKeySignature⟩
  preKeys :=
    { signedPreKeys := OrderedMap.empty.set bobStore.currentSignedPreKey.id ⟨(spelledPair 32 13).publicKey, 2⟩
      signedKemPreKeys := OrderedMap.empty.set bobStore.currentSignedKemPreKey.id ⟨(spelledPair 1568 14).publicKey, 3⟩
      signedPreKeyOrder := bobStore.signedPreKeyOrder
      signedKemPreKeyOrder := bobStore.signedKemPreKeyOrder
      currentSignedPreKey := bobStore.currentSignedPreKey
      currentSignedKemPreKey := bobStore.currentSignedKemPreKey
      nextId := bobStore.nextId }

theorem bobStarts_fits : bobStarts.Fits := ⟨by decide +kernel, by decide +kernel⟩

def hello : SessionCall Bytes := .receive (spelledPair 32 31) Device.helloSent.2 (fun _ => none)

def helloRead : Endpoint Bytes := (bobStarts.run spelled [hello]).1

section

variable {K : Type} (crypto : Cryptography K) {endpoint : Endpoint K}

/-- Keys in buffers that are written over in place come to what keys by value come to: over any calls the answers are
the same and so is what is held, no buffer is held twice, and no buffer of anybody else is written to. -/
theorem run_in_buffers (fits : endpoint.Fits) (calls : List (SessionCall K)) :
    (endpoint.run crypto calls).2 = (endpoint.values.run crypto calls).2 ∧
      (endpoint.run crypto calls).1.values = (endpoint.values.run crypto calls).1 ∧
      (endpoint.run crypto calls).1.Fits ∧
      ∀ c < endpoint.heap.next, c ∉ endpoint.buffers →
        (endpoint.run crypto calls).1.heap.cell c = endpoint.heap.cell c := by
  obtain ⟨hvalues, hmoves⟩ := run_performs crypto fits calls
  exact ⟨congrArg Prod.snd hvalues, congrArg Prod.fst hvalues, hmoves.fits, hmoves.same⟩

end

/-- Alice's opening message, read over buffers. -/
theorem run_in_buffers_hello : (bobStarts.run spelled [hello]).2 = (bobStarts.values.run spelled [hello]).2 ∧
    (helloRead.sessions.get? aliceAddress).isSome = true :=
  ⟨(run_in_buffers spelled bobStarts_fits [hello]).1, by decide +kernel⟩

section

variable {K : Type} (crypto : Cryptography K) {endpoint : Endpoint K}

/-- Destroying sessions one after the other writes over what they hold, once, and over nothing else. -/
theorem destroyed_wipes (fits : endpoint.Fits) {addresses : List String} (nodup : addresses.Nodup) (c : Nat) :
    ((∃ address ∈ addresses, ∃ session, endpoint.sessions.get? address = some session ∧ c ∈ session.ratchet.buffers) →
        (endpoint.run crypto (addresses.map SessionCall.destroy)).1.heap.cell c = crypto.wiped (endpoint.heap.cell c)) ∧
      ((∀ address ∈ addresses, ∀ session, endpoint.sessions.get? address = some session → c ∉ session.ratchet.buffers) →
        (endpoint.run crypto (addresses.map SessionCall.destroy)).1.heap.cell c = endpoint.heap.cell c) := by
  induction addresses generalizing endpoint with
  | nil => exact ⟨fun ⟨_, hmem, _⟩ => (nomatch hmem), fun _ => rfl⟩
  | cons address addresses ih =>
    obtain ⟨hnot, hnodup⟩ := List.nodup_cons.mp nodup
    have hfits := (perform_performs crypto fits (.destroy address)).moves.fits
    obtain ⟨hwiped, hspared⟩ := ih hfits hnodup
    have hrun : (endpoint.run crypto ((address :: addresses).map SessionCall.destroy)).1 =
        ((endpoint.perform crypto (.destroy address)).1.run crypto (addresses.map SessionCall.destroy)).1 := rfl
    rw [hrun]
    have hothers : ∀ other ∈ addresses, (endpoint.perform crypto (.destroy address)).1.sessions.get? other =
        endpoint.sessions.get? other := by
      intro other hmem
      have hne : other ≠ address := fun heq => hnot (heq ▸ hmem)
      simp only [perform]
      cases endpoint.sessions.get? address with
      | none => rfl
      | some session => exact OrderedMap.get?_set_of_ne _ _ hne
    cases hsession : endpoint.sessions.get? address with
    | none =>
      have hsame : (endpoint.perform crypto (.destroy address)).1 = endpoint := by simp only [perform, hsession]
      rw [hsame] at hwiped hspared ⊢
      refine ⟨?_, fun hnone => hspared fun other hmem => hnone other (List.mem_cons_of_mem _ hmem)⟩
      rintro ⟨other, hmem, session, hother, hc⟩
      rcases List.mem_cons.mp hmem with rfl | hmem
      · rw [hsession] at hother
        cases hother
      · exact hwiped ⟨other, hmem, session, hother, hc⟩
    | some session =>
      have hown := buffers_of_live hsession
      have hheld : Cells.Fits session.ratchet.buffers endpoint.heap := fits.le (hown ▸ Multiset.le_add_right _ _)
      obtain ⟨hfirst, hrest⟩ := @destroyRatchet_wipes _ crypto ⟨endpoint.heap, session.ratchet⟩ hheld
      have hheap : (endpoint.perform crypto (.destroy address)).1.heap =
          (destroyRatchet crypto ⟨endpoint.heap, session.ratchet⟩).heap := by simp only [perform, hsession]
      rw [hheap] at hwiped hspared
      have hapart : c ∈ session.ratchet.buffers → ∀ other ∈ addresses, ∀ session',
          endpoint.sessions.get? other = some session' → c ∉ session'.ratchet.buffers := by
        intro hc other hmem session' hother hc'
        have hne : other ≠ address := fun heq => hnot (heq ▸ hmem)
        have hdelete : (endpoint.sessions.delete address).get? other = some session' := by
          rw [OrderedMap.get?_delete_of_ne _ hne, hother]
        have hle := OrderedMap.le_total (fun session : Session Nat => session.ratchet.buffers) hdelete
        have hall : Cells.Fits (session.ratchet.buffers + (endpoint.self.buffers + (endpoint.preKeys.buffers +
            sessionBuffers (endpoint.sessions.delete address)))) endpoint.heap := hown ▸ fits
        refine hall.apart hc ?_
        simp only [Multiset.mem_add]
        exact Or.inr (Or.inr (Multiset.mem_of_le hle hc'))
      refine ⟨?_, ?_⟩
      · rintro ⟨other, hmem, session', hother, hc⟩
        rcases List.mem_cons.mp hmem with rfl | hmem
        · obtain rfl := Option.some.inj (hsession.symm.trans hother)
          refine (hspared fun other hmem session' hother' => ?_).trans (hfirst c hc)
          rw [hothers other hmem] at hother'
          exact hapart hc other hmem session' hother'
        · have hnotFirst : c ∉ session.ratchet.buffers := fun hmem' => hapart hmem' other hmem session' hother hc
          rw [hwiped ⟨other, hmem, session', (hothers other hmem).trans hother, hc⟩, hrest c hnotFirst]
      · intro hnone
        refine (hspared fun other hmem session' hother => ?_).trans (hrest c (hnone address List.mem_cons_self session hsession))
        rw [hothers other hmem] at hother
        exact hnone other (List.mem_cons_of_mem _ hmem) session' hother

/-- After any run, locking writes over every key that a live session holds, and leaves the keys of the identity and
of the prekeys as they are. -/
theorem lock_wipes_sessions (fits : endpoint.Fits) (calls : List (SessionCall K)) :
    let last := (endpoint.run crypto calls).1
    let locked := (last.run crypto (last.sessions.keys.map SessionCall.destroy)).1
    (∀ address session, last.sessions.get? address = some session → ∀ c ∈ session.ratchet.buffers,
        locked.heap.cell c = crypto.wiped (last.heap.cell c)) ∧
      ∀ c ∈ last.self.buffers + last.preKeys.buffers, locked.heap.cell c = last.heap.cell c := by
  intro last locked
  have hfits : last.Fits := (run_performs crypto fits calls).2.fits
  have hnodup : last.sessions.keys.Nodup := last.sessions.nodup
  refine ⟨?_, ?_⟩
  · intro address session hsession c hc
    have hkey := OrderedMap.mem_keys_iff.mpr ⟨session, hsession⟩
    exact (destroyed_wipes crypto hfits hnodup c).1 ⟨address, hkey, session, hsession, hc⟩
  · intro c hc
    refine (destroyed_wipes crypto hfits hnodup c).2 (fun address _ session hsession hmem => ?_)
    have hown := buffers_of_live hsession
    have hall : Cells.Fits (session.ratchet.buffers + (last.self.buffers + (last.preKeys.buffers +
        sessionBuffers (last.sessions.delete address)))) last.heap := hown ▸ hfits
    refine hall.apart hmem ?_
    rw [← add_assoc last.self.buffers]
    exact Multiset.mem_add.mpr (Or.inl hc)

end

theorem lock_wipes_sessions_hello : ∃ session, helloRead.sessions.get? aliceAddress = some session ∧
    ∀ c ∈ session.ratchet.buffers,
      (helloRead.run spelled (helloRead.sessions.keys.map SessionCall.destroy)).1.heap.cell c = [] := by
  have hread : (helloRead.sessions.get? aliceAddress).isSome = true := by decide +kernel
  obtain ⟨session, hsession⟩ := Option.isSome_iff_exists.mp hread
  have hwiped := (lock_wipes_sessions spelled bobStarts_fits [hello]).1 aliceAddress session hsession
  exact ⟨session, hsession, hwiped⟩

end Endpoint

end Buffered

end Veil

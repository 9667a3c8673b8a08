import Veil.Handshake
import Veil.PreKeyLife
import Veil.Redelivery

namespace Veil

section

variable {K : Type} {crypto : Cryptography K} {honest : Generators K} {self peer : PrivateIdentity K}
  {bundle : PreKeyBundle} {ephemeral : KeyPair K} {coins : Bytes} {handshake : InitiatorHandshake K}
  {store : InMemoryPreKeyStore K} {spared : Int → Prop}

/-- The secrets the store resolves for a handshake's key ids, as the prekey branch looks them up. -/
structure Resolves (store : InMemoryPreKeyStore K) (keyIds : HandshakeKeyIds) (signedPreKey signedKemPreKey : KeyPair K)
    (oneTime oneTimeKem : Option (KeyPair K)) : Prop where
  signed : store.signedPreKey keyIds.signedPreKeyId = some signedPreKey
  kem : store.signedKemPreKey keyIds.signedKemPreKeyId = some signedKemPreKey
  oneTime : unusedOneTime "one-time prekey" store.oneTimePreKey keyIds.oneTimePreKeyId = .ok oneTime
  oneTimeKem : unusedOneTime "one-time ML-KEM prekey" store.oneTimeKemPreKey keyIds.oneTimeKemPreKeyId = .ok oneTimeKem

/-- What the responder is given. -/
def resolvedInput (initiator : PublicIdentity) (handshake : InitiatorHandshake K) (signedPreKey signedKemPreKey : KeyPair K)
    (oneTime oneTimeKem : Option (KeyPair K)) : ResponderHandshakeInput K where
  initiatorIdentity := initiator
  ephemeralPublicKey := handshake.ephemeralPublicKey
  kemCiphertext := handshake.kemCiphertext
  keyIds := handshake.keyIds
  signedPreKeySecret := signedPreKey.secretKey
  signedKemPreKeySecret := signedKemPreKey.secretKey
  oneTimePreKeySecret := oneTime.map (fun pair => pair.secretKey)
  oneTimeKemPreKeySecret := oneTimeKem.map (fun pair => pair.secretKey)

theorem unusedOneTime_some {kind : String} {get : Int → Option (KeyPair K)} {id : Int} {found : Option (KeyPair K)}
    (h : unusedOneTime kind get (some id) = .ok found) : ∃ pair, get id = some pair ∧ found = some pair := by
  simp only [unusedOneTime] at h
  split at h
  next pair hget => exact ⟨pair, hget, (Except.ok.inj h).symm⟩
  next => simp at h

theorem unusedOneTime_none {kind : String} {get : Int → Option (KeyPair K)} {found : Option (KeyPair K)}
    (h : unusedOneTime kind get none = .ok found) : found = none := (Except.ok.inj h).symm

/-- A published one-time prekey that is still held is the one the bundle names. -/
theorem keyed_oneTime {kind : String} {get : Int → Option (KeyPair K)} {good : KeyPair K → Prop} {nextId : Int}
    {named : Option OneTimePreKey} {found : Option (KeyPair K)}
    (keyed : ∀ key, named = some key → InMemoryPreKeyStore.Keyed get good nextId key.id key.publicKey)
    (h : unusedOneTime kind get (named.map (fun key => key.id)) = .ok found) :
    (∀ key, named = some key → ∃ pair, get key.id = some pair ∧ found = some pair ∧ pair.publicKey = key.publicKey ∧
        good pair) ∧ (named = none → found = none) := by
  refine ⟨?_, ?_⟩
  · rintro key rfl
    obtain ⟨pair, hget, rfl⟩ := unusedOneTime_some h
    obtain ⟨hpublic, hgood⟩ := (keyed key rfl).2 pair hget
    exact ⟨pair, hget, rfl, hpublic, hgood⟩
  · rintro rfl
    exact unusedOneTime_none h

/-- While the signed prekey is whole the two sides agree. -/
theorem agreement_of_whole (lawful : crypto.Lawful honest) (hself : self.Honest crypto honest)
    (hpeer : peer.Honest crypto honest) (hbundle : bundle.identity = publicIdentityOf peer)
    (honours : InMemoryPreKeyStore.Honours crypto honest spared store bundle) (he : honest.dh ephemeral)
    (initiated : initiateHandshake crypto self bundle ephemeral coins = .ok handshake)
    {signedPreKey signedKemPreKey : KeyPair K} {oneTime oneTimeKem : Option (KeyPair K)}
    (resolves : Resolves store handshake.keyIds signedPreKey signedKemPreKey oneTime oneTimeKem)
    (whole : honest.dh signedPreKey) :
    respondToHandshake crypto peer
      (resolvedInput (publicIdentityOf self) handshake signedPreKey signedKemPreKey oneTime oneTimeKem) =
        .ok (handshake.rootSecret, handshake.associatedData) := by
  obtain ⟨hsigned, hkem, hone, honeKem⟩ := resolves
  rw [initiateHandshake_keyIds initiated] at hsigned hkem hone honeKem
  obtain ⟨hone, hone'⟩ := keyed_oneTime honours.oneTime hone
  obtain ⟨honeKem, honeKem'⟩ := keyed_oneTime honours.oneTimeKem honeKem
  obtain ⟨hpublic, _⟩ := honours.signed.2 _ hsigned
  obtain ⟨hkemPublic, hkemHonest⟩ := honours.kem.2 _ hkem
  have serves : Serves honest store bundle signedPreKey signedKemPreKey :=
    { signed := hsigned, signed_public := hpublic, signed_honest := whole
      kem := hkem, kem_public := hkemPublic, kem_honest := hkemHonest
      oneTime := fun key hkey => (hone key hkey).imp fun pair hpair => ⟨hpair.1, hpair.2.2⟩
      oneTimeKem := fun key hkey => (honeKem key hkey).imp fun pair hpair => ⟨hpair.1, hpair.2.2⟩ }
  exact respondToHandshake_agrees lawful hself hpeer hbundle serves he initiated
    (fun key hkey => (hone key hkey).imp fun pair hpair => hpair.2) hone'
    (fun key hkey => (honeKem key hkey).imp fun pair hpair => hpair.2) honeKem'

/-- A wiped signed prekey gives the responder another first DH output. -/
theorem disagreement_of_wiped (lawful : crypto.Lawful honest) (separating : crypto.Separating honest)
    (hself : self.Honest crypto honest) (honours : InMemoryPreKeyStore.Honours crypto honest spared store bundle)
    (initiated : initiateHandshake crypto self bundle ephemeral coins = .ok handshake)
    {signedPreKey signedKemPreKey : KeyPair K} {oneTime oneTimeKem : Option (KeyPair K)}
    (resolves : Resolves store handshake.keyIds signedPreKey signedKemPreKey oneTime oneTimeKem) {key : K}
    (wiped : signedPreKey.secretKey = crypto.wiped key) :
    respondToHandshake crypto peer
      (resolvedInput (publicIdentityOf self) handshake signedPreKey signedKemPreKey oneTime oneTimeKem) ≠
        .ok (handshake.rootSecret, handshake.associatedData) := by
  intro hrespond
  have hsigned := resolves.signed
  rw [initiateHandshake_keyIds initiated] at hsigned
  obtain ⟨hpublic, hgood⟩ := honours.signed.2 _ hsigned
  obtain ⟨whole, hwhole, hwholePublic⟩ : ∃ whole, honest.dh whole ∧ whole.publicKey = bundle.signedPreKey.publicKey := by
    rcases hgood with hgood | ⟨_, whole, hwhole, hsame, _⟩
    · exact ⟨signedPreKey, hgood, hpublic⟩
    · exact ⟨whole, hwhole, hsame.trans hpublic⟩
  simp only [initiateHandshake, Outcome.bind_eq_ok_iff, Outcome.pure_eq_ok_iff] at initiated
  obtain ⟨_, _, _, _, dh1, hdh1, _, _, _, _, _, _, _, _, _, _, rfl⟩ := initiated
  simp only [respondToHandshake] at hrespond
  split at hrespond
  next => cases hrespond
  next =>
    split at hrespond
    next => cases hrespond
    next =>
      simp only [Outcome.bind_eq_ok_iff, Outcome.pure_eq_ok_iff, Prod.mk.injEq] at hrespond
      obtain ⟨_, _, dh1', hdh1', _, _, _, _, _, _, _, _, _, _, hroot, _⟩ := hrespond
      obtain ⟨hsecrets, _⟩ := separating.rootSecret _ _ _ _ hroot
      obtain ⟨rfl, _⟩ := List.cons.inj hsecrets
      obtain ⟨s, hs, hs'⟩ := lawful.ratchet.dh_agree self.exchange whole hself.exchange hwhole
      rw [hwholePublic, hdh1] at hs
      obtain rfl := Except.ok.inj hs
      simp only [resolvedInput, wiped] at hdh1'
      exact separating.wiped whole hwhole key _ _ _ hs' hdh1' rfl

/-- A handshake against a bundle the store has issued agrees exactly when the signed prekey it names has not been
wiped, and it has not been where no envelope has taken the responder's step on it. -/
theorem handshake_agrees_iff (lawful : crypto.Lawful honest) (separating : crypto.Separating honest)
    (hself : self.Honest crypto honest) (hpeer : peer.Honest crypto honest)
    {start issuing now : InMemoryPreKeyStore K}
    (created : InMemoryPreKeyStore.Created crypto honest peer start)
    (before : Relation.ReflTransGen (InMemoryPreKeyStore.LifeStep crypto honest peer spared) start issuing)
    (issues : issuing.Issues (publicIdentityOf peer) bundle)
    (after : Relation.ReflTransGen (InMemoryPreKeyStore.LifeStep crypto honest peer spared) issuing now)
    (he : honest.dh ephemeral) (initiated : initiateHandshake crypto self bundle ephemeral coins = .ok handshake)
    {signedPreKey signedKemPreKey : KeyPair K} {oneTime oneTimeKem : Option (KeyPair K)}
    (resolves : Resolves now handshake.keyIds signedPreKey signedKemPreKey oneTime oneTimeKem) :
    (respondToHandshake crypto peer
        (resolvedInput (publicIdentityOf self) handshake signedPreKey signedKemPreKey oneTime oneTimeKem) =
          .ok (handshake.rootSecret, handshake.associatedData) ↔
      ¬∃ key, signedPreKey.secretKey = crypto.wiped key) ∧
    (spared bundle.signedPreKey.id → ¬∃ key, signedPreKey.secretKey = crypto.wiped key) := by
  have honours : InMemoryPreKeyStore.Honours crypto honest spared now bundle :=
    ((InMemoryPreKeyStore.sound_of_run created before).honours issues).descends
      (InMemoryPreKeyStore.descends_of_run after)
  have hsigned := resolves.signed
  rw [initiateHandshake_keyIds initiated] at hsigned
  obtain ⟨_, hgood⟩ := honours.signed.2 _ hsigned
  have hiff : respondToHandshake crypto peer
      (resolvedInput (publicIdentityOf self) handshake signedPreKey signedKemPreKey oneTime oneTimeKem) =
        .ok (handshake.rootSecret, handshake.associatedData) ↔ ¬∃ key, signedPreKey.secretKey = crypto.wiped key := by
    constructor
    · rintro hagree ⟨key, hwiped⟩
      exact disagreement_of_wiped lawful separating hself honours initiated resolves hwiped hagree
    · intro hwhole
      rcases hgood with hgood | ⟨_, _, _, _, hwiped⟩
      · exact agreement_of_whole lawful hself hpeer issues.identity honours he initiated resolves hgood
      · exact absurd hwiped hwhole
  refine ⟨hiff, ?_⟩
  intro hspared
  rcases hgood with hgood | ⟨hnot, _⟩
  · exact hiff.mp (agreement_of_whole lawful hself hpeer issues.identity honours he initiated resolves hgood)
  · exact absurd hspared hnot

end

theorem bobStore_fresh : InMemoryPreKeyStore.Created spelled spelledGenerators bob bobStore := by
  refine ⟨spelledPair 32 13, spelledPair 1568 14, [], [], ⟨by decide, rfl⟩, spelledPair_kem 14, by simp, by simp, ?_⟩
  rw [bobStore_created]

/-- Alice's opening handshake against the bundle of a fresh store. -/
theorem handshake_agrees_iff_hello : ∃ handshake,
    initiateHandshake spelled alice bobBundle (spelledPair 32 21) [7] = .ok handshake ∧
      respondToHandshake spelled bob (resolvedInput (publicIdentityOf alice) handshake (spelledPair 32 13)
        (spelledPair 1568 14) none none) = .ok (handshake.rootSecret, handshake.associatedData) := by
  have hok : (initiateHandshake spelled alice bobBundle (spelledPair 32 21) [7]).isOk = true := by decide +kernel
  cases hinitiate : initiateHandshake spelled alice bobBundle (spelledPair 32 21) [7] with
  | error e =>
    rw [hinitiate] at hok
    cases hok
  | ok handshake =>
    refine ⟨handshake, rfl, ?_⟩
    have hids := initiateHandshake_keyIds hinitiate
    have resolves : Resolves bobStore handshake.keyIds (spelledPair 32 13) (spelledPair 1568 14) none none := by
      rw [hids]
      exact ⟨by decide +kernel, by decide +kernel, by decide +kernel, by decide +kernel⟩
    obtain ⟨hiff, hwhole⟩ := (@handshake_agrees_iff _ _ _ _ _ _ _ _ _ (fun _ => True)) spelled_lawful spelled_separating
      alice_honest bob_honest bobStore_fresh .refl (InMemoryPreKeyStore.Issues.issueBundle bobStore _) .refl
      ⟨by decide, rfl⟩ hinitiate resolves
    exact hiff.mpr (hwhole trivial)

/-- Once Alice's first message has been read, nobody can agree with the store on the bundle it still hands out. -/
theorem handshake_disagrees : ¬ ∀ start issuing now : InMemoryPreKeyStore Bytes,
    InMemoryPreKeyStore.Created spelled spelledGenerators bob start →
    Relation.ReflTransGen (InMemoryPreKeyStore.LifeStep spelled spelledGenerators bob (fun _ => False)) start issuing →
    Relation.ReflTransGen (InMemoryPreKeyStore.LifeStep spelled spelledGenerators bob (fun _ => False)) issuing now →
    ∀ bundle, issuing.Issues (publicIdentityOf bob) bundle → ∀ handshake,
      initiateHandshake spelled alice bundle (spelledPair 32 41) [8] = .ok handshake →
      ∀ signedPreKey signedKemPreKey, Resolves now handshake.keyIds signedPreKey signedKemPreKey none none →
        respondToHandshake spelled bob (resolvedInput (publicIdentityOf alice) handshake signedPreKey signedKemPreKey
          none none) = .ok (handshake.rootSecret, handshake.associatedData) := by
  intro claim
  have hbundle : (Device.helloRead.preKeys.issueBundle (publicIdentityOf bob)).1 = bobBundle := by decide +kernel
  have hrun : (do
      let handshake ← initiateHandshake spelled alice bobBundle (spelledPair 32 41) [8]
      let (rootSecret, _) ← respondToHandshake spelled bob (resolvedInput (publicIdentityOf alice) handshake
        ⟨(spelledPair 32 13).publicKey, []⟩ (spelledPair 1568 14) none none)
      return decide (rootSecret = handshake.rootSecret)) = (.ok false : Except Failure Bool) := by decide +kernel
  simp only [Outcome.bind_eq_ok_iff, Outcome.pure_eq_ok_iff, decide_eq_false_iff_not] at hrun
  obtain ⟨handshake, hinitiate, ⟨rootSecret, ad⟩, hrespond, hroot⟩ := hrun
  have step : InMemoryPreKeyStore.LifeStep spelled spelledGenerators bob (fun _ => False) bobStore
      Device.helloRead.preKeys := by
    dsimp only [Device.helloRead, Device.handleOne, Device.handle, Device.decrypt, Device.bobStarts]
    exact .decrypt bobStore _ _ _ _ (fun _ h => h.elim)
  have resolves : Resolves Device.helloRead.preKeys handshake.keyIds ⟨(spelledPair 32 13).publicKey, []⟩
      (spelledPair 1568 14) none none := by
    rw [initiateHandshake_keyIds hinitiate]
    exact ⟨by decide +kernel, by decide +kernel, by decide +kernel, by decide +kernel⟩
  have hagree := claim bobStore Device.helloRead.preKeys Device.helloRead.preKeys bobStore_fresh (.single step) .refl
    bobBundle (hbundle ▸ InMemoryPreKeyStore.Issues.issueBundle _ _) handshake hinitiate _ _ resolves
  rw [hrespond, Except.ok.injEq, Prod.mk.injEq] at hagree
  exact hroot hagree.1

end Veil

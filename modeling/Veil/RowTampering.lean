import Veil.Collections

namespace Veil

open EncryptedCollection

/-- A call of the AEAD. -/
structure Encryption where
  key : Bytes
  nonce : Bytes
  plaintext : Bytes
  associatedData : Bytes
  deriving DecidableEq

section

variable (Value : Collection → Type)

structure Record where
  collection : Collection
  id : String
  value : Value collection

/-- The database, everything ever put, every record ever encrypted, and what was last put in the rows nobody has touched
since. -/
structure RowHistory where
  database : Database := OrderedMap.empty
  puts : List (Record Value) := []
  encrypted : List Encryption := []
  untouched : (collection : Collection) → String → Option (Value collection) := fun _ _ => none

end

namespace RowHistory

section

variable {Value : Collection → Type} (prim : VaultPrimitives) (vault : Vault) (codec : ∀ collection, RecordCodec (Value collection))

/-- What opens under the key of a record has been encrypted so: with this key, nonce and associated data. -/
def Unforged (encrypted : List Encryption) (stored : Bytes) : Prop :=
  ∀ recordId associatedData plaintext,
    prim.decrypt (prim.recordKey vault.dataKey recordId) (stored.take aeadNonceLength) (stored.drop aeadNonceLength)
      associatedData = some plaintext →
    ⟨prim.recordKey vault.dataKey recordId, stored.take aeadNonceLength, plaintext, associatedData⟩ ∈ encrypted

/-- A record as `put` has it encrypted. -/
def encryption (collection : Collection) (id : String) (value : Value collection) (nonce : RandomBytes aeadNonceLength) :
    Encryption where
  key := prim.recordKey vault.dataKey (recordId collection.name id)
  nonce := nonce
  plaintext := (codec collection).stringify value
  associatedData := utf8 (recordId collection.name id)

/-- Collections put and delete; between that, anyone may rewrite the database, with rows from elsewhere, parts of them, or any
other bytes that are no forgery. -/
inductive Step : RowHistory Value → RowHistory Value → Prop
  | put (h : RowHistory Value) (collection : Collection) (id : String) (value : Value collection)
      (nonce : RandomBytes aeadNonceLength) (database : Database)
      (stored : put prim vault collection.name (codec collection) id value nonce h.database = .ok database) :
      Step h
        { database
          puts := ⟨collection, id, value⟩ :: h.puts
          encrypted := encryption prim vault codec collection id value nonce :: h.encrypted
          untouched := Function.update h.untouched collection (Function.update (h.untouched collection) id (some value)) }
  | delete (h : RowHistory Value) (collection : Collection) (id : String) :
      Step h
        { h with
          database := EncryptedCollection.delete collection.name id h.database
          untouched := Function.update h.untouched collection (Function.update (h.untouched collection) id none) }
  | rewrite (h : RowHistory Value) (database : Database)
      (unforged : ∀ row stored, database.get? row = some stored → h.database.get? row = some stored ∨
        Unforged prim vault h.encrypted stored) :
      Step h
        { h with
          database
          untouched := fun collection id =>
            if database.get? (collection.name, id) = h.database.get? (collection.name, id) then h.untouched collection id
            else none }

/-- Whatever opens in its place has been put there, and what was encrypted has been put. -/
structure Sound (h : RowHistory Value) : Prop where
  rows : ∀ (collection : Collection) (id : String) (stored plaintext : Bytes),
    h.database.get? (collection.name, id) = some stored →
    prim.decryptRecord vault (recordId collection.name id) stored = .ok plaintext →
      ∃ value, plaintext = (codec collection).stringify value ∧ ⟨collection, id, value⟩ ∈ h.puts
  encrypted : ∀ entry ∈ h.encrypted, ∃ (collection : Collection) (id : String) (value : Value collection),
    ⟨collection, id, value⟩ ∈ h.puts ∧ entry.plaintext = (codec collection).stringify value ∧
      entry.associatedData = utf8 (recordId collection.name id)
  untouched : ∀ collection id value, h.untouched collection id = some value →
    get prim vault collection.name (codec collection) id h.database = .ok (some value)

end

section

variable {Value : Collection → Type} {prim : VaultPrimitives} {vault : Vault}
  {codec : ∀ collection, RecordCodec (Value collection)} {h next : RowHistory Value}

/-- A database key belongs to one collection and id. -/
theorem row_injective {collection other : Collection} {id id' : String}
    (heq : (collection.name, id) = (other.name, id')) : collection = other ∧ id = id' :=
  ⟨name_injective (Prod.mk.inj heq).1, (Prod.mk.inj heq).2⟩

/-- A row that is no forgery opens in its place only to what was put there. -/
theorem Sound.unforged (sound : h.Sound prim vault codec) (lawful : prim.Lawful) {collection : Collection} {id : String}
    {stored plaintext : Bytes} (unforged : Unforged prim vault h.encrypted stored)
    (hopen : prim.decryptRecord vault (recordId collection.name id) stored = .ok plaintext) :
    ∃ value, plaintext = (codec collection).stringify value ∧ ⟨collection, id, value⟩ ∈ h.puts := by
  have hdecrypt := ((decryptRecord_eq_ok_iff lawful).mp hopen).2
  have hencrypted := unforged _ _ _ hdecrypt
  obtain ⟨other, id', value, hput, hplaintext, hassociated⟩ := sound.encrypted _ hencrypted
  obtain ⟨rfl, rfl⟩ := recordId_injective (utf8_inj hassociated)
  exact ⟨value, hplaintext, hput⟩

/-- `put` does not throw. -/
theorem put_eq (lawful : prim.Lawful) (collection : Collection) (id : String) (value : Value collection)
    (nonce : RandomBytes aeadNonceLength) (database : Database) : ∃ stored,
    prim.encryptRecord vault (recordId collection.name id) ((codec collection).stringify value) nonce = .ok stored ∧
      put prim vault collection.name (codec collection) id value nonce database =
        .ok (database.set (collection.name, id) stored) := by
  have hencrypt := encryptRecord_eq lawful vault (recordId collection.name id) ((codec collection).stringify value) nonce
  refine ⟨_, hencrypt, ?_⟩
  unfold put
  rw [hencrypt]
  rfl

/-- What a row holds that has been put comes back. -/
theorem get_put (lawful : prim.Lawful) {collection : Collection} {id : String} {value : Value collection}
    {nonce : RandomBytes aeadNonceLength} {database : Database} {stored : Bytes}
    (hencrypt : prim.encryptRecord vault (recordId collection.name id) ((codec collection).stringify value) nonce = .ok stored)
    (hrow : database.get? (collection.name, id) = some stored) :
    get prim vault collection.name (codec collection) id database = .ok (some value) := by
  refine get_eq_ok_iff.mpr ⟨stored, hrow, ?_⟩
  unfold openRow
  rw [decryptRecord_encrypted lawful hencrypt]
  exact (codec collection).parse_stringify value

/-- What `get` returns depends on one row. -/
theorem get_congr {collection : Collection} {id : String} {database database' : Database}
    (hrow : database'.get? (collection.name, id) = database.get? (collection.name, id)) :
    get prim vault collection.name (codec collection) id database' =
      get prim vault collection.name (codec collection) id database := by
  unfold EncryptedCollection.get
  rw [hrow]

theorem Sound.put (sound : h.Sound prim vault codec) (lawful : prim.Lawful) (collection : Collection) (id : String)
    (value : Value collection) (nonce : RandomBytes aeadNonceLength) {database : Database}
    (stored : put prim vault collection.name (codec collection) id value nonce h.database = .ok database) :
    Sound prim vault codec
      { database
        puts := ⟨collection, id, value⟩ :: h.puts
        encrypted := encryption prim vault codec collection id value nonce :: h.encrypted
        untouched := Function.update h.untouched collection (Function.update (h.untouched collection) id (some value)) } := by
  obtain ⟨ciphertext, hencrypt, hput⟩ := @put_eq Value prim vault codec lawful collection id value nonce h.database
  obtain rfl := Except.ok.inj (hput.symm.trans stored)
  have hself : (h.database.set (collection.name, id) ciphertext).get? (collection.name, id) = some ciphertext :=
    OrderedMap.get?_set_self _ _ _
  have hother {other : Collection} {id' : String} (hne : ¬(other = collection ∧ id' = id)) :
      (h.database.set (collection.name, id) ciphertext).get? (other.name, id') = h.database.get? (other.name, id') :=
    OrderedMap.get?_set_of_ne _ _ fun heq => hne (row_injective heq)
  refine ⟨fun other id' row plaintext hrow hopen => ?_, fun entry hentry => ?_, fun other id' found hfound => ?_⟩
  · by_cases hsame : other = collection ∧ id' = id
    · obtain ⟨rfl, rfl⟩ := hsame
      obtain rfl := Option.some.inj (hself.symm.trans hrow)
      have hplaintext := (decryptRecord_encrypted lawful hencrypt).symm.trans hopen
      exact ⟨value, (Except.ok.inj hplaintext).symm, List.mem_cons_self⟩
    · obtain ⟨found, hplaintext, hmem⟩ := sound.rows other id' row plaintext ((hother hsame).symm.trans hrow) hopen
      exact ⟨found, hplaintext, List.mem_cons_of_mem _ hmem⟩
  · rcases List.mem_cons.mp hentry with rfl | hentry
    · exact ⟨collection, id, value, List.mem_cons_self, rfl, rfl⟩
    · obtain ⟨other, id', found, hmem, hentries⟩ := sound.encrypted entry hentry
      exact ⟨other, id', found, List.mem_cons_of_mem _ hmem, hentries⟩
  · by_cases hsame : other = collection ∧ id' = id
    · obtain ⟨rfl, rfl⟩ := hsame
      simp only [Function.update_self, Option.some.injEq] at hfound
      subst hfound
      exact get_put lawful hencrypt hself
    · have huntouched : h.untouched other id' = some found := by
        by_cases hcollection : other = collection
        · subst hcollection
          have hid : id' ≠ id := fun heq => hsame ⟨rfl, heq⟩
          simpa only [Function.update_self, Function.update_of_ne hid] using hfound
        · simpa only [Function.update_of_ne hcollection] using hfound
      rw [get_congr (hother hsame)]
      exact sound.untouched other id' found huntouched

theorem Sound.delete (sound : h.Sound prim vault codec) (collection : Collection) (id : String) :
    Sound prim vault codec
      { h with
        database := EncryptedCollection.delete collection.name id h.database
        untouched := Function.update h.untouched collection (Function.update (h.untouched collection) id none) } := by
  have hself : (OrderedMap.delete h.database (collection.name, id)).get? (collection.name, id) = none :=
    OrderedMap.get?_delete_self _ _
  have hother {other : Collection} {id' : String} (hne : ¬(other = collection ∧ id' = id)) :
      (OrderedMap.delete h.database (collection.name, id)).get? (other.name, id') = h.database.get? (other.name, id') :=
    OrderedMap.get?_delete_of_ne _ fun heq => hne (row_injective heq)
  refine ⟨fun other id' row plaintext hrow hopen => ?_, sound.encrypted, fun other id' found hfound => ?_⟩
  · by_cases hsame : other = collection ∧ id' = id
    · obtain ⟨rfl, rfl⟩ := hsame
      cases hself.symm.trans hrow
    · exact sound.rows other id' row plaintext ((hother hsame).symm.trans hrow) hopen
  · by_cases hsame : other = collection ∧ id' = id
    · obtain ⟨rfl, rfl⟩ := hsame
      simp only [Function.update_self, reduceCtorEq] at hfound
    · have huntouched : h.untouched other id' = some found := by
        by_cases hcollection : other = collection
        · subst hcollection
          have hid : id' ≠ id := fun heq => hsame ⟨rfl, heq⟩
          simpa only [Function.update_self, Function.update_of_ne hid] using hfound
        · simpa only [Function.update_of_ne hcollection] using hfound
      have hrow : (EncryptedCollection.delete collection.name id h.database).get? (other.name, id') = _ := hother hsame
      rw [get_congr hrow]
      exact sound.untouched other id' found huntouched

theorem Step.sound (step : Step prim vault codec h next) (lawful : prim.Lawful) (sound : h.Sound prim vault codec) :
    next.Sound prim vault codec := by
  cases step with
  | put collection id value nonce database stored => exact sound.put lawful collection id value nonce stored
  | delete collection id => exact sound.delete collection id
  | rewrite database unforged =>
    refine ⟨fun collection id row plaintext hrow hopen => ?_, sound.encrypted, fun collection id found hfound => ?_⟩
    · rcases unforged _ row hrow with hkept | hrewritten
      · exact sound.rows collection id row plaintext hkept hopen
      · exact sound.unforged lawful hrewritten hopen
    · by_cases hkept : database.get? (collection.name, id) = h.database.get? (collection.name, id)
      · simp only [hkept, ↓reduceIte] at hfound
        rw [get_congr hkept]
        exact sound.untouched collection id found hfound
      · simp only [hkept, ↓reduceIte, reduceCtorEq] at hfound

end

/-- After any history of puts, deletes and rewritings of the database: what a collection returns for an id was put there, `all`
leaves out exactly what `get` throws on, and what nobody has touched comes back. -/
theorem rows_resist {Value : Collection → Type} {prim : VaultPrimitives} (lawful : prim.Lawful) (vault : Vault)
    (codec : ∀ collection, RecordCodec (Value collection)) {h : RowHistory Value}
    (run : Relation.ReflTransGen (Step prim vault codec) {} h) (collection : Collection) (id : String) :
    (∀ value, get prim vault collection.name (codec collection) id h.database = .ok (some value) →
      ⟨collection, id, value⟩ ∈ h.puts) ∧
    (∀ value, (id, value) ∈ (all prim vault collection.name (codec collection) h.database).rows →
      ⟨collection, id, value⟩ ∈ h.puts) ∧
    (∀ value, (id, value) ∈ (all prim vault collection.name (codec collection) h.database).rows ↔
      get prim vault collection.name (codec collection) id h.database = .ok (some value)) ∧
    (∀ e, (id, e) ∈ (all prim vault collection.name (codec collection) h.database).corrupt ↔
      get prim vault collection.name (codec collection) id h.database = .error e) ∧
    (∀ value, h.untouched collection id = some value →
      get prim vault collection.name (codec collection) id h.database = .ok (some value)) ∧
    ∀ value nonce, ∃ database,
      put prim vault collection.name (codec collection) id value nonce h.database = .ok database := by
  have hempty : Sound prim vault codec ({} : RowHistory Value) :=
    ⟨fun _ _ _ _ hrow => (by cases hrow), fun _ hentry => absurd hentry List.not_mem_nil, fun _ _ _ h => (by cases h)⟩
  have hstep : ∀ h next : RowHistory Value, Step prim vault codec h next → h.Sound prim vault codec →
      next.Sound prim vault codec := fun _ _ step sound => step.sound lawful sound
  have hsound := Runs.preserved hstep run hempty
  have hget : ∀ value, get prim vault collection.name (codec collection) id h.database = .ok (some value) →
      ⟨collection, id, value⟩ ∈ h.puts := by
    intro value hvalue
    obtain ⟨stored, hrow, hopen⟩ := get_eq_ok_iff.mp hvalue
    obtain ⟨plaintext, hdecrypt, hparse⟩ := Outcome.bind_eq_ok_iff.mp hopen
    obtain ⟨found, rfl, hmem⟩ := hsound.rows collection id stored plaintext hrow hdecrypt
    rw [(codec collection).parse_stringify] at hparse
    obtain rfl := Except.ok.inj hparse
    exact hmem
  refine ⟨hget, fun value hmem => hget value (mem_all.mp hmem), fun value => mem_all, fun e => mem_corrupt,
    hsound.untouched collection id, fun value nonce => ?_⟩
  obtain ⟨stored, _, hput⟩ := @put_eq Value prim vault codec lawful collection id value nonce h.database
  exact ⟨_, hput⟩

def flags : RecordCodec Bool where
  stringify value := utf8 (if value then "true" else "false")
  parse plaintext :=
    if plaintext = utf8 "true" then .ok true
    else if plaintext = utf8 "false" then .ok false
    else .error (.error "JSON.parse")
  parse_stringify value := by cases value <;> decide +kernel

def nonce : RandomBytes aeadNonceLength := ⟨List.replicate 24 0, rfl⟩

theorem fitting_short {key nonce ciphertext associatedData : Bytes} (h : ciphertext.length < 16) :
    fitting.decrypt key nonce ciphertext associatedData = none := by
  have hne : ciphertext.take 16 ≠ fit 8 key ++ fit 8 associatedData := by
    intro heq
    have hlength := congrArg List.length heq
    rw [List.length_append, fit_length, fit_length, List.length_take] at hlength
    omega
  exact if_neg hne

theorem short_unforged (encrypted : List Encryption) : Unforged fitting ⟨[7]⟩ encrypted [1, 2, 3] := by
  intro recordId associatedData plaintext hdecrypt
  have hnone := @fitting_short (fitting.recordKey [7] recordId) [1, 2, 3] [] associatedData (by decide)
  cases hnone.symm.trans hdecrypt

section

variable {h : RowHistory (fun _ => Bool)} (run : Relation.ReflTransGen (Step fitting ⟨[7]⟩ fun _ => flags) {} h)
  (collection : Collection) (id : String)

include run

theorem reaches_put (value : Bool) : ∃ next, Relation.ReflTransGen (Step fitting ⟨[7]⟩ fun _ => flags) {} next ∧
    next.untouched collection id = some value := by
  obtain ⟨stored, _, hput⟩ := @put_eq (fun _ => Bool) fitting ⟨[7]⟩ (fun _ => flags) fitting_lawful collection id value nonce
    h.database
  refine ⟨_, run.tail (Step.put h collection id value nonce _ hput), ?_⟩
  simp only [Function.update_self]

/-- A row is overwritten with a few bytes. -/
theorem reaches_short : ∃ next, Relation.ReflTransGen (Step fitting ⟨[7]⟩ fun _ => flags) {} next ∧
    next.database.get? (collection.name, id) = some [1, 2, 3] ∧
      ∀ id', id' ≠ id → next.untouched collection id' = h.untouched collection id' := by
  have hself : (h.database.set (collection.name, id) [1, 2, 3]).get? (collection.name, id) = some [1, 2, 3] :=
    OrderedMap.get?_set_self _ _ _
  have hrewritten : ∀ row stored, (h.database.set (collection.name, id) [1, 2, 3]).get? row = some stored →
      h.database.get? row = some stored ∨ Unforged fitting ⟨[7]⟩ h.encrypted stored := by
    intro row stored hrow
    by_cases hrewrite : row = (collection.name, id)
    · subst hrewrite
      obtain rfl := Option.some.inj (hself.symm.trans hrow)
      exact Or.inr (short_unforged h.encrypted)
    · exact Or.inl ((OrderedMap.get?_set_of_ne _ _ hrewrite).symm.trans hrow)
  refine ⟨_, run.tail (Step.rewrite h _ hrewritten), hself, fun id' hne => if_pos ?_⟩
  exact OrderedMap.get?_set_of_ne _ _ fun heq => hne (Prod.mk.inj heq).2

end

/-- A message is put and another row is cut short: the message comes back, and `all` reports the other row. -/
theorem rows_resist_cut : ∃ h : RowHistory (fun _ => Bool),
    Relation.ReflTransGen (Step fitting ⟨[7]⟩ fun _ => flags) {} h ∧
      get fitting ⟨[7]⟩ Collection.messages.name flags "m2" h.database = .ok (some false) ∧
      ("m1", Failure.malformedInput "stored record is too short to contain a nonce") ∈
        (all fitting ⟨[7]⟩ Collection.messages.name flags h.database).corrupt := by
  obtain ⟨first, hfirst, huntouched⟩ := reaches_put .refl .messages "m2" false
  obtain ⟨h, hrun, hrow, hkept⟩ := reaches_short hfirst .messages "m1"
  have hresist := fun id => rows_resist fitting_lawful ⟨[7]⟩ (fun _ => flags) hrun .messages id
  have hcorrupt : get fitting ⟨[7]⟩ Collection.messages.name flags "m1" h.database =
      .error (.malformedInput "stored record is too short to contain a nonce") :=
    get_eq_error_iff.mpr ⟨[1, 2, 3], hrow, rfl⟩
  exact ⟨h, hrun, (hresist "m2").2.2.2.2.1 false ((hkept "m2" (by decide)).trans huntouched),
    ((hresist "m1").2.2.2.1 _).mpr hcorrupt⟩

end RowHistory

end Veil

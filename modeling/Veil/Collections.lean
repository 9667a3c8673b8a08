import Veil.Vault
import Veil.Library.OrderedMap
import Veil.Library.Runs

namespace Veil

/-- The collections of the app, all under one vault. -/
inductive Collection
  | contacts
  | conversations
  | messages
  | sessions
  | pairing
  deriving DecidableEq, Repr

def Collection.name : Collection → String
  | contacts => "contacts"
  | conversations => "conversations"
  | messages => "messages"
  | sessions => "sessions"
  | pairing => "pairing"

/-- Values as UTF-8 bytes of JSON and back. -/
structure RecordCodec (T : Type) where
  stringify : T → Bytes
  parse : Bytes → Except Failure T
  parse_stringify : ∀ value, parse (stringify value) = .ok value

/-- Opaque blobs under the name of a collection and an id. -/
abbrev Database : Type := OrderedMap (String × String) Bytes

def Database.list (collection : String) (database : Database) : List (String × Bytes) :=
  database.entries.filterMap (fun row => if row.1.1 = collection then some (row.1.2, row.2) else none)

/-- What `all` returns, and what it reports through `onCorrupt`. -/
structure Listing (T : Type) where
  rows : List (String × T) := []
  corrupt : List (String × Failure) := []

namespace EncryptedCollection

section

variable {T : Type} (prim : VaultPrimitives) (vault : Vault) (name : String) (codec : RecordCodec T)

/-- The collection name is part of the key derivation. -/
def recordId (name id : String) : String := s!"{name}/{id}"

def openRow (id : String) (stored : Bytes) : Except Failure T := do
  let plaintext ← prim.decryptRecord vault (recordId name id) stored
  codec.parse plaintext

def get (id : String) (database : Database) : Except Failure (Option T) :=
  match database.get? (name, id) with
  | none => .ok none
  | some stored => do
    let value ← openRow prim vault name codec id stored
    return some value

def put (id : String) (value : T) (nonce : RandomBytes aeadNonceLength) (database : Database) : Except Failure Database := do
  let ciphertext ← prim.encryptRecord vault (recordId name id) (codec.stringify value) nonce
  return database.set (name, id) ciphertext

def delete (id : String) (database : Database) : Database := OrderedMap.delete database (name, id)

/-- A row that fails is skipped rather than thrown. -/
def readRows : List (String × Bytes) → Listing T
  | [] => {}
  | (id, stored) :: rest =>
    let listing := readRows rest
    match openRow prim vault name codec id stored with
    | .ok value => { listing with rows := (id, value) :: listing.rows }
    | .error e => { listing with corrupt := (id, e) :: listing.corrupt }

def all (database : Database) : Listing T := readRows prim vault name codec (database.list name)

end

section

variable {T : Type} {prim : VaultPrimitives} {vault : Vault} {name : String} {codec : RecordCodec T} {database : Database}
  {id : String}

theorem slash_not_mem (collection : Collection) : '/' ∉ collection.name.toList := by
  cases collection <;> decide

theorem name_injective {collection other : Collection} (h : collection.name = other.name) : collection = other := by
  cases collection <;> cases other <;> first | rfl | exact absurd h (by decide)

/-- No two rows have one record id. -/
theorem recordId_injective {collection other : Collection} {id id' : String}
    (h : recordId collection.name id = recordId other.name id') : collection = other ∧ id = id' := by
  have hlist : collection.name.toList ++ '/' :: id.toList = other.name.toList ++ '/' :: id'.toList := by
    have hlist := congrArg String.toList h
    simpa [recordId, toString] using hlist
  obtain ⟨hname, hid⟩ := append_cons_inj_of_not_mem (slash_not_mem collection) (slash_not_mem other) hlist
  exact ⟨name_injective (String.toList_inj.mp hname), String.toList_inj.mp hid⟩

theorem mem_list {stored : Bytes} : (id, stored) ∈ database.list name ↔ database.get? (name, id) = some stored := by
  rw [OrderedMap.get?_eq_some_iff]
  simp only [Database.list, List.mem_filterMap, Option.ite_none_right_eq_some, Option.some.injEq, Prod.mk.injEq]
  constructor
  · rintro ⟨⟨⟨_, _⟩, _⟩, hmem, rfl, rfl, rfl⟩
    exact hmem
  · exact fun hmem => ⟨_, hmem, rfl, rfl, rfl⟩

theorem mem_readRows {rows : List (String × Bytes)} {value : T} :
    (id, value) ∈ (readRows prim vault name codec rows).rows ↔
      ∃ stored, (id, stored) ∈ rows ∧ openRow prim vault name codec id stored = .ok value := by
  induction rows with
  | nil => simp [readRows]
  | cons row rows ih =>
    obtain ⟨id', stored⟩ := row
    cases hopen : openRow prim vault name codec id' stored with
    | error e =>
      simp only [readRows, hopen, ih, List.mem_cons, Prod.mk.injEq]
      constructor
      · exact fun ⟨stored', hmem, hok⟩ => ⟨stored', Or.inr hmem, hok⟩
      · rintro ⟨stored', ⟨rfl, rfl⟩ | hmem, hok⟩
        · cases hopen.symm.trans hok
        · exact ⟨stored', hmem, hok⟩
    | ok found =>
      simp only [readRows, hopen, ih, List.mem_cons, Prod.mk.injEq]
      constructor
      · rintro (⟨rfl, rfl⟩ | ⟨stored', hmem, hok⟩)
        · exact ⟨stored, Or.inl ⟨rfl, rfl⟩, hopen⟩
        · exact ⟨stored', Or.inr hmem, hok⟩
      · rintro ⟨stored', ⟨rfl, rfl⟩ | hmem, hok⟩
        · exact Or.inl ⟨rfl, Except.ok.inj (hok.symm.trans hopen)⟩
        · exact Or.inr ⟨stored', hmem, hok⟩

theorem mem_readRows_corrupt {rows : List (String × Bytes)} {e : Failure} :
    (id, e) ∈ (readRows prim vault name codec rows).corrupt ↔
      ∃ stored, (id, stored) ∈ rows ∧ openRow prim vault name codec id stored = .error e := by
  induction rows with
  | nil => simp [readRows]
  | cons row rows ih =>
    obtain ⟨id', stored⟩ := row
    cases hopen : openRow prim vault name codec id' stored with
    | ok found =>
      simp only [readRows, hopen, ih, List.mem_cons, Prod.mk.injEq]
      constructor
      · exact fun ⟨stored', hmem, hfails⟩ => ⟨stored', Or.inr hmem, hfails⟩
      · rintro ⟨stored', ⟨rfl, rfl⟩ | hmem, hfails⟩
        · cases hopen.symm.trans hfails
        · exact ⟨stored', hmem, hfails⟩
    | error failure =>
      simp only [readRows, hopen, ih, List.mem_cons, Prod.mk.injEq]
      constructor
      · rintro (⟨rfl, rfl⟩ | ⟨stored', hmem, hfails⟩)
        · exact ⟨stored, Or.inl ⟨rfl, rfl⟩, hopen⟩
        · exact ⟨stored', Or.inr hmem, hfails⟩
      · rintro ⟨stored', ⟨rfl, rfl⟩ | hmem, hfails⟩
        · exact Or.inl ⟨rfl, Except.error.inj (hfails.symm.trans hopen)⟩
        · exact Or.inr ⟨stored', hmem, hfails⟩

theorem get_eq_ok_iff {value : T} : get prim vault name codec id database = .ok (some value) ↔
    ∃ stored, database.get? (name, id) = some stored ∧ openRow prim vault name codec id stored = .ok value := by
  unfold get
  cases database.get? (name, id) with
  | none => simp
  | some stored =>
    simp only [Option.some.injEq, exists_eq_left']
    cases openRow prim vault name codec id stored with
    | error e => simp
    | ok found => simp [pure, Except.pure]

theorem get_eq_error_iff {e : Failure} : get prim vault name codec id database = .error e ↔
    ∃ stored, database.get? (name, id) = some stored ∧ openRow prim vault name codec id stored = .error e := by
  unfold get
  cases database.get? (name, id) with
  | none => simp
  | some stored =>
    simp only [Option.some.injEq, exists_eq_left']
    cases openRow prim vault name codec id stored with
    | error failure => simp
    | ok found => simp [pure, Except.pure]

/-- `all` returns what `get` would, row by row. -/
theorem mem_all {value : T} : (id, value) ∈ (all prim vault name codec database).rows ↔
    get prim vault name codec id database = .ok (some value) := by
  simp only [all, mem_readRows, mem_list, get_eq_ok_iff]

/-- It skips, and reports, exactly the rows for which `get` throws. -/
theorem mem_corrupt {e : Failure} : (id, e) ∈ (all prim vault name codec database).corrupt ↔
    get prim vault name codec id database = .error e := by
  simp only [all, mem_readRows_corrupt, mem_list, get_eq_error_iff]

end

end EncryptedCollection

end Veil

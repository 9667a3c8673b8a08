import Veil.Wire
import Veil.Library.Outcome

namespace Veil

/-- `m` reads exactly `chunk`, wherever it stands in the buffer, and returns `a`. -/
def Reads {α : Type} (m : Decode α) (chunk : Bytes) (a : α) : Prop :=
  ∀ before rest, m ⟨before ++ chunk ++ rest, before.length⟩ =
    .ok (a, ⟨before ++ chunk ++ rest, before.length + chunk.length⟩)

namespace Reads

variable {α β : Type} {a : α} {b : β}

theorem pure (a : α) : Reads (Pure.pure a) [] a := by
  intro before rest
  rfl

theorem bind {m : Decode α} {f : α → Decode β} {chunk chunk' : Bytes} (h : Reads m chunk a)
    (h' : Reads (f a) chunk' b) : Reads (m >>= f) (chunk ++ chunk') b := by
  intro before rest
  have h₁ := h before (chunk' ++ rest)
  have h₂ := h' (before ++ chunk) rest
  simp only [List.append_assoc, List.length_append] at h₁ h₂ ⊢
  show (m _ >>= fun r => f r.1 r.2) = _
  rw [h₁, Outcome.ok_bind, ← Nat.add_assoc]
  exact h₂

theorem map {m : Decode α} {chunk : Bytes} (f : α → β) (h : Reads m chunk a) :
    Reads (m >>= fun x => Pure.pure (f x)) chunk (f a) := by
  have := h.bind (Reads.pure (f a)) (f := fun x => Pure.pure (f x))
  rwa [List.append_nil] at this

theorem take (chunk : Bytes) : Reads (Reader.take chunk.length) chunk chunk := by
  intro before rest
  simp [Reader.take, List.append_assoc]

theorem u8 {n : Nat} (h : n < 256) : Reads Reader.u8 [UInt8.ofNat n] n := by
  have hn : ([UInt8.ofNat n].headD 0).toNat = n := by
    simp only [List.headD_cons, UInt8.toNat_ofNat']
    omega
  have hread := (take [UInt8.ofNat n]).map (fun b => (b.headD 0).toNat)
  rwa [hn] at hread

theorem bigEndian32_length (n : Nat) : (Writer.bigEndian32 n).length = 4 := rfl

theorem bigEndian_bigEndian32 {n : Nat} (h : n < 2 ^ 32) : Reader.bigEndian (Writer.bigEndian32 n) = n := by
  simp only [Reader.bigEndian, Writer.bigEndian32, List.foldl_cons, List.foldl_nil, UInt8.toNat_ofNat']
  omega

theorem u32 {n : Nat} (h : n < 2 ^ 32) : Reads Reader.u32 (Writer.bigEndian32 n) n := by
  have hread := (take (Writer.bigEndian32 n)).map Reader.bigEndian
  rwa [bigEndian_bigEndian32 h] at hread

theorem fixed (chunk : Bytes) : Reads (Reader.fixed chunk.length) chunk chunk := take chunk

/-- A length-prefixed field. -/
def prefixed (value : Bytes) : Bytes := Writer.bigEndian32 value.length ++ value

theorem bytes {value : Bytes} (h : value.length < 2 ^ 32) : Reads Reader.bytes (prefixed value) value :=
  (u32 h).bind (take value)

theorem done_of_end (buffer : Bytes) : Reader.done ⟨buffer, buffer.length⟩ = .ok ((), ⟨buffer, buffer.length⟩) := by
  simp [Reader.done]

/-- Reading a whole buffer and checking that nothing is left. -/
theorem whole {m : Decode α} {chunk : Bytes} (h : Reads m chunk a) :
    (m >>= fun x => do Reader.done; Pure.pure x) ⟨chunk, 0⟩ = .ok (a, ⟨chunk, chunk.length⟩) := by
  have hread := h [] []
  simp only [List.nil_append, List.append_nil, List.length_nil, Nat.zero_add] at hread
  show (m _ >>= fun r => (Reader.done >>= fun _ => Pure.pure r.1) r.2) = _
  rw [hread]
  show (Reader.done _ >>= fun r => Pure.pure (a, r.2)) = _
  rw [done_of_end]
  rfl

end Reads

namespace Writer

theorem u32_eq_ok_iff {w w' : Writer} {value : Int} :
    w.u32 value = .ok w' ↔ 0 ≤ value ∧ value ≤ 0xffffffff ∧ w' = w.push (bigEndian32 value.toNat) := by
  unfold u32
  split
  next h => simp only [reduceCtorEq, false_iff]; omega
  next h =>
    simp only [Except.ok.injEq]
    constructor
    · rintro rfl
      exact ⟨by omega, by omega, rfl⟩
    · rintro ⟨_, _, rfl⟩
      rfl

theorem u8_eq_ok_iff {w w' : Writer} {value : Int} :
    w.u8 value = .ok w' ↔ 0 ≤ value ∧ value ≤ 0xff ∧ w' = w.push [UInt8.ofNat value.toNat] := by
  unfold u8
  split
  next h => simp only [reduceCtorEq, false_iff]; omega
  next h =>
    simp only [Except.ok.injEq]
    constructor
    · rintro rfl
      exact ⟨by omega, by omega, rfl⟩
    · rintro ⟨_, _, rfl⟩
      rfl

theorem bytes_eq_ok_iff {w w' : Writer} {value : Bytes} :
    w.bytes value = .ok w' ↔ value.length < 2 ^ 32 ∧ w' = w.push (Reads.prefixed value) := by
  simp only [bytes, Outcome.bind_eq_ok_iff, Outcome.pure_eq_ok_iff, u32_eq_ok_iff]
  constructor
  · rintro ⟨_, ⟨_, hle, rfl⟩, rfl⟩
    exact ⟨by omega, by simp [push, Reads.prefixed]⟩
  · rintro ⟨hlt, rfl⟩
    exact ⟨_, ⟨by omega, by omega, rfl⟩, by simp [push, Reads.prefixed]⟩

@[simp] theorem finish_push (w : Writer) (chunk : Bytes) : (w.push chunk).finish = w.finish ++ chunk := rfl

@[simp] theorem finish_fixed (w : Writer) (chunk : Bytes) : (w.fixed chunk).finish = w.finish ++ chunk := rfl

@[simp] theorem finish_empty : ({} : Writer).finish = [] := rfl

end Writer

/-- Two readings of one buffer by the same decoder take the same bytes. -/
theorem Reads.append_inj {α : Type} {m : Decode α} {chunk chunk' rest rest' : Bytes} {a a' : α} (h : Reads m chunk a)
    (h' : Reads m chunk' a') (heq : chunk ++ rest = chunk' ++ rest') : a = a' ∧ rest = rest' := by
  have hread := h [] rest
  have hread' := h' [] rest'
  simp only [List.nil_append, List.length_nil, Nat.zero_add] at hread hread'
  rw [heq, hread', Except.ok.injEq, Prod.mk.injEq, Reader.mk.injEq] at hread
  obtain ⟨ha, _, hlength⟩ := hread
  exact ⟨ha.symm, (List.append_inj heq hlength.symm).2⟩

theorem prefixed_append_inj {a b rest rest' : Bytes} (ha : a.length < 2 ^ 32) (hb : b.length < 2 ^ 32)
    (h : Reads.prefixed a ++ rest = Reads.prefixed b ++ rest') : a = b ∧ rest = rest' :=
  (Reads.bytes ha).append_inj (Reads.bytes hb) h

theorem bigEndian64_inj {m n : Nat} (hm : m < 2 ^ 64) (hn : n < 2 ^ 64)
    (h : Writer.bigEndian64 m = Writer.bigEndian64 n) : m = n := by
  have hread : ∀ value, Reader.bigEndian (Writer.bigEndian32 value) = value % 2 ^ 32 := by
    intro value
    simp only [Reader.bigEndian, Writer.bigEndian32, List.foldl_cons, List.foldl_nil, UInt8.toNat_ofNat']
    omega
  obtain ⟨hhigh, hlow⟩ := List.append_inj h rfl
  have hhigh := congrArg Reader.bigEndian hhigh
  have hlow := congrArg Reader.bigEndian hlow
  rw [hread, hread] at hhigh hlow
  omega

theorem append_cons_inj_of_not_mem {α : Type} {xs xs' ys ys' : List α} {a : α} (hx : a ∉ xs)
    (hx' : a ∉ xs') (h : xs ++ a :: ys = xs' ++ a :: ys') : xs = xs' ∧ ys = ys' := by
  rcases List.append_eq_append_iff.mp h with ⟨mid, he, hm⟩ | ⟨mid, he, hm⟩
  · cases mid with
    | nil => exact ⟨by simpa using he.symm, by simpa using hm⟩
    | cons b bs =>
      have hb : a = b := (List.cons.inj hm).1
      exact absurd (by simp [he, hb]) hx'
  · cases mid with
    | nil => exact ⟨by simpa using he, by simpa using hm.symm⟩
    | cons b bs =>
      have hb : a = b := (List.cons.inj hm).1
      exact absurd (by simp [he, hb]) hx

theorem byteArray_toList_loop (bytes : ByteArray) (i : Nat) (read : List UInt8) :
    ByteArray.toList.loop bytes i read = read.reverse ++ bytes.data.toList.drop i := by
  fun_induction ByteArray.toList.loop bytes i read with
  | case1 i read h ih =>
    have hi : i < bytes.data.toList.length := by simpa using h
    rw [ih, List.drop_eq_getElem_cons hi]
    simp [ByteArray.get!, getElem!_pos, h]
  | case2 i read h =>
    rw [List.drop_eq_nil_of_le (by simpa using h), List.append_nil]

theorem utf8_inj {a b : String} (h : utf8 a = utf8 b) : a = b := by
  simp only [utf8, ByteArray.toList, byteArray_toList_loop, List.drop_zero, List.reverse_nil, List.nil_append] at h
  exact String.toByteArray_inj.mp (ByteArray.ext (Array.toList_inj.mp h))

end Veil

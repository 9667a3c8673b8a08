import Mathlib

namespace Regroup

/-- The low `width` bits of a number. -/
def toBits : Nat → Nat → List Bool
  | 0, _ => []
  | width + 1, n => n.testBit width :: toBits width n

/-- The number that bits spell. -/
def ofBits (bits : List Bool) : Nat := bits.foldl (fun value bit => value * 2 + bit.toNat) 0

@[simp] theorem length_toBits (width n : Nat) : (toBits width n).length = width := by
  induction width with
  | zero => rfl
  | succ width ih => rw [toBits, List.length_cons, ih]

theorem ofBits_append (left right : List Bool) :
    ofBits (left ++ right) = ofBits left * 2 ^ right.length + ofBits right := by
  have hfrom (value : Nat) (bits : List Bool) :
      bits.foldl (fun value bit => value * 2 + bit.toNat) value = value * 2 ^ bits.length + ofBits bits := by
    induction bits generalizing value with
    | nil => simp [ofBits]
    | cons bit bits ih =>
      rw [ofBits, List.foldl_cons, List.foldl_cons, ih, ih (0 * 2 + bit.toNat), List.length_cons, Nat.pow_succ]
      rw [Nat.zero_mul, Nat.zero_add, Nat.add_mul, Nat.add_assoc, Nat.mul_assoc, Nat.mul_comm 2]
  rw [ofBits, List.foldl_append]
  exact hfrom _ _

theorem ofBits_cons (bit : Bool) (bits : List Bool) :
    ofBits (bit :: bits) = bit.toNat * 2 ^ bits.length + ofBits bits := by
  have hone : ofBits [bit] = bit.toNat := by simp [ofBits]
  rw [← hone]
  exact ofBits_append [bit] bits

theorem ofBits_lt (bits : List Bool) : ofBits bits < 2 ^ bits.length := by
  induction bits with
  | nil => exact Nat.one_pos
  | cons bit bits ih =>
    rw [ofBits_cons, List.length_cons, Nat.pow_succ]
    have hbit : bit.toNat * 2 ^ bits.length ≤ 1 * 2 ^ bits.length := Nat.mul_le_mul_right _ bit.toNat_le
    omega

theorem ofBits_toBits (width n : Nat) : ofBits (toBits width n) = n % 2 ^ width := by
  induction width with
  | zero => rw [Nat.pow_zero, Nat.mod_one]; rfl
  | succ width ih =>
    rw [toBits, ofBits_cons, length_toBits, ih, Nat.toNat_testBit, Nat.pow_succ, Nat.mod_mul, Nat.add_comm,
      Nat.mul_comm (2 ^ width)]

/-- Bits of one length that spell the same are the same. -/
theorem ofBits_injective {bits other : List Bool} (hlength : bits.length = other.length)
    (h : ofBits bits = ofBits other) : bits = other := by
  induction bits generalizing other with
  | nil => exact (List.length_eq_zero_iff.mp hlength.symm).symm
  | cons bit bits ih =>
    cases other with
    | nil => cases hlength
    | cons first rest =>
      have hrest : bits.length = rest.length := Nat.succ.inj hlength
      have hbits := ofBits_lt bits
      have hlt := ofBits_lt rest
      rw [ofBits_cons, ofBits_cons, ← hrest] at h
      rw [← hrest] at hlt
      have hfirst : bit = first := by
        cases bit <;> cases first <;> first | rfl | (simp only [Bool.toNat_true, Bool.toNat_false] at h; omega)
      subst hfirst
      rw [ih hrest (Nat.add_left_cancel h)]

theorem toBits_ofBits {width : Nat} {bits : List Bool} (h : bits.length = width) : toBits width (ofBits bits) = bits := by
  apply ofBits_injective
  · rw [length_toBits, h]
  · have hlt := ofBits_lt bits
    rw [h] at hlt
    rw [ofBits_toBits, Nat.mod_eq_of_lt hlt]

theorem ofBits_replicate_false (count : Nat) : ofBits (List.replicate count false) = 0 := by
  induction count with
  | zero => rfl
  | succ count ih => rw [List.replicate_succ, ofBits_cons, ih, Bool.toNat_false, Nat.zero_mul]

/-- Groups of `size` bits; the last is filled up with zeros. -/
def groups (size : Nat) (bits : List Bool) : List (List Bool) :=
  if bits = [] ∨ size = 0 then []
  else (bits.take size ++ List.replicate (size - bits.length) false) :: groups size (bits.drop size)
termination_by bits.length
decreasing_by
  rename_i h
  have hpositive := List.length_pos_iff.mpr (not_or.mp h).1
  have hsize := (not_or.mp h).2
  rw [List.length_drop]
  omega

variable {size : Nat} {bits : List Bool}

theorem groups_nil (size : Nat) : groups size [] = [] := by
  rw [groups, if_pos (Or.inl rfl)]

theorem groups_append (hsize : size ≠ 0) {whole : List Bool} (h : whole.length = size) (rest : List Bool) :
    groups size (whole ++ rest) = whole :: groups size rest := by
  have hnonempty : whole ++ rest ≠ [] := by
    rw [← List.length_pos_iff, List.length_append]
    omega
  have hfill : size - (whole ++ rest).length = 0 := by
    rw [List.length_append]
    omega
  rw [groups, if_neg (not_or.mpr ⟨hnonempty, hsize⟩), hfill, ← h, List.take_left, List.drop_left]
  rw [List.replicate_zero, List.append_nil]

/-- Whole groups come out as they are. -/
theorem groups_flatten_append (hsize : size ≠ 0) {wholes : List (List Bool)} (h : ∀ whole ∈ wholes, whole.length = size)
    (rest : List Bool) : groups size (wholes.flatten ++ rest) = wholes ++ groups size rest := by
  induction wholes with
  | nil => rfl
  | cons whole wholes ih =>
    rw [List.flatten_cons, List.append_assoc, groups_append hsize (h whole List.mem_cons_self),
      ih fun other hmem => h other (List.mem_cons_of_mem _ hmem)]
    rfl

theorem groups_short (hnonempty : bits ≠ []) (hshort : bits.length < size) :
    groups size bits = [bits ++ List.replicate (size - bits.length) false] := by
  have hsize : size ≠ 0 := by omega
  rw [groups, if_neg (not_or.mpr ⟨hnonempty, hsize⟩), List.take_of_length_le (Nat.le_of_lt hshort), List.drop_of_length_le (Nat.le_of_lt hshort),
    groups_nil]

theorem length_of_mem_groups {group : List Bool} (h : group ∈ groups size bits) : group.length = size := by
  induction bits using groups.induct size with
  | case1 bits hdone =>
    rw [groups, if_pos hdone] at h
    cases h
  | case2 bits hmore ih =>
    rw [groups, if_neg hmore] at h
    rcases List.mem_cons.mp h with rfl | h
    · rw [List.length_append, List.length_take, List.length_replicate]
      omega
    · exact ih h

/-- The bits can be read back off their groups. -/
theorem take_flatten_groups (hsize : size ≠ 0) (bits : List Bool) :
    (groups size bits).flatten.take bits.length = bits := by
  induction bits using groups.induct size with
  | case1 bits hdone =>
    obtain rfl := hdone.resolve_right hsize
    exact List.take_zero
  | case2 bits hmore ih =>
    rw [groups, if_neg hmore, List.flatten_cons]
    by_cases hlong : size ≤ bits.length
    · have hfill : size - bits.length = 0 := by omega
      rw [hfill, List.replicate_zero, List.append_nil]
      have hlength : (bits.take size).length = size := List.length_take_of_le hlong
      rw [List.take_append, List.take_of_length_le (by omega), hlength]
      rw [List.length_drop] at ih
      rw [ih, List.take_append_drop]
    · rw [List.take_of_length_le (by omega : bits.length ≤ size), List.append_assoc, List.take_left]

theorem groups_injective (hsize : size ≠ 0) {other : List Bool} (hlength : bits.length = other.length)
    (h : groups size bits = groups size other) : bits = other := by
  rw [← take_flatten_groups hsize bits, h, hlength, take_flatten_groups hsize]

end Regroup

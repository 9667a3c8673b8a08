import Mathlib

/-- A counter that workers increase by reading it, adding one, and writing the sum back later. A worker between its read and
its write holds the sum. -/
structure Counter where
  value : Int
  holds : List (Option Int)
  /-- Increases still to be written. -/
  left : Nat

namespace Counter

variable {total : Int} {counter : Counter} {worker : Nat} {sum : Int}

def Holds (counter : Counter) (worker : Nat) (sum : Int) : Prop := counter.holds[worker]? = some (some sum)

def read (worker : Nat) (counter : Counter) : Counter :=
  { counter with holds := counter.holds.set worker (some (counter.value + 1)) }

/-- The worker writes what it holds. -/
def write (worker : Nat) (sum : Int) (counter : Counter) : Counter where
  value := sum
  holds := counter.holds.set worker none
  left := counter.left - 1

theorem holds_read {other : Nat} (inside : worker < counter.holds.length) :
    (counter.read worker).Holds other sum ↔
      other = worker ∧ sum = counter.value + 1 ∨ other ≠ worker ∧ counter.Holds other sum := by
  unfold Holds read
  rw [List.getElem?_set]
  by_cases h : worker = other
  · subst h
    simp [inside, eq_comm]
  · simp [h, Ne.symm h]

theorem holds_write {other : Nat} {written : Int} (h : (counter.write worker written).Holds other sum) :
    other ≠ worker ∧ counter.Holds other sum := by
  unfold Holds write at h
  rw [List.getElem?_set] at h
  by_cases hother : worker = other
  · subst hother
    split at h
    · split at h <;> cases h
    · exact absurd rfl ‹_›
  · exact ⟨Ne.symm hother, by rwa [if_neg hother] at h⟩

theorem Holds.inside (h : counter.Holds worker sum) : worker < counter.holds.length :=
  (List.getElem?_eq_some_iff.mp h).1

/-- So far nobody has read while another held a sum. -/
structure Sole (total : Int) (counter : Counter) : Prop where
  count : counter.value + counter.left = total
  next : ∀ worker sum, counter.Holds worker sum → sum = counter.value + 1
  sole : ∀ worker sum other sum', counter.Holds worker sum → counter.Holds other sum' → worker = other

/-- An increase is lost or going to be lost: two workers hold the same sum, or one holds a sum that is not above the value,
or the value has already fallen behind. -/
inductive Lost (total : Int) (counter : Counter) : Prop
  | both (count : counter.value + counter.left = total)
      (next : ∀ worker sum, counter.Holds worker sum → sum = counter.value + 1)
      (two : ∃ worker other sum sum', worker ≠ other ∧ counter.Holds worker sum ∧ counter.Holds other sum')
  | behind (count : counter.value + counter.left ≤ total)
      (bound : ∀ worker sum, counter.Holds worker sum → sum + counter.left ≤ total + 1)
      (late : ∃ worker sum, counter.Holds worker sum ∧ sum ≤ counter.value)
  | short (count : counter.value + counter.left < total)
      (bound : ∀ worker sum, counter.Holds worker sum → sum + counter.left ≤ total)

theorem Sole.read (h : counter.Sole total) (inside : worker < counter.holds.length)
    (free : ∀ other sum, ¬counter.Holds other sum) : (counter.read worker).Sole total := by
  have only : ∀ other sum, (counter.read worker).Holds other sum → other = worker ∧ sum = counter.value + 1 :=
    fun other sum hold => ((holds_read inside).mp hold).resolve_right fun held => free other sum held.2
  exact ⟨h.count, fun other sum hold => (only other sum hold).2,
    fun _ _ _ _ hold hold' => (only _ _ hold).1.trans (only _ _ hold').1.symm⟩

/-- Reading while another holds a sum. -/
theorem Sole.overlap (h : counter.Sole total) (inside : worker < counter.holds.length) {other : Nat} (hne : other ≠ worker)
    (held : counter.Holds other sum) : (counter.read worker).Lost total := by
  refine .both h.count (fun reader sum' hold => ?_) ⟨worker, other, counter.value + 1, sum, hne.symm, ?_, ?_⟩
  · rcases (holds_read inside).mp hold with ⟨_, hsum⟩ | ⟨_, hold⟩
    · exact hsum
    · exact h.next reader sum' hold
  · exact (holds_read inside).mpr (Or.inl ⟨rfl, rfl⟩)
  · exact (holds_read inside).mpr (Or.inr ⟨hne, held⟩)

theorem Sole.write (h : counter.Sole total) (held : counter.Holds worker sum) (more : 0 < counter.left) :
    (counter.write worker sum).Sole total := by
  have hsum := h.next worker sum held
  have hcount := h.count
  have none_left : ∀ other sum', ¬(counter.write worker sum).Holds other sum' := by
    intro other sum' hold
    obtain ⟨hne, hold⟩ := holds_write hold
    exact hne (h.sole other sum' worker sum hold held)
  refine ⟨?_, fun other sum' hold => absurd hold (none_left other sum'),
    fun other sum' _ _ hold _ => absurd hold (none_left other sum')⟩
  show sum + ((counter.left - 1 : Nat) : Int) = total
  omega

theorem Lost.read (h : counter.Lost total) (inside : worker < counter.holds.length)
    (idle : ∀ sum, ¬counter.Holds worker sum) : (counter.read worker).Lost total := by
  have kept {other : Nat} {sum : Int} (hold : counter.Holds other sum) : (counter.read worker).Holds other sum :=
    (holds_read inside).mpr (Or.inr ⟨fun heq => idle sum (heq ▸ hold), hold⟩)
  cases h with
  | both count next two =>
    obtain ⟨first, second, sum, sum', hne, hfirst, hsecond⟩ := two
    refine .both count (fun reader sum hold => ?_) ⟨first, second, sum, sum', hne, kept hfirst, kept hsecond⟩
    rcases (holds_read inside).mp hold with ⟨_, hsum⟩ | ⟨_, hold⟩
    · exact hsum
    · exact next reader sum hold
  | behind count bound late =>
    obtain ⟨other, sum, hold, hle⟩ := late
    refine .behind count (fun reader sum hold => ?_) ⟨other, sum, kept hold, hle⟩
    rcases (holds_read inside).mp hold with ⟨_, hsum⟩ | ⟨_, hold⟩
    · show sum + (counter.left : Int) ≤ total + 1
      omega
    · exact bound reader sum hold
  | short count bound =>
    refine .short count fun reader sum hold => ?_
    rcases (holds_read inside).mp hold with ⟨_, hsum⟩ | ⟨_, hold⟩
    · show sum + (counter.left : Int) ≤ total
      omega
    · exact bound reader sum hold

theorem Lost.write (h : counter.Lost total) (held : counter.Holds worker sum) (more : 0 < counter.left) :
    (counter.write worker sum).Lost total := by
  have hleft : ((counter.write worker sum).left : Int) = counter.left - 1 := by
    show ((counter.left - 1 : Nat) : Int) = counter.left - 1
    omega
  have hvalue : (counter.write worker sum).value = sum := rfl
  have kept {other : Nat} {sum' : Int} (hne : other ≠ worker) (hold : counter.Holds other sum') :
      (counter.write worker sum).Holds other sum' := by
    show (counter.holds.set worker none)[other]? = _
    rw [List.getElem?_set_ne hne.symm]
    exact hold
  cases h with
  | both count next two =>
    have hsum := next worker sum held
    -- whoever of the two did not write now is late
    obtain ⟨other, sum', hne, hold⟩ : ∃ other sum', other ≠ worker ∧ counter.Holds other sum' := by
      obtain ⟨first, second, sum₁, sum₂, hne, hfirst, hsecond⟩ := two
      by_cases hworker : first = worker
      · exact ⟨second, sum₂, fun heq => hne (hworker.trans heq.symm), hsecond⟩
      · exact ⟨first, sum₁, hworker, hfirst⟩
    have hlate := next other sum' hold
    refine .behind (by omega) (fun reader sum'' hold => ?_) ⟨other, sum', kept hne hold, by omega⟩
    have hreader := next reader sum'' (holds_write hold).2
    omega
  | behind count bound late =>
    obtain ⟨other, sum', hold, hle⟩ := late
    have hbound := bound worker sum held
    by_cases hother : other = worker
    · have hsame : sum' = sum := by
        rw [hother] at hold
        exact Option.some.inj (Option.some.inj (hold.symm.trans held))
      refine .short (by omega) fun reader sum'' hold => ?_
      have hreader := bound reader sum'' (holds_write hold).2
      omega
    · by_cases hlow : sum < sum'
      · refine .short (by omega) fun reader sum'' hold => ?_
        have hreader := bound reader sum'' (holds_write hold).2
        omega
      · refine .behind (by omega) (fun reader sum'' hold => ?_) ⟨other, sum', kept hother hold, by omega⟩
        have hreader := bound reader sum'' (holds_write hold).2
        omega
  | short count bound =>
    have hbound := bound worker sum held
    refine .short (by omega) fun reader sum'' hold => ?_
    have hreader := bound reader sum'' (holds_write hold).2
    omega

/-- With nothing held any more, a lost increase is missing. -/
theorem Lost.missing (h : counter.Lost total) (idle : ∀ worker sum, ¬counter.Holds worker sum) :
    counter.value + counter.left < total := by
  cases h with
  | both _ _ two =>
    obtain ⟨worker, _, sum, _, _, hold, _⟩ := two
    exact absurd hold (idle worker sum)
  | behind _ _ late =>
    obtain ⟨worker, sum, hold, _⟩ := late
    exact absurd hold (idle worker sum)
  | short count _ => exact count

end Counter

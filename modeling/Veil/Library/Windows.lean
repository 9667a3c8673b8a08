import Mathlib

/-- An event at a time, in the window that begins at `start`. -/
structure Windows.Entry where
  time : Int
  start : Int
  deriving DecidableEq

namespace Windows

/-- Windows of a length that do not overlap, with few events in each. -/
structure Apart (length : Int) (limit : Nat) (entries : List Entry) : Prop where
  within : ∀ entry ∈ entries, entry.start ≤ entry.time ∧ entry.time < entry.start + length
  apart : ∀ entry ∈ entries, ∀ other ∈ entries, entry.start < other.start → entry.start + length ≤ other.start
  few : ∀ start, entries.countP (fun entry => entry.start = start) ≤ limit

section

variable {length : Int} {limit : Nat} {entries : List Entry}

theorem Apart.nil : Apart length limit [] := ⟨nofun, nofun, fun _ => Nat.zero_le _⟩

theorem countP_le_add {α : Type} {p q r : α → Bool} {items : List α}
    (h : ∀ item ∈ items, p item = true → q item = true ∨ r item = true) : items.countP p ≤ items.countP q + items.countP r := by
  induction items with
  | nil => exact Nat.zero_le _
  | cons item items ih =>
    have htail := ih fun other hmem => h other (List.mem_cons_of_mem _ hmem)
    have hhead := h item List.mem_cons_self
    simp only [List.countP_cons]
    by_cases hp : p item = true
    · rcases hhead hp with hq | hr
      · simp only [hp, hq, if_true]
        omega
      · simp only [hp, hr, if_true]
        omega
    · simp only [hp, Bool.false_eq_true, if_false]
      omega

/-- An interval as long as a window meets two of them at most. -/
theorem Apart.two_starts (h : Apart length limit entries) (origin : Int) : ∃ first second, ∀ entry ∈ entries,
    origin ≤ entry.time ∧ entry.time < origin + length → entry.start = first ∨ entry.start = second := by
  by_cases hsome : ∃ entry ∈ entries, origin ≤ entry.time ∧ entry.time < origin + length
  · obtain ⟨first, hfirst, hin⟩ := hsome
    by_cases hother : ∃ entry ∈ entries, (origin ≤ entry.time ∧ entry.time < origin + length) ∧ entry.start ≠ first.start
    · obtain ⟨second, hsecond, hin', hne⟩ := hother
      refine ⟨first.start, second.start, fun entry hmem hentry => ?_⟩
      by_contra hthird
      -- three windows do not fit: the last begins a whole window after the middle one
      have h1 := h.within first hfirst
      have h2 := h.within second hsecond
      have h3 := h.within entry hmem
      have h12 := h.apart first hfirst second hsecond
      have h21 := h.apart second hsecond first hfirst
      have h13 := h.apart first hfirst entry hmem
      have h31 := h.apart entry hmem first hfirst
      have h23 := h.apart second hsecond entry hmem
      have h32 := h.apart entry hmem second hsecond
      omega
    · refine ⟨first.start, first.start, fun entry hmem hentry => Or.inl ?_⟩
      by_contra hne
      exact hother ⟨entry, hmem, hentry, hne⟩
  · exact ⟨0, 0, fun entry hmem hentry => absurd ⟨entry, hmem, hentry⟩ hsome⟩

theorem Apart.interval (h : Apart length limit entries) (origin : Int) :
    entries.countP (fun entry => origin ≤ entry.time ∧ entry.time < origin + length) ≤ 2 * limit := by
  obtain ⟨first, second, hstarts⟩ := h.two_starts origin
  have hsplit : entries.countP (fun entry => origin ≤ entry.time ∧ entry.time < origin + length) ≤
      entries.countP (fun entry => entry.start = first) + entries.countP (fun entry => entry.start = second) := by
    refine countP_le_add fun entry hmem hin => ?_
    rw [decide_eq_true_iff, decide_eq_true_iff]
    exact hstarts entry hmem (of_decide_eq_true hin)
  have hfirst := h.few first
  have hsecond := h.few second
  omega

/-- The events since the start of a window are those in it. -/
theorem Apart.since (h : Apart length limit entries) {start : Int}
    (last : ∀ entry ∈ entries, entry.start = start ∨ entry.start + length ≤ start) :
    entries.countP (fun entry => start ≤ entry.time ∧ entry.time < start + length) ≤ limit := by
  refine Nat.le_trans (List.countP_mono_left fun entry hmem hin => ?_) (h.few start)
  have hwithin := h.within entry hmem
  have hlast := last entry hmem
  have hin := of_decide_eq_true hin
  rw [decide_eq_true_iff]
  omega

/-- One more event, in a window that is full with it at most and overlaps no earlier one. -/
theorem Apart.push (h : Apart length limit entries) {entry : Entry}
    (within : entry.start ≤ entry.time ∧ entry.time < entry.start + length)
    (last : ∀ other ∈ entries, other.start = entry.start ∨ other.start + length ≤ entry.start)
    (room : entries.countP (fun other => other.start = entry.start) < limit) : Apart length limit (entries ++ [entry]) := by
  refine ⟨fun other hmem => ?_, fun first hfirst second hsecond hlt => ?_, fun start => ?_⟩
  · rcases List.mem_append.mp hmem with hmem | hmem
    · exact h.within other hmem
    · rw [List.mem_singleton.mp hmem]
      exact within
  · rcases List.mem_append.mp hfirst with hold | hnew
    · rcases List.mem_append.mp hsecond with hold' | hnew'
      · exact h.apart first hold second hold' hlt
      · rw [List.mem_singleton.mp hnew'] at hlt ⊢
        have hlast := last first hold
        omega
    · rw [List.mem_singleton.mp hnew] at hlt ⊢
      rcases List.mem_append.mp hsecond with hold' | hnew'
      · have hlast := last second hold'
        omega
      · rw [List.mem_singleton.mp hnew'] at hlt
        omega
  · rw [List.countP_append, List.countP_singleton]
    by_cases heq : entry.start = start
    · subst heq
      simp only [decide_true, if_true]
      omega
    · have hfew := h.few start
      simp only [heq, decide_false, Bool.false_eq_true, if_false]
      omega

end

end Windows

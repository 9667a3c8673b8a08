import Mathlib

universe u

/-- A heap of cells that can be written to; the cells from `next` on have not been handed out. -/
structure Cells (α : Type u) where
  next : Nat
  cell : Nat → α

namespace Cells

variable {α : Type u}

/-- The new cell is `heap.next`. -/
def alloc (heap : Cells α) (value : α) : Cells α :=
  ⟨heap.next + 1, Function.update heap.cell heap.next value⟩

def rewrite (f : α → α) (heap : Cells α) (c : Nat) : Cells α :=
  { heap with cell := Function.update heap.cell c (f (heap.cell c)) }

def rewriteAll (f : α → α) (heap : Cells α) (cells : List Nat) : Cells α := cells.foldl (rewrite f) heap

def allocAll (heap : Cells α) (values : List α) : Cells α := values.foldl alloc heap

@[simp] theorem next_alloc (heap : Cells α) (value : α) : (heap.alloc value).next = heap.next + 1 := rfl

@[simp] theorem cell_alloc_next (heap : Cells α) (value : α) : (heap.alloc value).cell heap.next = value :=
  Function.update_self _ _ _

theorem cell_alloc_of_ne (heap : Cells α) (value : α) {c : Nat} (h : c ≠ heap.next) :
    (heap.alloc value).cell c = heap.cell c := Function.update_of_ne h _ _

theorem cell_alloc (heap : Cells α) (value : α) {c : Nat} (h : c < heap.next) :
    (heap.alloc value).cell c = heap.cell c := cell_alloc_of_ne heap value h.ne

@[simp] theorem next_rewrite (f : α → α) (heap : Cells α) (c : Nat) : (heap.rewrite f c).next = heap.next := rfl

@[simp] theorem cell_rewrite_self (f : α → α) (heap : Cells α) (c : Nat) :
    (heap.rewrite f c).cell c = f (heap.cell c) := Function.update_self _ _ _

theorem cell_rewrite_of_ne (f : α → α) (heap : Cells α) {c d : Nat} (h : d ≠ c) :
    (heap.rewrite f c).cell d = heap.cell d := Function.update_of_ne h _ _

@[simp] theorem next_rewriteAll (f : α → α) (heap : Cells α) (cells : List Nat) :
    (heap.rewriteAll f cells).next = heap.next := by
  induction cells generalizing heap with
  | nil => rfl
  | cons c cells ih => exact ih (heap.rewrite f c)

theorem cell_rewriteAll_of_not_mem (f : α → α) (heap : Cells α) {cells : List Nat} {d : Nat} (h : d ∉ cells) :
    (heap.rewriteAll f cells).cell d = heap.cell d := by
  induction cells generalizing heap with
  | nil => rfl
  | cons c cells ih =>
    obtain ⟨hne, hnot⟩ := List.ne_and_not_mem_of_not_mem_cons h
    exact (ih (heap.rewrite f c) hnot).trans (cell_rewrite_of_ne f heap hne)

/-- A cell named once is written to once. -/
theorem cell_rewriteAll_of_mem (f : α → α) (heap : Cells α) {cells : List Nat} {d : Nat} (nodup : cells.Nodup)
    (h : d ∈ cells) : (heap.rewriteAll f cells).cell d = f (heap.cell d) := by
  induction cells generalizing heap with
  | nil => cases h
  | cons c cells ih =>
    obtain ⟨hnot, hnodup⟩ := List.nodup_cons.mp nodup
    rcases List.mem_cons.mp h with rfl | hmem
    · exact (cell_rewriteAll_of_not_mem f (heap.rewrite f d) hnot).trans (cell_rewrite_self f heap d)
    · have hne : d ≠ c := by
        rintro rfl
        exact hnot hmem
      exact (ih (heap.rewrite f c) hnodup hmem).trans (congrArg f (cell_rewrite_of_ne f heap hne))

@[simp] theorem next_allocAll (heap : Cells α) (values : List α) :
    (heap.allocAll values).next = heap.next + values.length := by
  induction values generalizing heap with
  | nil => rfl
  | cons value values ih =>
    rw [allocAll, List.foldl_cons, ← allocAll, ih, next_alloc, List.length_cons]
    omega

theorem cell_allocAll (heap : Cells α) (values : List α) {c : Nat} (h : c < heap.next) :
    (heap.allocAll values).cell c = heap.cell c := by
  induction values generalizing heap with
  | nil => rfl
  | cons value values ih =>
    rw [allocAll, List.foldl_cons, ← allocAll, ih _ (by rw [next_alloc]; omega)]
    exact cell_alloc heap value h

theorem cell_allocAll_new (heap : Cells α) (values : List α) {i : Nat} (h : i < values.length) :
    (heap.allocAll values).cell (heap.next + i) = values[i] := by
  induction values generalizing heap i with
  | nil => cases h
  | cons value values ih =>
    rw [allocAll, List.foldl_cons, ← allocAll]
    cases i with
    | zero =>
      rw [Nat.add_zero, cell_allocAll _ _ (by rw [next_alloc]; omega)]
      exact cell_alloc_next heap value
    | succ i =>
      have hnext : heap.next + (i + 1) = (heap.alloc value).next + i := by
        rw [next_alloc]
        omega
      rw [hnext, ih (heap.alloc value) (by simpa using h), List.getElem_cons_succ]

/-- New cells for `values` are handed out, then the cells of `spent` are written over. -/
def exchange (f : α → α) (heap : Cells α) (values : List α) (spent : List Nat) : Cells α :=
  (heap.allocAll values).rewriteAll f spent

@[simp] theorem next_exchange (f : α → α) (heap : Cells α) (values : List α) (spent : List Nat) :
    (heap.exchange f values spent).next = heap.next + values.length := by
  rw [exchange, next_rewriteAll, next_allocAll]

theorem cell_exchange (f : α → α) (heap : Cells α) (values : List α) {spent : List Nat} {c : Nat} (h : c < heap.next)
    (hspent : c ∉ spent) : (heap.exchange f values spent).cell c = heap.cell c := by
  rw [exchange, cell_rewriteAll_of_not_mem f _ hspent, cell_allocAll heap values h]

theorem cell_exchange_new (f : α → α) (heap : Cells α) (values : List α) {spent : List Nat}
    (below : ∀ c ∈ spent, c < heap.next) {i : Nat} (h : i < values.length) :
    (heap.exchange f values spent).cell (heap.next + i) = values[i] := by
  have hspent : heap.next + i ∉ spent := by
    intro hmem
    have := below _ hmem
    omega
  rw [exchange, cell_rewriteAll_of_not_mem f _ hspent, cell_allocAll_new heap values h]

/-- Writing over old cells and handing out new ones can change places. -/
theorem allocAll_rewriteAll (f : α → α) (heap : Cells α) (values : List α) {spent : List Nat}
    (below : ∀ c ∈ spent, c < heap.next) : (heap.rewriteAll f spent).allocAll values = heap.exchange f values spent := by
  have halloc : ∀ (heap : Cells α) (value : α) (spent : List Nat), (∀ c ∈ spent, c < heap.next) →
      (heap.rewriteAll f spent).alloc value = (heap.alloc value).rewriteAll f spent := by
    intro heap value spent below
    induction spent generalizing heap with
    | nil => rfl
    | cons c spent ih =>
      have hc : c < heap.next := below c List.mem_cons_self
      have hcomm : (heap.rewrite f c).alloc value = (heap.alloc value).rewrite f c := by
        simp only [alloc, rewrite, mk.injEq, true_and]
        rw [Function.update_comm (by omega), Function.update_of_ne (by omega)]
      rw [rewriteAll, List.foldl_cons, ← rewriteAll, ih (heap.rewrite f c) fun d hd => below d (List.mem_cons_of_mem _ hd),
        hcomm]
      rfl
  induction values generalizing heap with
  | nil => rfl
  | cons value values ih =>
    rw [allocAll, List.foldl_cons, halloc heap value spent below, ← allocAll,
      ih (heap.alloc value) fun c hc => Nat.lt_succ_of_lt (below c hc)]
    rfl

/-- The cells of an owner, all different and all handed out. -/
structure Fits (own : Multiset Nat) (heap : Cells α) : Prop where
  nodup : own.Nodup
  below : ∀ c ∈ own, c < heap.next

/-- The owner of `own` in `heap` has come to own `own'` in `heap'`, and has written to no cell of anyone else. -/
structure Moves (own own' : Multiset Nat) (heap heap' : Cells α) : Prop where
  next : heap.next ≤ heap'.next
  same : ∀ c < heap.next, c ∉ own → heap'.cell c = heap.cell c
  kept : ∀ c ∈ own', c ∈ own ∨ heap.next ≤ c
  fits : Fits own' heap'

section

variable {own own' own'' rest : Multiset Nat} {heap heap' heap'' : Cells α}

theorem Fits.le (h : Fits own heap) (hle : own' ≤ own) : Fits own' heap :=
  ⟨Multiset.nodup_of_le hle h.nodup, fun c hc => h.below c (Multiset.mem_of_le hle hc)⟩

theorem Fits.left (h : Fits (own + own') heap) : Fits own heap := h.le (Multiset.le_add_right own own')

theorem Fits.right (h : Fits (own + own') heap) : Fits own' heap := h.le (Multiset.le_add_left own' own)

theorem Fits.apart (h : Fits (own + own') heap) {c : Nat} (hc : c ∈ own) : c ∉ own' :=
  fun hc' => Multiset.disjoint_left.mp (Multiset.nodup_add.mp h.nodup).2.2 hc hc'

theorem Fits.grow (h : Fits own heap) (hnext : heap.next ≤ heap'.next) : Fits own heap' :=
  ⟨h.nodup, fun c hc => (h.below c hc).trans_le hnext⟩

namespace Moves

theorem refl (h : Fits own heap) : Moves own own heap heap :=
  ⟨le_rfl, fun _ _ _ => rfl, fun _ hc => Or.inl hc, h⟩

theorem trans (h : Moves own own' heap heap') (h' : Moves own' own'' heap' heap'') : Moves own own'' heap heap'' where
  next := h.next.trans h'.next
  same := by
    intro c hc hown
    have hnot : c ∉ own' := by
      intro hmem
      rcases h.kept c hmem with hin | hge
      · exact hown hin
      · exact hge.not_gt hc
    exact (h'.same c (hc.trans_le h.next) hnot).trans (h.same c hc hown)
  kept := by
    intro c hc
    rcases h'.kept c hc with hmem | hge
    · exact h.kept c hmem
    · exact Or.inr (h.next.trans hge)
  fits := h'.fits

/-- Owning more beforehand allows no less. -/
theorem mono (h : Moves own own' heap heap') (hle : own ≤ own'') : Moves own'' own' heap heap' :=
  ⟨h.next, fun c hc hnot => h.same c hc (fun hmem => hnot (Multiset.mem_of_le hle hmem)),
    fun c hc => (h.kept c hc).imp_left (fun hmem => Multiset.mem_of_le hle hmem), h.fits⟩

/-- Cells can be given up afterwards. -/
theorem drop (h : Moves own own' heap heap') (hle : own'' ≤ own') : Moves own own'' heap heap' :=
  ⟨h.next, h.same, fun c hc => h.kept c (Multiset.mem_of_le hle hc), h.fits.le hle⟩

/-- The cells of another owner hold what they held. -/
theorem others (h : Moves own own' heap heap') (fits : Fits (own + rest) heap) :
    ∀ c ∈ rest, heap'.cell c = heap.cell c := by
  intro c hc
  refine h.same c (fits.right.below c hc) (fun hmem => ?_)
  exact fits.apart hmem hc

/-- A move of one owner is a move of all of them together. -/
theorem beside (h : Moves own own' heap heap') (fits : Fits (own + rest) heap) :
    Moves (own + rest) (own' + rest) heap heap' where
  next := h.next
  same c hc hnot := h.same c hc (fun hmem => hnot (Multiset.mem_add.mpr (Or.inl hmem)))
  kept := by
    intro c hc
    rcases Multiset.mem_add.mp hc with hown | hrest
    · exact (h.kept c hown).imp_left (fun hmem => Multiset.mem_add.mpr (Or.inl hmem))
    · exact Or.inl (Multiset.mem_add.mpr (Or.inr hrest))
  fits := by
    refine ⟨Multiset.nodup_add.mpr ⟨h.fits.nodup, fits.right.nodup, ?_⟩, ?_⟩
    · refine Multiset.disjoint_left.mpr (fun {c} hown hrest => ?_)
      rcases h.kept c hown with hmem | hge
      · exact fits.apart hmem hrest
      · exact hge.not_gt (fits.right.below c hrest)
    · intro c hc
      rcases Multiset.mem_add.mp hc with hown | hrest
      · exact h.fits.below c hown
      · exact (fits.right.below c hrest).trans_le h.next

theorem alloc (h : Fits own heap) (value : α) : Moves own ({heap.next} + own) heap (heap.alloc value) where
  next := Nat.le_succ _
  same c hc _ := cell_alloc heap value hc
  kept := by
    intro c hc
    rcases Multiset.mem_add.mp hc with hnew | hmem
    · exact Or.inr (Multiset.mem_singleton.mp hnew).ge
    · exact Or.inl hmem
  fits := by
    have hbelow : ∀ c ∈ own, c < heap.next + 1 := fun c hc => Nat.lt_succ_of_lt (h.below c hc)
    refine ⟨Multiset.nodup_add.mpr ⟨Multiset.nodup_singleton _, h.nodup, ?_⟩, ?_⟩
    · refine Multiset.disjoint_left.mpr (fun hnew hmem => ?_)
      rw [Multiset.mem_singleton.mp hnew] at hmem
      exact (h.below _ hmem).ne rfl
    · intro c hc
      rcases Multiset.mem_add.mp hc with hnew | hmem
      · rw [Multiset.mem_singleton.mp hnew]
        exact Nat.lt_succ_self _
      · exact hbelow c hmem

theorem rewriteAll (h : Fits own heap) (f : α → α) (cells : List Nat) (hsub : ∀ c ∈ cells, c ∈ own) :
    Moves own own heap (heap.rewriteAll f cells) where
  next := (next_rewriteAll f heap cells).ge
  same c _ hnot := cell_rewriteAll_of_not_mem f heap (fun hmem => hnot (hsub c hmem))
  kept _ hc := Or.inl hc
  fits := h.grow (next_rewriteAll f heap cells).ge

theorem allocAll (h : Fits own heap) (values : List α) :
    Moves own (↑(List.range' heap.next values.length) + own) heap (heap.allocAll values) := by
  induction values generalizing heap own with
  | nil => exact (zero_add own).symm ▸ refl h
  | cons value values ih =>
    have hfirst := alloc h value
    have hrest := ih hfirst.fits
    refine (hfirst.trans hrest).drop (le_of_eq ?_)
    rw [List.length_cons, List.range'_succ, next_alloc, ← Multiset.cons_coe, ← Multiset.singleton_add]
    ac_rfl

/-- An owner spends cells of its own and takes new ones for them. -/
theorem exchange (f : α → α) {spent : List Nat} (h : Fits (↑spent + rest) heap) (values : List α) :
    Moves (↑spent + rest) (↑(List.range' heap.next values.length) + rest) heap (heap.exchange f values spent) := by
  have halloc := allocAll h values
  have hwrite := rewriteAll halloc.fits f spent
    (fun c hc => Multiset.mem_add.mpr (Or.inr (Multiset.mem_add.mpr (Or.inl hc))))
  refine (halloc.trans hwrite).drop ?_
  exact add_le_add le_rfl (Multiset.le_add_left rest ↑spent)

end Moves

/-- An owner of `spent` and `rest` has written over the cells of `spent` and taken new ones for `values`. -/
structure Exchanged (values : List α) (spent : List Nat) (rest : Multiset Nat) (heap heap' : Cells α) : Prop where
  next : heap'.next = heap.next + values.length
  kept : ∀ c ∈ rest, heap'.cell c = heap.cell c
  new : ∀ (i : Nat) (h : i < values.length), heap'.cell (heap.next + i) = values[i]
  moves : Moves (↑spent + rest) (↑(List.range' heap.next values.length) + rest) heap heap'

theorem exchanged (f : α → α) {spent : List Nat} (h : Fits (↑spent + rest) heap) (values : List α) :
    Exchanged values spent rest heap (heap.exchange f values spent) where
  next := next_exchange f heap values spent
  kept := by
    intro c hc
    refine cell_exchange f heap values (h.right.below c hc) (fun hmem => ?_)
    exact h.apart (Multiset.mem_coe.mpr hmem) hc
  new i hi := cell_exchange_new f heap values (fun c hc => h.left.below c (Multiset.mem_coe.mpr hc)) hi
  moves := Moves.exchange f h values

end

end Cells

import Mathlib.Data.Multiset.Count
import Mathlib.Data.Multiset.MapFold
import Mathlib.Tactic

/-!
# Reference counting

* `Tally rc refs`: the counts `rc` are exactly those of the references in `refs`;
* `Books held rc`: every holder's balance is a number of references it still has, and the counts
  are the totals of these balances; a positive balance keeps a count positive (`Books.pos`);
* `CountedHeap α`: cells with a payload and a count. A cell is freed when its count reaches `0`,
  and its number is never used again. `live` is the multiset of payloads that are not yet freed.
-/

set_option autoImplicit false

namespace RefCount

variable {ω ι : Type} [DecidableEq ω] [DecidableEq ι]

/-! ## Tallies -/

/-- `rc` counts exactly the references in `refs`. -/
def Tally (rc : ι → ℕ) (refs : Multiset ι) : Prop := ∀ i, rc i = refs.count i

theorem Tally.pos_iff {rc : ι → ℕ} {refs : Multiset ι} (h : Tally rc refs) {i : ι} :
    0 < rc i ↔ i ∈ refs := by
  rw [h i, Multiset.count_pos]

theorem Tally.cons {rc rc' : ι → ℕ} {refs : Multiset ι} {i : ι} (h : Tally rc refs)
    (hrc : ∀ j, rc' j = if j = i then rc j + 1 else rc j) : Tally rc' (i ::ₘ refs) := by
  intro j
  rw [hrc j, Multiset.count_cons, ← h j]
  split_ifs <;> omega

theorem Tally.erase {rc rc' : ι → ℕ} {refs : Multiset ι} {i : ι} (h : Tally rc refs)
    (hrc : ∀ j, rc' j = if j = i then rc j - 1 else rc j) : Tally rc' (refs.erase i) := by
  intro j
  rw [hrc j]
  split_ifs with hj
  · rw [hj, Multiset.count_erase_self, ← h i]
  · rw [Multiset.count_erase_of_ne hj, ← h j]

/-! ## Books -/

/-- The balances after `o` has taken one more reference on `i`. -/
def credit (held : ω → ι → ℤ) (o : ω) (i : ι) : ω → ι → ℤ :=
  fun o' j => if o' = o ∧ j = i then held o' j + 1 else held o' j

/-- The balances after `o` has given back a reference on `i`. -/
def debit (held : ω → ι → ℤ) (o : ω) (i : ι) : ω → ι → ℤ :=
  fun o' j => if o' = o ∧ j = i then held o' j - 1 else held o' j

theorem credit_of_ne {held : ω → ι → ℤ} {o o' : ω} (i j : ι) (h : o' ≠ o) :
    credit held o i o' j = held o' j := by simp [credit, h]

theorem debit_of_ne {held : ω → ι → ℤ} {o o' : ω} (i j : ι) (h : o' ≠ o) :
    debit held o i o' j = held o' j := by simp [debit, h]

/-- The books balance: the balances are numbers of references, and the counts are their totals. -/
def Books (held : ω → ι → ℤ) (rc : ι → ℕ) : Prop :=
  ∃ refs : Multiset (ω × ι), (∀ o i, held o i = refs.count (o, i)) ∧ Tally rc (refs.map Prod.snd)

namespace Books

variable {held : ω → ι → ℤ} {rc rc' : ι → ℕ} {o : ω} {i : ι}

theorem zero : Books (fun (_ : ω) (_ : ι) => 0) fun _ => 0 :=
  ⟨0, fun _ _ => by simp, fun _ => by simp⟩

theorem nonneg (h : Books held rc) (o : ω) (i : ι) : 0 ≤ held o i := by
  obtain ⟨refs, hb, -⟩ := h
  rw [hb o i]
  exact Int.natCast_nonneg _

/-- **A reference that is held keeps the count positive.** -/
theorem pos (h : Books held rc) (hi : 0 < held o i) : 0 < rc i := by
  obtain ⟨refs, hb, ht⟩ := h
  have hm : (o, i) ∈ refs := by
    rw [hb o i] at hi
    exact Multiset.count_pos.mp (by omega)
  exact ht.pos_iff.mpr (Multiset.mem_map_of_mem Prod.snd hm)

/-- A count that is positive is somebody's. -/
theorem exists_pos (h : Books held rc) (hi : 0 < rc i) : ∃ o, 0 < held o i := by
  obtain ⟨refs, hb, ht⟩ := h
  obtain ⟨⟨o, j⟩, hm, hj⟩ := Multiset.mem_map.mp (ht.pos_iff.mp hi)
  have hji : j = i := hj
  subst hji
  refine ⟨o, ?_⟩
  rw [hb o j]
  exact Int.natCast_pos.mpr (Multiset.count_pos.mpr hm)

theorem eq_zero_of_count (h : Books held rc) (hi : rc i = 0) (o : ω) : held o i = 0 := by
  have h1 := h.nonneg o i
  by_contra hne
  have h2 := h.pos (o := o) (i := i) (by omega)
  omega

theorem credit (h : Books held rc) (hrc : ∀ j, rc' j = if j = i then rc j + 1 else rc j) :
    Books (credit held o i) rc' := by
  obtain ⟨refs, hb, ht⟩ := h
  refine ⟨(o, i) ::ₘ refs, fun o' j => ?_, ?_⟩
  · simp only [RefCount.credit, Multiset.count_cons, hb o' j, Prod.mk.injEq]
    split_ifs <;> simp
  · rw [Multiset.map_cons]
    exact ht.cons hrc

theorem debit (h : Books held rc) (hi : 0 < held o i)
    (hrc : ∀ j, rc' j = if j = i then rc j - 1 else rc j) : Books (debit held o i) rc' := by
  obtain ⟨refs, hb, ht⟩ := h
  have hm : (o, i) ∈ refs := by
    rw [hb o i] at hi
    exact Multiset.count_pos.mp (by omega)
  obtain ⟨refs, rfl⟩ := Multiset.exists_cons_of_mem hm
  refine ⟨refs, fun o' j => ?_, ?_⟩
  · simp only [RefCount.debit, hb o' j, Multiset.count_cons, Prod.mk.injEq]
    split_ifs <;> simp
  · rw [Multiset.map_cons] at ht
    have := ht.erase hrc
    rwa [Multiset.erase_cons_head] at this

end Books

/-! ## Counted heaps -/

/-- A cell: its payload and the number of references on it. -/
structure Cell (α : Type) where
  payload : α
  count : ℕ

/-- The cells, numbered in the order of their allocation. -/
structure CountedHeap (α : Type) where
  cells : List (Cell α)

namespace CountedHeap

variable {α : Type}

/-- No cells. -/
def empty : CountedHeap α := ⟨[]⟩

/-- The number that the next cell gets. -/
def next (h : CountedHeap α) : ℕ := h.cells.length

/-- The number of references on cell `i`; `0` once it is freed. -/
def count (h : CountedHeap α) (i : ℕ) : ℕ := (h.cells[i]?.map Cell.count).getD 0

/-- The payload of cell `i`, freed or not. -/
def content (h : CountedHeap α) (i : ℕ) : Option α := h.cells[i]?.map Cell.payload

/-- The payload of cell `i`, unless it is freed. -/
def get? (h : CountedHeap α) (i : ℕ) : Option α := if 0 < h.count i then h.content i else none

/-- A new cell, with one reference. -/
def alloc (h : CountedHeap α) (x : α) : CountedHeap α := ⟨h.cells ++ [⟨x, 1⟩]⟩

/-- One more reference on cell `i`. -/
def retain (h : CountedHeap α) (i : ℕ) : CountedHeap α :=
  ⟨h.cells.modify i fun c => { c with count := c.count + 1 }⟩

/-- One reference less on cell `i`. -/
def release (h : CountedHeap α) (i : ℕ) : CountedHeap α :=
  ⟨h.cells.modify i fun c => { c with count := c.count - 1 }⟩

/-- A new payload in cell `i`. -/
def fill (h : CountedHeap α) (i : ℕ) (x : α) : CountedHeap α :=
  ⟨h.cells.modify i fun c => { c with payload := x }⟩

/-- The payloads of all cells, freed or not, in the order of their allocation. -/
def payloads (h : CountedHeap α) : List α := h.cells.map Cell.payload

/-- The payloads of the cells that are not freed. -/
def live (h : CountedHeap α) : Multiset α :=
  ((h.cells.filter fun c => 0 < c.count).map Cell.payload : List α)

@[simp] theorem live_empty : (empty : CountedHeap α).live = 0 := rfl

theorem count_eq_zero_of_le {h : CountedHeap α} {i : ℕ} (hi : h.next ≤ i) : h.count i = 0 := by
  have : h.cells[i]? = none := List.getElem?_eq_none hi
  simp [count, this]

theorem lt_next_of_count_pos {h : CountedHeap α} {i : ℕ} (hi : 0 < h.count i) : i < h.next := by
  by_contra hlt
  rw [count_eq_zero_of_le (by omega)] at hi
  omega

theorem count_alloc (h : CountedHeap α) (x : α) (j : ℕ) :
    (h.alloc x).count j = if j = h.next then h.count j + 1 else h.count j := by
  rcases lt_trichotomy j h.cells.length with hj | rfl | hj
  · simp [count, alloc, next, hj, hj.ne, List.getElem?_append_left]
  · simp [count, alloc, next]
  · have h1 : h.cells[j]? = none := List.getElem?_eq_none hj.le
    have h2 : (h.cells ++ [⟨x, 1⟩])[j]? = none := List.getElem?_eq_none (by
      rw [List.length_append, List.length_singleton]; omega)
    simp [count, alloc, next, h1, h2, hj.ne']

theorem count_retain {h : CountedHeap α} {i : ℕ} (hi : i < h.next) (j : ℕ) :
    (h.retain i).count j = if j = i then h.count j + 1 else h.count j := by
  have hi' : i < h.cells.length := hi
  simp only [count, retain, List.getElem?_modify]
  by_cases hj : j = i
  · subst hj
    simp [hi']
  · simp [hj, Ne.symm hj]

theorem count_release (h : CountedHeap α) (i j : ℕ) :
    (h.release i).count j = if j = i then h.count j - 1 else h.count j := by
  simp only [count, release, List.getElem?_modify]
  by_cases hj : j = i
  · subst hj
    cases h.cells[j]? <;> simp
  · simp [hj, Ne.symm hj]

@[simp] theorem next_alloc (h : CountedHeap α) (x : α) : (h.alloc x).next = h.next + 1 := by
  simp [next, alloc]

@[simp] theorem next_retain (h : CountedHeap α) (i : ℕ) : (h.retain i).next = h.next := by
  simp [next, retain]

@[simp] theorem next_release (h : CountedHeap α) (i : ℕ) : (h.release i).next = h.next := by
  simp [next, release]

@[simp] theorem content_alloc_next (h : CountedHeap α) (x : α) :
    (h.alloc x).content h.next = some x := by
  simp [content, alloc, next]

theorem content_isSome {h : CountedHeap α} {i : ℕ} (hi : i < h.next) : (h.content i).isSome := by
  have hi' : i < h.cells.length := hi
  simp [content, hi']

/-- Allocation keeps the payloads there are. -/
theorem content_alloc {h : CountedHeap α} {i : ℕ} {y : α} (x : α) (hi : h.content i = some y) :
    (h.alloc x).content i = some y := by
  have hlt : i < h.cells.length := by
    by_contra hle
    simp [content, List.getElem?_eq_none (Nat.le_of_not_lt hle)] at hi
  simpa [content, alloc, List.getElem?_append_left hlt] using hi

@[simp] theorem content_retain (h : CountedHeap α) (i j : ℕ) :
    (h.retain i).content j = h.content j := by
  simp only [content, retain, List.getElem?_modify]
  cases h.cells[j]? <;> simp [apply_ite]

@[simp] theorem content_release (h : CountedHeap α) (i j : ℕ) :
    (h.release i).content j = h.content j := by
  simp only [content, release, List.getElem?_modify]
  cases h.cells[j]? <;> simp [apply_ite]

@[simp] theorem payloads_alloc (h : CountedHeap α) (x : α) :
    (h.alloc x).payloads = h.payloads ++ [x] := by
  simp [payloads, alloc]

@[simp] theorem payloads_retain (h : CountedHeap α) (i : ℕ) : (h.retain i).payloads = h.payloads := by
  refine List.ext_getElem? fun j => ?_
  rw [payloads, payloads, List.getElem?_map, List.getElem?_map]
  exact content_retain h i j

@[simp] theorem payloads_release (h : CountedHeap α) (i : ℕ) :
    (h.release i).payloads = h.payloads := by
  refine List.ext_getElem? fun j => ?_
  rw [payloads, payloads, List.getElem?_map, List.getElem?_map]
  exact content_release h i j

theorem fill_alloc (h : CountedHeap α) (x y : α) : (h.alloc x).fill h.next y = h.alloc y := by
  obtain ⟨cells⟩ := h
  simp only [alloc, fill, next, CountedHeap.mk.injEq]
  induction cells with
  | nil => rfl
  | cons c cs ih => simpa using ih

theorem get?_eq_some {h : CountedHeap α} {i : ℕ} {x : α} :
    h.get? i = some x ↔ 0 < h.count i ∧ h.content i = some x := by
  simp [get?]

/-- A cell with a reference on it has a payload. -/
theorem exists_content {h : CountedHeap α} {i : ℕ} (hi : 0 < h.count i) :
    ∃ x, h.content i = some x := by
  have hlt : i < h.cells.length := lt_next_of_count_pos hi
  exact ⟨h.cells[i].payload, by rw [content, List.getElem?_eq_getElem hlt, Option.map_some]⟩

/-! ### What is allocated is live or freed -/

theorem mem_live {h : CountedHeap α} {i : ℕ} {x : α} (hi : 0 < h.count i)
    (hx : h.content i = some x) : x ∈ h.live := by
  obtain ⟨c, hc, rfl⟩ := Option.map_eq_some_iff.mp hx
  have hpos : 0 < c.count := by simpa [count, hc] using hi
  refine Multiset.mem_coe.mpr (List.mem_map_of_mem (List.mem_filter.mpr ⟨?_, by simpa using hpos⟩))
  exact List.mem_of_getElem? hc

theorem live_eq_zero {h : CountedHeap α} (hz : ∀ i, h.count i = 0) : h.live = 0 := by
  rw [live, Multiset.coe_eq_zero, List.map_eq_nil_iff, List.filter_eq_nil_iff]
  intro c hc
  obtain ⟨i, hi⟩ := List.mem_iff_getElem?.mp hc
  have := hz i
  simp only [count, hi, Option.map_some, Option.getD_some] at this
  simp [this]

theorem live_alloc (h : CountedHeap α) (x : α) : (h.alloc x).live = x ::ₘ h.live := by
  simp only [live, alloc, List.filter_append, List.map_append]
  rw [← Multiset.coe_add, Multiset.add_comm]
  rfl

theorem live_retain {h : CountedHeap α} {i : ℕ} (hi : 0 < h.count i) :
    (h.retain i).live = h.live := by
  obtain ⟨cells⟩ := h
  simp only [live, retain, Multiset.coe_eq_coe]
  induction cells generalizing i with
  | nil => simp
  | cons c cs ih =>
      cases i with
      | zero =>
          have hc : 0 < c.count := by simpa [count] using hi
          simp [hc]
      | succ i =>
          have := ih (i := i) (by simpa [count] using hi)
          simp only [List.modify_succ_cons, List.filter_cons]
          split_ifs
          · exact this.cons _
          · exact this

/-- A release that is not the last one frees nothing. -/
theorem live_release_of_one_lt {h : CountedHeap α} {i : ℕ} (hi : 1 < h.count i) :
    (h.release i).live = h.live := by
  obtain ⟨cells⟩ := h
  simp only [live, release, Multiset.coe_eq_coe]
  induction cells generalizing i with
  | nil => simp
  | cons c cs ih =>
      cases i with
      | zero =>
          have hc : 1 < c.count := by simpa [count] using hi
          have h1 : 0 < c.count := by omega
          have h2 : 0 < c.count - 1 := by omega
          simp [h1, h2]
      | succ i =>
          have := ih (i := i) (by simpa [count] using hi)
          simp only [List.modify_succ_cons, List.filter_cons]
          split_ifs
          · exact this.cons _
          · exact this

/-- **The last release frees the payload, once.** -/
theorem live_release_last {h : CountedHeap α} {i : ℕ} {x : α} (hi : h.count i = 1)
    (hx : h.content i = some x) : h.live = x ::ₘ (h.release i).live := by
  obtain ⟨cells⟩ := h
  simp only [live, release, Multiset.cons_coe, Multiset.coe_eq_coe]
  induction cells generalizing i with
  | nil => simp [content] at hx
  | cons c cs ih =>
      cases i with
      | zero =>
          have hc : c.count = 1 := by simpa [count] using hi
          have hp : c.payload = x := by simpa [content] using hx
          simp [hc, hp]
      | succ i =>
          have := ih (i := i) (by simpa [count] using hi) (by simpa [content] using hx)
          simp only [List.modify_succ_cons, List.filter_cons]
          split_ifs
          · exact (this.cons _).trans (List.Perm.swap _ _ _)
          · exact this

end CountedHeap

end RefCount

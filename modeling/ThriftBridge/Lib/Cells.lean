import Mathlib.Tactic

/-!
# Cells of memory

`m : ℕ → α` are the cells of a block, by their offset. `slice m i n` are the `n` cells from `i` on,
and `store m i bs` has `bs` there. The lemmas say how the two compose.
-/

set_option autoImplicit false

namespace Cells

variable {α : Type} {m m' : ℕ → α}

/-- The `n` cells from `i` on. -/
def slice (m : ℕ → α) (i n : ℕ) : List α := (List.range' i n).map m

/-- The cells after `bs` was copied to `i`. -/
def store (m : ℕ → α) (i : ℕ) (bs : List α) : ℕ → α :=
  fun a => if i ≤ a then (bs[a - i]?).getD (m a) else m a

@[simp] theorem length_slice (m : ℕ → α) (i n : ℕ) : (slice m i n).length = n := by
  rw [slice, List.length_map, List.length_range']

@[simp] theorem slice_zero (m : ℕ → α) (i : ℕ) : slice m i 0 = [] := rfl

/-- Two slices, one after the other. -/
theorem slice_append (m : ℕ → α) (i n k : ℕ) :
    slice m i n ++ slice m (i + n) k = slice m i (n + k) := by
  have h : List.range' i n ++ List.range' (i + n) k = List.range' i (n + k) :=
    List.range'_append_1
  rw [slice, slice, slice, ← h, List.map_append]

theorem take_slice (m : ℕ → α) (i : ℕ) {n k : ℕ} (h : k ≤ n) :
    (slice m i n).take k = slice m i k := by
  obtain ⟨d, rfl⟩ := Nat.exists_eq_add_of_le h
  rw [← slice_append, List.take_left' (length_slice m i k)]

theorem drop_slice (m : ℕ → α) (i n k : ℕ) : (slice m i n).drop k = slice m (i + k) (n - k) := by
  rcases Nat.le_total k n with h | h
  · obtain ⟨d, rfl⟩ := Nat.exists_eq_add_of_le h
    rw [← slice_append, List.drop_left' (length_slice m i k), Nat.add_sub_cancel_left]
  · rw [Nat.sub_eq_zero_of_le h, slice_zero, List.drop_eq_nil_iff, length_slice]
    exact h

/-- Slices of cells that agree. -/
theorem slice_congr {i n : ℕ} (h : ∀ a, i ≤ a → a < i + n → m a = m' a) :
    slice m i n = slice m' i n := by
  refine List.map_congr_left fun a ha => ?_
  have hmem := List.mem_range'_1.mp ha
  exact h a hmem.1 hmem.2

theorem store_of_lt {i a : ℕ} (bs : List α) (h : a < i) : store m i bs a = m a :=
  if_neg (by omega)

/-- What was stored is there. -/
theorem slice_store (m : ℕ → α) (i : ℕ) (bs : List α) :
    slice (store m i bs) i bs.length = bs := by
  refine List.ext_getElem (length_slice _ _ _) fun k h1 h2 => ?_
  simp only [slice, List.getElem_map, List.getElem_range', Nat.one_mul]
  unfold store
  rw [if_pos (Nat.le_add_right i k), Nat.add_sub_cancel_left, List.getElem?_eq_getElem h2,
    Option.getD_some]

/-- **A store at the end of a slice** appends to it. -/
theorem slice_store_append (m : ℕ → α) (i n : ℕ) (bs : List α) :
    slice (store m (i + n) bs) i (n + bs.length) = slice m i n ++ bs := by
  have hbefore : slice (store m (i + n) bs) i n = slice m i n :=
    slice_congr fun a _ h => store_of_lt bs h
  rw [← slice_append, slice_store, hbefore]

end Cells

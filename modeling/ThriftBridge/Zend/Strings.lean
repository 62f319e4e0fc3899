import Mathlib.Tactic

/-!
# Zend strings and 64-bit integers

* `ZendString`: a byte string, its length below `2 ^ 63`;
* `StrRef`: a pointer to a string, interned (not counted) or a counted cell of the heap;
* `splice`: the effect of a `memcpy` into a string;
* conversions between `zend_long` and `size_t`: `toNat_toUInt64`, `toInt_toInt64`.
-/

set_option autoImplicit false

namespace ThriftBridge

/-- A run of bytes. -/
abbrev Bytes := List UInt8

/-! ## Conversions -/

/-- `(size_t)n` of a `zend_long`. -/
theorem toNat_toUInt64 (n : Int64) : (n.toUInt64.toNat : ℤ) = n.toInt % 2 ^ 64 := by
  have h := n.toUInt64.toNat_lt
  rw [← Int64.toInt_toBitVec, BitVec.toInt_eq_toNat_bmod,
    show n.toBitVec.toNat = n.toUInt64.toNat from rfl]
  simp only [Nat.cast_ofNat, Nat.reducePow, Int.bmod]
  omega

/-- `(zend_long)n` of a `size_t`. -/
theorem toInt_toInt64 (n : UInt64) : n.toInt64.toInt = (n.toNat : ℤ).bmod (2 ^ 64) := by
  rw [← Int64.toInt_toBitVec, BitVec.toInt_eq_toNat_bmod]
  rfl

/-! ## Strings -/

/-- A string of the engine. -/
structure ZendString where
  val : Bytes
  len_lt : val.length < 2 ^ 63
deriving DecidableEq

namespace ZendString

theorem ext {s t : ZendString} (h : s.val = t.val) : s = t := by
  cases s; cases t; cases h; rfl

/-- The empty string. -/
def empty : ZendString := ⟨[], by decide⟩

/-- `ZSTR_LEN`. -/
def len (s : ZendString) : UInt64 := UInt64.ofNat s.val.length

@[simp] theorem len_toNat (s : ZendString) : s.len.toNat = s.val.length := by
  have := s.len_lt
  rw [len, UInt64.toNat_ofNat']
  omega

/-- The string after `memcpy(ZSTR_VAL(s) + off, src, n)` with the `n` bytes `src`. -/
def splice (s : ZendString) (off : ℕ) (src : Bytes) (h : off + src.length ≤ s.val.length) :
    ZendString where
  val := s.val.take off ++ src ++ s.val.drop (off + src.length)
  len_lt := by
    have := s.len_lt
    simp only [List.length_append, List.length_take, List.length_drop]
    omega

@[simp] theorem splice_length (s : ZendString) (off : ℕ) (src : Bytes)
    (h : off + src.length ≤ s.val.length) : (s.splice off src h).val.length = s.val.length := by
  simp only [splice, List.length_append, List.length_take, List.length_drop]
  omega

/-- **Two adjacent copies fill a string.** -/
theorem splice_splice_val (s : ZendString) (a b : Bytes) (hs : s.val.length = a.length + b.length)
    (h₁ : 0 + a.length ≤ s.val.length)
    (h₂ : a.length + b.length ≤ (s.splice 0 a h₁).val.length) :
    ((s.splice 0 a h₁).splice a.length b h₂).val = a ++ b := by
  have h1 : (s.splice 0 a h₁).val = a ++ s.val.drop a.length := by simp [splice]
  simp only [splice] at h1 ⊢
  rw [h1, List.take_left, List.drop_eq_nil_of_le (by simp; omega), List.append_nil]

end ZendString

/-- A pointer to a string: interned strings are not counted, the others are cells of the heap. -/
inductive StrRef
  | interned (s : ZendString)
  | counted (a : ℕ)
deriving DecidableEq

/-- `ZSTR_CHAR(c)`: the strings of one byte are interned. -/
def zstrChar (c : UInt8) : StrRef := .interned ⟨[c], by simp⟩

/-- `ZSTR_EMPTY_ALLOC()`. -/
def emptyAlloc : StrRef := .interned .empty

end ThriftBridge

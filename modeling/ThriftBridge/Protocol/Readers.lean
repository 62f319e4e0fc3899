import ThriftBridge.Protocol.Binary

/-!
# What the readers of `TBinaryProtocol` accept

`Took s bs r t`: from `s` to `t` the bytes `bs` were read, `r` is left of the message size, and
nothing else has changed. For each reader, `*_eq_ok` says exactly when it returns, what it returns,
and which bytes it has taken.
-/

set_option autoImplicit false

namespace ThriftBridge

variable {σ : Type}

/-- The bytes `bs` were read, and `r` is left of the message size. -/
structure Took (s : Session Unread σ) (bs : Bytes) (r : ℕ) (t : Session Unread σ) : Prop where
  bytes : s.input.bytes = bs ++ t.input.bytes
  state : t = { s with input := ⟨t.input.bytes, s.input.taken + bs.length, r⟩ }

namespace Took

variable {s t u : Session Unread σ} {as bs : Bytes} {q r : ℕ}

theorem refl (s : Session Unread σ) : Took s [] s.input.remaining s := ⟨rfl, rfl⟩

theorem remaining (h : Took s bs r t) : t.input.remaining = r := by
  rw [h.state]

theorem depth (h : Took s bs r t) : t.inputRecursionDepth = s.inputRecursionDepth := by
  rw [h.state]

theorem trans (h : Took s as q t) (h' : Took t bs r u) : Took s (as ++ bs) r u := by
  refine ⟨?_, ?_⟩
  · rw [h.bytes, h'.bytes, List.append_assoc]
  · have hu := h'.state
    rw [h.state] at hu
    rw [hu, List.length_append, ← Nat.add_assoc]

theorem length_eq (h : Took s bs r t) :
    bs.length + t.input.bytes.length = s.input.bytes.length := by
  rw [h.bytes, List.length_append]

theorem take_length (h : Took s bs r t) : s.input.bytes.take bs.length = bs := by
  rw [h.bytes, List.take_left]

/-- What is read determines where the reading ends. -/
theorem unique (h : Took s bs r t) (h' : Took s bs r u) : t = u := by
  have hb : t.input.bytes = u.input.bytes := List.append_cancel_left (h.bytes.symm.trans h'.bytes)
  rw [h.state, h'.state, hb]

/-- A reading of two parts is two readings. -/
theorem split {a : Bytes} (h : Took s (a ++ bs) r t) (q : ℕ) :
    ∃ u, Took s a q u ∧ Took u bs r t := by
  refine ⟨{ s with input := ⟨bs ++ t.input.bytes, s.input.taken + a.length, q⟩ }, ⟨?_, rfl⟩,
    rfl, ?_⟩
  · rw [h.bytes, List.append_assoc]
  · rw [h.state, List.length_append, ← Nat.add_assoc]

/-- What is there can be read. -/
theorem of_append {tail : Bytes} (h : s.input.bytes = bs ++ tail) (r : ℕ) :
    Took s bs r { s with input := ⟨tail, s.input.taken + bs.length, r⟩ } := ⟨h, rfl⟩

end Took

/-! ## Operations -/

namespace Code

variable {M : Malloc} {s t : Session Unread σ} {α β : Type}

/-- **A sequence returns** when both parts do. -/
theorem bind_eq_ok {p : Code σ α} {f : α → Code σ β} {b : β} :
    exec M (p >>= f) s = .ok b t ↔ ∃ a u, exec M p s = .ok a u ∧ exec M (f a) u = .ok b t :=
  Program.exec_bind_eq_ok

@[simp] theorem pure_eq_ok {a b : α} :
    exec M (pure a : Code σ α) s = .ok b t ↔ a = b ∧ s = t := by
  rw [exec, Program.exec_pure, EStateM.Result.ok.injEq]

@[simp] theorem throw_eq_ok {e : Thrown} {b : α} :
    exec M (throw e : Code σ α) s = .ok b t ↔ False := by
  rw [exec, throw, Program.exec_raise]
  simp

theorem exec_readAll {len : UInt32} :
    exec M (readAll len) s = onInput (InputTransport.readAll len) s :=
  Program.exec_perform _

theorem exec_consume {len : UInt32} :
    exec M (consume len) s = onInput (InputTransport.consume len) s :=
  Program.exec_perform _

theorem exec_checkReadBytesAvailable {n : ℤ} :
    exec M (checkReadBytesAvailable n) s = onInput (InputTransport.checkReadBytesAvailable n) s :=
  Program.exec_perform _

theorem exec_borrow {len : UInt32} : exec M (borrow len) s =
    .ok (if len.toNat ≤ s.input.bytes.length then some s.input.bytes else none) s :=
  Program.exec_perform _

theorem took_take {n r : ℕ} (h : n ≤ s.input.bytes.length) :
    Took s (s.input.bytes.take n) r
      { s with input := { s.input.advance n with remaining := r } } := by
  have hlen : (s.input.bytes.take n).length = n := by rw [List.length_take, min_eq_left h]
  refine ⟨(List.take_append_drop _ _).symm, ?_⟩
  simp only [Unread.advance, hlen, min_eq_left h]

theorem readAll_eq_ok {len : UInt32} {bs : Bytes} :
    exec M (readAll len) s = .ok bs t ↔
      bs.length = len.toNat ∧ Took s bs s.input.remaining t := by
  rw [exec_readAll]
  simp only [onInput, InputTransport.readAll]
  by_cases hlen : len.toNat ≤ s.input.bytes.length
  · rw [if_pos hlen]
    simp only [EStateM.Result.ok.injEq]
    constructor
    · rintro ⟨rfl, rfl⟩
      exact ⟨by rw [List.length_take, min_eq_left hlen], took_take hlen⟩
    · rintro ⟨hbs, h⟩
      have htake := h.take_length
      rw [hbs] at htake
      exact ⟨htake, Took.unique (htake ▸ took_take hlen) h⟩
  · have hno : ¬ (bs.length = len.toNat ∧ Took s bs s.input.remaining t) := by
      rintro ⟨hbs, h⟩
      have := h.length_eq
      omega
    simp only [hlen, hno, if_false, iff_false]
    split_ifs <;> simp

theorem consume_eq_ok {len : UInt32} {a : Unit} :
    exec M (consume len) s = .ok a t ↔ len.toNat ≤ s.input.remaining ∧
      len.toNat ≤ s.input.bytes.length ∧
      Took s (s.input.bytes.take len.toNat) (s.input.remaining - len.toNat) t := by
  rw [exec_consume]
  simp only [onInput, InputTransport.consume]
  by_cases hr : s.input.remaining < len.toNat
  · simp only [hr, if_true, reduceCtorEq, false_iff, not_and]
    omega
  · by_cases hlen : len.toNat ≤ s.input.bytes.length
    · simp only [hr, hlen, if_true, if_false, EStateM.Result.ok.injEq, true_and]
      constructor
      · rintro rfl
        exact ⟨by omega, took_take hlen⟩
      · rintro ⟨-, h⟩
        exact (took_take hlen).unique h
    · simp [hr, hlen]

theorem checkReadBytesAvailable_eq_ok {n : ℤ} {a : Unit} :
    exec M (checkReadBytesAvailable n) s = .ok a t ↔ n ≤ s.input.remaining ∧ s = t := by
  rw [exec_checkReadBytesAvailable]
  simp only [onInput, InputTransport.checkReadBytesAvailable]
  split_ifs with h
  · simp only [false_iff, not_and]
    omega
  · simp only [EStateM.Result.ok.injEq, true_and]
    exact ⟨fun he => ⟨by omega, he⟩, fun he => he.2⟩

end Code

/-! ## Readers -/

namespace TBinaryProtocol

variable {M : Malloc} {s t : Session Unread σ} {prot : TBinaryProtocol}

/-- A reader of a fixed number of bytes that loses nothing. -/
theorem fixed_eq_ok {α : Type} {len n : UInt32} (f : Bytes → α) (g : α → Bytes)
    (hg : ∀ a, (g a).length = len.toNat) (hfg : ∀ a, f (g a) = a)
    (hgf : ∀ b, b.length = len.toNat → g (f b) = b) {r : α × UInt32} :
    Code.exec M (do let b ← Code.readAll len; return (f b, n)) s = .ok r t ↔
      r.2 = n ∧ Took s (g r.1) s.input.remaining t := by
  obtain ⟨a, m⟩ := r
  simp only [Code.bind_eq_ok, Code.readAll_eq_ok, Code.pure_eq_ok, Prod.mk.injEq]
  constructor
  · rintro ⟨b, u, ⟨hb, h⟩, ⟨rfl, rfl⟩, rfl⟩
    exact ⟨rfl, by rwa [hgf b hb]⟩
  · rintro ⟨rfl, h⟩
    exact ⟨g a, t, ⟨hg a, h⟩, ⟨hfg a, rfl⟩, rfl⟩

theorem readByte_eq_ok {r : Int8 × UInt32} : Code.exec M readByte s = .ok r t ↔
    r.2 = 1 ∧ Took s [r.1.toUInt8] s.input.remaining t := by
  refine fixed_eq_ok (fun b => (b.headD 0).toInt8) (fun a : Int8 => [a.toUInt8]) (fun a => rfl)
    (fun a => rfl) ?_
  intro b hb
  obtain ⟨x, rfl⟩ := List.length_eq_one_iff.mp hb
  rfl

theorem readI16_eq_ok {r : Int16 × UInt32} : Code.exec M readI16 s = .ok r t ↔
    r.2 = 2 ∧ Took s (BigEndian.encode 2 r.1.toBitVec) s.input.remaining t := by
  refine fixed_eq_ok (fun b => Int16.ofBitVec (BigEndian.decode 2 b))
    (fun a => BigEndian.encode 2 a.toBitVec) (fun a => BigEndian.length_encode _)
    (fun a => by rw [BigEndian.decode_encode, Int16.ofBitVec_toBitVec]) ?_
  intro b hb
  rw [Int16.toBitVec_ofBitVec]
  exact BigEndian.encode_decode hb

theorem readI32_eq_ok {r : Int32 × UInt32} : Code.exec M readI32 s = .ok r t ↔
    r.2 = 4 ∧ Took s (BigEndian.encode 4 r.1.toBitVec) s.input.remaining t := by
  refine fixed_eq_ok (fun b => Int32.ofBitVec (BigEndian.decode 4 b))
    (fun a => BigEndian.encode 4 a.toBitVec) (fun a => BigEndian.length_encode _)
    (fun a => by rw [BigEndian.decode_encode, Int32.ofBitVec_toBitVec]) ?_
  intro b hb
  rw [Int32.toBitVec_ofBitVec]
  exact BigEndian.encode_decode hb

theorem readI64_eq_ok {r : Int64 × UInt32} : Code.exec M readI64 s = .ok r t ↔
    r.2 = 8 ∧ Took s (BigEndian.encode 8 r.1.toBitVec) s.input.remaining t := by
  refine fixed_eq_ok (fun b => Int64.ofBitVec (BigEndian.decode 8 b))
    (fun a => BigEndian.encode 8 a.toBitVec) (fun a => BigEndian.length_encode _)
    (fun a => by rw [BigEndian.decode_encode, Int64.ofBitVec_toBitVec]) ?_
  intro b hb
  rw [Int64.toBitVec_ofBitVec]
  exact BigEndian.encode_decode hb

theorem readDouble_eq_ok {r : UInt64 × UInt32} : Code.exec M readDouble s = .ok r t ↔
    r.2 = 8 ∧ Took s (BigEndian.encode 8 r.1.toBitVec) s.input.remaining t := by
  refine fixed_eq_ok (fun b => UInt64.ofBitVec (BigEndian.decode 8 b))
    (fun a => BigEndian.encode 8 a.toBitVec) (fun a => BigEndian.length_encode _)
    (fun a => by rw [BigEndian.decode_encode]) ?_
  intro b hb
  exact BigEndian.encode_decode hb

/-- Any byte is a `bool`. -/
theorem readBool_eq_ok {r : Bool × UInt32} : Code.exec M readBool s = .ok r t ↔
    ∃ b : UInt8, r = (b != 0, 1) ∧ Took s [b] s.input.remaining t := by
  simp only [readBool, Code.bind_eq_ok, Code.readAll_eq_ok, Code.pure_eq_ok]
  constructor
  · rintro ⟨b, u, ⟨hb, h⟩, rfl, rfl⟩
    obtain ⟨x, rfl⟩ := List.length_eq_one_iff.mp hb
    exact ⟨x, rfl, h⟩
  · rintro ⟨b, rfl, h⟩
    exact ⟨[b], t, ⟨rfl, h⟩, rfl, rfl⟩

/-! ### Sizes -/

/-- The bytes of a size. -/
def sizeBytes (n : ℕ) : Bytes := BigEndian.toBytes 4 n

@[simp] theorem length_sizeBytes (n : ℕ) : (sizeBytes n).length = 4 := BigEndian.length_toBytes _ _

theorem encode_eq_sizeBytes (i : Int32) :
    BigEndian.encode 4 i.toBitVec = sizeBytes i.toUInt32.toNat := rfl

theorem toInt_eq (i : Int32) : i.toInt = if i.toUInt32.toNat < 2 ^ 31 then
    (i.toUInt32.toNat : ℤ) else i.toUInt32.toNat - 2 ^ 32 := by
  have h : i.toInt = _ := BitVec.toInt_eq_toNat_cond i.toBitVec
  have hn : i.toBitVec.toNat = i.toUInt32.toNat := rfl
  rw [h, hn]
  split_ifs <;> first | rfl | (exfalso; omega)

theorem nonneg_iff (i : Int32) : ¬ i < 0 ↔ i.toUInt32.toNat < 2 ^ 31 := by
  have hlt := i.toUInt32.toNat_lt
  rw [Int32.lt_iff_toInt_lt, toInt_eq]
  split_ifs <;> simp <;> omega

theorem toInt_of_nonneg {i : Int32} (h : ¬ i < 0) : i.toInt = i.toUInt32.toNat := by
  rw [toInt_eq, if_pos ((nonneg_iff i).mp h)]

/-- The size of a string, and of a container. -/
theorem toNat_toInt32 {n : ℕ} (h : n < 2 ^ 31) : (UInt32.ofNat n).toInt32.toUInt32.toNat = n := by
  rw [UInt32.toUInt32_toInt32, UInt32.toNat_ofNat']
  omega

theorem sizeBytes_injective {n m : ℕ} (hn : n < 2 ^ 32) (hm : m < 2 ^ 32)
    (h : sizeBytes n = sizeBytes m) : n = m := by
  have hv := congrArg BigEndian.ofBytes h
  rw [sizeBytes, sizeBytes, BigEndian.ofBytes_toBytes, BigEndian.ofBytes_toBytes] at hv
  omega

/-- A string of `n` bytes is not too long. -/
def StringFits (prot : TBinaryProtocol) (n : ℕ) : Prop :=
  ¬ (0 < prot.stringLimit ∧ prot.stringLimit.toInt < n)

instance (n : ℕ) : Decidable (prot.StringFits n) :=
  inferInstanceAs (Decidable (¬ (0 < prot.stringLimit ∧ prot.stringLimit.toInt < n)))

/-- A container of `n` elements is not too large. -/
def ContainerFits (prot : TBinaryProtocol) (n : ℕ) : Prop :=
  ¬ (prot.containerLimit ≠ 0 ∧ prot.containerLimit.toInt < n)

instance (n : ℕ) : Decidable (prot.ContainerFits n) :=
  inferInstanceAs (Decidable (¬ (prot.containerLimit ≠ 0 ∧ prot.containerLimit.toInt < n)))

/-- **The body of a string** is charged to the message size. -/
theorem readStringBody_eq_ok {size : Int32} {r : Bytes × UInt32} :
    Code.exec M (prot.readStringBody size) s = .ok r t ↔
      ¬ size < 0 ∧ prot.StringFits r.1.length ∧ r.1.length = size.toUInt32.toNat ∧
        r.2 = size.toUInt32 ∧ r.1.length ≤ s.input.remaining ∧
        Took s r.1 (s.input.remaining - r.1.length) t := by
  obtain ⟨str, n⟩ := r
  unfold readStringBody
  by_cases hneg : size < 0
  · simp [hneg]
  have hint := toInt_of_nonneg hneg
  by_cases hlim : 0 < prot.stringLimit ∧ prot.stringLimit < size
  · rw [if_neg hneg, if_pos hlim]
    simp only [Code.throw_eq_ok, false_iff]
    rintro ⟨-, hfits, hlen, -⟩
    rw [Int32.lt_iff_toInt_lt (x := prot.stringLimit), hint] at hlim
    exact hfits ⟨hlim.1, by rw [hlen]; exact hlim.2⟩
  have hfits : str.length = size.toUInt32.toNat → prot.StringFits str.length := by
    rintro hlen ⟨h1, h2⟩
    rw [hlen, ← hint, ← Int32.lt_iff_toInt_lt] at h2
    exact hlim ⟨h1, h2⟩
  rw [if_neg hneg, if_neg hlim]
  by_cases hz : size = 0
  · rw [if_pos hz]
    subst hz
    simp only [Code.pure_eq_ok, Prod.mk.injEq]
    constructor
    · rintro ⟨⟨rfl, rfl⟩, rfl⟩
      exact ⟨hneg, hfits rfl, rfl, rfl, Nat.zero_le _, Took.refl _⟩
    · rintro ⟨-, -, hlen, rfl, -, h⟩
      obtain rfl := List.length_eq_zero_iff.mp hlen
      exact ⟨⟨rfl, rfl⟩, (Took.refl s).unique h⟩
  rw [if_neg hz]
  simp only [Code.bind_eq_ok, Code.exec_borrow, EStateM.Result.ok.injEq]
  by_cases hlen : size.toUInt32.toNat ≤ s.input.bytes.length
  · simp only [hlen, if_true]
    constructor
    · rintro ⟨_, _, ⟨rfl, rfl⟩, hrun⟩
      simp only [Code.bind_eq_ok, Code.consume_eq_ok, Code.pure_eq_ok, Prod.mk.injEq] at hrun
      obtain ⟨-, u, ⟨hr, -, h⟩, ⟨rfl, rfl⟩, rfl⟩ := hrun
      have htake : (s.input.bytes.take size.toUInt32.toNat).length = size.toUInt32.toNat := by
        rw [List.length_take, min_eq_left hlen]
      refine ⟨hneg, hfits htake, htake, rfl, ?_, ?_⟩
      · rwa [htake]
      · rwa [htake]
    · rintro ⟨-, -, hstr, rfl, hr, h⟩
      have htake := h.take_length
      rw [hstr] at htake hr h
      refine ⟨_, _, ⟨rfl, rfl⟩, ?_⟩
      simp only [Code.bind_eq_ok, Code.consume_eq_ok, Code.pure_eq_ok, Prod.mk.injEq]
      exact ⟨(), t, ⟨hr, hlen, by rwa [htake]⟩, ⟨htake, trivial⟩, rfl⟩
  · simp only [hlen, if_false]
    constructor
    · rintro ⟨_, _, ⟨rfl, rfl⟩, hrun⟩
      simp only [Code.bind_eq_ok, Code.readAll_eq_ok] at hrun
      obtain ⟨bs, u, ⟨hbs, h⟩, -⟩ := hrun
      have := h.length_eq
      omega
    · rintro ⟨-, -, hstr, -, -, h⟩
      have := h.length_eq
      omega

/-- **A string.** -/
theorem readString_eq_ok {r : Bytes × UInt32} :
    Code.exec M prot.readString s = .ok r t ↔
      r.1.length < 2 ^ 31 ∧ prot.StringFits r.1.length ∧ r.2 = UInt32.ofNat (4 + r.1.length) ∧
        r.1.length ≤ s.input.remaining ∧
        Took s (sizeBytes r.1.length ++ r.1) (s.input.remaining - r.1.length) t := by
  obtain ⟨str, n⟩ := r
  simp only [readString, Code.bind_eq_ok, readI32_eq_ok, readStringBody_eq_ok, Code.pure_eq_ok,
    encode_eq_sizeBytes]
  constructor
  · rintro ⟨⟨size, _⟩, u, ⟨rfl, h1⟩, ⟨_, _⟩, v, ⟨hneg, hfits, hlen, rfl, hr, h2⟩, he, rfl⟩
    simp only [Prod.mk.injEq] at he
    obtain ⟨rfl, rfl⟩ := he
    simp only at h1 h2 hlen hfits hr
    rw [h1.remaining] at hr h2
    refine ⟨?_, hfits, ?_, hr, ?_⟩
    · rw [hlen]
      exact (nonneg_iff size).mp hneg
    · rw [hlen, UInt32.ofNat_add, UInt32.ofNat_toNat]
      rfl
    · rw [← hlen] at h1
      exact h1.trans h2
  · rintro ⟨hlt, hfits, rfl, hr, h⟩
    set size := (UInt32.ofNat str.length).toInt32 with hsize
    have hn : size.toUInt32.toNat = str.length := toNat_toInt32 hlt
    obtain ⟨u, h1, h2⟩ := h.split s.input.remaining
    refine ⟨(size, 4), u, ⟨rfl, by rwa [hn]⟩, (str, size.toUInt32), t,
      ⟨(nonneg_iff size).mpr (by rwa [hn]), hfits, hn.symm, rfl, ?_⟩, ?_, rfl⟩
    · rw [h1.remaining]
      exact ⟨hr, h2⟩
    · rw [UInt32.ofNat_add, hsize, UInt32.toUInt32_toInt32]
      rfl

/-- What `getMinSerializedSize` returns, if it returns. -/
def minSize (type : TType) : Option Int32 :=
  match (getMinSerializedSize type : Code Unit Int32) with
  | .ret n => some n
  | _ => none

theorem getMinSerializedSize_eq_ok {type : TType} {n : Int32} :
    Code.exec M (getMinSerializedSize type) s = .ok n t ↔ minSize type = some n ∧ s = t := by
  cases type <;> simp [getMinSerializedSize, minSize, Code.throw, Code.exec, Pure.pure]

theorem named_of_minSize {type : TType} (h : (minSize type).isSome) : type.Named := by
  cases type <;> first | decide | cases h

/-- The byte of a type. -/
def typeByte (type : TType) : UInt8 := type.toInt8.toUInt8

theorem readType_iff {type : TType} {c : Int8} (hn : type.Named) :
    TType.ofInt8 c = type ↔ c.toUInt8 = typeByte type := by
  constructor
  · rintro rfl
    rw [typeByte, TType.toInt8_ofInt8]
  · intro h
    have hc : c = type.toInt8 := congrArg UInt8.toInt8 h
    rw [hc, TType.ofInt8_toInt8 hn]

theorem readSize_eq_ok {r : UInt32 × UInt32} : Code.exec M prot.readSize s = .ok r t ↔
    r.1.toNat < 2 ^ 31 ∧ prot.ContainerFits r.1.toNat ∧ r.2 = 4 ∧
      Took s (sizeBytes r.1.toNat) s.input.remaining t := by
  obtain ⟨size, n⟩ := r
  simp only [readSize, Code.bind_eq_ok, readI32_eq_ok, encode_eq_sizeBytes]
  constructor
  · rintro ⟨⟨sizei, _⟩, u, ⟨rfl, h⟩, hrun⟩
    simp only at h hrun
    split_ifs at hrun with hneg hlim
    · simp at hrun
    · simp at hrun
    · simp only [Code.pure_eq_ok, Prod.mk.injEq] at hrun
      obtain ⟨⟨rfl, rfl⟩, rfl⟩ := hrun
      refine ⟨(nonneg_iff sizei).mp hneg, ?_, rfl, h⟩
      rintro ⟨h1, h2⟩
      rw [← toInt_of_nonneg hneg, ← Int32.lt_iff_toInt_lt] at h2
      exact hlim ⟨h1, h2⟩
  · rintro ⟨hlt, hfits, rfl, h⟩
    have hu : size.toInt32.toUInt32 = size := UInt32.toUInt32_toInt32 _
    have hneg : ¬ size.toInt32 < 0 := (nonneg_iff _).mpr (by rwa [hu])
    have hlim : ¬ (prot.containerLimit ≠ 0 ∧ prot.containerLimit < size.toInt32) := by
      rintro ⟨h1, h2⟩
      rw [Int32.lt_iff_toInt_lt, toInt_of_nonneg hneg, hu] at h2
      exact hfits ⟨h1, h2⟩
    refine ⟨(size.toInt32, 4), t, ⟨rfl, by rwa [hu]⟩, ?_⟩
    simp only
    rw [if_neg hneg, if_neg hlim, Code.pure_eq_ok, hu]
    exact ⟨rfl, rfl⟩

/-- A container of `size` elements of at least `m` bytes passes the checks of its header. -/
def HeaderFits (prot : TBinaryProtocol) (size : UInt32) (m : Option Int32) (remaining : ℕ) : Prop :=
  size.toNat < 2 ^ 31 ∧ prot.ContainerFits size.toNat ∧
    ∃ k ∈ m, (size.toInt32 * k).toInt ≤ remaining

/-- **The header of a list or a set.** -/
theorem readElemsBegin_eq_ok {e : TType} {size n : UInt32} :
    Code.exec M prot.readElemsBegin s = .ok ((e, size), n) t ↔
      prot.HeaderFits size (minSize e) s.input.remaining ∧ n = 5 ∧
        Took s (typeByte e :: sizeBytes size.toNat) s.input.remaining t := by
  simp only [readElemsBegin, Code.bind_eq_ok, readByte_eq_ok, readSize_eq_ok,
    getMinSerializedSize_eq_ok, Code.checkReadBytesAvailable_eq_ok, Code.pure_eq_ok,
    Prod.mk.injEq]
  constructor
  · rintro ⟨⟨code, _⟩, u, ⟨rfl, h1⟩, ⟨size', _⟩, v, ⟨hlt, hfits, rfl, h2⟩, k, _, ⟨hk, rfl⟩, _, _,
      ⟨hav, rfl⟩, ⟨⟨rfl, rfl⟩, rfl⟩, rfl⟩
    simp only at h1 h2 hlt hfits hk hav
    rw [h1.remaining] at h2
    rw [h2.remaining] at hav
    refine ⟨⟨hlt, hfits, k, hk, hav⟩, rfl, ?_⟩
    rw [← (readType_iff (named_of_minSize (by rw [hk]; rfl))).mp rfl]
    exact h1.trans h2
  · rintro ⟨⟨hlt, hfits, k, hk, hav⟩, rfl, h⟩
    obtain ⟨u, h1, h2⟩ := Took.split (a := [typeByte e]) h s.input.remaining
    have htype := (readType_iff (named_of_minSize (by rw [hk]; rfl)) (c := e.toInt8)).mpr rfl
    refine ⟨(e.toInt8, 1), u, ⟨rfl, h1⟩, (size, 4), t, ⟨hlt, hfits, rfl, ?_⟩, k, t, ⟨?_, rfl⟩, (),
      t, ⟨?_, rfl⟩, ⟨⟨htype, rfl⟩, rfl⟩, rfl⟩
    · rwa [h1.remaining]
    · rwa [htype]
    · rwa [h2.remaining]

/-- The least number of bytes of an entry. -/
def minEntry (k v : TType) : Option Int32 :=
  match minSize k, minSize v with
  | some a, some b => some (a + b)
  | _, _ => none

theorem minEntry_eq_some {k v : TType} {n : Int32} :
    minEntry k v = some n ↔ ∃ a b, minSize k = some a ∧ minSize v = some b ∧ a + b = n := by
  unfold minEntry
  cases minSize k <;> cases minSize v <;> simp

/-- **The header of a map.** -/
theorem readMapBegin_eq_ok {k v : TType} {size n : UInt32} :
    Code.exec M prot.readMapBegin s = .ok ((k, v, size), n) t ↔
      prot.HeaderFits size (minEntry k v) s.input.remaining ∧ n = 6 ∧
        Took s (typeByte k :: typeByte v :: sizeBytes size.toNat) s.input.remaining t := by
  simp only [readMapBegin, Code.bind_eq_ok, readByte_eq_ok, readSize_eq_ok,
    getMinSerializedSize_eq_ok, Code.checkReadBytesAvailable_eq_ok, Code.pure_eq_ok,
    Prod.mk.injEq]
  constructor
  · rintro ⟨⟨kcode, _⟩, u, ⟨rfl, h1⟩, ⟨vcode, _⟩, w, ⟨rfl, h2⟩, ⟨size', _⟩, x,
      ⟨hlt, hfits, rfl, h3⟩, a, _, ⟨ha, rfl⟩, b, _, ⟨hb, rfl⟩, _, _, ⟨hav, rfl⟩,
      ⟨⟨rfl, rfl, rfl⟩, rfl⟩, rfl⟩
    simp only at h1 h2 h3 hlt hfits ha hb hav
    rw [h1.remaining] at h2
    rw [h2.remaining] at h3
    rw [h3.remaining] at hav
    refine ⟨⟨hlt, hfits, a + b, minEntry_eq_some.mpr ⟨a, b, ha, hb, rfl⟩, hav⟩, rfl, ?_⟩
    rw [← (readType_iff (named_of_minSize (by rw [ha]; rfl))).mp rfl,
      ← (readType_iff (named_of_minSize (by rw [hb]; rfl))).mp rfl]
    exact h1.trans (h2.trans h3)
  · rintro ⟨⟨hlt, hfits, c, hc, hav⟩, rfl, h⟩
    obtain ⟨a, b, ha, hb, rfl⟩ := minEntry_eq_some.mp hc
    obtain ⟨u, h1, hrest⟩ := Took.split (a := [typeByte k]) h s.input.remaining
    obtain ⟨w, h2, h3⟩ := Took.split (a := [typeByte v]) hrest s.input.remaining
    have hk := (readType_iff (named_of_minSize (by rw [ha]; rfl)) (c := k.toInt8)).mpr rfl
    have hv := (readType_iff (named_of_minSize (by rw [hb]; rfl)) (c := v.toInt8)).mpr rfl
    refine ⟨(k.toInt8, 1), u, ⟨rfl, h1⟩, (v.toInt8, 1), w, ⟨rfl, ?_⟩, (size, 4), t,
      ⟨hlt, hfits, rfl, ?_⟩, a, t, ⟨?_, rfl⟩, b, t, ⟨?_, rfl⟩, (), t, ⟨?_, rfl⟩,
      ⟨⟨hk, hv, rfl⟩, rfl⟩, rfl⟩
    · rwa [h1.remaining]
    · rwa [h2.remaining]
    · rwa [hk]
    · rwa [hv]
    · rwa [h3.remaining]

/-- **The header of a field**, or `T_STOP`. -/
theorem readFieldBegin_eq_ok {type : TType} {fieldId : Int16} {n : UInt32} :
    Code.exec M readFieldBegin s = .ok ((type, fieldId), n) t ↔
      (type = .stop ∧ fieldId = 0 ∧ n = 1 ∧ Took s [0] s.input.remaining t) ∨
      (type ≠ .stop ∧ TType.ofInt8 type.toInt8 = type ∧ n = 3 ∧
        Took s (typeByte type :: BigEndian.encode 2 fieldId.toBitVec) s.input.remaining t) := by
  simp only [readFieldBegin, Code.bind_eq_ok, readByte_eq_ok]
  constructor
  · rintro ⟨⟨code, _⟩, u, ⟨rfl, h⟩, hrun⟩
    simp only at h hrun
    by_cases hstop : TType.ofInt8 code = .stop
    · rw [if_pos hstop, Code.pure_eq_ok, Prod.mk.injEq, Prod.mk.injEq] at hrun
      obtain ⟨⟨⟨rfl, rfl⟩, rfl⟩, rfl⟩ := hrun
      refine Or.inl ⟨hstop, rfl, rfl, ?_⟩
      rwa [(readType_iff (by decide)).mp hstop] at h
    · rw [if_neg hstop] at hrun
      simp only [Code.bind_eq_ok, readI16_eq_ok, Code.pure_eq_ok, Prod.mk.injEq] at hrun
      obtain ⟨⟨i, _⟩, v, ⟨rfl, h'⟩, ⟨⟨rfl, rfl⟩, rfl⟩, rfl⟩ := hrun
      rw [h.remaining] at h'
      refine Or.inr ⟨hstop, by rw [TType.toInt8_ofInt8], rfl, ?_⟩
      rw [typeByte, TType.toInt8_ofInt8]
      exact h.trans h'
  · rintro (⟨rfl, rfl, rfl, h⟩ | ⟨hstop, htype, rfl, h⟩)
    · refine ⟨(0, 1), t, ⟨rfl, h⟩, ?_⟩
      simp only
      rw [if_pos (by decide), Code.pure_eq_ok]
      exact ⟨rfl, rfl⟩
    · obtain ⟨u, h1, h2⟩ := Took.split (a := [typeByte type]) h s.input.remaining
      refine ⟨(type.toInt8, 1), u, ⟨rfl, h1⟩, ?_⟩
      simp only
      rw [if_neg (by rwa [htype])]
      simp only [Code.bind_eq_ok, readI16_eq_ok, Code.pure_eq_ok, Prod.mk.injEq]
      refine ⟨(fieldId, 2), t, ⟨rfl, ?_⟩, ⟨⟨htype, rfl⟩, rfl⟩, rfl⟩
      rwa [h1.remaining]

end TBinaryProtocol

end ThriftBridge

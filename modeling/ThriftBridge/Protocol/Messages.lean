import ThriftBridge.Protocol.Writers

/-!
# Message headers

* `versioned`, `unversioned`: the two forms of a header on the wire;
* `readMessageBegin_eq_ok`: `readMessageBegin` returns exactly on these;
* `header`, `writeMessageBegin_appends`: `writeMessageBegin` writes one of the two forms;
* `header_read_back`: which written headers are read back.
-/

set_option autoImplicit false

namespace ThriftBridge

open TBinaryProtocol

variable {σ : Type} {M : Malloc} {prot : TBinaryProtocol}

/-! ## Reading -/

/-- A header with version. The byte `x` is not looked at. -/
def versioned (x y : UInt8) (name : Bytes) (seqid : Int32) : Bytes :=
  [0x80, 0x01, x, y] ++ ((sizeBytes name.length ++ name) ++ BigEndian.encode 4 seqid.toBitVec)

/-- A header without version. -/
def unversioned (type : Int8) (name : Bytes) (seqid : Int32) : Bytes :=
  sizeBytes name.length ++ (name ++ ([type.toUInt8] ++ BigEndian.encode 4 seqid.toBitVec))

theorem high_half {n : ℕ} (h : n < 2 ^ 32) : n &&& 0xffff0000 = n / 2 ^ 16 * 2 ^ 16 := by
  have h1 : (n &&& 0xffff0000) / 2 ^ 16 = n / 2 ^ 16 := by
    rw [Nat.and_div_two_pow]
    exact Nat.and_two_pow_sub_one_of_lt_two_pow (n := 16) (by omega)
  have h2 : (n &&& 0xffff0000) % 2 ^ 16 = 0 := by
    rw [Nat.and_mod_two_pow]
    exact Nat.and_zero _
  omega

theorem toBytes_four (n : ℕ) : BigEndian.toBytes 4 n = [UInt8.ofNat (n / 2 ^ 24),
    UInt8.ofNat (n / 2 ^ 16), UInt8.ofNat (n / 2 ^ 8), UInt8.ofNat n] := by
  simp [BigEndian.toBytes]

/-- The version that is asked for. -/
theorem version_iff (sz : Int32) : sz &&& VERSION_MASK = VERSION_1 ↔
    ∃ x y : UInt8, BigEndian.encode 4 sz.toBitVec = [0x80, 0x01, x, y] := by
  have hn := sz.toBitVec.isLt
  set n := sz.toBitVec.toNat with hdef
  have hversion : sz &&& VERSION_MASK = VERSION_1 ↔ n / 2 ^ 16 = 0x8001 := by
    rw [← Int32.toBitVec_inj, Int32.toBitVec_and, ← BitVec.toNat_inj, BitVec.toNat_and]
    show n &&& 0xffff0000 = 0x80010000 ↔ _
    rw [high_half hn]
    omega
  rw [hversion]
  show _ ↔ ∃ x y, BigEndian.toBytes 4 n = _
  rw [toBytes_four]
  constructor
  · intro h
    refine ⟨UInt8.ofNat (n / 2 ^ 8), UInt8.ofNat n, ?_⟩
    have h1 : n / 2 ^ 24 = 0x80 := by omega
    rw [h, h1]
    rfl
  · rintro ⟨x, y, h⟩
    simp only [List.cons.injEq, ← UInt8.toNat_inj, UInt8.toNat_ofNat'] at h
    have h1 : n / 2 ^ 24 % 2 ^ 8 = 0x80 := h.1
    have h2 : n / 2 ^ 16 % 2 ^ 8 = 0x01 := h.2.1
    omega

theorem low_byte {sz : Int32} {a b x y : UInt8}
    (h : BigEndian.encode 4 sz.toBitVec = [a, b, x, y]) :
    sz &&& 0xff = y.toUInt32.toInt32 := by
  have hy : UInt8.ofNat sz.toBitVec.toNat = y := by
    have h' : BigEndian.toBytes 4 sz.toBitVec.toNat = [a, b, x, y] := h
    rw [toBytes_four] at h'
    simp only [List.cons.injEq] at h'
    exact h'.2.2.2.1
  rw [← Int32.toBitVec_inj, Int32.toBitVec_and, ← BitVec.toNat_inj, BitVec.toNat_and]
  show sz.toBitVec.toNat &&& (2 ^ 8 - 1) = y.toUInt32.toNat
  rw [Nat.and_two_pow_sub_one_eq_mod, UInt8.toNat_toUInt32, ← hy, UInt8.toNat_ofNat']

theorem neg_of_version {sz : Int32} {x y : UInt8}
    (h : BigEndian.encode 4 sz.toBitVec = [0x80, 0x01, x, y]) : sz < 0 := by
  by_contra hneg
  have hlt := (nonneg_iff sz).mp hneg
  have h' : BigEndian.toBytes 4 sz.toUInt32.toNat = [0x80, 0x01, x, y] := h
  rw [toBytes_four] at h'
  simp only [List.cons.injEq, ← UInt8.toNat_inj, UInt8.toNat_ofNat'] at h'
  have h1 : sz.toUInt32.toNat / 2 ^ 24 % 2 ^ 8 = 0x80 := h'.1
  omega

theorem count_versioned (len : ℕ) :
    4 + UInt32.ofNat (4 + len) + 4 = UInt32.ofNat (12 + len) := by
  rw [show 12 + len = 4 + (4 + len) + 4 by omega, UInt32.ofNat_add (4 + (4 + len)),
    UInt32.ofNat_add 4 (4 + len)]
  rfl

theorem count_unversioned (len : ℕ) :
    4 + UInt32.ofNat len + 1 + 4 = UInt32.ofNat (9 + len) := by
  rw [show 9 + len = 4 + len + 1 + 4 by omega, UInt32.ofNat_add, UInt32.ofNat_add, UInt32.ofNat_add]
  rfl

/-- **`readMessageBegin` returns exactly** on the headers of the two forms, the second one unless
`strictRead` is set. -/
theorem readMessageBegin_eq_ok {s t : Session Unread σ} {name : Bytes} {type : TMessageType}
    {seqid : Int32} {n : UInt32} :
    (prot.readMessageBegin).exec M s = .ok ((name, type, seqid), n) t ↔
      (name.length < 2 ^ 31 ∧ prot.StringFits name.length ∧
        name.length ≤ s.input.remaining) ∧
      ((∃ x y : UInt8, type = .ofInt32 y.toUInt32.toInt32 ∧ n = UInt32.ofNat (12 + name.length) ∧
          Took s (versioned x y name seqid) (s.input.remaining - name.length) t) ∨
        (prot.strictRead = false ∧ ∃ y : Int8, type = .ofInt32 y.toInt32 ∧
          n = UInt32.ofNat (9 + name.length) ∧
          Took s (unversioned y name seqid) (s.input.remaining - name.length) t)) := by
  simp only [readMessageBegin, Code.bind_eq_ok, readI32_eq_ok]
  constructor
  · rintro ⟨⟨sz, _⟩, u, ⟨rfl, h0⟩, hrun⟩
    simp only at h0 hrun
    split_ifs at hrun with hneg hv hstrict
    · simp at hrun
    · simp only [Code.bind_eq_ok, readString_eq_ok, readI32_eq_ok, Code.pure_eq_ok] at hrun
      obtain ⟨r, v, ⟨hlt, hfits, hn, hr, h1⟩, q, w, ⟨hq, h2⟩, he, rfl⟩ := hrun
      simp only [Prod.mk.injEq] at he
      obtain ⟨⟨rfl, rfl, rfl⟩, rfl⟩ := he
      obtain ⟨x, y, hxy⟩ := (version_iff sz).mp (not_not.mp hv)
      rw [h0.remaining] at h1 hr
      rw [h1.remaining] at h2
      refine ⟨⟨hlt, hfits, hr⟩, Or.inl ⟨x, y, ?_, ?_, ?_⟩⟩
      · rw [low_byte hxy]
      · rw [hn, hq, count_versioned]
      · rw [hxy] at h0
        exact h0.trans (h1.trans h2)
    · simp at hrun
    · simp only [Code.bind_eq_ok, readStringBody_eq_ok, readByte_eq_ok, readI32_eq_ok,
        Code.pure_eq_ok] at hrun
      obtain ⟨r, v, ⟨-, hfits, hlen, hn, hr, h1⟩, y, w, ⟨hy, h2⟩, q, x, ⟨hq, h3⟩, he, rfl⟩ := hrun
      simp only [Prod.mk.injEq] at he
      obtain ⟨⟨rfl, rfl, rfl⟩, rfl⟩ := he
      rw [h0.remaining] at h1 hr
      rw [h1.remaining] at h2
      rw [h2.remaining] at h3
      rw [encode_eq_sizeBytes, ← hlen] at h0
      refine ⟨⟨?_, hfits, hr⟩, Or.inr ⟨by simpa using hstrict, y.1, rfl, ?_, ?_⟩⟩
      · rw [hlen]
        exact (nonneg_iff sz).mp hneg
      · rw [hn, hy, hq, hlen, ← count_unversioned, UInt32.ofNat_toNat]
      · exact h0.trans (h1.trans (h2.trans h3))
  · rintro ⟨⟨hlt, hfits, hr⟩, ⟨x, y, rfl, rfl, h⟩ | ⟨hstrict, y, rfl, rfl, h⟩⟩
    · obtain ⟨u, h0, h'⟩ := Took.split (a := [0x80, 0x01, x, y]) h s.input.remaining
      obtain ⟨v, h1, h2⟩ := h'.split (s.input.remaining - name.length)
      set sz := Int32.ofBitVec (BigEndian.decode 4 [0x80, 0x01, x, y]) with hsz
      have hxy : BigEndian.encode 4 sz.toBitVec = [0x80, 0x01, x, y] := by
        rw [hsz, Int32.toBitVec_ofBitVec]
        exact BigEndian.encode_decode rfl
      refine ⟨(sz, 4), u, ⟨rfl, by rwa [hxy]⟩, ?_⟩
      simp only
      rw [if_pos (neg_of_version hxy), if_neg (not_not.mpr ((version_iff sz).mpr ⟨x, y, hxy⟩))]
      simp only [Code.bind_eq_ok, readString_eq_ok, readI32_eq_ok, Code.pure_eq_ok]
      refine ⟨(name, UInt32.ofNat (4 + name.length)), v, ⟨hlt, hfits, rfl, ?_⟩, (seqid, 4), t,
        ⟨rfl, ?_⟩, ?_, rfl⟩
      · rw [h0.remaining]
        exact ⟨hr, h1⟩
      · rwa [h1.remaining]
      · rw [low_byte hxy, count_versioned]
    · obtain ⟨u, h0, h'⟩ := h.split s.input.remaining
      obtain ⟨v, h1, h''⟩ := h'.split (s.input.remaining - name.length)
      obtain ⟨w, h2, h3⟩ := h''.split (s.input.remaining - name.length)
      set sz := (UInt32.ofNat name.length).toInt32 with hsz
      have hn : sz.toUInt32.toNat = name.length := toNat_toInt32 hlt
      have hneg : ¬ sz < 0 := (nonneg_iff sz).mpr (by rwa [hn])
      refine ⟨(sz, 4), u, ⟨rfl, by rw [encode_eq_sizeBytes, hn]; exact h0⟩, ?_⟩
      simp only
      rw [if_neg hneg, if_neg (by simp [hstrict])]
      simp only [Code.bind_eq_ok, readStringBody_eq_ok, readByte_eq_ok, readI32_eq_ok,
        Code.pure_eq_ok]
      refine ⟨(name, sz.toUInt32), v, ⟨hneg, hfits, hn.symm, rfl, ?_⟩, (y, 1), w, ⟨rfl, ?_⟩,
        (seqid, 4), t, ⟨rfl, ?_⟩, ?_, rfl⟩
      · rw [h0.remaining]
        exact ⟨hr, h1⟩
      · rwa [h1.remaining]
      · rwa [h2.remaining]
      · rw [← count_unversioned, hsz, UInt32.toUInt32_toInt32]

/-! ## Writing -/

/-- What `writeMessageBegin` writes. -/
def header (strictWrite : Bool) (name : Bytes) (type : TMessageType) (seqid : Int32) : Bytes :=
  if strictWrite then versioned 0 type.toInt32.toInt8.toUInt8 name seqid
  else unversioned type.toInt32.toInt8 name seqid

theorem encode_version {type : TMessageType} (h : type.Named) :
    BigEndian.encode 4 (VERSION_1 ||| type.toInt32).toBitVec =
      [0x80, 0x01, 0, type.toInt32.toInt8.toUInt8] := by
  unfold TMessageType.Named at h
  revert type
  decide

theorem writeMessageBegin_appends {name : Bytes} {type : TMessageType} (hname : name.length < 2 ^ 31)
    (htype : type.Named) (seqid : Int32) :
    Appends M (prot.writeMessageBegin name type seqid : Code σ _)
      (header prot.strictWrite name type seqid) := by
  unfold writeMessageBegin header
  split_ifs
  · have hversion : Appends M (writeI32 (VERSION_1 ||| type.toInt32) : Code σ _) _ :=
      writeI32_appends _
    rw [encode_version htype] at hversion
    exact hversion.bind ((writeString_appends hname).next (writeI32_appends seqid).last)
  · rw [unversioned, ← List.append_assoc]
    exact (writeString_appends hname).bind
      ((writeByte_appends _).next (writeI32_appends seqid).last)

/-! ## The way back -/

theorem versioned_unique {x y x' y' : UInt8} {name name' : Bytes} {seqid seqid' : Int32}
    {r r' : Bytes} (hn : name.length < 2 ^ 31) (hn' : name'.length < 2 ^ 31)
    (h : versioned x y name seqid ++ r = versioned x' y' name' seqid' ++ r') :
    (x = x' ∧ y = y' ∧ name = name' ∧ seqid = seqid') ∧ r = r' := by
  simp only [versioned, List.append_assoc] at h
  obtain ⟨hxy, h1⟩ := List.append_inj h rfl
  obtain ⟨hlen, h2⟩ := Wire.size_unique hn hn' h1
  obtain ⟨hname, h3⟩ := List.append_inj h2 hlen
  obtain ⟨hseq, hr⟩ := List.append_inj h3 (by simp)
  simp only [List.cons.injEq] at hxy
  exact ⟨⟨hxy.2.2.1, hxy.2.2.2.1, hname,
    Int32.toBitVec_inj.mp (BigEndian.encode_injective 4 hseq)⟩, hr⟩

theorem unversioned_unique {y y' : Int8} {name name' : Bytes} {seqid seqid' : Int32}
    {r r' : Bytes} (hn : name.length < 2 ^ 31) (hn' : name'.length < 2 ^ 31)
    (h : unversioned y name seqid ++ r = unversioned y' name' seqid' ++ r') :
    (y = y' ∧ name = name' ∧ seqid = seqid') ∧ r = r' := by
  simp only [unversioned, List.append_assoc] at h
  obtain ⟨hlen, h1⟩ := Wire.size_unique hn hn' h
  obtain ⟨hname, h2⟩ := List.append_inj h1 hlen
  obtain ⟨hy, h3⟩ := List.append_inj h2 rfl
  obtain ⟨hseq, hr⟩ := List.append_inj h3 (by simp)
  have htype : y = y' := congrArg UInt8.toInt8 (List.cons.inj hy).1
  exact ⟨⟨htype, hname, Int32.toBitVec_inj.mp (BigEndian.encode_injective 4 hseq)⟩, hr⟩

/-- The first bit says which of the two forms it is. -/
theorem versioned_ne_unversioned {x y : UInt8} {y' : Int8} {name name' : Bytes}
    {seqid seqid' : Int32} {r r' : Bytes} (hn' : name'.length < 2 ^ 31) :
    versioned x y name seqid ++ r ≠ unversioned y' name' seqid' ++ r' := by
  intro h
  simp only [versioned, unversioned, sizeBytes, toBytes_four, List.append_assoc,
    List.cons_append, List.cons.injEq] at h
  have h1 := congrArg UInt8.toNat h.1
  rw [UInt8.toNat_ofNat'] at h1
  have h2 : name'.length / 2 ^ 24 % 2 ^ 8 = 128 := h1.symm
  omega

theorem ofInt32_byte {type : TMessageType} (h : type.Named) :
    TMessageType.ofInt32 type.toInt32.toInt8.toUInt8.toUInt32.toInt32 = type := by
  unfold TMessageType.Named at h
  revert type
  decide

theorem ofInt32_int8 {type : TMessageType} (h : type.Named) :
    TMessageType.ofInt32 type.toInt32.toInt8.toInt32 = type := by
  unfold TMessageType.Named at h
  revert type
  decide

theorem length_versioned (x y : UInt8) (name : Bytes) (seqid : Int32) :
    (versioned x y name seqid).length = 12 + name.length := by
  simp only [versioned, List.length_append, length_sizeBytes, BigEndian.length_encode,
    List.length_cons, List.length_nil]
  omega

theorem length_unversioned (y : Int8) (name : Bytes) (seqid : Int32) :
    (unversioned y name seqid).length = 9 + name.length := by
  simp only [unversioned, List.length_append, length_sizeBytes, BigEndian.length_encode,
    List.length_cons, List.length_nil]
  omega

/-- What is read of a header with version. -/
theorem readMessageBegin_versioned {name : Bytes} {type : TMessageType} (hname : name.length < 2 ^ 31)
    (htype : type.Named) (seqid : Int32) {s t : Session Unread σ} {rest : Bytes}
    (hb : s.input.bytes = header true name type seqid ++ rest)
    (q : (Bytes × TMessageType × Int32) × UInt32) :
    (prot.readMessageBegin).exec M s = .ok q t ↔
      (prot.StringFits name.length ∧ name.length ≤ s.input.remaining) ∧
        q = ((name, type, seqid), UInt32.ofNat (header true name type seqid).length) ∧
        Took s (header true name type seqid) (s.input.remaining - name.length) t := by
  obtain ⟨⟨name', type', seqid'⟩, n⟩ := q
  have hh : header true name type seqid =
    versioned 0 type.toInt32.toInt8.toUInt8 name seqid := rfl
  rw [hh] at hb ⊢
  rw [readMessageBegin_eq_ok]
  constructor
  · rintro ⟨⟨hlt, hfits, hr⟩, ⟨x, y, rfl, rfl, h⟩ | ⟨-, y, -, -, h⟩⟩
    · obtain ⟨⟨rfl, rfl, rfl, rfl⟩, -⟩ := versioned_unique hlt hname (h.bytes.symm.trans hb)
      rw [ofInt32_byte htype, length_versioned]
      exact ⟨⟨hfits, hr⟩, rfl, h⟩
    · exact absurd (hb.symm.trans h.bytes) (versioned_ne_unversioned hlt)
  · rintro ⟨⟨hfits, hr⟩, hq, h⟩
    cases hq
    exact ⟨⟨hname, hfits, hr⟩, Or.inl ⟨0, _, (ofInt32_byte htype).symm,
      by rw [length_versioned], h⟩⟩

/-- What is read of a header without version. -/
theorem readMessageBegin_unversioned {name : Bytes} {type : TMessageType}
    (hname : name.length < 2 ^ 31) (htype : type.Named) (seqid : Int32) {s t : Session Unread σ}
    {rest : Bytes} (hb : s.input.bytes = header false name type seqid ++ rest)
    (q : (Bytes × TMessageType × Int32) × UInt32) :
    (prot.readMessageBegin).exec M s = .ok q t ↔
      (prot.strictRead = false ∧ prot.StringFits name.length ∧
        name.length ≤ s.input.remaining) ∧
        q = ((name, type, seqid), UInt32.ofNat (header false name type seqid).length) ∧
        Took s (header false name type seqid) (s.input.remaining - name.length) t := by
  obtain ⟨⟨name', type', seqid'⟩, n⟩ := q
  have hh : header false name type seqid = unversioned type.toInt32.toInt8 name seqid := rfl
  rw [hh] at hb ⊢
  rw [readMessageBegin_eq_ok]
  constructor
  · rintro ⟨⟨hlt, hfits, hr⟩, ⟨x, y, -, -, h⟩ | ⟨hstrict, y, rfl, rfl, h⟩⟩
    · exact absurd (h.bytes.symm.trans hb) (versioned_ne_unversioned hname)
    · obtain ⟨⟨rfl, rfl, rfl⟩, -⟩ := unversioned_unique hlt hname (h.bytes.symm.trans hb)
      rw [ofInt32_int8 htype, length_unversioned]
      exact ⟨⟨hstrict, hfits, hr⟩, rfl, h⟩
  · rintro ⟨⟨hstrict, hfits, hr⟩, hq, h⟩
    cases hq
    exact ⟨⟨hname, hfits, hr⟩, Or.inr ⟨hstrict, _, (ofInt32_int8 htype).symm,
      by rw [length_unversioned], h⟩⟩

/-- **A header that is written is read back**, unless it has no version and `strictRead` is set, or
the name is too long. -/
theorem header_read_back (w r : TBinaryProtocol) {name : Bytes} {type : TMessageType}
    (hname : name.length < 2 ^ 31) (htype : type.Named) (seqid : Int32) {s : Session Unread σ}
    (hg : Granted M s (header w.strictWrite name type seqid)) :
    ∃ n t, (w.writeMessageBegin name type seqid).exec M s = .ok n t ∧
      Appended s (header w.strictWrite name type seqid) t ∧
      ∀ (s' t' : Session Unread σ) (rest : Bytes) (q : (Bytes × TMessageType × Int32) × UInt32),
        s'.input.bytes = header w.strictWrite name type seqid ++ rest →
        ((r.readMessageBegin).exec M s' = .ok q t' ↔
          ((w.strictWrite = true ∨ r.strictRead = false) ∧ r.StringFits name.length ∧
            name.length ≤ s'.input.remaining) ∧ q = ((name, type, seqid), n) ∧
          Took s' (header w.strictWrite name type seqid) (s'.input.remaining - name.length) t') := by
  have hw : Appends M (w.writeMessageBegin name type seqid : Code σ _) _ :=
    writeMessageBegin_appends hname htype seqid
  obtain ⟨t, hx, ht⟩ := hw.exists_ok hg
  refine ⟨_, t, hx, ht, fun s' t' rest q hb => ?_⟩
  cases hstrict : w.strictWrite with
  | true =>
      rw [hstrict] at hb
      rw [readMessageBegin_versioned hname htype seqid hb]
      simp
  | false =>
      rw [hstrict] at hb
      rw [readMessageBegin_unversioned hname htype seqid hb]
      simp

/-- The header of a call of `p`, with a byte behind it. -/
theorem header_read_back_call :
    ∃ n t, (TBinaryProtocol.default.writeMessageBegin [112] .call 1).exec (fun _ _ => true)
        (Session.initial (Unread.ofRequest []) (scriptedCore [])) = .ok n t ∧
      TBinaryProtocol.default.readMessageBegin.exec (fun _ _ => true)
        (Session.initial (Unread.ofRequest (header true [112] .call 1 ++ [0])) (scriptedCore [])) =
        .ok (([112], .call, 1), n)
          (Session.initial ⟨[0], 13, defaultMaxMessageSize - 1⟩ (scriptedCore [])) := by
  have hname : ([112] : Bytes).length < 2 ^ 31 := by decide
  have hg : Granted (fun _ _ => true) (Session.initial (Unread.ofRequest []) (scriptedCore []))
      (header true [112] .call 1) := ⟨rfl, fun _ _ => rfl, by decide⟩
  obtain ⟨n, t, hx, -, hread⟩ := header_read_back TBinaryProtocol.default TBinaryProtocol.default
    hname (by decide : TMessageType.call.Named) 1 hg
  refine ⟨n, t, hx, (hread _ _ [0] _ rfl).mpr ⟨⟨Or.inl rfl, ?_, by decide⟩, rfl, rfl, rfl⟩⟩
  exact fun h => absurd h.1 (by decide)

end ThriftBridge

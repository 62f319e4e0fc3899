import ThriftBridge.Protocol.Malformed

/-!
# What the writers of `TBinaryProtocol` write

* `Appends`: a writer appends given bytes and counts them, or raises the exception of a `write`;
* `*_appends`: the bytes of each writer.
-/

set_option autoImplicit false

namespace ThriftBridge

open TBinaryProtocol

variable {σ : Type} {M : Malloc} {s t u : Session Unread σ} {a b : Bytes} {n : UInt32}

/-- The bytes `b` were written, and nothing else but the allocations has changed. -/
structure Appended (s : Session Unread σ) (b : Bytes) (t : Session Unread σ) : Prop where
  buffer : t.output.buffer = s.output.buffer ++ b
  rPos : t.output.rPos = s.output.rPos
  owner : t.output.owner = s.output.owner
  wrote : t.wrote = s.wrote ++ b
  rest : t = { s with output := t.output, wrote := t.wrote, mallocs := t.mallocs }

namespace Appended

theorem refl (s : Session Unread σ) : Appended s [] s :=
  ⟨(List.append_nil _).symm, rfl, rfl, (List.append_nil _).symm, rfl⟩

theorem trans (h : Appended s a t) (h' : Appended t b u) : Appended s (a ++ b) u := by
  refine ⟨?_, h'.rPos.trans h.rPos, h'.owner.trans h.owner, ?_, ?_⟩
  · rw [h'.buffer, h.buffer, List.append_assoc]
  · rw [h'.wrote, h.wrote, List.append_assoc]
  · have hu := h'.rest
    rw [h.rest] at hu
    exact hu

end Appended

/-- The bytes `b` fit the output, and every allocation succeeds. -/
def Granted (M : Malloc) (s : Session Unread σ) (b : Bytes) : Prop :=
  s.output.owner = true ∧ (∀ k n, M k n = true) ∧ s.output.buffer.length + b.length < 2 ^ 32

namespace Granted

/-- The first part of what is granted. -/
theorem left (h : Granted M s (a ++ b)) : Granted M s a := by
  have := h.2.2
  rw [List.length_append] at this
  exact ⟨h.1, h.2.1, by omega⟩

/-- The second part, once the first one is written. -/
theorem right (h : Granted M s (a ++ b)) (ht : Appended s a t) : Granted M t b := by
  have := h.2.2
  rw [List.length_append] at this
  refine ⟨ht.owner.trans h.1, h.2.1, ?_⟩
  rw [ht.buffer, List.length_append]
  omega

end Granted

/-- A `write` has failed after a part of `b`. -/
structure WriteFails (M : Malloc) (s : Session Unread σ) (b : Bytes) (e : Thrown)
    (t : Session Unread σ) : Prop where
  thrown : ∃ w, e = .write w
  appended : ∃ a, a <+: b ∧ Appended s a t
  refused : ¬ Granted M s b

namespace WriteFails

variable {e : Thrown}

/-- It fails in the first part. -/
theorem left (h : WriteFails M s a e t) : WriteFails M s (a ++ b) e t := by
  obtain ⟨c, hc, hct⟩ := h.appended
  exact ⟨h.thrown, ⟨c, hc.trans (List.prefix_append a b), hct⟩, fun hg => h.refused hg.left⟩

/-- It fails after the first part. -/
theorem right (hs : Appended s a t) (h : WriteFails M t b e u) :
    WriteFails M s (a ++ b) e u := by
  obtain ⟨c, hc, hcu⟩ := h.appended
  exact ⟨h.thrown, ⟨a ++ c, (List.prefix_append_right_inj a).mpr hc, hs.trans hcu⟩,
    fun hg => h.refused (hg.right hs)⟩

end WriteFails

/-- `p` writes `b` and counts it, or a `write` fails. -/
def Appends (M : Malloc) (p : Code σ UInt32) (b : Bytes) : Prop :=
  ∀ s, Wp (p.exec M) s (fun n t => n = UInt32.ofNat b.length ∧ Appended s b t) (WriteFails M s b)

/-- `f` writes `b` and adds its length to a count, or a `write` fails. -/
def AppendsFrom (M : Malloc) (f : UInt32 → Code σ UInt32) (b : Bytes) : Prop :=
  ∀ n s, Wp ((f n).exec M) s (fun m t => m = n + UInt32.ofNat b.length ∧ Appended s b t)
    (WriteFails M s b)

/-- The last writer. -/
theorem Appends.last {q : Code σ UInt32} (hq : Appends M q b) :
    AppendsFrom M (fun n => do let w ← q; return n + w) b := by
  refine fun n s => Safe.wp_bind ((hq s).mono ?_ fun _ _ h => h)
  rintro _ t ⟨rfl, h⟩
  exact Wp.ret ⟨rfl, h⟩

/-- A writer before the others. -/
theorem Appends.next {q : Code σ UInt32} {f : UInt32 → Code σ UInt32} (hq : Appends M q a)
    (hf : AppendsFrom M f b) : AppendsFrom M (fun n => do let w ← q; f (n + w)) (a ++ b) := by
  refine fun n s => Safe.wp_bind ((hq s).mono ?_ fun _ _ h => h.left)
  rintro _ t ⟨rfl, h1⟩
  refine (hf _ t).mono ?_ fun e u h2 => WriteFails.right h1 h2
  rintro m u ⟨hm, h2⟩
  exact ⟨by rw [hm, List.length_append, UInt32.ofNat_add, UInt32.add_assoc], h1.trans h2⟩

namespace Appends

variable {p : Code σ UInt32}

theorem owner_write {t t' : TMemoryBuffer} {buf : Chunk} {k : ℕ}
    (h : (t.write M buf k).1 = .ok t') : t'.owner = t.owner := by
  simp only [TMemoryBuffer.write] at h
  split_ifs at h <;> cases h <;> rfl

/-- A `write` that fails is not granted. -/
theorem refused_write {buf : Chunk} {e : WriteError} {s : Session Unread σ}
    (h : (s.output.write M buf s.mallocs).1 = .error e) : ¬ Granted M s buf.val := by
  rintro ⟨howner, hM, hlen⟩
  rw [← List.length_append] at hlen
  have hmax : (s.output.buffer ++ buf.val).length ≤ 2 ^ 32 - 1 := by omega
  simp only [TMemoryBuffer.write] at h
  split_ifs at h with h1 h2 h4
  · simp [howner] at h2
  · simp [hM] at h4

theorem wp_write (buf : Chunk) (s : Session Unread σ) : Wp (Code.exec M (Code.write buf)) s
    (fun _ t => Appended s buf.val t) (WriteFails M s buf.val) := by
  unfold Wp
  have hx : Code.exec M (Code.write buf) s = sessionHandler M (.write buf) s :=
    Program.exec_perform _
  rw [hx]
  simp only [sessionHandler]
  cases hw : s.output.write M buf s.mallocs with
  | mk r mallocs =>
      cases r with
      | ok output =>
          obtain ⟨h1, h2⟩ := TMemoryBuffer.write_buffer (congrArg Prod.fst hw)
          exact ⟨h1, h2, owner_write (congrArg Prod.fst hw), rfl, rfl⟩
      | error e =>
          refine ⟨⟨e, rfl⟩, ⟨[], List.nil_prefix, ?_⟩, refused_write (congrArg Prod.fst hw)⟩
          exact ⟨(List.append_nil _).symm, rfl, rfl, (List.append_nil _).symm, rfl⟩

theorem write {buf : Chunk} (hn : n = UInt32.ofNat buf.val.length) :
    Appends M (do Code.write buf; return n : Code σ UInt32) buf.val :=
  fun s => Safe.wp_bind ((wp_write buf s).mono (fun _ _ h => Wp.ret ⟨hn, h⟩) fun _ _ h => h)

/-- **Sequence.** -/
theorem bind {f : UInt32 → Code σ UInt32} (hp : Appends M p a) (hf : AppendsFrom M f b) :
    Appends M (p >>= f) (a ++ b) := by
  intro s
  refine Safe.wp_bind ((hp s).mono ?_ fun _ _ h => h.left)
  rintro _ t ⟨rfl, h1⟩
  refine (hf _ t).mono ?_ fun e u h2 => WriteFails.right h1 h2
  rintro n u ⟨hn, h2⟩
  exact ⟨by rw [hn, List.length_append, UInt32.ofNat_add], h1.trans h2⟩

/-- **A writer that is granted its bytes writes them.** -/
theorem exists_ok (hp : Appends M p b) (hg : Granted M s b) :
    ∃ t, p.exec M s = .ok (UInt32.ofNat b.length) t ∧ Appended s b t := by
  have h := hp s
  unfold Wp at h
  cases hx : p.exec M s with
  | ok n t =>
      rw [hx] at h
      obtain ⟨rfl, ht⟩ := h
      exact ⟨t, rfl, ht⟩
  | error e t =>
      rw [hx] at h
      exact absurd hg h.refused

end Appends

/-! ## Writers -/

theorem writeBool_appends (value : Bool) :
    Appends M (writeBool value : Code σ _) [if value then 1 else 0] :=
  Appends.write rfl

theorem writeByte_appends (byte : Int8) : Appends M (writeByte byte : Code σ _) [byte.toUInt8] :=
  Appends.write rfl

theorem writeI16_appends (i : Int16) :
    Appends M (writeI16 i : Code σ _) (BigEndian.encode 2 i.toBitVec) :=
  Appends.write rfl

theorem writeI32_appends (i : Int32) :
    Appends M (writeI32 i : Code σ _) (BigEndian.encode 4 i.toBitVec) :=
  Appends.write rfl

theorem writeI64_appends (i : Int64) :
    Appends M (writeI64 i : Code σ _) (BigEndian.encode 8 i.toBitVec) :=
  Appends.write rfl

theorem writeDouble_appends (bits : UInt64) :
    Appends M (writeDouble bits : Code σ _) (BigEndian.encode 8 bits.toBitVec) :=
  Appends.write rfl

theorem writeUUID_appends (uuid : TUuid) : Appends M (writeUUID uuid : Code σ _) uuid.data :=
  Appends.write (by rw [uuid.length_eq]; rfl)

/-- A size, of a string or of a container. -/
theorem writeSize_appends {n : ℕ} (h : n < 2 ^ 31) :
    Appends M (writeI32 (UInt32.ofNat n).toInt32 : Code σ _) (sizeBytes n) := by
  have hsize : Appends M (writeI32 (UInt32.ofNat n).toInt32 : Code σ _) _ := writeI32_appends _
  rwa [encode_eq_sizeBytes, toNat_toInt32 h] at hsize

theorem writeString_appends {str : Bytes} (h : str.length < 2 ^ 31) :
    Appends M (writeString str : Code σ _) (sizeBytes str.length ++ str) := by
  have hlt : (UInt32.ofNat str.length).toNat = str.length := by
    rw [UInt32.toNat_ofNat']
    omega
  unfold writeString
  rw [dif_neg (by omega)]
  refine (writeSize_appends h).bind fun n s => ?_
  by_cases hz : 0 < UInt32.ofNat str.length
  · rw [if_pos hz]
    refine Safe.wp_bind ((Appends.wp_write _ s).mono ?_ fun _ _ h => h)
    exact fun _ _ ht => Wp.ret ⟨rfl, ht⟩
  · -- an empty string is not written
    have hnil : str = [] := by
      rw [UInt32.lt_iff_toNat_lt, hlt] at hz
      exact List.length_eq_zero_iff.mp (Nat.eq_zero_of_not_pos hz)
    rw [if_neg hz]
    refine Wp.ret ⟨rfl, ?_⟩
    rw [hnil]
    exact Appended.refl s

theorem writeFieldBegin_appends (type : TType) (id : Int16) :
    Appends M (writeFieldBegin type id : Code σ _) (Wire.fieldHeader type id) :=
  (writeByte_appends _).bind (writeI16_appends _).last

theorem writeMapBegin_appends (k v : TType) {n : ℕ} (h : n < 2 ^ 31) :
    Appends M (writeMapBegin k v (UInt32.ofNat n) : Code σ _)
      (typeByte k :: typeByte v :: sizeBytes n) :=
  (writeByte_appends _).bind ((writeByte_appends _).next (writeSize_appends h).last)

theorem writeElemsBegin_appends (e : TType) {n : ℕ} (h : n < 2 ^ 31) :
    Appends M (writeElemsBegin e (UInt32.ofNat n) : Code σ _) (typeByte e :: sizeBytes n) :=
  (writeByte_appends _).bind (writeSize_appends h).last

end ThriftBridge

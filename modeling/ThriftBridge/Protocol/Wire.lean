import ThriftBridge.Protocol.Readers

/-!
# Values on the wire

* `Wire`: a value as it stands on the wire, with its type codes; `Wire.bytes` are its bytes;
* `Wire.WellFormed`: sizes and type codes say what follows;
* `Wire.depth`, `Wire.spend`: how deep a value nests, and what it takes from the message size;
* `Wire.unique`: the bytes of a well-formed value determine it, and where it ends.
-/

set_option autoImplicit false

namespace ThriftBridge

open TBinaryProtocol

/-- A value on the wire. A `bool` may be any byte. -/
inductive Wire
  | bool (b : UInt8)
  | byte (b : Int8)
  | i16 (i : Int16)
  | i32 (i : Int32)
  | i64 (i : Int64)
  | double (bits : UInt64)
  | string (str : Bytes)
  | uuid (u : TUuid)
  | struct (n : ℕ) (ids : Fin n → Int16) (fields : Fin n → Wire)
  | map (k v : TType) (n : ℕ) (keys vals : Fin n → Wire)
  | set (e : TType) (n : ℕ) (elems : Fin n → Wire)
  | list (e : TType) (n : ℕ) (elems : Fin n → Wire)

namespace Wire

def type : Wire → TType
  | bool _ => .bool
  | byte _ => .byte
  | i16 _ => .i16
  | i32 _ => .i32
  | i64 _ => .i64
  | double _ => .double
  | string _ => .string
  | uuid _ => .uuid
  | struct _ _ _ => .struct
  | map _ _ _ _ _ => .map
  | set _ _ _ => .set
  | list _ _ _ => .list

theorem named_type (w : Wire) : w.type.Named := by
  cases w <;> simp [type, TType.Named, TType.values]

theorem type_ne_stop (w : Wire) : w.type ≠ .stop := by
  cases w <;> simp [type]

/-- The parts, one after the other. -/
def joined {n : ℕ} (parts : Fin n → Bytes) : Bytes := (List.ofFn parts).flatten

theorem joined_succ {n : ℕ} (parts : Fin (n + 1) → Bytes) :
    joined parts = parts 0 ++ joined fun i => parts i.succ := by
  rw [joined, List.ofFn_succ, List.flatten_cons, joined]

/-- The header of a field. -/
def fieldHeader (type : TType) (id : Int16) : Bytes :=
  typeByte type :: BigEndian.encode 2 id.toBitVec

/-- The bytes of a value. -/
def bytes : Wire → Bytes
  | bool b => [b]
  | byte b => [b.toUInt8]
  | i16 i => BigEndian.encode 2 i.toBitVec
  | i32 i => BigEndian.encode 4 i.toBitVec
  | i64 i => BigEndian.encode 8 i.toBitVec
  | double bits => BigEndian.encode 8 bits.toBitVec
  | string str => sizeBytes str.length ++ str
  | uuid u => u.data
  | struct _ ids fields =>
    joined (fun i => fieldHeader (fields i).type (ids i) ++ (fields i).bytes) ++ [0]
  | map k v n keys vals =>
    typeByte k :: typeByte v :: sizeBytes n ++ joined fun i => (keys i).bytes ++ (vals i).bytes
  | set e n elems => typeByte e :: sizeBytes n ++ joined fun i => (elems i).bytes
  | list e n elems => typeByte e :: sizeBytes n ++ joined fun i => (elems i).bytes

/-- Strings and containers are small enough, and the elements have the type of their header. -/
def WellFormed : Wire → Prop
  | string str => str.length < 2 ^ 31
  | struct _ _ fields => ∀ i, (fields i).WellFormed
  | map k v n keys vals => k.Named ∧ v.Named ∧ n < 2 ^ 31 ∧
      (∀ i, (keys i).type = k ∧ (keys i).WellFormed) ∧ ∀ i, (vals i).type = v ∧ (vals i).WellFormed
  | set e n elems => e.Named ∧ n < 2 ^ 31 ∧ ∀ i, (elems i).type = e ∧ (elems i).WellFormed
  | list e n elems => e.Named ∧ n < 2 ^ 31 ∧ ∀ i, (elems i).type = e ∧ (elems i).WellFormed
  | _ => True

/-- No part of the value is a UUID. -/
def NoUuid : Wire → Prop
  | uuid _ => False
  | struct _ _ fields => ∀ i, (fields i).NoUuid
  | map _ _ _ keys vals => (∀ i, (keys i).NoUuid) ∧ ∀ i, (vals i).NoUuid
  | set _ _ elems => ∀ i, (elems i).NoUuid
  | list _ _ elems => ∀ i, (elems i).NoUuid
  | _ => True

/-- How deep the value nests. -/
def depth : Wire → ℕ
  | struct _ _ fields => 1 + Finset.univ.sup fun i => (fields i).depth
  | map _ _ _ keys vals =>
    1 + max (Finset.univ.sup fun i => (keys i).depth) (Finset.univ.sup fun i => (vals i).depth)
  | set _ _ elems => 1 + Finset.univ.sup fun i => (elems i).depth
  | list _ _ elems => 1 + Finset.univ.sup fun i => (elems i).depth
  | _ => 1

/-- What is left of the message size, part after part. -/
def spendAll {n : ℕ} (parts : Fin n → ℕ → Option ℕ) (remaining : ℕ) : Option ℕ :=
  (List.ofFn parts).foldlM (fun r part => part r) remaining

theorem spendAll_zero (parts : Fin 0 → ℕ → Option ℕ) : spendAll parts = some := by
  funext r
  simp [spendAll]

theorem spendAll_succ {n : ℕ} (parts : Fin (n + 1) → ℕ → Option ℕ) :
    spendAll parts = fun r => (parts 0 r).bind (spendAll fun i => parts i.succ) := by
  funext r
  rw [spendAll, List.ofFn_succ, List.foldlM_cons]
  rfl

instance (prot : TBinaryProtocol) (size : UInt32) (m : Option Int32) (r : ℕ) :
    Decidable (prot.HeaderFits size m r) :=
  inferInstanceAs (Decidable (_ ∧ _ ∧ _))

/-- A check of the message size. -/
def guarded (P : ℕ → Prop) [DecidablePred P] (r : ℕ) : Option ℕ := if P r then some r else none

/-- What the value leaves of the message size. Strings are charged, the headers of containers are
only checked, and `none` is a check that fails. -/
def spend (prot : TBinaryProtocol) : Wire → ℕ → Option ℕ
  | string str, r =>
    if prot.StringFits str.length ∧ str.length ≤ r then some (r - str.length) else none
  | struct _ _ fields, r => spendAll (fun i => (fields i).spend prot) r
  | map k v n keys vals, r =>
    if prot.HeaderFits (UInt32.ofNat n) (minEntry k v) r then
      spendAll (fun i r => ((keys i).spend prot r).bind ((vals i).spend prot)) r
    else none
  | set e n elems, r =>
    if prot.HeaderFits (UInt32.ofNat n) (minSize e) r then
      spendAll (fun i => (elems i).spend prot) r
    else none
  | list e n elems, r =>
    if prot.HeaderFits (UInt32.ofNat n) (minSize e) r then
      spendAll (fun i => (elems i).spend prot) r
    else none
  | _, r => some r

/-! ## Unique decoding -/

theorem typeByte_inj {t t' : TType} (h : t.Named) (h' : t'.Named) (he : typeByte t = typeByte t') :
    t = t' := by
  have hcode : t.toInt8 = t'.toInt8 := congrArg UInt8.toInt8 he
  rw [← TType.ofInt8_toInt8 h, ← TType.ofInt8_toInt8 h', hcode]

theorem typeByte_ne_zero (w : Wire) : typeByte w.type ≠ 0 :=
  fun h => w.type_ne_stop (typeByte_inj w.named_type (by decide) h)

/-- Parts that are determined one by one are determined together. -/
theorem joined_unique {n : ℕ} {f g : Fin n → Bytes} {P : Fin n → Prop}
    (hP : ∀ i r r', f i ++ r = g i ++ r' → P i ∧ r = r') {r r' : Bytes}
    (h : joined f ++ r = joined g ++ r') : (∀ i, P i) ∧ r = r' := by
  induction n generalizing r r' with
  | zero => exact ⟨fun i => i.elim0, h⟩
  | succ n ih =>
      rw [joined_succ, joined_succ, List.append_assoc, List.append_assoc] at h
      obtain ⟨h0, hrest⟩ := hP 0 _ _ h
      obtain ⟨hs, hr⟩ := ih (P := fun i => P i.succ) (fun i => hP i.succ) hrest
      exact ⟨Fin.cases h0 hs, hr⟩

/-- The value is determined by its type and its bytes, whatever follows. -/
def Determined (w : Wire) : Prop :=
  ∀ w' : Wire, w'.WellFormed → w.type = w'.type → ∀ r r', w.bytes ++ r = w'.bytes ++ r' →
    w = w' ∧ r = r'

/-- A container's header determines the number of its elements. -/
theorem size_unique {n m : ℕ} {r r' : Bytes} (hn : n < 2 ^ 31) (hm : m < 2 ^ 31)
    (h : sizeBytes n ++ r = sizeBytes m ++ r') : n = m ∧ r = r' := by
  obtain ⟨hs, hr⟩ := List.append_inj h (by simp)
  exact ⟨sizeBytes_injective (by omega) (by omega) hs, hr⟩

theorem fields_unique {n n' : ℕ} {ids : Fin n → Int16} {ids' : Fin n' → Int16}
    {fields : Fin n → Wire} {fields' : Fin n' → Wire} (hd : ∀ i, (fields i).Determined)
    (hw : ∀ i, (fields' i).WellFormed) {r r' : Bytes}
    (h : (struct n ids fields).bytes ++ r = (struct n' ids' fields').bytes ++ r') :
    struct n ids fields = struct n' ids' fields' ∧ r = r' := by
  induction n generalizing n' r r' with
  | zero =>
      cases n' with
      | zero =>
          refine ⟨?_, by simpa [bytes, joined] using h⟩
          congr 1 <;> exact Subsingleton.elim _ _
      | succ m =>
          simp only [bytes, joined_succ, fieldHeader, List.cons_append] at h
          exact absurd (List.cons.inj h).1.symm (typeByte_ne_zero _)
  | succ n ih =>
      cases n' with
      | zero =>
          simp only [bytes, joined_succ, fieldHeader, List.cons_append] at h
          exact absurd (List.cons.inj h).1 (typeByte_ne_zero _)
      | succ m =>
          simp only [bytes, joined_succ, fieldHeader, List.cons_append, List.append_assoc] at h
          obtain ⟨htype, h⟩ := List.cons.inj h
          obtain ⟨hid, h⟩ := List.append_inj h (by simp)
          obtain ⟨h0, h⟩ := hd 0 (fields' 0) (hw 0)
            (typeByte_inj (named_type _) (named_type _) htype) _ _ h
          have htail : (struct n (fun i => ids i.succ) fun i => fields i.succ).bytes ++ r =
              (struct m (fun i => ids' i.succ) fun i => fields' i.succ).bytes ++ r' := by
            simpa only [bytes, fieldHeader, List.append_assoc, List.cons_append] using h
          obtain ⟨hs, hr⟩ := ih (fun i => hd i.succ) (fun i => hw i.succ) htail
          rw [struct.injEq] at hs
          obtain ⟨rfl, hids, hfields⟩ := hs
          have hids : ids = ids' := by
            funext i
            have h0 : ids 0 = ids' 0 := Int16.toBitVec_inj.mp (BigEndian.encode_injective 2 hid)
            exact Fin.cases h0 (congrFun (eq_of_heq hids)) i
          have hfields : fields = fields' := by
            funext i
            exact Fin.cases h0 (congrFun (eq_of_heq hfields)) i
          rw [hids, hfields]
          exact ⟨rfl, hr⟩

/-- Lists and sets, with their header. -/
theorem elems_unique {n m : ℕ} {elems : Fin n → Wire} {elems' : Fin m → Wire} {e e' : TType}
    (hd : ∀ i, (elems i).WellFormed → (elems i).Determined)
    (hw : e.Named ∧ n < 2 ^ 31 ∧ ∀ i, (elems i).type = e ∧ (elems i).WellFormed)
    (hw' : e'.Named ∧ m < 2 ^ 31 ∧ ∀ i, (elems' i).type = e' ∧ (elems' i).WellFormed)
    {r r' : Bytes} (h : (list e n elems).bytes ++ r = (list e' m elems').bytes ++ r') :
    e = e' ∧ (⟨n, elems⟩ : Σ n, Fin n → Wire) = ⟨m, elems'⟩ ∧ r = r' := by
  obtain ⟨he, hn, hall⟩ := hw
  obtain ⟨he', hm, hall'⟩ := hw'
  simp only [bytes, List.cons_append, List.append_assoc] at h
  obtain ⟨htype, hsize⟩ := List.cons.inj h
  obtain rfl := typeByte_inj he he' htype
  obtain ⟨rfl, helems⟩ := size_unique hn hm hsize
  obtain ⟨heq, hr⟩ := joined_unique (P := fun i => elems i = elems' i) (fun i =>
    hd i (hall i).2 (elems' i) (hall' i).2 ((hall i).1.trans (hall' i).1.symm)) helems
  rw [funext heq]
  exact ⟨rfl, rfl, hr⟩

/-- **The bytes of a well-formed value determine it**, and where it ends. -/
theorem unique (w : Wire) (hw : w.WellFormed) : w.Determined := by
  intro w' hw' ht r r' h
  induction w generalizing w' r r' with
  | bool b =>
      cases w' with
      | bool b' =>
          obtain ⟨rfl, hr⟩ := List.cons.inj h
          exact ⟨rfl, hr⟩
      | _ => cases ht
  | byte b =>
      cases w' with
      | byte b' =>
          obtain ⟨hb, hr⟩ := List.cons.inj h
          have hbyte : b = b' := congrArg UInt8.toInt8 hb
          rw [hbyte]
          exact ⟨rfl, hr⟩
      | _ => cases ht
  | i16 i =>
      cases w' with
      | i16 i' =>
          obtain ⟨hi, hr⟩ := List.append_inj h (by simp [bytes])
          rw [Int16.toBitVec_inj.mp (BigEndian.encode_injective 2 hi)]
          exact ⟨rfl, hr⟩
      | _ => cases ht
  | i32 i =>
      cases w' with
      | i32 i' =>
          obtain ⟨hi, hr⟩ := List.append_inj h (by simp [bytes])
          rw [Int32.toBitVec_inj.mp (BigEndian.encode_injective 4 hi)]
          exact ⟨rfl, hr⟩
      | _ => cases ht
  | i64 i =>
      cases w' with
      | i64 i' =>
          obtain ⟨hi, hr⟩ := List.append_inj h (by simp [bytes])
          rw [Int64.toBitVec_inj.mp (BigEndian.encode_injective 8 hi)]
          exact ⟨rfl, hr⟩
      | _ => cases ht
  | double bits =>
      cases w' with
      | double bits' =>
          obtain ⟨hi, hr⟩ := List.append_inj h (by simp [bytes])
          rw [UInt64.toBitVec_inj.mp (BigEndian.encode_injective 8 hi)]
          exact ⟨rfl, hr⟩
      | _ => cases ht
  | string str =>
      cases w' with
      | string str' =>
          simp only [bytes, List.append_assoc] at h
          obtain ⟨hlen, h⟩ := size_unique hw hw' h
          obtain ⟨rfl, hr⟩ := List.append_inj h hlen
          exact ⟨rfl, hr⟩
      | _ => cases ht
  | uuid u =>
      cases w' with
      | uuid u' =>
          obtain ⟨hu, hr⟩ := List.append_inj h (u.length_eq.trans u'.length_eq.symm)
          cases u
          cases u'
          cases hu
          exact ⟨rfl, hr⟩
      | _ => cases ht
  | struct n ids fields ih =>
      cases w' with
      | struct n' ids' fields' =>
          exact fields_unique (fun i w' hw' ht r r' h => ih i (hw i) w' hw' ht r r' h) hw' h
      | _ => cases ht
  | map k v n keys vals ihk ihv =>
      cases w' with
      | map k' v' m keys' vals' =>
          obtain ⟨hk, hv, hn, hks, hvs⟩ := hw
          obtain ⟨hk', hv', hm, hks', hvs'⟩ := hw'
          simp only [bytes, List.cons_append, List.append_assoc] at h
          obtain ⟨htk, h1⟩ := List.cons.inj h
          obtain ⟨htv, h2⟩ := List.cons.inj h1
          obtain rfl := typeByte_inj hk hk' htk
          obtain rfl := typeByte_inj hv hv' htv
          obtain ⟨rfl, h3⟩ := size_unique hn hm h2
          obtain ⟨heq, hr⟩ := joined_unique
            (P := fun i => keys i = keys' i ∧ vals i = vals' i) (fun i q q' hq => by
              rw [List.append_assoc, List.append_assoc] at hq
              obtain ⟨hkey, hq1⟩ := ihk i (hks i).2 (keys' i) (hks' i).2
                ((hks i).1.trans (hks' i).1.symm) _ _ hq
              obtain ⟨hval, hq2⟩ := ihv i (hvs i).2 (vals' i) (hvs' i).2
                ((hvs i).1.trans (hvs' i).1.symm) _ _ hq1
              exact ⟨⟨hkey, hval⟩, hq2⟩) h3
          rw [funext fun i => (heq i).1, funext fun i => (heq i).2]
          exact ⟨rfl, hr⟩
      | _ => cases ht
  | set e n elems ih =>
      cases w' with
      | set e' m elems' =>
          obtain ⟨rfl, heq, hr⟩ := elems_unique ih hw hw' h
          cases heq
          exact ⟨rfl, hr⟩
      | _ => cases ht
  | list e n elems ih =>
      cases w' with
      | list e' m elems' =>
          obtain ⟨rfl, heq, hr⟩ := elems_unique ih hw hw' h
          cases heq
          exact ⟨rfl, hr⟩
      | _ => cases ht

end Wire

end ThriftBridge

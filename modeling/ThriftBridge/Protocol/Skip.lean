import ThriftBridge.Protocol.Wire

/-!
# What `skip` skips

* `Consumes`: bytes are read, counted and charged;
* `times_eq_ok`, `skipFields_eq_ok`: the loops of `skip`;
* `skip_eq_ok`: `skip` returns exactly on the well-formed values of its type that have no UUID, nest
  no deeper than the recursion limit allows and fit the message size;
* `skip_wire_iff`: when it skips a given value.
-/

set_option autoImplicit false

namespace ThriftBridge

open TBinaryProtocol Wire

variable {σ : Type} {M : Malloc} {prot : TBinaryProtocol}

/-- `bs` is read and counted as `n`, and charged as `spend` says. -/
def Consumes (bs : Bytes) (spend : ℕ → Option ℕ) (s : Session Unread σ) (n : UInt32)
    (t : Session Unread σ) : Prop :=
  n = UInt32.ofNat bs.length ∧ ∃ r, spend s.input.remaining = some r ∧ Took s bs r t

namespace Consumes

variable {a b : Bytes} {f g : ℕ → Option ℕ} {s t u : Session Unread σ} {n m k : UInt32}

theorem took (h : Consumes b f s n t) : ∃ r, Took s b r t := ⟨h.2.choose, h.2.choose_spec.2⟩

theorem depth (h : Consumes b f s n t) : t.inputRecursionDepth = s.inputRecursionDepth :=
  h.took.choose_spec.depth

theorem length_le (h : Consumes b f s n t) : t.input.bytes.length ≤ s.input.bytes.length := by
  have := h.took.choose_spec.length_eq
  omega

theorem nil_iff : Consumes [] some s n t ↔ n = 0 ∧ s = t := by
  constructor
  · rintro ⟨rfl, r, hr, h⟩
    cases hr
    exact ⟨rfl, (Took.refl s).unique h⟩
  · rintro ⟨rfl, rfl⟩
    exact ⟨rfl, _, rfl, Took.refl s⟩

/-- Bytes that are not charged. -/
theorem some_iff : Consumes b some s n t ↔
    n = UInt32.ofNat b.length ∧ Took s b s.input.remaining t := by
  constructor
  · rintro ⟨hn, r, hr, h⟩
    cases hr
    exact ⟨hn, h⟩
  · rintro ⟨hn, h⟩
    exact ⟨hn, _, rfl, h⟩

/-- Bytes that are read if the message size has `P`. -/
theorem guarded_iff {P : ℕ → Prop} [DecidablePred P] : Consumes b (guarded P) s n t ↔
    n = UInt32.ofNat b.length ∧ P s.input.remaining ∧ Took s b s.input.remaining t := by
  constructor
  · rintro ⟨hn, r, hr, h⟩
    unfold guarded at hr
    split_ifs at hr with hP
    cases hr
    exact ⟨hn, hP, h⟩
  · rintro ⟨hn, hP, h⟩
    exact ⟨hn, _, if_pos hP, h⟩

/-- **One after the other.** -/
theorem append_iff : Consumes (a ++ b) (fun r => (f r).bind g) s k u ↔
    ∃ t n m, Consumes a f s n t ∧ Consumes b g t m u ∧ n + m = k := by
  constructor
  · rintro ⟨rfl, r, hr, h⟩
    obtain ⟨q, hq, hr⟩ := Option.bind_eq_some_iff.mp hr
    obtain ⟨t, h1, h2⟩ := h.split q
    refine ⟨t, _, _, ⟨rfl, q, hq, h1⟩, ⟨rfl, r, ?_, h2⟩, ?_⟩
    · rwa [h1.remaining]
    · rw [List.length_append, UInt32.ofNat_add]
  · rintro ⟨t, n, m, ⟨rfl, q, hq, h1⟩, ⟨rfl, r, hr, h2⟩, rfl⟩
    refine ⟨?_, r, ?_, h1.trans h2⟩
    · rw [List.length_append, UInt32.ofNat_add]
    · rw [h1.remaining] at hr
      simp only [hq, Option.bind_some, hr]

end Consumes

/-! ## Loops -/

section Loops

variable {W : Type} {bytes : W → Bytes} {spend : W → ℕ → Option ℕ} {Ok : W → Prop} {d : UInt32}
  {L : ℕ}

/-- `p` reads what is `Ok`, on inputs of fewer than `L` bytes. -/
def ReadsAll (M : Malloc) (p : Code σ UInt32) (bytes : W → Bytes) (spend : W → ℕ → Option ℕ)
    (Ok : W → Prop) (d : UInt32) (L : ℕ) : Prop :=
  ∀ s n t, s.inputRecursionDepth = d → s.input.bytes.length < L →
    (p.exec M s = .ok n t ↔ ∃ w, Ok w ∧ Consumes (bytes w) (spend w) s n t)

/-- **A loop that counts** reads a list. -/
theorem times_eq_ok {p : Code σ UInt32} (hp : ReadsAll M p bytes spend Ok d L) (k : ℕ) :
    ReadsAll M (skipTimes p k) (fun ws : Fin k → W => joined fun i => bytes (ws i))
      (fun ws => spendAll fun i => spend (ws i)) (fun ws => ∀ i, Ok (ws i)) d L := by
  induction k with
  | zero =>
      intro s n t _ _
      show Code.exec M (pure 0) s = .ok n t ↔ _
      simp only [spendAll_zero, Code.pure_eq_ok]
      have hnil (ws : Fin 0 → W) : (joined fun i => bytes (ws i)) = [] := rfl
      simp only [hnil, Consumes.nil_iff]
      constructor
      · rintro ⟨rfl, rfl⟩
        exact ⟨Fin.elim0, fun i => i.elim0, rfl, rfl⟩
      · rintro ⟨-, -, rfl, rfl⟩
        exact ⟨rfl, rfl⟩
  | succ k ih =>
      intro s n t hd hL
      simp only [skipTimes, Code.bind_eq_ok, Code.pure_eq_ok]
      simp only [joined_succ, spendAll_succ, Consumes.append_iff]
      constructor
      · rintro ⟨a, u, h1, b, v, h2, rfl, rfl⟩
        obtain ⟨w, hw, hc⟩ := (hp s a u hd hL).mp h1
        have hL' : u.input.bytes.length < L := lt_of_le_of_lt hc.length_le hL
        obtain ⟨ws, hws, hcs⟩ := (ih u b v (hc.depth.trans hd) hL').mp h2
        refine ⟨Fin.cons w ws, ?_, u, a, b, hc, hcs, rfl⟩
        exact Fin.cases hw hws
      · rintro ⟨ws, hws, u, a, b, hc, hcs, rfl⟩
        have hL' : u.input.bytes.length < L := lt_of_le_of_lt hc.length_le hL
        refine ⟨a, u, (hp s a u hd hL).mpr ⟨ws 0, hws 0, hc⟩, b, t, ?_, rfl, rfl⟩
        exact (ih u b t (hc.depth.trans hd) hL').mpr ⟨_, fun i => hws i.succ, hcs⟩

end Loops

section Fields

variable {α : Type} {d : UInt32} {L : ℕ}

theorem struct_bytes_succ {k : ℕ} (ids : Fin (k + 1) → Int16) (fields : Fin (k + 1) → Wire) :
    (struct (k + 1) ids fields).bytes = fieldHeader (fields 0).type (ids 0) ++
      ((fields 0).bytes ++
        (struct k (fun i => ids i.succ) fun i => fields i.succ).bytes) := by
  simp only [Wire.bytes, joined_succ, List.append_assoc]

theorem struct_spend_succ {k : ℕ} (ids : Fin (k + 1) → Int16) (fields : Fin (k + 1) → Wire) :
    (struct (k + 1) ids fields).spend prot = fun r => ((fields 0).spend prot r).bind
      ((struct k (fun i => ids i.succ) fun i => fields i.succ).spend prot) := by
  funext r
  simp only [Wire.spend, spendAll_succ]

theorem struct_zero (prot : TBinaryProtocol) (ids : Fin 0 → Int16) (fields : Fin 0 → Wire) :
    (struct 0 ids fields).bytes = [0] ∧ (struct 0 ids fields).spend prot = some := by
  constructor
  · rfl
  · funext r
    simp only [Wire.spend, spendAll_zero]

/-- `field` reads the fields that are `Good`, and keeps them as `assign` says. -/
def ReadsFields (M : Malloc) (prot : TBinaryProtocol)
    (field : α → TType → Int16 → Code σ (α × UInt32)) (assign : α → Int16 → Wire → α)
    (Good : Int16 → Wire → Prop) (d : UInt32) (L : ℕ) : Prop :=
  ∀ a type id s r t, s.inputRecursionDepth = d → s.input.bytes.length < L →
    ((field a type id).exec M s = .ok r t ↔ ∃ w : Wire, w.type = type ∧ Good id w ∧
      r.1 = assign a id w ∧ Consumes w.bytes (w.spend prot) s r.2 t)

/-- What is kept of all fields, from the first to the last. -/
def assignAll (assign : α → Int16 → Wire → α) (a : α) {k : ℕ} (ids : Fin k → Int16)
    (fields : Fin k → Wire) : α :=
  (List.ofFn fun i => (ids i, fields i)).foldl (fun a f => assign a f.1 f.2) a

theorem assignAll_succ (assign : α → Int16 → Wire → α) (a : α) {k : ℕ} (ids : Fin (k + 1) → Int16)
    (fields : Fin (k + 1) → Wire) : assignAll assign a ids fields =
      assignAll assign (assign a (ids 0) (fields 0)) (fun i => ids i.succ)
        fun i => fields i.succ := by
  rw [assignAll, List.ofFn_succ, List.foldl_cons, assignAll]

/-- **The loop over the fields** reads a struct. -/
theorem readFields_eq_ok {field : α → TType → Int16 → Code σ (α × UInt32)}
    {assign : α → Int16 → Wire → α} {Good : Int16 → Wire → Prop}
    (hp : ReadsFields M prot field assign Good d L) (fuel : ℕ) (a : α) (s : Session Unread σ)
    (r : α × UInt32) (t : Session Unread σ) (hd : s.inputRecursionDepth = d)
    (hL : s.input.bytes.length ≤ L) (hfuel : s.input.bytes.length < fuel) :
    (readFields field fuel a).exec M s = .ok r t ↔ ∃ k ids fields, (∀ i, Good (ids i) (fields i)) ∧
      r.1 = assignAll assign a ids fields ∧
      Consumes (struct k ids fields).bytes ((struct k ids fields).spend prot) s r.2 t := by
  induction fuel generalizing a s r with
  | zero => omega
  | succ fuel ih =>
      simp only [readFields, Code.bind_eq_ok]
      constructor
      · rintro ⟨⟨⟨type, id⟩, n1⟩, u, hf, hrun⟩
        simp only at hrun
        rcases readFieldBegin_eq_ok.mp hf with ⟨rfl, -, rfl, h⟩ | ⟨hne, -, rfl, h⟩
        · rw [if_pos rfl, Code.pure_eq_ok] at hrun
          obtain ⟨rfl, rfl⟩ := hrun
          obtain ⟨hb, hsp⟩ := struct_zero prot Fin.elim0 Fin.elim0
          refine ⟨0, Fin.elim0, Fin.elim0, fun i => i.elim0, rfl, ?_⟩
          rw [hb, hsp, Consumes.some_iff]
          exact ⟨rfl, h⟩
        · rw [if_neg hne] at hrun
          simp only [Code.bind_eq_ok, Code.pure_eq_ok] at hrun
          obtain ⟨⟨b, n2⟩, v, hv, ⟨c, n3⟩, w, hw, rfl, rfl⟩ := hrun
          have hlen := h.length_eq
          simp only [List.length_cons, BigEndian.length_encode] at hlen
          obtain ⟨x, rfl, hx, rfl, hcx⟩ := (hp a _ id u _ v (h.depth.trans hd) (by omega)).mp hv
          have hvlen := hcx.length_le
          obtain ⟨k, ids, fields, hgood, rfl, hc⟩ := (ih _ v _
            (hcx.depth.trans (h.depth.trans hd)) (by omega) (by omega)).mp hw
          refine ⟨k + 1, Fin.cons id ids, Fin.cons x fields, Fin.cases hx hgood, ?_, ?_⟩
          · rw [assignAll_succ]
            rfl
          · rw [struct_bytes_succ, struct_spend_succ]
            refine (Consumes.append_iff (f := some)).mpr ⟨u, 3, n2 + n3, ?_, ?_, ?_⟩
            · exact Consumes.some_iff.mpr ⟨by simp [fieldHeader], h⟩
            · exact Consumes.append_iff.mpr ⟨v, n2, n3, hcx, hc, rfl⟩
            · rw [UInt32.add_assoc]
      · rintro ⟨k, ids, fields, hgood, hr, hc⟩
        obtain ⟨b, n⟩ := r
        obtain rfl := hr
        cases k with
        | zero =>
            obtain ⟨hb, hsp⟩ := struct_zero prot ids fields
            rw [hb, hsp, Consumes.some_iff] at hc
            refine ⟨((.stop, 0), n), t, readFieldBegin_eq_ok.mpr (Or.inl ⟨rfl, rfl, hc⟩), ?_⟩
            rw [if_pos rfl, Code.pure_eq_ok]
            exact ⟨rfl, rfl⟩
        | succ k =>
            rw [struct_bytes_succ, struct_spend_succ] at hc
            obtain ⟨u, n1, m, hu, hrest, rfl⟩ := (Consumes.append_iff (f := some)).mp hc
            obtain ⟨v, n2, n3, hv, hw, rfl⟩ := Consumes.append_iff.mp hrest
            obtain ⟨hn1, h⟩ := Consumes.some_iff.mp hu
            have hlen := h.length_eq
            simp only [fieldHeader, List.length_cons, BigEndian.length_encode] at hlen hn1
            have hvlen := hv.length_le
            refine ⟨(((fields 0).type, ids 0), n1), u, readFieldBegin_eq_ok.mpr (Or.inr
              ⟨type_ne_stop _, TType.ofInt8_toInt8 (named_type _), hn1, h⟩), ?_⟩
            simp only
            rw [if_neg (type_ne_stop _)]
            simp only [Code.bind_eq_ok, Code.pure_eq_ok]
            refine ⟨(assign a (ids 0) (fields 0), n2), v,
              (hp a _ _ u _ v (h.depth.trans hd) (by omega)).mpr
                ⟨fields 0, rfl, hgood 0, rfl, hv⟩, (assignAll assign a ids fields, n3), t, ?_, ?_, rfl⟩
            · exact (ih _ v _ (hv.depth.trans (h.depth.trans hd)) (by omega) (by omega)).mpr
                ⟨k, _, _, fun i => hgood i.succ, assignAll_succ assign a ids fields, hw⟩
            · rw [UInt32.add_assoc]

/-- **A struct** that is skipped. -/
theorem skipFields_eq_ok {p : TType → Code σ UInt32} {Good : Wire → Prop}
    (hp : ∀ type, ReadsAll M (p type) Wire.bytes (Wire.spend prot)
      (fun w => w.type = type ∧ Good w) d L) (fuel : ℕ) (s : Session Unread σ) (n : UInt32)
    (t : Session Unread σ) (hd : s.inputRecursionDepth = d) (hL : s.input.bytes.length ≤ L)
    (hfuel : s.input.bytes.length < fuel) :
    (skipFields p fuel).exec M s = .ok n t ↔ ∃ k ids fields, (∀ i, Good (fields i)) ∧
      Consumes (struct k ids fields).bytes ((struct k ids fields).spend prot) s n t := by
  have hfield : ReadsFields M prot (fun (_ : Unit) ftype _ => do return ((), ← p ftype))
      (fun _ _ _ => ()) (fun _ w => Good w) d L := by
    intro _ type id u r v hdu hLu
    simp only [Code.bind_eq_ok, Code.pure_eq_ok]
    constructor
    · rintro ⟨m, x, hx, rfl, rfl⟩
      obtain ⟨w, ⟨rfl, hw⟩, hc⟩ := (hp _ u m x hdu hLu).mp hx
      exact ⟨w, rfl, hw, trivial, hc⟩
    · rintro ⟨w, rfl, hw, -, hc⟩
      exact ⟨r.2, v, (hp _ u r.2 v hdu hLu).mpr ⟨w, ⟨rfl, hw⟩, hc⟩, rfl, rfl⟩
  have hread (m : UInt32) (v : Session Unread σ) :=
    readFields_eq_ok hfield fuel () s ((), m) v hd hL hfuel
  simp only [true_and] at hread
  rw [← hread]
  simp only [skipFields, Code.bind_eq_ok, Code.pure_eq_ok]
  constructor
  · rintro ⟨⟨⟨⟩, m⟩, v, hv, rfl, rfl⟩
    exact hv
  · intro hv
    exact ⟨((), n), t, hv, rfl, rfl⟩

end Fields

/-! ## Values -/

section Values

variable {d : UInt32} {L : ℕ}

/-- The value is well-formed, has no UUID, and nests within what is left of `limit`. -/
def Wire.Skippable (w : Wire) (d limit : ℕ) : Prop :=
  w.WellFormed ∧ w.NoUuid ∧ d + w.depth ≤ limit

theorem add_sup_le {n d limit : ℕ} {f : Fin n → ℕ} (hd : d ≤ limit) :
    d + (1 + Finset.univ.sup f) ≤ limit + 1 ↔ ∀ i, d + f i ≤ limit := by
  have hsup : Finset.univ.sup f ≤ limit - d ↔ ∀ i, f i ≤ limit - d := by
    simp only [Finset.sup_le_iff, Finset.mem_univ, true_implies]
  constructor
  · intro h i
    have := hsup.mp (by omega) i
    omega
  · intro h
    have := hsup.mpr fun i => by have := h i; omega
    omega

theorem struct_skippable {d limit k : ℕ} {ids : Fin k → Int16} {fields : Fin k → Wire}
    (hd : d ≤ limit) : (struct k ids fields).Skippable d (limit + 1) ↔
      ∀ i, (fields i).Skippable d limit := by
  simp only [Skippable, WellFormed, NoUuid, depth, add_sup_le hd, forall_and]

theorem list_skippable {d limit k : ℕ} {e : TType} {elems : Fin k → Wire} (hd : d ≤ limit)
    (he : e.Named) (hk : k < 2 ^ 31) : (list e k elems).Skippable d (limit + 1) ↔
      ∀ i, (elems i).type = e ∧ (elems i).Skippable d limit := by
  simp only [Skippable, WellFormed, NoUuid, depth, add_sup_le hd, forall_and]
  tauto

theorem list_spend (e : TType) (k : ℕ) (elems : Fin k → Wire) :
    (list e k elems).spend prot = fun r =>
      (guarded (prot.HeaderFits (UInt32.ofNat k) (minSize e)) r).bind
        (spendAll fun i => (elems i).spend prot) := by
  funext r
  simp only [Wire.spend, guarded]
  split_ifs <;> rfl

/-- **A list or a set.** -/
theorem skipElems_eq_ok {skip : TType → Code σ UInt32} {limit : ℕ} (hdl : d.toNat ≤ limit)
    (hp : ∀ type, ReadsAll M (skip type) Wire.bytes (Wire.spend prot)
      (fun w => w.type = type ∧ w.Skippable d.toNat limit) d L) (s : Session Unread σ) (n : UInt32)
    (t : Session Unread σ) (hd : s.inputRecursionDepth = d) (hL : s.input.bytes.length ≤ L) :
    (skipElems prot.readElemsBegin skip).exec M s = .ok n t ↔ ∃ e k elems,
        (list e k elems).Skippable d.toNat (limit + 1) ∧
          Consumes (list e k elems).bytes ((list e k elems).spend prot) s n t := by
  simp only [skipElems, Code.bind_eq_ok, Code.pure_eq_ok]
  constructor
  · rintro ⟨⟨⟨e, size⟩, n1⟩, u, hh, n2, v, hv, rfl, rfl⟩
    obtain ⟨hfits, rfl, h⟩ := readElemsBegin_eq_ok.mp hh
    have hlen := h.length_eq
    simp only [List.length_cons, length_sizeBytes] at hlen
    obtain ⟨elems, hall, hc⟩ := (times_eq_ok (hp e) size.toNat u n2 v (h.depth.trans hd)
      (by omega)).mp hv
    have hnamed : e.Named := by
      obtain ⟨k, hk, -⟩ := hfits.2.2
      exact named_of_minSize (Option.isSome_of_mem hk)
    refine ⟨e, size.toNat, elems, (list_skippable hdl hnamed hfits.1).mpr hall, ?_⟩
    rw [list_spend, UInt32.ofNat_toNat]
    refine Consumes.append_iff (b := joined _) |>.mpr ⟨u, 5, n2, ?_, hc, rfl⟩
    exact Consumes.guarded_iff.mpr ⟨by simp, hfits, h⟩
  · rintro ⟨e, k, elems, hskip, hc⟩
    obtain ⟨hnamed, hk, -⟩ := hskip.1
    have hall := (list_skippable hdl hnamed hk).mp hskip
    rw [list_spend] at hc
    obtain ⟨u, n1, n2, hu, hv, rfl⟩ := (Consumes.append_iff (b := joined _)).mp hc
    obtain ⟨hn1, hfits, h⟩ := Consumes.guarded_iff.mp hu
    have hlen := h.length_eq
    simp only [List.length_cons, length_sizeBytes] at hlen hn1
    have hsize : (UInt32.ofNat k).toNat = k := by
      rw [UInt32.toNat_ofNat']
      omega
    refine ⟨((e, UInt32.ofNat k), n1), u, readElemsBegin_eq_ok.mpr ⟨hfits, hn1, ?_⟩, n2, t, ?_,
      rfl, rfl⟩
    · rwa [hsize]
    · rw [hsize]
      exact (times_eq_ok (hp e) k u n2 t (h.depth.trans hd) (by omega)).mpr ⟨elems, hall, hv⟩

theorem map_skippable {d limit n : ℕ} {k v : TType} {keys vals : Fin n → Wire} (hd : d ≤ limit)
    (hk : k.Named) (hv : v.Named) (hn : n < 2 ^ 31) :
    (map k v n keys vals).Skippable d (limit + 1) ↔
      ∀ i, ((keys i).type = k ∧ (keys i).Skippable d limit) ∧
        ((vals i).type = v ∧ (vals i).Skippable d limit) := by
  have hmax : d + (1 + max (Finset.univ.sup fun i => (keys i).depth)
      (Finset.univ.sup fun i => (vals i).depth)) ≤ limit + 1 ↔
      (∀ i, d + (keys i).depth ≤ limit) ∧ ∀ i, d + (vals i).depth ≤ limit := by
    rw [← add_sup_le hd, ← add_sup_le hd]
    omega
  simp only [Skippable, WellFormed, NoUuid, depth, hmax, forall_and]
  tauto

theorem map_spend (k v : TType) (n : ℕ) (keys vals : Fin n → Wire) :
    (map k v n keys vals).spend prot = fun r =>
      (guarded (prot.HeaderFits (UInt32.ofNat n) (minEntry k v)) r).bind
        (spendAll fun i r => ((keys i).spend prot r).bind ((vals i).spend prot)) := by
  funext r
  simp only [Wire.spend, guarded]
  split_ifs <;> rfl

/-- An entry of a map is a key and a value. -/
theorem entry_readsAll {skip : TType → Code σ UInt32} {limit : ℕ}
    (hp : ∀ type, ReadsAll M (skip type) Wire.bytes (Wire.spend prot)
      (fun w => w.type = type ∧ w.Skippable d.toNat limit) d L) (k v : TType) :
    ReadsAll M (skipEntry skip k v) (fun w : Wire × Wire => w.1.bytes ++ w.2.bytes)
      (fun w r => (w.1.spend prot r).bind (w.2.spend prot))
      (fun w => (w.1.type = k ∧ w.1.Skippable d.toNat limit) ∧
        (w.2.type = v ∧ w.2.Skippable d.toNat limit)) d L := by
  intro s n t hd hL
  simp only [skipEntry, Code.bind_eq_ok, Code.pure_eq_ok, Consumes.append_iff]
  constructor
  · rintro ⟨a, u, hk, b, x, hv, rfl, rfl⟩
    obtain ⟨w1, hw1, h1⟩ := (hp k s a u hd hL).mp hk
    have hlen := h1.length_le
    obtain ⟨w2, hw2, h2⟩ := (hp v u b x (h1.depth.trans hd) (by omega)).mp hv
    exact ⟨(w1, w2), ⟨hw1, hw2⟩, u, a, b, h1, h2, rfl⟩
  · rintro ⟨⟨w1, w2⟩, ⟨hw1, hw2⟩, u, a, b, h1, h2, rfl⟩
    have hlen := h1.length_le
    exact ⟨a, u, (hp k s a u hd hL).mpr ⟨w1, hw1, h1⟩, b, t,
      (hp v u b t (h1.depth.trans hd) (by omega)).mpr ⟨w2, hw2, h2⟩, rfl, rfl⟩

/-- **A map.** -/
theorem skipEntries_eq_ok {skip : TType → Code σ UInt32} {limit : ℕ} (hdl : d.toNat ≤ limit)
    (hp : ∀ type, ReadsAll M (skip type) Wire.bytes (Wire.spend prot)
      (fun w => w.type = type ∧ w.Skippable d.toNat limit) d L) (s : Session Unread σ) (n : UInt32)
    (t : Session Unread σ) (hd : s.inputRecursionDepth = d) (hL : s.input.bytes.length ≤ L) :
    (prot.skipEntries skip).exec M s = .ok n t ↔ ∃ k v m keys vals,
        (map k v m keys vals).Skippable d.toNat (limit + 1) ∧
          Consumes (map k v m keys vals).bytes ((map k v m keys vals).spend prot) s n t := by
  simp only [skipEntries, Code.bind_eq_ok, Code.pure_eq_ok]
  constructor
  · rintro ⟨⟨⟨k, v, size⟩, n1⟩, u, hh, n2, x, hx, rfl, rfl⟩
    obtain ⟨hfits, rfl, h⟩ := readMapBegin_eq_ok.mp hh
    have hlen := h.length_eq
    simp only [List.length_cons, length_sizeBytes] at hlen
    obtain ⟨ws, hall, hc⟩ := (times_eq_ok (entry_readsAll hp k v) size.toNat u n2 x
      (h.depth.trans hd) (by omega)).mp hx
    obtain ⟨c, hcm, -⟩ := hfits.2.2
    obtain ⟨a, b, ha, hb, -⟩ := minEntry_eq_some.mp hcm
    have hk : k.Named := named_of_minSize (by rw [ha]; rfl)
    have hv : v.Named := named_of_minSize (by rw [hb]; rfl)
    refine ⟨k, v, size.toNat, fun i => (ws i).1, fun i => (ws i).2,
      (map_skippable hdl hk hv hfits.1).mpr hall, ?_⟩
    rw [map_spend, UInt32.ofNat_toNat]
    refine Consumes.append_iff (b := joined _) |>.mpr ⟨u, 6, n2, ?_, hc, rfl⟩
    exact Consumes.guarded_iff.mpr ⟨by simp, hfits, h⟩
  · rintro ⟨k, v, m, keys, vals, hskip, hc⟩
    obtain ⟨hk, hv, hm, -⟩ := hskip.1
    have hall := (map_skippable hdl hk hv hm).mp hskip
    rw [map_spend] at hc
    obtain ⟨u, n1, n2, hu, hx, rfl⟩ := (Consumes.append_iff (b := joined _)).mp hc
    obtain ⟨hn1, hfits, h⟩ := Consumes.guarded_iff.mp hu
    have hlen := h.length_eq
    simp only [List.length_cons, length_sizeBytes] at hlen hn1
    have hsize : (UInt32.ofNat m).toNat = m := by
      rw [UInt32.toNat_ofNat']
      omega
    refine ⟨((k, v, UInt32.ofNat m), n1), u, readMapBegin_eq_ok.mpr ⟨hfits, hn1, ?_⟩, n2, t, ?_,
      rfl, rfl⟩
    · rwa [hsize]
    · rw [hsize]
      exact (times_eq_ok (entry_readsAll hp k v) m u n2 t (h.depth.trans hd) (by omega)).mpr
        ⟨fun i => (keys i, vals i), hall, hx⟩

/-- A value without parts. -/
theorem scalar_eq_ok {A α : Type} {read : Code σ (α × UInt32)} (mk : A → Wire) {type : TType}
    {s : Session Unread σ} {d limit : ℕ} (htype : ∀ w : Wire, w.type = type → ∃ a, w = mk a)
    (hmk : ∀ a, (mk a).type = type ∧ (mk a).Skippable d limit ∧ (mk a).spend prot = some)
    (hread : ∀ n t, (∃ r, read.exec M s = .ok r t ∧ r.2 = n) ↔
      ∃ a, n = UInt32.ofNat (mk a).bytes.length ∧ Took s (mk a).bytes s.input.remaining t)
    (n : UInt32) (t : Session Unread σ) :
    Code.exec M (do return (← read).2) s = .ok n t ↔
      ∃ w : Wire, (w.type = type ∧ w.Skippable d limit) ∧
        Consumes w.bytes (w.spend prot) s n t := by
  simp only [Code.bind_eq_ok, Code.pure_eq_ok]
  constructor
  · rintro ⟨r, u, hr, rfl, rfl⟩
    obtain ⟨a, hn, h⟩ := (hread r.2 u).mp ⟨r, hr, rfl⟩
    obtain ⟨h1, h2, h3⟩ := hmk a
    refine ⟨mk a, ⟨h1, h2⟩, ?_⟩
    rw [h3]
    exact Consumes.some_iff.mpr ⟨hn, h⟩
  · rintro ⟨w, ⟨hw, -⟩, hc⟩
    obtain ⟨a, rfl⟩ := htype w hw
    rw [(hmk a).2.2] at hc
    obtain ⟨r, hr, hrn⟩ := (hread n t).mpr ⟨a, Consumes.some_iff.mp hc⟩
    exact ⟨r, t, hr, hrn, rfl⟩

/-- A reader of a fixed number of bytes. -/
theorem exists_read {α : Type} {read : Code σ (α × UInt32)} {g : α → Bytes} {k : UInt32}
    {s : Session Unread σ} (hk : ∀ a, k = UInt32.ofNat (g a).length)
    (h : ∀ {t r}, read.exec M s = .ok r t ↔ r.2 = k ∧ Took s (g r.1) s.input.remaining t)
    (n : UInt32) (t : Session Unread σ) : (∃ r, read.exec M s = .ok r t ∧ r.2 = n) ↔
      ∃ a, n = UInt32.ofNat (g a).length ∧ Took s (g a) s.input.remaining t := by
  constructor
  · rintro ⟨r, hr, rfl⟩
    obtain ⟨hrk, ht⟩ := h.mp hr
    exact ⟨r.1, hrk.trans (hk _), ht⟩
  · rintro ⟨a, rfl, ht⟩
    exact ⟨(a, k), h.mpr ⟨rfl, ht⟩, hk a⟩

theorem string_spend (str : Bytes) (r : ℕ) : (string str).spend prot r =
    if prot.StringFits str.length ∧ str.length ≤ r then some (r - str.length) else none := by
  rw [Wire.spend]

/-- **A string.** -/
theorem skipString_eq_ok {d limit : ℕ} (hd : d ≤ limit) (s : Session Unread σ) (n : UInt32)
    (t : Session Unread σ) : Code.exec M (do return (← prot.readBinary).2) s = .ok n t ↔
      ∃ w : Wire, (w.type = .string ∧ w.Skippable d (limit + 1)) ∧
        Consumes w.bytes (w.spend prot) s n t := by
  simp only [Code.bind_eq_ok, Code.pure_eq_ok, readBinary]
  constructor
  · rintro ⟨r, u, hr, rfl, rfl⟩
    obtain ⟨hlt, hfits, hn, hrem, h⟩ := readString_eq_ok.mp hr
    refine ⟨.string r.1, ⟨rfl, hlt, trivial, Nat.succ_le_succ hd⟩, ?_, _, ?_, h⟩
    · rw [hn, Wire.bytes, List.length_append, length_sizeBytes]
    · rw [string_spend, if_pos ⟨hfits, hrem⟩]
  · rintro ⟨w, ⟨htype, hw⟩, hc⟩
    cases w with
    | string str =>
        obtain ⟨rfl, r, hr, h⟩ := hc
        rw [string_spend] at hr
        split_ifs at hr with hfits
        cases hr
        refine ⟨(str, UInt32.ofNat (4 + str.length)), t,
          readString_eq_ok.mpr ⟨hw.1, hfits.1, rfl, hfits.2, h⟩, ?_, rfl⟩
        rw [Wire.bytes, List.length_append, length_sizeBytes]
    | _ => cases htype

/-- **The `switch`** reads a value of its type, whose parts `skip` reads. -/
theorem skipValue_eq_ok {skip : TType → Code σ UInt32} {limit : ℕ} (hdl : d.toNat ≤ limit)
    (hp : ∀ type, ReadsAll M (skip type) Wire.bytes (Wire.spend prot)
      (fun w => w.type = type ∧ w.Skippable d.toNat limit) d L) {fuel : ℕ} (type : TType)
    (s : Session Unread σ) (n : UInt32) (t : Session Unread σ) (hd : s.inputRecursionDepth = d)
    (hL : s.input.bytes.length ≤ L) (hfuel : s.input.bytes.length < fuel) :
    (prot.skipValue skip fuel type).exec M s = .ok n t ↔
      ∃ w : Wire, (w.type = type ∧ w.Skippable d.toNat (limit + 1)) ∧
        Consumes w.bytes (w.spend prot) s n t := by
  have hflat : d.toNat + 1 ≤ limit + 1 := by omega
  cases type with
  | bool =>
      refine scalar_eq_ok Wire.bool ?_ (fun b => ⟨rfl, ⟨trivial, trivial, hflat⟩, rfl⟩) ?_ n t
      · rintro (_ | _) h <;> first | exact ⟨_, rfl⟩ | cases h
      · intro n t
        simp only [readBool_eq_ok]
        constructor
        · rintro ⟨_, ⟨b, rfl, h⟩, rfl⟩
          exact ⟨b, rfl, h⟩
        · rintro ⟨b, rfl, h⟩
          exact ⟨_, ⟨b, rfl, h⟩, rfl⟩
  | byte =>
      refine scalar_eq_ok Wire.byte ?_ (fun b => ⟨rfl, ⟨trivial, trivial, hflat⟩, rfl⟩) ?_ n t
      · rintro (_ | _) h <;> first | exact ⟨_, rfl⟩ | cases h
      · exact exists_read (fun a => rfl) readByte_eq_ok
  | i16 =>
      refine scalar_eq_ok Wire.i16 ?_ (fun i => ⟨rfl, ⟨trivial, trivial, hflat⟩, rfl⟩) ?_ n t
      · rintro (_ | _) h <;> first | exact ⟨_, rfl⟩ | cases h
      · exact exists_read (g := fun a => (Wire.i16 a).bytes) (fun a => by simp [Wire.bytes]) readI16_eq_ok
  | i32 =>
      refine scalar_eq_ok Wire.i32 ?_ (fun i => ⟨rfl, ⟨trivial, trivial, hflat⟩, rfl⟩) ?_ n t
      · rintro (_ | _) h <;> first | exact ⟨_, rfl⟩ | cases h
      · exact exists_read (g := fun a => (Wire.i32 a).bytes) (fun a => by simp [Wire.bytes]) readI32_eq_ok
  | i64 =>
      refine scalar_eq_ok Wire.i64 ?_ (fun i => ⟨rfl, ⟨trivial, trivial, hflat⟩, rfl⟩) ?_ n t
      · rintro (_ | _) h <;> first | exact ⟨_, rfl⟩ | cases h
      · exact exists_read (g := fun a => (Wire.i64 a).bytes) (fun a => by simp [Wire.bytes]) readI64_eq_ok
  | double =>
      refine scalar_eq_ok Wire.double ?_ (fun x => ⟨rfl, ⟨trivial, trivial, hflat⟩, rfl⟩) ?_ n t
      · rintro (_ | _) h <;> first | exact ⟨_, rfl⟩ | cases h
      · exact exists_read (g := fun a => (Wire.double a).bytes) (fun a => by simp [Wire.bytes])
          readDouble_eq_ok
  | string => exact skipString_eq_ok hdl s n t
  | struct =>
      simp only [skipValue]
      rw [skipFields_eq_ok hp fuel s n t hd hL hfuel]
      constructor
      · rintro ⟨k, ids, fields, hall, hc⟩
        exact ⟨_, ⟨rfl, (struct_skippable hdl).mpr hall⟩, hc⟩
      · rintro ⟨w, ⟨htype, hw⟩, hc⟩
        cases w with
        | struct k ids fields => exact ⟨k, ids, fields, (struct_skippable hdl).mp hw, hc⟩
        | _ => cases htype
  | list =>
      simp only [skipValue, readListBegin]
      rw [skipElems_eq_ok hdl hp s n t hd hL]
      constructor
      · rintro ⟨e, k, elems, hw, hc⟩
        exact ⟨_, ⟨rfl, hw⟩, hc⟩
      · rintro ⟨w, ⟨htype, hw⟩, hc⟩
        cases w with
        | list e k elems => exact ⟨e, k, elems, hw, hc⟩
        | _ => cases htype
  | set =>
      simp only [skipValue, readSetBegin]
      rw [skipElems_eq_ok hdl hp s n t hd hL]
      constructor
      · rintro ⟨e, k, elems, hw, hc⟩
        exact ⟨.set e k elems, ⟨rfl, hw⟩, hc⟩
      · rintro ⟨w, ⟨htype, hw⟩, hc⟩
        cases w with
        | set e k elems => exact ⟨e, k, elems, hw, hc⟩
        | _ => cases htype
  | map =>
      simp only [skipValue]
      rw [skipEntries_eq_ok hdl hp s n t hd hL]
      constructor
      · rintro ⟨k, v, m, keys, vals, hw, hc⟩
        exact ⟨_, ⟨rfl, hw⟩, hc⟩
      · rintro ⟨w, ⟨htype, hw⟩, hc⟩
        cases w with
        | map k v m keys vals => exact ⟨k, v, m, keys, vals, hw, hc⟩
        | _ => cases htype
  | uuid =>
      simp only [skipValue, Code.throw_eq_ok, false_iff]
      rintro ⟨w, ⟨htype, hw⟩, -⟩
      cases w with
      | uuid u => exact hw.2.1
      | _ => cases htype
  | _ =>
      simp only [skipValue, Code.throw_eq_ok, false_iff]
      rintro ⟨w, ⟨htype, -⟩, -⟩
      cases w <;> cases htype

end Values

/-! ## The recursion depth -/

/-- `++input_recursion_depth_`. -/
def Session.deeper (s : Session Unread σ) : Session Unread σ :=
  { s with inputRecursionDepth := s.inputRecursionDepth + 1 }

/-- `--input_recursion_depth_`. -/
def Session.shallower (s : Session Unread σ) : Session Unread σ :=
  { s with inputRecursionDepth := s.inputRecursionDepth - 1 }

theorem exec_track {α : Type} {body : Code σ α} {s : Session Unread σ} :
    (prot.trackInputRecursion body).exec M s =
      if prot.recursionLimit < s.inputRecursionDepth + 1 then
        .error (.protocol .depthLimit "") s.deeper
      else
        match body.exec M s.deeper with
        | .ok a t => .ok a t.shallower
        | .error e t => .error e t.shallower := by
  have hinc : Code.exec M Code.incrementInputRecursionDepth s =
      .ok (s.inputRecursionDepth + 1) s.deeper := rfl
  have hdec : ∀ t : Session Unread σ,
      Program.exec (sessionHandler M) Code.decrementInputRecursionDepth t = .ok () t.shallower :=
    fun t => rfl
  rw [trackInputRecursion, Code.exec, Program.exec_bind_of_ok hinc]
  split_ifs
  · rfl
  · rw [Program.exec_always hdec, Code.exec]
    cases Program.exec (sessionHandler M) body s.deeper <;> rfl

theorem track_eq_ok {α : Type} {body : Code σ α} {s t : Session Unread σ} {a : α} :
    (prot.trackInputRecursion body).exec M s = .ok a t ↔
      ¬ prot.recursionLimit < s.inputRecursionDepth + 1 ∧
        ∃ t', body.exec M s.deeper = .ok a t' ∧ t'.shallower = t := by
  rw [exec_track]
  split_ifs with h
  · simp [h]
  · cases body.exec M s.deeper with
    | ok b u => simp [h]
    | error e u => simp [h]

theorem Took.deeper {s t : Session Unread σ} {bs : Bytes} {r : ℕ} (h : Took s bs r t) :
    Took s.deeper bs r t.deeper := by
  refine ⟨h.bytes, ?_⟩
  rw [h.state]
  rfl

theorem Took.shallower {s t : Session Unread σ} {bs : Bytes} {r : ℕ} (h : Took s.deeper bs r t) :
    Took s bs r t.shallower := by
  refine ⟨h.bytes, ?_⟩
  rw [h.state]
  simp only [Session.deeper, Session.shallower, UInt32.add_sub_cancel]

theorem shallower_deeper (s : Session Unread σ) : s.deeper.shallower = s := by
  simp only [Session.deeper, Session.shallower, UInt32.add_sub_cancel]

/-- **`skip` returns exactly** on the well-formed values of its type without a UUID, that nest no
deeper than the recursion limit and fit the message size. It takes their bytes, and returns their
number. -/
theorem skip_eq_ok (hlim : prot.recursionLimit.toNat < 2 ^ 32 - 1) (fuel : ℕ) (type : TType)
    (s : Session Unread σ) (n : UInt32) (t : Session Unread σ)
    (hd : s.inputRecursionDepth.toNat ≤ prot.recursionLimit.toNat)
    (hfuel : s.input.bytes.length < fuel) :
    (prot.skip fuel type).exec M s = .ok n t ↔ ∃ w : Wire,
      (w.type = type ∧ w.Skippable s.inputRecursionDepth.toNat prot.recursionLimit.toNat) ∧
        Consumes w.bytes (w.spend prot) s n t := by
  induction fuel generalizing type s n t with
  | zero => omega
  | succ fuel ih =>
      set d := s.inputRecursionDepth + 1 with hdef
      have hdn : d.toNat = s.inputRecursionDepth.toNat + 1 := by
        have hone : (1 : UInt32).toNat = 1 := rfl
        rw [hdef, UInt32.toNat_add, hone]
        exact Nat.mod_eq_of_lt (by omega)
      rw [skip, track_eq_ok, ← hdef, UInt32.lt_iff_toNat_lt, not_lt]
      -- the parts are read one level deeper
      have hp (hle : d.toNat ≤ prot.recursionLimit.toNat) (type : TType) :
          ReadsAll M (prot.skip fuel type : Code σ UInt32) Wire.bytes (Wire.spend prot)
            (fun w => w.type = type ∧ w.Skippable d.toNat prot.recursionLimit.toNat) d fuel := by
        intro s n t hds hL
        have h := ih type s n t (by rwa [hds]) hL
        rwa [hds] at h
      have hvalue (hle : d.toNat ≤ prot.recursionLimit.toNat) (u : Session Unread σ) :=
        skipValue_eq_ok hle (hp hle) type s.deeper n u rfl (Nat.lt_succ_iff.mp hfuel) hfuel
      have hshift (w : Wire) : w.Skippable d.toNat (prot.recursionLimit.toNat + 1) ↔
          w.Skippable s.inputRecursionDepth.toNat prot.recursionLimit.toNat := by
        unfold Skippable
        refine and_congr_right fun _ => and_congr_right fun _ => ?_
        omega
      simp only [hshift] at hvalue
      constructor
      · rintro ⟨hle, u, hu, rfl⟩
        obtain ⟨w, hw, hn, r, hr, h⟩ := (hvalue hle u).mp hu
        exact ⟨w, hw, hn, r, hr, h.shallower⟩
      · rintro ⟨w, hw, hn, r, hr, h⟩
        have hpos : 1 ≤ w.depth := by
          cases w <;> simp only [depth] <;> omega
        have hle : d.toNat ≤ prot.recursionLimit.toNat := by
          have := hw.2.2.2
          omega
        exact ⟨hle, t.deeper, (hvalue hle _).mpr ⟨w, hw, hn, r, hr, h.deeper⟩,
          shallower_deeper t⟩

/-- **Whether a given value is skipped.** Whatever follows it, it is skipped unless it has a UUID,
nests too deep, or does not fit the message size. -/
theorem skip_wire_iff (hlim : prot.recursionLimit.toNat < 2 ^ 32 - 1) {fuel : ℕ} {w : Wire}
    (hw : w.WellFormed) {s : Session Unread σ} {rest : Bytes}
    (hb : s.input.bytes = w.bytes ++ rest)
    (hd : s.inputRecursionDepth.toNat ≤ prot.recursionLimit.toNat)
    (hfuel : s.input.bytes.length < fuel) (n : UInt32) (t : Session Unread σ) :
    (prot.skip fuel w.type).exec M s = .ok n t ↔ w.NoUuid ∧
      s.inputRecursionDepth.toNat + w.depth ≤ prot.recursionLimit.toNat ∧
        Consumes w.bytes (w.spend prot) s n t := by
  rw [skip_eq_ok hlim fuel w.type s n t hd hfuel]
  constructor
  · rintro ⟨w', ⟨htype, hskip⟩, hc⟩
    obtain ⟨r, ht⟩ := hc.took
    obtain ⟨rfl, -⟩ := unique w hw w' hskip.1 htype.symm _ _ (hb.symm.trans ht.bytes)
    exact ⟨hskip.2.1, hskip.2.2, hc⟩
  · rintro ⟨hu, hdepth, hc⟩
    exact ⟨w, ⟨rfl, hw, hu, hdepth⟩, hc⟩

end ThriftBridge

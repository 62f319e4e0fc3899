import Mathlib.Data.List.ReduceOption
import ThriftBridge.Transport.Engine

/-!
# Ownership

* `Books` is kept by every operation on references (`books_newString`, `books_takeRef`,
  `books_dropRef`), so that a reference which is held can be followed (`deref_of_held`);
* `Owns w b o`: object `o` in block `b` holds at least as many references on a string as it has
  fields that point to it;
* `Inv D w`: the books balance and every object owns its fields. With `D = false` this is not
  required of an object whose destructor handler has run;
* `contents`: the strings and the cursor of a constructed object, and their frame lemma.
-/

set_option autoImplicit false

namespace ThriftBridge

open RefCount

variable {ε : Type}

theorem TransportObject.count_refs (o : TransportObject) (r : StrRef) :
    o.refs.count r = (if o.serviceName = some r then 1 else 0) + (if o.wBuf = some r then 1 else 0) +
      (if o.rBuf = some r then 1 else 0) := by
  obtain ⟨s, w, b, p, d⟩ := o
  cases s <;> cases w <;> cases b <;>
    simp [refs, List.count_cons] <;> omega

theorem TransportObject.mem_refs {o : TransportObject} {r : StrRef} :
    r ∈ o.refs ↔ o.serviceName = some r ∨ o.wBuf = some r ∨ o.rBuf = some r := by
  simp [refs, List.reduceOption_mem_iff, eq_comm]

namespace World

variable (w : World ε) (h h' : Holder) (r : StrRef) (s : ZendString) (b : ℕ) (o : TransportObject)

/-! ## What the operations leave alone -/

@[simp] theorem newString_objs : (w.newString h s).objs = w.objs := rfl
@[simp] theorem newString_brk : (w.newString h s).brk = w.brk := rfl
@[simp] theorem newString_core : (w.newString h s).core = w.core := rfl
@[simp] theorem newString_asked : (w.newString h s).asked = w.asked := rfl

@[simp] theorem takeRef_objs : (w.takeRef h r).objs = w.objs := by cases r <;> rfl
@[simp] theorem takeRef_brk : (w.takeRef h r).brk = w.brk := by cases r <;> rfl
@[simp] theorem takeRef_core : (w.takeRef h r).core = w.core := by cases r <;> rfl
@[simp] theorem takeRef_asked : (w.takeRef h r).asked = w.asked := by cases r <;> rfl

@[simp] theorem dropRef_objs : (w.dropRef h r).objs = w.objs := by cases r <;> rfl
@[simp] theorem dropRef_brk : (w.dropRef h r).brk = w.brk := by cases r <;> rfl
@[simp] theorem dropRef_core : (w.dropRef h r).core = w.core := by cases r <;> rfl
@[simp] theorem dropRef_asked : (w.dropRef h r).asked = w.asked := by cases r <;> rfl
@[simp] theorem dropRef_next : (w.dropRef h r).heap.next = w.heap.next := by
  cases r <;> simp [dropRef]

@[simp] theorem setObj_ledger : (w.setObj b o).ledger = w.ledger := rfl
@[simp] theorem setObj_brk : (w.setObj b o).brk = w.brk := rfl
@[simp] theorem setObj_core : (w.setObj b o).core = w.core := rfl
@[simp] theorem setObj_asked : (w.setObj b o).asked = w.asked := rfl
@[simp] theorem setObj_objs : (w.setObj b o).objs = Function.update w.objs b (some o) := rfl

/-! ## Balances -/

theorem newString_ledger (a : ℕ) : (w.newString h s).ledger h a =
    w.ledger h a + (if w.heap.next = a then 1 else 0 : ℕ) := by
  simp only [newString, credit, true_and, eq_comm (a := a)]
  split_ifs <;> simp

theorem takeRef_ledger (a : ℕ) : (w.takeRef h r).ledger h a =
    w.ledger h a + (if r = .counted a then 1 else 0 : ℕ) := by
  cases r with
  | interned => simp [takeRef]
  | counted i =>
      simp only [takeRef, credit, true_and, StrRef.counted.injEq, eq_comm (a := i)]
      split_ifs <;> simp

theorem dropRef_ledger (a : ℕ) : (w.dropRef h r).ledger h a =
    w.ledger h a - (if r = .counted a then 1 else 0 : ℕ) := by
  cases r with
  | interned => simp [dropRef]
  | counted i =>
      simp only [dropRef, debit, true_and, StrRef.counted.injEq, eq_comm (a := i)]
      split_ifs <;> simp

variable {h h'}

theorem newString_ledger_of_ne (hh : h' ≠ h) (a : ℕ) :
    (w.newString h s).ledger h' a = w.ledger h' a := credit_of_ne _ _ hh

theorem takeRef_ledger_of_ne (hh : h' ≠ h) (a : ℕ) :
    (w.takeRef h r).ledger h' a = w.ledger h' a := by
  cases r with
  | interned => rfl
  | counted i => exact credit_of_ne _ _ hh

theorem dropRef_ledger_of_ne (hh : h' ≠ h) (a : ℕ) :
    (w.dropRef h r).ledger h' a = w.ledger h' a := by
  cases r with
  | interned => rfl
  | counted i => exact debit_of_ne _ _ hh

variable {w r}

/-! ## The books -/

/-- The ledger of `w` balances with the counts of its strings. -/
def Balanced (w : World ε) : Prop := Books w.ledger w.heap.count

/-- A reference that `h` may follow and give back. -/
def Holds (w : World ε) (h : Holder) : StrRef → Prop
  | .interned _ => True
  | .counted a => 0 < w.ledger h a

theorem books_newString (hB : w.Balanced) (h : Holder) (s : ZendString) :
    (w.newString h s).Balanced := Books.credit hB (w.heap.count_alloc s)

theorem books_takeRef (hB : w.Balanced) (h : Holder) (hr : w.Holds h' r) :
    (w.takeRef h r).Balanced := by
  cases r with
  | interned => exact hB
  | counted a =>
      exact Books.credit hB (CountedHeap.count_retain (CountedHeap.lt_next_of_count_pos (hB.pos hr)))

theorem books_dropRef (hB : w.Balanced) (hr : w.Holds h r) : (w.dropRef h r).Balanced := by
  cases r with
  | interned => exact hB
  | counted a => exact Books.debit hB hr (w.heap.count_release a)

/-- Nobody holds a reference on a string that is yet to be allocated. -/
theorem ledger_next (hB : w.Balanced) (h : Holder) : w.ledger h w.heap.next = 0 :=
  hB.eq_zero_of_count (CountedHeap.count_eq_zero_of_le le_rfl) h

/-- **A reference that is held can be followed.** -/
theorem exists_deref (hB : w.Balanced) (hr : w.Holds h r) : ∃ s, w.deref r = some s := by
  cases r with
  | interned s => exact ⟨s, rfl⟩
  | counted a =>
      have hpos := hB.pos hr
      obtain ⟨s, hs⟩ := CountedHeap.exists_content hpos
      exact ⟨s, CountedHeap.get?_eq_some.mpr ⟨hpos, hs⟩⟩

/-- The strings of `w` have the same bytes in `v`. -/
def Keeps (w v : World ε) : Prop := ∀ a s, w.heap.content a = some s → v.heap.content a = some s

theorem Keeps.refl (w : World ε) : w.Keeps w := fun _ _ hs => hs

theorem Keeps.trans {u v : World ε} (h₁ : w.Keeps v) (h₂ : v.Keeps u) : w.Keeps u :=
  fun a s hs => h₂ a s (h₁ a s hs)

theorem keeps_newString (w : World ε) (h : Holder) (s : ZendString) : w.Keeps (w.newString h s) :=
  fun _ _ hs => CountedHeap.content_alloc s hs

theorem keeps_takeRef (w : World ε) (h : Holder) (r : StrRef) : w.Keeps (w.takeRef h r) := by
  cases r with
  | interned => exact Keeps.refl w
  | counted i => exact fun a s hs => by rw [takeRef, CountedHeap.content_retain, hs]

theorem keeps_dropRef (w : World ε) (h : Holder) (r : StrRef) : w.Keeps (w.dropRef h r) := by
  cases r with
  | interned => exact Keeps.refl w
  | counted i => exact fun a s hs => by rw [dropRef, CountedHeap.content_release, hs]

/-- **Frame.** A string that was there and that is still held has the same bytes. -/
theorem deref_of_held {v : World ε} (hB : v.Balanced) (hr : v.Holds h r) (hK : w.Keeps v)
    {s : ZendString} (hs : w.deref r = some s) : v.deref r = some s := by
  cases r with
  | interned => exact hs
  | counted a =>
      exact CountedHeap.get?_eq_some.mpr ⟨hB.pos hr, hK a s (CountedHeap.get?_eq_some.mp hs).2⟩

/-! ## The invariant -/

/-- The object in block `b` has a reference for each of its fields. -/
def Owns (w : World ε) (b : ℕ) (o : TransportObject) : Prop :=
  ∀ a, (o.refs.count (.counted a) : ℤ) ≤ w.ledger (some b) a

theorem Owns.holds {b : ℕ} {o : TransportObject} (ho : w.Owns b o) (hr : r ∈ o.refs) :
    w.Holds (some b) r := by
  cases r with
  | interned => trivial
  | counted a =>
      have h1 := ho a
      have h2 := List.count_pos_iff.mpr hr
      simp only [Holds]
      omega

/-- The invariant of runs. With `D = true` it covers objects whose destructor handler has run. -/
structure Inv (D : Bool) (w : World ε) : Prop where
  books : w.Balanced
  owns : ∀ b o, w.objs b = some o → (o.destructorCalled = true → D = true) → w.Owns b o
  fresh : ∀ b, w.brk ≤ b → w.objs b = none

theorem inv_init (D : Bool) (core : ε) : Inv D (World.init core) where
  books := Books.zero
  owns _ _ h := by cases h
  fresh _ _ := rfl

/-- Events that leave the objects and their balances alone keep the invariant. -/
theorem Inv.of_objs_eq {D : Bool} {v : World ε} (hI : Inv D w) (hB : v.Balanced)
    (hobjs : v.objs = w.objs) (hbrk : v.brk = w.brk)
    (hled : ∀ b a, v.ledger (some b) a = w.ledger (some b) a) : Inv D v where
  books := hB
  owns b o ho hd a := by
    rw [hobjs] at ho
    rw [hled b a]
    exact hI.owns b o ho hd a
  fresh b hb := by
    rw [hbrk] at hb
    rw [hobjs, hI.fresh b hb]

/-- Events on the object in block `b` keep the invariant if that object still owns its fields. -/
theorem Inv.of_update {D : Bool} {v : World ε} {b : ℕ} {o o' : TransportObject} (hI : Inv D w)
    (hB : v.Balanced) (ho : w.objs b = some o) (hobjs : v.objs = Function.update w.objs b (some o'))
    (hbrk : v.brk = w.brk) (hled : ∀ b' ≠ b, ∀ a, v.ledger (some b') a = w.ledger (some b') a)
    (hown : (o'.destructorCalled = true → D = true) → v.Owns b o') : Inv D v where
  books := hB
  owns c p hp hd := by
    rw [hobjs] at hp
    by_cases hc : c = b
    · subst hc
      rw [Function.update_self] at hp
      cases hp
      exact hown hd
    · rw [Function.update_of_ne hc] at hp
      intro a
      rw [hled c hc a]
      exact hI.owns c p hp hd a
  fresh c hc := by
    rw [hbrk] at hc
    have hcb : c ≠ b := by
      rintro rfl
      rw [hI.fresh c hc] at ho
      cases ho
    rw [hobjs, Function.update_of_ne hcb, hI.fresh c hc]

/-! ## Contents -/

/-- The strings and the cursor of a constructed object. -/
structure Contents where
  serviceName : ZendString
  wBuf : ZendString
  rBuf : ZendString
  rBufPos : Int64

/-- The object in block `b` is constructed, and these are its contents. -/
structure HasContents (w : World ε) (b : ℕ) (o : TransportObject) (rs rw rr : StrRef)
    (c : Contents) : Prop where
  obj : w.objs b = some o
  serviceName : o.serviceName = some rs
  wBuf : o.wBuf = some rw
  rBuf : o.rBuf = some rr
  rBufPos : o.rBufPos = c.rBufPos
  deref_serviceName : w.deref rs = some c.serviceName
  deref_wBuf : w.deref rw = some c.wBuf
  deref_rBuf : w.deref rr = some c.rBuf

/-- The contents of the object in block `b`, if it is there and none of its fields is `NULL`. -/
def contents (w : World ε) (b : ℕ) : Option Contents :=
  match w.objs b with
  | none => none
  | some o =>
    match o.serviceName.bind w.deref, o.wBuf.bind w.deref, o.rBuf.bind w.deref with
    | some s, some p, some r => some ⟨s, p, r, o.rBufPos⟩
    | _, _, _ => none

theorem contents_eq_some {w : World ε} {b : ℕ} {c : Contents} :
    w.contents b = some c ↔ ∃ o rs rw rr, w.HasContents b o rs rw rr c := by
  constructor
  · intro hc
    unfold contents at hc
    split at hc
    · cases hc
    · next o ho =>
      split at hc
      · next s p r hs hp hr =>
        cases hc
        obtain ⟨rs, hs1, hs2⟩ := Option.bind_eq_some_iff.mp hs
        obtain ⟨rw, hp1, hp2⟩ := Option.bind_eq_some_iff.mp hp
        obtain ⟨rr, hr1, hr2⟩ := Option.bind_eq_some_iff.mp hr
        exact ⟨o, rs, rw, rr, ⟨ho, hs1, hp1, hr1, rfl, hs2, hp2, hr2⟩⟩
      · cases hc
  · rintro ⟨o, rs, rw, rr, h⟩
    simp [contents, h.obj, h.serviceName, h.wBuf, h.rBuf, h.deref_serviceName, h.deref_wBuf,
      h.deref_rBuf, h.rBufPos]

/-- **Frame.** The contents of an object that is not touched do not change. -/
theorem contents_frame {D : Bool} {v : World ε} {b : ℕ} {c : Contents} (hI : Inv D v)
    (hK : w.Keeps v) (hobj : v.objs b = w.objs b)
    (hd : ∀ o, w.objs b = some o → o.destructorCalled = true → D = true)
    (hc : w.contents b = some c) : v.contents b = some c := by
  obtain ⟨o, rs, rw, rr, h⟩ := contents_eq_some.mp hc
  have hown := hI.owns b o (hobj.trans h.obj) (hd o h.obj)
  have hh : ∀ r ∈ o.refs, v.Holds (some b) r := fun r hr => hown.holds hr
  refine contents_eq_some.mpr ⟨o, rs, rw, rr, hobj.trans h.obj, h.serviceName, h.wBuf, h.rBuf,
    h.rBufPos, ?_, ?_, ?_⟩
  · exact deref_of_held hI.books (hh rs (TransportObject.mem_refs.mpr (Or.inl h.serviceName))) hK
      h.deref_serviceName
  · exact deref_of_held hI.books (hh rw (TransportObject.mem_refs.mpr (Or.inr (Or.inl h.wBuf)))) hK
      h.deref_wBuf
  · exact deref_of_held hI.books (hh rr (TransportObject.mem_refs.mpr (Or.inr (Or.inr h.rBuf)))) hK
      h.deref_rBuf

end World

end ThriftBridge

import ThriftBridge.Transport.Changes
import ThriftBridge.Transport.Lifetime
import ThriftBridge.Transport.Queues

/-!
# Whose the buffers are

* `Sole w b a`: nobody but the object in block `b` has a reference on string `a`, and it has one at
  most; so the string is freed with it (`Sole.deref_dropRef`);
* `Kept w`: objects own their fields until they are destroyed, and the strings of their buffers are
  theirs alone, destroyed or not;
* `flush_ends`: what a `flush` can be on an object that may be destroyed;
* `keepsBuffer`: the flushes that do not leave a released read buffer behind; `kept_step`: under this
  condition every event keeps the buffers.
-/

set_option autoImplicit false

namespace ThriftBridge

open RefCount World Machine

variable {ε : Type} {Z : ZendApi} {exec : Executor ε} {w v u : World ε} {a b this : ℕ}
  {o o' : TransportObject} {r rw rr : StrRef} {s t p : ZendString} {h : Holder}

/-! ## Strings of one object -/

/-- At most one reference is held on string `a`, and by the object in block `b`. -/
structure World.Sole (w : World ε) (b a : ℕ) : Prop where
  lt_next : a < w.heap.next
  le_one : w.ledger (some b) a ≤ 1
  others : ∀ h, h ≠ some b → w.ledger h a = 0

/-- What is one object's alone stays so. -/
def World.KeepsSole (w v : World ε) : Prop := ∀ b a, w.Sole b a → v.Sole b a

theorem World.KeepsSole.trans (h : w.KeepsSole v) (h' : v.KeepsSole u) : w.KeepsSole u :=
  fun b a hS => h' b a (h b a hS)

/-- The references on `a` are as they were. -/
theorem World.Sole.congr (hS : w.Sole b a) (hnext : w.heap.next ≤ v.heap.next)
    (hled : ∀ h, v.ledger h a = w.ledger h a) : v.Sole b a where
  lt_next := lt_of_lt_of_le hS.lt_next hnext
  le_one := by
    rw [hled]
    exact hS.le_one
  others h hh := by
    rw [hled]
    exact hS.others h hh

theorem World.KeepsSole.of_same (hheap : v.heap = w.heap) (hled : v.ledger = w.ledger) :
    w.KeepsSole v :=
  fun _ _ hS => hS.congr (by rw [hheap]) fun _ => by rw [hled]

theorem keepsSole_newString (w : World ε) (h : Holder) (s : ZendString) :
    w.KeepsSole (w.newString h s) := by
  intro b a hS
  have hne : w.heap.next ≠ a := hS.lt_next.ne'
  refine hS.congr (by simp [newString]) fun h' => ?_
  by_cases hh : h' = h
  · rw [hh, newString_ledger, if_neg hne]
    simp
  · exact newString_ledger_of_ne w s hh a

/-- PHP has no reference on such a string to pass on. -/
theorem keepsSole_takeRef (hr : w.Holds none r) (h : Holder) : w.KeepsSole (w.takeRef h r) := by
  intro b a hS
  have hne : r ≠ .counted a := by
    rintro rfl
    have h0 := hS.others none (by simp)
    have hpos : 0 < w.ledger none a := hr
    omega
  refine hS.congr (by cases r <;> simp [takeRef]) fun h' => ?_
  by_cases hh : h' = h
  · rw [hh, takeRef_ledger, if_neg hne]
    simp
  · exact takeRef_ledger_of_ne w r hh a

theorem keepsSole_dropRef (hr : w.Holds h r) : w.KeepsSole (w.dropRef h r) := by
  intro b a hS
  by_cases hra : r = .counted a
  · subst hra
    have hpos : 0 < w.ledger h a := hr
    have hh : h = some b := by
      by_contra hne
      rw [hS.others h hne] at hpos
      omega
    subst hh
    refine ⟨by rw [dropRef_next]; exact hS.lt_next, ?_, fun h' hh' => ?_⟩
    · have := hS.le_one
      rw [dropRef_ledger, if_pos rfl]
      omega
    · rw [dropRef_ledger_of_ne _ _ hh']
      exact hS.others h' hh'
  · refine hS.congr (by rw [dropRef_next]) fun h' => ?_
    by_cases hh : h' = h
    · rw [hh, dropRef_ledger, if_neg hra]
      simp
    · exact dropRef_ledger_of_ne w r hh a

theorem sole_newString (hB : w.Balanced) (b : ℕ) (s : ZendString) :
    (w.newString (some b) s).Sole b w.heap.next where
  lt_next := by simp [newString]
  le_one := by
    rw [newString_ledger, ledger_next hB, if_pos rfl]
    simp
  others h hh := by
    rw [newString_ledger_of_ne _ _ hh, ledger_next hB]

/-- A string of the object that can be followed is held by it. -/
theorem World.Sole.holds (hS : w.Sole b a) (hB : w.Balanced) (hs : w.deref (.counted a) = some s) :
    w.Holds (some b) (.counted a) := by
  obtain ⟨h, hpos⟩ := hB.exists_pos (CountedHeap.get?_eq_some.mp hs).1
  have hh : h = some b := by
    by_contra hne
    rw [hS.others h hne] at hpos
    omega
  subst hh
  exact hpos

/-- **The string is freed with the reference of its object.** -/
theorem World.Sole.deref_dropRef (hS : w.Sole b a) (hB : w.Balanced)
    (hr : w.Holds (some b) (.counted a)) :
    (w.dropRef (some b) (.counted a)).deref (.counted a) = none := by
  have hB' := books_dropRef hB hr
  cases hd : (w.dropRef (some b) (.counted a)).deref (.counted a) with
  | none => rfl
  | some s =>
      obtain ⟨h, hpos⟩ := hB'.exists_pos (CountedHeap.get?_eq_some.mp hd).1
      by_cases hh : h = some b
      · have := hS.le_one
        rw [hh, dropRef_ledger, if_pos rfl] at hpos
        omega
      · rw [dropRef_ledger_of_ne _ _ hh, hS.others h hh] at hpos
        omega

/-! ## Buffers -/

/-- The buffers of the object in block `b` are two strings of its own, or interned. -/
structure World.OwnBuffers (w : World ε) (b : ℕ) (o : TransportObject) : Prop where
  wBuf : ∀ a, o.wBuf = some (.counted a) → w.Sole b a
  rBuf : ∀ a, o.rBuf = some (.counted a) → w.Sole b a
  ne : ∀ a, o.wBuf = some (.counted a) → o.rBuf ≠ some (.counted a)

theorem World.OwnBuffers.mono (hS : w.KeepsSole v) (ho : w.OwnBuffers b o) : v.OwnBuffers b o :=
  ⟨fun a ha => hS b a (ho.wBuf a ha), fun a ha => hS b a (ho.rBuf a ha), ho.ne⟩

/-- Buffers that are not counted. -/
theorem ownBuffers_of_uncounted (hw : ∀ a, o.wBuf ≠ some (.counted a))
    (hr : ∀ a, o.rBuf ≠ some (.counted a)) : w.OwnBuffers b o :=
  ⟨fun a ha => absurd ha (hw a), fun a ha => absurd ha (hr a), fun a ha => absurd ha (hw a)⟩

/-- A write buffer that can be followed is held by its object, destroyed or not. -/
theorem World.OwnBuffers.holds_wBuf (ho : w.OwnBuffers b o) (hB : w.Balanced)
    (hw : o.wBuf = some rw) (hp : w.deref rw = some p) : w.Holds (some b) rw := by
  cases rw with
  | interned => trivial
  | counted a => exact (ho.wBuf a hw).holds hB hp

theorem World.OwnBuffers.holds_rBuf (ho : w.OwnBuffers b o) (hB : w.Balanced)
    (hr : o.rBuf = some rr) (ht : w.deref rr = some t) : w.Holds (some b) rr := by
  cases rr with
  | interned => trivial
  | counted a => exact (ho.rBuf a hr).holds hB ht

/-- Objects own their fields until they are destroyed, and their buffers are theirs alone. -/
structure World.Kept (w : World ε) : Prop where
  inv : Inv false w
  buffers : ∀ b o, w.objs b = some o → w.OwnBuffers b o

theorem kept_init (core : ε) : (World.init core).Kept :=
  ⟨inv_init false core, fun b o ho => by cases ho⟩

theorem World.Kept.of_objs_eq (hK : w.Kept) (hI : Inv false v) (hS : w.KeepsSole v)
    (hobjs : v.objs = w.objs) : v.Kept :=
  ⟨hI, fun b o ho => (hK.buffers b o (by rwa [← hobjs])).mono hS⟩

/-- Strings, references and objects are as they were. -/
structure World.SameStrings (w v : World ε) : Prop where
  heap : v.heap = w.heap
  ledger : v.ledger = w.ledger
  objs : v.objs = w.objs
  brk : v.brk = w.brk

theorem World.Kept.of_same (hK : w.Kept) (h : w.SameStrings v) : v.Kept :=
  hK.of_objs_eq (hK.inv.of_same h.heap h.ledger h.objs h.brk) (.of_same h.heap h.ledger) h.objs

theorem World.Kept.of_update (hK : w.Kept) (hI : Inv false v) (hS : w.KeepsSole v)
    (hobjs : v.objs = Function.update w.objs b (some o')) (ho : v.OwnBuffers b o') : v.Kept := by
  refine ⟨hI, fun c p hp => ?_⟩
  rw [hobjs] at hp
  by_cases hc : c = b
  · subst hc
    rw [Function.update_self] at hp
    cases hp
    exact ho
  · rw [Function.update_of_ne hc] at hp
    exact (hK.buffers c p hp).mono hS

/-- A field of an object that is not destroyed can be followed. -/
theorem World.Kept.exists_deref (hK : w.Kept) (ho : w.objs b = some o)
    (hd : o.destructorCalled = false) (hr : r ∈ o.refs) : ∃ s, w.deref r = some s :=
  World.exists_deref hK.inv.books ((hK.inv.owns b o ho (by simp [hd])).holds hr)

/-! ## Methods -/

theorem kept_createObject (hK : w.Kept) (n : ℕ) : (createObject n w).1.Kept := by
  refine hK.of_update (inv_createObject hK.inv n) (.of_same rfl rfl) rfl ?_
  exact ownBuffers_of_uncounted (by simp) (by simp)

theorem kept_constructed (hK : w.Kept) (ho : w.objs b = some o) (hr : w.Holds none r) :
    (constructedWorld w b o r).Kept := by
  refine hK.of_update (inv_constructed hK.inv ho hr) ?_ (constructedWorld_objs w b o r) ?_
  · exact (keepsSole_takeRef hr (some b)).trans (.of_same rfl rfl)
  · exact ownBuffers_of_uncounted (by simp [constructed, emptyAlloc])
      (by simp [constructed, emptyAlloc])

theorem holds_newString (hr : w.Holds h r) (h' : Holder) (s : ZendString) :
    (w.newString h' s).Holds h r := by
  cases r with
  | interned => trivial
  | counted a =>
      have hpos : 0 < w.ledger h a := hr
      show 0 < (w.newString h' s).ledger h a
      by_cases hh : h = h'
      · subst hh
        rw [newString_ledger]
        split_ifs <;> omega
      · rwa [newString_ledger_of_ne _ _ hh]

/-- An object that is destroyed needs nothing but the books. -/
theorem inv_of_destroyed (hI : Inv false w) (ho : w.objs b = some o) (hB : v.Balanced)
    (hd : o'.destructorCalled = true) (hobjs : v.objs = Function.update w.objs b (some o'))
    (hbrk : v.brk = w.brk) (hled : ∀ b' ≠ b, ∀ a, v.ledger (some b') a = w.ledger (some b') a) :
    Inv false v :=
  hI.of_update hB ho hobjs hbrk hled fun h => absurd (h hd) (by simp)

theorem kept_wrote (hK : w.Kept) (ho : w.objs b = some o) (hw : o.wBuf = some rw)
    (hp : w.deref rw = some p) (s : ZendString) : (wroteWorld w b o rw s).Kept := by
  have hown := hK.buffers b o ho
  have hh := holds_newString (hown.holds_wBuf hK.inv.books hw hp) (some b) s
  have hB := books_newString hK.inv.books (some b) s
  have hS : w.KeepsSole ((w.newString (some b) s).dropRef (some b) rw) :=
    (keepsSole_newString w (some b) s).trans (keepsSole_dropRef hh)
  have hset : ((w.newString (some b) s).dropRef (some b) rw).KeepsSole (wroteWorld w b o rw s) :=
    .of_same rfl rfl
  have hnew := hset b _ (keepsSole_dropRef hh b _ (sole_newString hK.inv.books b s))
  refine hK.of_update ?_ (hS.trans hset) (wroteWorld_objs w b o rw s) ?_
  · by_cases hd : o.destructorCalled = true
    · have hd' : ({ o with wBuf := some (.counted w.heap.next) } :
          TransportObject).destructorCalled = true := hd
      refine inv_of_destroyed hK.inv ho (books_dropRef hB hh) hd' (wroteWorld_objs w b o rw s) ?_ ?_
      · rw [wroteWorld, setObj_brk, dropRef_brk, newString_brk]
      · intro b' hb' a
        rw [wroteWorld, setObj_ledger, dropRef_ledger_of_ne _ _ (by simpa using hb'),
          newString_ledger_of_ne _ _ (by simpa using hb')]
    · exact inv_wrote hK.inv ho (fun h => absurd h hd) hw s
  · refine ⟨fun a ha => ?_, fun a ha => ?_, fun a ha hr => ?_⟩
    · cases ha
      exact hnew
    · exact hset b a (hS b a (hown.rBuf a ha))
    · cases ha
      exact (hown.rBuf _ hr).lt_next.ne rfl

theorem kept_read (hK : w.Kept) (ho : w.objs b = some o) (s : ZendString) (pos : Int64) :
    (readWorld w b o s pos).Kept := by
  have hS : w.KeepsSole (readWorld w b o s pos) :=
    (keepsSole_newString w none s).trans (.of_same rfl rfl)
  have hown := (hK.buffers b o ho).mono hS
  exact hK.of_update (inv_read hK.inv ho s pos) hS rfl ⟨hown.wBuf, hown.rBuf, hown.ne⟩

/-! ### `flush` -/

/-- The write buffer is held after the read buffer is released. -/
theorem holds_wBuf_dropRef (hown : w.OwnBuffers b o) (hB : w.Balanced) (hw : o.wBuf = some rw)
    (hr : o.rBuf = some rr) (hp : w.deref rw = some p) :
    (w.dropRef (some b) rr).Holds (some b) rw := by
  have hh := hown.holds_wBuf hB hw hp
  cases rw with
  | interned => trivial
  | counted a =>
      have hne : rr ≠ .counted a := fun h => hown.ne a hw (by rw [hr, h])
      have hpos : 0 < w.ledger (some b) a := hh
      show 0 < (w.dropRef (some b) rr).ledger (some b) a
      rw [dropRef_ledger, if_neg hne]
      simpa using hpos

theorem kept_flushed (hK : w.Kept) (ho : w.objs b = some o) (hw : o.wBuf = some rw)
    (hr : o.rBuf = some rr) (hp : w.deref rw = some p) (ht : w.deref rr = some t) (e : ε) (q : Asked)
    (s : ZendString) : (flushedWorld w b o rw rr e q s).Kept := by
  have hown := hK.buffers b o ho
  have hhr := hown.holds_rBuf hK.inv.books hr ht
  have hB1 := books_dropRef hK.inv.books hhr
  have hB2 := books_newString hB1 (some b) s
  have hhw := holds_newString (holds_wBuf_dropRef hown hK.inv.books hw hr hp) (some b) s
  have hdrop := keepsSole_dropRef hhw
  have hset : (((w.dropRef (some b) rr).newString (some b) s).dropRef (some b) rw).KeepsSole
      (flushedWorld w b o rw rr e q s) :=
    .of_same (flushedWorld_heap w b o rw rr e q s) (flushedWorld_ledger w b o rw rr e q s)
  have hS : w.KeepsSole (flushedWorld w b o rw rr e q s) :=
    (((keepsSole_dropRef hhr).trans (keepsSole_newString _ (some b) s)).trans hdrop).trans hset
  refine hK.of_update ?_ hS (flushedWorld_objs w b o rw rr e q s) ?_
  · by_cases hd : o.destructorCalled = true
    · have hd' : (flushed o w.heap.next).destructorCalled = true := hd
      refine inv_of_destroyed hK.inv ho ?_ hd' (flushedWorld_objs w b o rw rr e q s)
        (flushedWorld_brk w b o rw rr e q s) ?_
      · rw [World.Balanced, flushedWorld_heap, flushedWorld_ledger]
        exact books_dropRef hB2 hhw
      · intro b' hb' a
        rw [flushedWorld_ledger, dropRef_ledger_of_ne _ _ (by simpa using hb'),
          newString_ledger_of_ne _ _ (by simpa using hb'),
          dropRef_ledger_of_ne _ _ (by simpa using hb')]
    · exact inv_flushed hK.inv ho (fun h => absurd h hd) hw hr e q s
  · have hw' (a : ℕ) : (flushed o w.heap.next).wBuf ≠ some (.counted a) := by
      simp [flushed, emptyAlloc]
    refine ⟨fun a ha => absurd ha (hw' a), fun a ha => ?_, fun a ha => absurd ha (hw' a)⟩
    cases ha
    have hnew := hset b _ (hdrop b _ (sole_newString hB1 b s))
    rwa [dropRef_next] at hnew

/-- The response cannot be copied, and the object needs its old read buffer no more or still has
it. -/
theorem kept_released (hK : w.Kept) (ho : w.objs b = some o) (hr : o.rBuf = some rr)
    (ht : w.deref rr = some t) (hc : o.destructorCalled = true ∨ rr.isInterned = true) (e : ε)
    (q : Asked) (bytes : Bytes) : (released w b rr e q bytes).Kept := by
  cases rr with
  | interned s => exact hK.of_same ⟨rfl, rfl, rfl, rfl⟩
  | counted a =>
      have hd := hc.resolve_right (by simp [StrRef.isInterned])
      have hh := (hK.buffers b o ho).holds_rBuf hK.inv.books hr ht
      have hobjs : (released w b (.counted a) e q bytes).objs = Function.update w.objs b (some o) :=
        (Function.update_eq_self_iff.mpr ho.symm).symm
      have hled (b' : ℕ) (hb' : b' ≠ b) (a' : ℕ) :
          (released w b (.counted a) e q bytes).ledger (some b') a' = w.ledger (some b') a' :=
        dropRef_ledger_of_ne w (.counted a) (show some b' ≠ some b by simpa using hb') a'
      have hB : (released w b (.counted a) e q bytes).Balanced := books_dropRef hK.inv.books hh
      have hS : w.KeepsSole (released w b (.counted a) e q bytes) :=
        (keepsSole_dropRef hh).trans (.of_same rfl rfl)
      exact hK.of_objs_eq (inv_of_destroyed hK.inv ho hB hd hobjs rfl hled) hS rfl

/-- A flush that cannot follow the write buffer or the service name stops there. -/
theorem flush_stopped (Z : ZendApi) (exec : Executor ε) (ho : w.objs (fetchObject this) = some o)
    (h : o.wBuf.bind w.deref = none ∨ o.serviceName.bind w.deref = none) :
    ∃ e, flush Z exec this w = .error e w := by
  simp only [flush]
  rw [bind_ok (getObj_run ho)]
  cases hw : o.wBuf with
  | none => exact ⟨_, bind_error rfl⟩
  | some rw =>
      cases hp : w.deref rw with
      | none => exact ⟨.useAfterFree, bind_error (by simp only [zstr, hp])⟩
      | some p =>
          rw [bind_ok (zstr_run hp)]
          rw [hw, Option.bind_some, hp] at h
          have hn := h.resolve_left (by simp)
          cases hs : o.serviceName with
          | none => exact ⟨_, bind_error rfl⟩
          | some rs =>
              rw [hs, Option.bind_some] at hn
              exact ⟨.useAfterFree, bind_error (by simp only [zstr, hn])⟩

/-- A read buffer that is released already is followed once the response is there. -/
theorem flush_dangling {rs : StrRef} {n : ZendString} {x : Answer} {e : ε} {bytes : Bytes}
    (ho : w.objs (fetchObject this) = some o) (hw : o.wBuf = some rw) (hn : o.serviceName = some rs)
    (hr : o.rBuf = some rr) (hp : w.deref rw = some p) (hs : w.deref rs = some n)
    (ht : w.deref rr = none) (he : exec w.core n.val p.val = (x, e)) (hx : x.reply = .response bytes) :
    flush Z exec this w = .error .useAfterFree
      (withBuffers (answered w e ⟨n.val, p.val, x⟩) (w.cHeap.alloc bytes)) := by
  have hd : (withBuffers (answered w e ⟨n.val, p.val, x⟩) (w.cHeap.alloc bytes)).deref rr = none := by
    rw [deref_withBuffers, deref_answered, ht]
  simp only [flush]
  rw [bind_ok (getObj_run ho), hw, bind_ok (zstr_run hp), hn, bind_ok (zstr_run hs),
    bind_ok (askCore_response w he hx), hr]
  exact bind_error (by simp only [zendStringRelease, hd])

/-- The executor is asked, and a response allocated: the strings are as they were. -/
theorem sameStrings_answered (w : World ε) (e : ε) (q : Asked) : w.SameStrings (answered w e q) :=
  ⟨rfl, rfl, rfl, rfl⟩

theorem sameStrings_withBuffers (w : World ε) (e : ε) (q : Asked) (c : CountedHeap Bytes) :
    w.SameStrings (withBuffers (answered w e q) c) := ⟨rfl, rfl, rfl, rfl⟩

/-- **What a `flush` can be**: it stops or returns with the strings as they were, it installs a
response, or it is left without the copy of one. -/
theorem flush_ends (Z : ZendApi) (exec : Executor ε) (hK : w.Kept)
    (ho : w.objs (fetchObject this) = some o) :
    (∃ v, w.SameStrings v ∧
        ((∃ r, flush Z exec this w = .ok r v) ∨ ∃ e, flush Z exec this w = .error e v)) ∨
      (∃ rw rr p t e q s, o.wBuf = some rw ∧ o.rBuf = some rr ∧ w.deref rw = some p ∧
        w.deref rr = some t ∧
        flush Z exec this w = .ok .null (flushedWorld w (fetchObject this) o rw rr e q s)) ∨
      ∃ rr t e q bytes, o.rBuf = some rr ∧ w.deref rr = some t ∧
        harmless Z exec w (.flush this) = rr.isInterned ∧
        flush Z exec this w = .error .bailout (released w (fetchObject this) rr e q bytes) := by
  by_cases hstop : o.wBuf.bind w.deref = none ∨ o.serviceName.bind w.deref = none
  · exact Or.inl ⟨w, ⟨rfl, rfl, rfl, rfl⟩, Or.inr (flush_stopped Z exec ho hstop)⟩
  rw [not_or] at hstop
  obtain ⟨p, hp⟩ := Option.ne_none_iff_exists'.mp hstop.1
  obtain ⟨n, hn⟩ := Option.ne_none_iff_exists'.mp hstop.2
  obtain ⟨rw, hw, hp⟩ := Option.bind_eq_some_iff.mp hp
  obtain ⟨rs, hn, hs⟩ := Option.bind_eq_some_iff.mp hn
  obtain ⟨⟨x, e⟩, he⟩ : ∃ y, exec w.core n.val p.val = y := ⟨_, rfl⟩
  cases hx : x.reply with
  | null =>
      exact Or.inl ⟨_, sameStrings_answered w e _, Or.inl ⟨_, flush_null ho hw hn hp hs he hx⟩⟩
  | unwound =>
      exact Or.inl ⟨_, sameStrings_answered w e _, Or.inr ⟨_, flush_unwound ho hw hn hp hs he hx⟩⟩
  | response bytes =>
      cases hr : o.rBuf with
      | none =>
          exact Or.inl ⟨_, sameStrings_withBuffers w e _ _,
            Or.inr ⟨_, flush_unbuffered ho hw hn hr hp hs he hx⟩⟩
      | some rr =>
          cases ht : w.deref rr with
          | none =>
              exact Or.inl ⟨_, sameStrings_withBuffers w e _ _,
                Or.inr ⟨_, flush_dangling ho hw hn hr hp hs ht he hx⟩⟩
          | some t =>
              cases hg : Z.grant w.heap.next bytes.length with
              | false =>
                  refine Or.inr (Or.inr ⟨rr, t, e, _, bytes, rfl, ht, ?_,
                    flush_refused ho hw hn hr hp hs ht he hx hg⟩)
                  rw [harmless_flush ho hw hn ((deref_unasked w rw).trans hp)
                    ((deref_unasked w rs).trans hs), hr, he, hx]
                  cases rr with
                  | interned => rfl
                  | counted => exact hg
              | true =>
                  have hown := hK.buffers _ o ho
                  have hhw := holds_wBuf_dropRef hown hK.inv.books hw hr hp
                  have hB := books_dropRef hK.inv.books (hown.holds_rBuf hK.inv.books hr ht)
                  have hp' := deref_of_held hB hhw (keeps_dropRef w _ rr) hp
                  exact Or.inr (Or.inl ⟨rw, rr, p, t, e, _, _, hw, rfl, hp, ht,
                    flush_run ho hw hn hr hp hs ht hp' he hx hg⟩)

/-! ### Destruction -/

theorem dtorWorld_next (w : World ε) (b : ℕ) (o : TransportObject) :
    (dtorWorld w b o).heap.next = w.heap.next := by
  have hdrop (v : World ε) (f : Option StrRef) : (dropField v b f).heap.next = v.heap.next := by
    cases f <;> simp [dropField]
  rw [dtorWorld, hdrop, hdrop, hdrop]

/-- What an object gives back at its destruction is not another object's alone. -/
theorem keepsSole_dtor (hown : w.Owns b o) : w.KeepsSole (dtorWorld w b o) := by
  intro c a hS
  have hle := hown a
  refine ⟨by rw [dtorWorld_next]; exact hS.lt_next, ?_, fun h hh => ?_⟩
  · have h1 := hS.le_one
    by_cases hc : some c = some b
    · rw [hc, dtorWorld_ledger]
      rw [hc] at h1
      omega
    · rwa [dtorWorld_ledger_of_ne _ _ hc]
  · have h0 := hS.others h hh
    by_cases hb : h = some b
    · subst hb
      rw [h0] at hle
      rw [dtorWorld_ledger, h0]
      omega
    · rwa [dtorWorld_ledger_of_ne _ _ hb]

theorem kept_dtor (object : ℕ) (hK : w.Kept) (ho : w.objs (fetchObject object) = some o)
    (hd : o.destructorCalled = false) :
    dtorObject object (w.flagged (fetchObject object) o) = .ok .null
        (dtorWorld (w.flagged (fetchObject object) o) (fetchObject object)
          { o with destructorCalled := true }) ∧
      (dtorWorld (w.flagged (fetchObject object) o) (fetchObject object)
        { o with destructorCalled := true }).Kept := by
  generalize hb : fetchObject object = b at ho ⊢
  have hown := hK.inv.owns b o ho (by simp [hd])
  obtain ⟨hrun, hB⟩ := dtorObject_run (w := w.flagged (fetchObject object) o) object
    hK.inv.books (setObj_self _ _ _) (by rw [hb]; exact owns_flagged hown)
  rw [hb] at hrun hB
  have hflag : w.KeepsSole (w.flagged b o) := .of_same rfl rfl
  have hS := hflag.trans (keepsSole_dtor (owns_flagged hown))
  have hobj := (hK.buffers b o ho).mono hS
  exact ⟨hrun, hK.of_update (inv_dtor hK.inv ho hB) hS (dtorWorld_objs _ _ _)
    ⟨hobj.wBuf, hobj.rBuf, hobj.ne⟩⟩

theorem kept_freeObject (hK : w.Kept) (object : ℕ) : (freeObject Z object w).Kept := by
  refine ⟨inv_freeObject hK.inv, fun c p hp => ?_⟩
  have hc : c ≠ fetchObject object := by
    rintro rfl
    simp [freeObject] at hp
  simp only [freeObject, Function.update_of_ne hc] at hp
  have hS : w.KeepsSole (freeObject Z object w) := .of_same rfl rfl
  exact (hK.buffers c p hp).mono hS

/-! ## Events -/

/-- A flush of an object that is not destroyed does not leave its read buffer released: the copy of a
response is granted, or the old read buffer is not counted. -/
def keepsBuffer (Z : ZendApi) (exec : Executor ε) (w : World ε) : Event → Bool
  | .flush this => !w.undestroyed this || harmless Z exec w (.flush this)
  | _ => true

/-- A method that leaves the strings as they were. -/
theorem kept_runMethod {call : Call} {m : CM ε Ret} (hv : v.Kept)
    (hm : (∃ r, m w.unasked = .ok r v) ∨ ∃ e, m w.unasked = .error e v) :
    (runMethod w this call m).1.Kept := by
  rcases hm with ⟨r, hm⟩ | ⟨e, hm⟩
  · rw [runMethod_ok call hm]
    exact hv
  · rw [runMethod_error call hm]
    exact hv.of_same ⟨rfl, rfl, rfl, rfl⟩

theorem World.Kept.unasked (hK : w.Kept) : w.unasked.Kept := hK.of_same ⟨rfl, rfl, rfl, rfl⟩

theorem kept_flush (hK : w.Kept) (ho : w.objs (fetchObject this) = some o)
    (hk : keepsBuffer Z exec w (.flush this) = true) :
    (runMethod w this .flush (flush Z exec this)).1.Kept := by
  have hu := hK.unasked
  rcases flush_ends Z exec hu ho with ⟨v, hv, hm⟩ | ⟨rw, rr, p, t, e, q, s, hw, hr, hp, ht, hm⟩ |
    ⟨rr, t, e, q, bytes, hr, ht, hh, hm⟩
  · exact kept_runMethod (hu.of_same hv) hm
  · exact kept_runMethod (kept_flushed hu ho hw hr hp ht e q s) (Or.inl ⟨_, hm⟩)
  · refine kept_runMethod (kept_released hu ho hr ht ?_ e q bytes) (Or.inr ⟨_, hm⟩)
    have hh' : harmless Z exec w (.flush this) = rr.isInterned := hh
    rw [keepsBuffer, hh', Bool.or_eq_true, Bool.not_eq_true', World.undestroyed, ho] at hk
    exact hk.imp_left fun h => by simpa using h

/-- **One event.** -/
theorem kept_step {ev : Event} {l : Label} (hK : w.Kept)
    (hs : engineStep Z exec w ev = some (v, l)) (hk : keepsBuffer Z exec w ev = true) : v.Kept := by
  have hu := hK.unasked
  replace hs := engineStep_eq_some hs
  cases ev with
  | createObject n =>
      cases hs
      exact kept_createObject hK n
  | construct this arg =>
      obtain ⟨⟨o, ho⟩, hh, hr⟩ := hs
      rw [show v = (runMethod w this _ (construct this arg)).1 from congrArg Prod.fst hr]
      cases arg with
      | none => exact kept_runMethod hu (Or.inl ⟨_, construct_rejected this _⟩)
      | some r =>
          obtain ⟨hheld, s, hs, -⟩ := exists_argBytes hK.inv.books hh
          exact kept_runMethod (kept_constructed hu ho hheld) (Or.inl ⟨_, construct_run ho hs⟩)
  | isOpen this | open' this | close this =>
      cases hs
      exact hu
  | write this arg =>
      obtain ⟨⟨o, ho⟩, -, hr⟩ := hs
      rw [show v = (runMethod w this _ (write Z this arg)).1 from congrArg Prod.fst hr]
      rcases write_ends (w := w.unasked) Z arg ho with ⟨e, -, hm⟩ | ⟨r, hm⟩ |
        ⟨rw, p, t, hw, hp, hm⟩
      · exact kept_runMethod hu (Or.inr ⟨e, hm⟩)
      · exact kept_runMethod hu (Or.inl ⟨r, hm⟩)
      · exact kept_runMethod (kept_wrote hu ho hw hp t) (Or.inl ⟨_, hm⟩)
  | read this arg =>
      obtain ⟨⟨o, ho⟩, hr⟩ := hs
      rw [show v = (runMethod w this _ (read Z this arg)).1 from congrArg Prod.fst hr]
      rcases read_ends (w := w.unasked) Z arg ho with ⟨e, -, hm⟩ | ⟨r, hm⟩ |
        ⟨len, rr, t, r, s, -, -, hm⟩
      · exact kept_runMethod hu (Or.inr ⟨e, hm⟩)
      · exact kept_runMethod hu (Or.inl ⟨r, hm⟩)
      · exact kept_runMethod (kept_read hu ho _ _) (Or.inl ⟨_, hm⟩)
  | flush this =>
      obtain ⟨⟨o, ho⟩, hr⟩ := hs
      rw [show v = (runMethod w this _ (flush Z exec this)).1 from congrArg Prod.fst hr]
      exact kept_flush hK ho hk
  | dtorObject object =>
      obtain ⟨o, ho, hd, hr⟩ := hs
      obtain ⟨hm, hv⟩ := kept_dtor object hu ho hd
      cases hr.trans (runMethod_ok (w := w.flagged (fetchObject object) o) _ hm)
      exact hv
  | freeObject object =>
      obtain ⟨o, -, -, hr⟩ := hs
      cases hr
      exact kept_freeObject hK object
  | newString s =>
      cases hs
      exact hK.of_objs_eq (inv_newString hK.inv s) (keepsSole_newString w none s) rfl
  | copyString a =>
      obtain ⟨ha, hr⟩ := hs
      cases hr
      have hheld : w.Holds none (.counted a) := ha
      exact hK.of_objs_eq (inv_takeRef hK.inv hheld) (keepsSole_takeRef hheld none)
        (takeRef_objs w none _)
  | dropString a =>
      obtain ⟨ha, hr⟩ := hs
      cases hr
      have hheld : w.Holds none (.counted a) := ha
      exact hK.of_objs_eq (inv_dropRef hK.inv hheld) (keepsSole_dropRef hheld) (dropRef_objs w none _)

end ThriftBridge

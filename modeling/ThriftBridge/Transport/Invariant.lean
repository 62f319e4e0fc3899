import ThriftBridge.Transport.Spec

/-!
# The invariant through the methods

For the world that each method leaves: the invariant (`inv_*`), that no string changes (`keeps_*`),
and the contents of the object (`contents_*`). The contents of the other objects follow from
`contents_frame`.
-/

set_option autoImplicit false

namespace ThriftBridge

open RefCount World

variable {ε : Type} {D : Bool} {w : World ε} {b : ℕ} {o : TransportObject} {r : StrRef}

/-- A string that a field of a covered object points to can be followed, with the bytes it had. -/
theorem World.Inv.deref {u v : World ε} {s : ZendString} (hI : Inv D v) (ho : v.objs b = some o)
    (hd : o.destructorCalled = true → D = true) (hr : r ∈ o.refs) (hK : u.Keeps v)
    (hs : u.deref r = some s) : v.deref r = some s :=
  deref_of_held hI.books ((hI.owns b o ho hd).holds hr) hK hs

/-! ## Calls -/

/-- Strings, references and objects are as they were. -/
theorem World.Inv.of_same {v : World ε} (hI : Inv D w) (hheap : v.heap = w.heap)
    (hled : v.ledger = w.ledger) (hobjs : v.objs = w.objs) (hbrk : v.brk = w.brk) : Inv D v := by
  refine hI.of_objs_eq ?_ hobjs hbrk fun b a => by rw [hled]
  rw [World.Balanced, hheap, hled]
  exact hI.books

/-- The world in which a method starts. -/
def World.unasked (w : World ε) : World ε := { w with asked := none }

theorem deref_unasked (w : World ε) (r : StrRef) : w.unasked.deref r = w.deref r := by
  cases r <;> rfl

theorem World.Inv.unasked (hI : Inv D w) : Inv D w.unasked :=
  hI.of_same rfl rfl rfl rfl

section Calls

variable {v : World ε} {this : ℕ}

theorem runMethod_ok {m : CM ε Ret} {r : Ret} (call : Call) (h : m w.unasked = .ok r v) :
    runMethod w this call m = (v, ⟨fetchObject this, call, v.asked, .returned r⟩) := by
  unfold unasked at h
  simp only [runMethod, h]

theorem runMethod_error {m : CM ε Ret} {s : Stop} (call : Call) (h : m w.unasked = .error s v) :
    runMethod w this call m =
      ({ v with alive := s = .bailout }, ⟨fetchObject this, call, v.asked, .stopped s⟩) := by
  unfold unasked at h
  simp only [runMethod, h]

/-- An argument that PHP holds can be followed. -/
theorem exists_argBytes (hB : w.Balanced) (hh : w.holdsArg (some r) = true) :
    w.Holds none r ∧ ∃ s, w.unasked.deref r = some s ∧ w.argBytes (some r) = some s.val := by
  have hr : w.Holds none r := by
    cases r with
    | interned => trivial
    | counted a => simpa [holdsArg, Holds] using hh
  obtain ⟨s, hs⟩ := exists_deref hB hr
  exact ⟨hr, s, by rw [deref_unasked, hs], by simp [argBytes, hs]⟩

end Calls

/-! ## PHP and its own strings -/

theorem inv_newString (hI : Inv D w) (s : ZendString) : Inv D (w.newString none s) :=
  hI.of_objs_eq (books_newString hI.books none s) rfl rfl
    fun _ a => newString_ledger_of_ne w s (by simp) a

theorem inv_takeRef (hI : Inv D w) (hr : w.Holds none r) : Inv D (w.takeRef none r) :=
  hI.of_objs_eq (books_takeRef hI.books none hr) (takeRef_objs w none r) (takeRef_brk w none r)
    fun _ a => takeRef_ledger_of_ne w r (by simp) a

theorem inv_dropRef (hI : Inv D w) (hr : w.Holds none r) : Inv D (w.dropRef none r) :=
  hI.of_objs_eq (books_dropRef hI.books hr) (dropRef_objs w none r) (dropRef_brk w none r)
    fun _ a => dropRef_ledger_of_ne w r (by simp) a

/-! ## The object -/

theorem inv_createObject (hI : Inv D w) (n : ℕ) : Inv D (createObject n w).1 where
  books := hI.books
  owns c p hp hd a := by
    simp only [createObject] at hp ⊢
    by_cases hc : c = w.brk
    · subst hc
      rw [Function.update_self] at hp
      cases hp
      have := hI.books.nonneg (some w.brk) a
      simpa [TransportObject.refs] using this
    · rw [Function.update_of_ne hc] at hp
      exact hI.owns c p hp hd a
  fresh c hc := by
    simp only [createObject] at hc ⊢
    rw [Function.update_of_ne (by omega), hI.fresh c (by omega)]

/-- Only the cursor and the engine's flag may differ. -/
theorem inv_setObj {o' : TransportObject} (hI : Inv D w) (ho : w.objs b = some o)
    (hown : (o'.destructorCalled = true → D = true) → w.Owns b o') : Inv D (w.setObj b o') :=
  hI.of_update hI.books ho rfl rfl (fun _ _ _ => rfl) hown

theorem constructedWorld_objs (w : World ε) (b : ℕ) (o : TransportObject) (r : StrRef) :
    (constructedWorld w b o r).objs = Function.update w.objs b (some (constructed o r)) := by
  rw [constructedWorld, setObj_objs, takeRef_objs]

theorem constructedWorld_core (w : World ε) (b : ℕ) (o : TransportObject) (r : StrRef) :
    (constructedWorld w b o r).core = w.core := by
  rw [constructedWorld, setObj_core, takeRef_core]

theorem inv_constructed (hI : Inv D w) (ho : w.objs b = some o) (hr : w.Holds none r) :
    Inv D (constructedWorld w b o r) := by
  refine hI.of_update (books_takeRef hI.books (some b) hr) ho (constructedWorld_objs w b o r)
    ?_ ?_ ?_
  · rw [constructedWorld, setObj_brk, takeRef_brk]
  · intro b' hb' a
    rw [constructedWorld, setObj_ledger, takeRef_ledger_of_ne w r (by simpa using hb')]
  · intro _ a
    have hnn := hI.books.nonneg (some b) a
    rw [constructedWorld, setObj_ledger, takeRef_ledger, TransportObject.count_refs]
    simp only [constructed, emptyAlloc, Option.some.injEq, reduceCtorEq, if_false]
    omega

theorem wroteWorld_objs (w : World ε) (b : ℕ) (o : TransportObject) (rw : StrRef) (s : ZendString) :
    (wroteWorld w b o rw s).objs =
      Function.update w.objs b (some { o with wBuf := some (.counted w.heap.next) }) := by
  rw [wroteWorld, setObj_objs, dropRef_objs, newString_objs]

theorem wroteWorld_core (w : World ε) (b : ℕ) (o : TransportObject) (rw : StrRef) (s : ZendString) :
    (wroteWorld w b o rw s).core = w.core := by
  rw [wroteWorld, setObj_core, dropRef_core, newString_core]

theorem inv_wrote {rw : StrRef} (hI : Inv D w) (ho : w.objs b = some o)
    (hd : o.destructorCalled = true → D = true) (hw : o.wBuf = some rw) (s : ZendString) :
    Inv D (wroteWorld w b o rw s) := by
  have hown := hI.owns b o ho hd
  have hB := books_newString hI.books (some b) s
  have hh : (w.newString (some b) s).Holds (some b) rw := by
    cases rw with
    | interned => trivial
    | counted i =>
        have h1 := hown.holds (TransportObject.mem_refs.mpr (Or.inr (Or.inl hw)))
        simp only [Holds, newString_ledger] at h1 ⊢
        split_ifs <;> omega
  refine hI.of_update (books_dropRef hB hh) ho (wroteWorld_objs w b o rw s) ?_ ?_ ?_
  · rw [wroteWorld, setObj_brk, dropRef_brk, newString_brk]
  · intro b' hb' a
    rw [wroteWorld, setObj_ledger, dropRef_ledger_of_ne _ _ (by simpa using hb'),
      newString_ledger_of_ne _ _ (by simpa using hb')]
  · intro _ a
    -- the buffer takes over the new reference, and gives back the one on the old buffer
    have h1 := hown a
    rw [TransportObject.count_refs] at h1
    rw [wroteWorld, setObj_ledger, dropRef_ledger, newString_ledger, TransportObject.count_refs]
    simp only [hw, Option.some.injEq, StrRef.counted.injEq] at h1 ⊢
    omega

theorem keeps_wrote (w : World ε) (b : ℕ) (o : TransportObject) (rw : StrRef) (s : ZendString) :
    w.Keeps (wroteWorld w b o rw s) :=
  (keeps_newString w (some b) s).trans (keeps_dropRef _ _ _)

theorem readWorld_objs (w : World ε) (b : ℕ) (o : TransportObject) (s : ZendString) (pos : Int64) :
    (readWorld w b o s pos).objs = Function.update w.objs b (some { o with rBufPos := pos }) := rfl

theorem readWorld_core (w : World ε) (b : ℕ) (o : TransportObject) (s : ZendString) (pos : Int64) :
    (readWorld w b o s pos).core = w.core := rfl

theorem inv_read (hI : Inv D w) (ho : w.objs b = some o) (s : ZendString) (pos : Int64) :
    Inv D (readWorld w b o s pos) :=
  inv_setObj (o := o) (inv_newString hI s) ho fun hd a => by
    have h1 := hI.owns b o ho hd a
    rw [newString_ledger_of_ne w s (by simp)]
    exact h1

/-- The strings of the object after its old read buffer is released. -/
theorem owns_dropRef {rr : StrRef} (hI : Inv D w) (ho : w.objs b = some o)
    (hd : o.destructorCalled = true → D = true) (hr : o.rBuf = some rr) :
    (w.dropRef (some b) rr).Owns b { o with rBuf := none } := by
  intro a
  have h1 := hI.owns b o ho hd a
  rw [TransportObject.count_refs] at h1 ⊢
  rw [dropRef_ledger]
  simp only [hr, Option.some.injEq, reduceCtorEq, if_false] at h1 ⊢
  omega

theorem books_dropRef_rBuf {rr : StrRef} (hI : Inv D w) (ho : w.objs b = some o)
    (hd : o.destructorCalled = true → D = true) (hr : o.rBuf = some rr) :
    (w.dropRef (some b) rr).Balanced :=
  books_dropRef hI.books
    ((hI.owns b o ho hd).holds (TransportObject.mem_refs.mpr (Or.inr (Or.inr hr))))

/-- The write buffer outlives the release of the read buffer. -/
theorem deref_wBuf_dropRef {rw rr : StrRef} {p : ZendString} (hI : Inv D w)
    (ho : w.objs b = some o) (hd : o.destructorCalled = true → D = true) (hw : o.wBuf = some rw)
    (hr : o.rBuf = some rr) (hp : w.deref rw = some p) :
    (w.dropRef (some b) rr).deref rw = some p :=
  deref_of_held (books_dropRef_rBuf hI ho hd hr)
    ((owns_dropRef hI ho hd hr).holds (TransportObject.mem_refs.mpr (Or.inr (Or.inl hw))))
    (keeps_dropRef w _ rr) hp

theorem flushedWorld_heap (w : World ε) (b : ℕ) (o : TransportObject) (rw rr : StrRef) (e : ε)
    (q : Asked) (s : ZendString) : (flushedWorld w b o rw rr e q s).heap =
      (((w.dropRef (some b) rr).newString (some b) s).dropRef (some b) rw).heap := by
  cases rw <;> cases rr <;> rfl

theorem flushedWorld_ledger (w : World ε) (b : ℕ) (o : TransportObject) (rw rr : StrRef) (e : ε)
    (q : Asked) (s : ZendString) : (flushedWorld w b o rw rr e q s).ledger =
      (((w.dropRef (some b) rr).newString (some b) s).dropRef (some b) rw).ledger := by
  cases rw <;> cases rr <;> rfl

theorem flushedWorld_objs (w : World ε) (b : ℕ) (o : TransportObject) (rw rr : StrRef) (e : ε)
    (q : Asked) (s : ZendString) : (flushedWorld w b o rw rr e q s).objs =
      Function.update w.objs b (some (flushed o w.heap.next)) := by
  cases rw <;> cases rr <;> rfl

theorem flushedWorld_brk (w : World ε) (b : ℕ) (o : TransportObject) (rw rr : StrRef) (e : ε)
    (q : Asked) (s : ZendString) : (flushedWorld w b o rw rr e q s).brk = w.brk := by
  cases rw <;> cases rr <;> rfl

theorem flushedWorld_core (w : World ε) (b : ℕ) (o : TransportObject) (rw rr : StrRef) (e : ε)
    (q : Asked) (s : ZendString) : (flushedWorld w b o rw rr e q s).core = e ∧
      (flushedWorld w b o rw rr e q s).asked = some q := by
  cases rw <;> cases rr <;> exact ⟨rfl, rfl⟩

theorem keeps_flushed (w : World ε) (b : ℕ) (o : TransportObject) (rw rr : StrRef) (e : ε)
    (q : Asked) (s : ZendString) : w.Keeps (flushedWorld w b o rw rr e q s) := by
  have h := ((keeps_dropRef w (some b) rr).trans (keeps_newString _ (some b) s)).trans
    (keeps_dropRef _ (some b) rw)
  intro a t ht
  rw [flushedWorld_heap]
  exact h a t ht

theorem inv_flushed {rw rr : StrRef} (hI : Inv D w) (ho : w.objs b = some o)
    (hd : o.destructorCalled = true → D = true) (hw : o.wBuf = some rw) (hr : o.rBuf = some rr)
    (e : ε) (q : Asked) (s : ZendString) : Inv D (flushedWorld w b o rw rr e q s) := by
  have hown := hI.owns b o ho hd
  have hdrop := owns_dropRef hI ho hd hr
  have hB := books_newString (books_dropRef_rBuf hI ho hd hr) (some b) s
  have hh : ((w.dropRef (some b) rr).newString (some b) s).Holds (some b) rw := by
    cases rw with
    | interned => trivial
    | counted i =>
        have h1 := hdrop.holds (TransportObject.mem_refs.mpr (Or.inr (Or.inl hw)))
        simp only [Holds, newString_ledger] at h1 ⊢
        split_ifs <;> omega
  have hB' := books_dropRef hB hh
  refine hI.of_update ?_ ho (flushedWorld_objs w b o rw rr e q s)
    (flushedWorld_brk w b o rw rr e q s) ?_ ?_
  · rw [World.Balanced, flushedWorld_heap, flushedWorld_ledger]
    exact hB'
  · intro b' hb' a
    rw [flushedWorld_ledger, dropRef_ledger_of_ne _ _ (by simpa using hb'),
      newString_ledger_of_ne _ _ (by simpa using hb'),
      dropRef_ledger_of_ne _ _ (by simpa using hb')]
  · intro _ a
    -- the read buffer takes over the new reference, and those on the old buffers are given back
    have h1 := hown a
    rw [TransportObject.count_refs] at h1
    rw [flushedWorld_ledger, dropRef_ledger, newString_ledger, dropRef_ledger, dropRef_next, flushed,
      TransportObject.count_refs]
    simp only [hw, hr, emptyAlloc, Option.some.injEq, StrRef.counted.injEq, reduceCtorEq,
      if_false] at h1 ⊢
    omega

/-! ## Destruction -/

/-- The object once the engine has called its destructor handler. -/
def World.flagged (w : World ε) (b : ℕ) (o : TransportObject) : World ε :=
  w.setObj b { o with destructorCalled := true }

theorem owns_flagged (hown : w.Owns b o) :
    (w.flagged b o).Owns b { o with destructorCalled := true } := hown

/-- Nothing is required of an object whose destructor handler has run. -/
theorem inv_dtor (hI : Inv false w) (ho : w.objs b = some o)
    (hB : (dtorWorld (w.flagged b o) b { o with destructorCalled := true }).Balanced) :
    Inv false (dtorWorld (w.flagged b o) b { o with destructorCalled := true }) := by
  refine hI.of_update hB ho (dtorWorld_objs _ _ _) ?_ ?_ ?_
  · rw [dtorWorld_brk, flagged, setObj_brk]
  · intro b' hb' a
    rw [dtorWorld_ledger_of_ne _ _ (by simpa using hb'), flagged, setObj_ledger]
  · intro hd
    cases hd rfl

theorem inv_freeObject {Z : ZendApi} {object : ℕ} (hI : Inv D w) : Inv D (freeObject Z object w) where
  books := hI.books
  owns c p hp hd := by
    have hc : c ≠ fetchObject object := by
      rintro rfl
      simp [freeObject] at hp
    simp only [freeObject, Function.update_of_ne hc] at hp
    exact hI.owns c p hp hd
  fresh c hc := by
    simp only [freeObject, Function.update_apply]
    split_ifs
    · rfl
    · exact hI.fresh c hc

/-! ## Contents -/

theorem contents_constructed {s : ZendString} (hI : Inv D w) (ho : w.objs b = some o)
    (hd : o.destructorCalled = true → D = true) (hr : w.Holds none r) (hs : w.deref r = some s) :
    (constructedWorld w b o r).contents b = some ⟨s, .empty, .empty, 0⟩ := by
  have hobj : (constructedWorld w b o r).objs b = some (constructed o r) := by
    rw [constructedWorld, setObj_self]
  have hs' : (constructedWorld w b o r).deref r = some s :=
    (inv_constructed hI ho hr).deref hobj hd (TransportObject.mem_refs.mpr (Or.inl rfl))
      (keeps_takeRef w (some b) r) hs
  exact contents_eq_some.mpr ⟨_, r, emptyAlloc, emptyAlloc, ⟨hobj, rfl, rfl, rfl, rfl, hs', rfl, rfl⟩⟩

variable {rs rw rr : StrRef} {c : Contents}

theorem contents_wrote (hI : Inv D w) (hc : w.HasContents b o rs rw rr c)
    (hd : o.destructorCalled = true → D = true) (s : ZendString) :
    (wroteWorld w b o rw s).contents b = some { c with wBuf := s } := by
  have hI' := inv_wrote hI hc.obj hd hc.wBuf s
  have hK := keeps_wrote w b o rw s
  have hobj : (wroteWorld w b o rw s).objs b = some { o with wBuf := some (.counted w.heap.next) } :=
    setObj_self _ _ _
  refine contents_eq_some.mpr ⟨_, rs, .counted w.heap.next, rr,
    ⟨hobj, hc.serviceName, rfl, hc.rBuf, hc.rBufPos, ?_, ?_, ?_⟩⟩
  · exact hI'.deref hobj hd (TransportObject.mem_refs.mpr (Or.inl hc.serviceName)) hK
      hc.deref_serviceName
  · exact hI'.deref (u := w.newString (some b) s) hobj hd
      (TransportObject.mem_refs.mpr (Or.inr (Or.inl rfl))) (keeps_dropRef _ _ _)
      (deref_newString_self w (some b) s)
  · exact hI'.deref hobj hd (TransportObject.mem_refs.mpr (Or.inr (Or.inr hc.rBuf))) hK hc.deref_rBuf

theorem contents_read (hI : Inv D w) (hc : w.HasContents b o rs rw rr c)
    (hd : o.destructorCalled = true → D = true) (s : ZendString) (pos : Int64) :
    (readWorld w b o s pos).contents b = some { c with rBufPos := pos } := by
  have hI' := inv_read hI hc.obj s pos
  have hK : w.Keeps (readWorld w b o s pos) := keeps_newString w none s
  have hobj : (readWorld w b o s pos).objs b = some { o with rBufPos := pos } := setObj_self _ _ _
  refine contents_eq_some.mpr ⟨_, rs, rw, rr,
    ⟨hobj, hc.serviceName, hc.wBuf, hc.rBuf, rfl, ?_, ?_, ?_⟩⟩
  · exact hI'.deref hobj hd (TransportObject.mem_refs.mpr (Or.inl hc.serviceName)) hK
      hc.deref_serviceName
  · exact hI'.deref hobj hd (TransportObject.mem_refs.mpr (Or.inr (Or.inl hc.wBuf))) hK hc.deref_wBuf
  · exact hI'.deref hobj hd (TransportObject.mem_refs.mpr (Or.inr (Or.inr hc.rBuf))) hK hc.deref_rBuf

theorem contents_flushed (hI : Inv D w) (hc : w.HasContents b o rs rw rr c)
    (hd : o.destructorCalled = true → D = true) (e : ε) (q : Asked) (s : ZendString) :
    (flushedWorld w b o rw rr e q s).contents b =
      some { c with wBuf := .empty, rBuf := s, rBufPos := 0 } := by
  have hI' := inv_flushed hI hc.obj hd hc.wBuf hc.rBuf e q s
  have hobj : (flushedWorld w b o rw rr e q s).objs b = some (flushed o w.heap.next) := by
    rw [flushedWorld_objs, Function.update_self]
  have hK : ((w.dropRef (some b) rr).newString (some b) s).Keeps (flushedWorld w b o rw rr e q s) := by
    intro a t ht
    rw [flushedWorld_heap]
    exact keeps_dropRef _ _ _ a t ht
  refine contents_eq_some.mpr ⟨_, rs, emptyAlloc, .counted w.heap.next,
    ⟨hobj, hc.serviceName, rfl, rfl, rfl, ?_, rfl, ?_⟩⟩
  · exact hI'.deref hobj hd (TransportObject.mem_refs.mpr (Or.inl hc.serviceName))
      (keeps_flushed w b o rw rr e q s) hc.deref_serviceName
  · refine hI'.deref hobj hd (TransportObject.mem_refs.mpr (Or.inr (Or.inr rfl))) hK ?_
    have := deref_newString_self (w.dropRef (some b) rr) (some b) s
    rwa [dropRef_next] at this

/-! ## `flush` as a call -/

/-- **What a flush can be**, by what the executor answers. -/
theorem flush_cases {Z : ZendApi} {exec : Executor ε} {this : ℕ} {a : Answer} {e : ε}
    (hI : Inv D w) (hc : w.unasked.HasContents (fetchObject this) o rs rw rr c)
    (hd : o.destructorCalled = true → D = true)
    (he : exec w.unasked.core c.serviceName.val c.wBuf.val = (a, e)) :
    let b := fetchObject this
    let q : Asked := ⟨c.serviceName.val, c.wBuf.val, a⟩
    let r := runMethod w this .flush (flush Z exec this)
    (a.reply = .null ∧
        r = (answered w.unasked e q, ⟨b, .flush, some q, .returned (.raised .rpcFailed)⟩)) ∨
      (a.reply = .unwound ∧
        r = ({ answered w.unasked e q with alive := decide (Stop.unwound = .bailout) },
          ⟨b, .flush, some q, .stopped .unwound⟩)) ∨
      ∃ bytes, a.reply = .response bytes ∧
        ((Z.grant w.unasked.heap.next bytes.length = false ∧ r.2.call = .flush ∧ r.2.intern = b ∧
            r.2.outcome = .stopped .bailout) ∨
          Z.grant w.unasked.heap.next bytes.length = true ∧ ∃ s : ZendString, s.val = bytes ∧
            r = (flushedWorld w.unasked b o rw rr e q s, ⟨b, .flush, some q, .returned .null⟩)) := by
  intro b q r
  cases ha : a.reply with
  | null =>
      have hm := flush_null (Z := Z) hc.obj hc.wBuf hc.serviceName hc.deref_wBuf
        hc.deref_serviceName he ha
      exact Or.inl ⟨rfl, runMethod_ok _ hm⟩
  | unwound =>
      have hm := flush_unwound (Z := Z) hc.obj hc.wBuf hc.serviceName hc.deref_wBuf
        hc.deref_serviceName he ha
      exact Or.inr (Or.inl ⟨rfl, runMethod_error _ hm⟩)
  | response bytes =>
      refine Or.inr (Or.inr ⟨bytes, rfl, ?_⟩)
      cases hg : Z.grant w.unasked.heap.next bytes.length with
      | false =>
          have hm := flush_refused hc.obj hc.wBuf hc.serviceName hc.rBuf hc.deref_wBuf
            hc.deref_serviceName hc.deref_rBuf he ha hg
          have hr : r = _ := runMethod_error _ hm
          rw [hr]
          exact Or.inl ⟨rfl, rfl, rfl, rfl⟩
      | true =>
          have hp := deref_wBuf_dropRef hI.unasked hc.obj hd hc.wBuf hc.rBuf hc.deref_wBuf
          have hm := flush_run hc.obj hc.wBuf hc.serviceName hc.rBuf hc.deref_wBuf
            hc.deref_serviceName hc.deref_rBuf hp he ha hg
          have hr : r = _ := runMethod_ok _ hm
          rw [(flushedWorld_core _ _ _ _ _ _ _ _).2] at hr
          exact Or.inr ⟨rfl, _, rfl, hr⟩

end ThriftBridge

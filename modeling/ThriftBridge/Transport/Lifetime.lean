import ThriftBridge.Transport.Invariant

/-!
# The lifetime of the fields

* `Live w`: every object, destroyed or not, holds exactly one reference on each counted string it
  points to;
* `harmless`: the events that keep it so; `settled_*`: what each event does to it;
* `live_iff_harmless`: the fields stay live along a run, and no released string is ever followed,
  exactly if all its events are harmless.
-/

set_option autoImplicit false

namespace ThriftBridge

open RefCount World Machine

variable {ε : Type} {Z : ZendApi} {exec : Executor ε} {w v : World ε} {b this : ℕ}
  {o : TransportObject}

/-- The object in block `b` holds exactly one reference on each counted string it points to. -/
def World.Exact (w : World ε) (b : ℕ) (o : TransportObject) : Prop :=
  ∀ a, .counted a ∈ o.refs → w.ledger (some b) a = 1

/-- The fields of all objects are live. -/
def World.Live (w : World ε) : Prop := ∀ b o, w.objs b = some o → w.Exact b o

/-- A string that is not counted. -/
def StrRef.isInterned : StrRef → Bool
  | .interned _ => true
  | .counted _ => false

/-- An object is constructed with a string that it does not hold already. The copy of a response is
granted, unless the old read buffer is not counted. The destructor handler is called on an object
that holds nothing. -/
def harmless (Z : ZendApi) (exec : Executor ε) (w : World ε) : Event → Bool
  | .construct this (some (.counted a)) => w.ledger (some (fetchObject this)) a = 0
  | .flush this =>
    match w.objs (fetchObject this) with
    | none => true
    | some o =>
      match o.serviceName.bind w.deref, o.wBuf.bind w.deref, o.rBuf with
      | some n, some p, some (.counted _) =>
        match (exec w.core n.val p.val).1.reply with
        | .response r => Z.grant w.heap.next r.length
        | _ => true
      | _, _, _ => true
  | .dtorObject object =>
    match w.objs (fetchObject object) with
    | none => true
    | some o => o.refs.all StrRef.isInterned
  | _ => true

/-! ## Live fields -/

theorem live_of_same (hL : w.Live) (hled : ∀ b a, v.ledger (some b) a = w.ledger (some b) a)
    (hobjs : v.objs = w.objs) : v.Live := by
  intro b o ho a ha
  rw [hobjs] at ho
  rw [hled]
  exact hL b o ho a ha

/-- **Frame.** After an event on one object the fields are live if those of that object are. -/
theorem live_iff_exact {o' : TransportObject} (hL : w.Live)
    (hobjs : v.objs = Function.update w.objs b (some o'))
    (hled : ∀ b' ≠ b, ∀ a, v.ledger (some b') a = w.ledger (some b') a) :
    v.Live ↔ v.Exact b o' := by
  constructor
  · intro hv
    exact hv b o' (by rw [hobjs, Function.update_self])
  · intro hE c p hp
    rw [hobjs] at hp
    by_cases hc : c = b
    · subst hc
      rw [Function.update_self] at hp
      cases hp
      exact hE
    · rw [Function.update_of_ne hc] at hp
      intro a ha
      rw [hled c hc]
      exact hL c p hp a ha

/-- The fields of an object point to different counted strings. -/
theorem World.Exact.count_le (hE : w.Exact b o) (hown : w.Owns b o) (a : ℕ) :
    o.refs.count (.counted a) ≤ 1 := by
  by_cases ha : StrRef.counted a ∈ o.refs
  · have h1 := hown a
    rw [hE a ha] at h1
    omega
  · rw [List.count_eq_zero_of_not_mem ha]
    omega

theorem World.Exact.ne_next (hE : w.Exact b o) (hB : w.Balanced) {r : StrRef} (hr : r ∈ o.refs) :
    r ≠ .counted w.heap.next := by
  rintro rfl
  have h1 := hE _ hr
  rw [ledger_next hB] at h1
  cases h1

theorem exact_constructed_iff (w : World ε) (b : ℕ) (o : TransportObject) (r : StrRef) :
    (constructedWorld w b o r).Exact b (constructed o r) ↔
      ∀ a, r = .counted a → w.ledger (some b) a = 0 := by
  unfold World.Exact
  refine forall_congr' fun a => ?_
  have hmem : StrRef.counted a ∈ (constructed o r).refs ↔ r = .counted a := by
    simp [TransportObject.mem_refs, constructed, emptyAlloc]
  rw [hmem, constructedWorld, setObj_ledger, takeRef_ledger]
  refine forall_congr' fun hr => ?_
  rw [if_pos hr]
  omega

/-- `write` exchanges the reference on the old buffer for the one on the new. -/
theorem exact_wrote {rw : StrRef} (hE : w.Exact b o) (hown : w.Owns b o) (hB : w.Balanced)
    (hw : o.wBuf = some rw) (s : ZendString) :
    (wroteWorld w b o rw s).Exact b { o with wBuf := some (.counted w.heap.next) } := by
  intro a ha
  have hrw : rw ∈ o.refs := TransportObject.mem_refs.mpr (Or.inr (Or.inl hw))
  rw [wroteWorld, setObj_ledger, dropRef_ledger, newString_ledger]
  by_cases hnext : w.heap.next = a
  · subst hnext
    rw [ledger_next hB, if_pos rfl, if_neg (hE.ne_next hB hrw)]
    rfl
  · have hmem : o.serviceName = some (.counted a) ∨ o.rBuf = some (.counted a) := by
      simpa [TransportObject.mem_refs, hnext] using ha
    have hle := hE.count_le hown a
    have hrw' : rw ≠ .counted a := by
      rintro rfl
      rw [TransportObject.count_refs, hw] at hle
      rcases hmem with h | h <;> simp only [h, if_true] at hle <;> omega
    rw [hE a (TransportObject.mem_refs.mpr (by tauto)), if_neg hnext, if_neg hrw']
    rfl

theorem exact_flushed {rw rr : StrRef} (hE : w.Exact b o) (hown : w.Owns b o) (hB : w.Balanced)
    (hw : o.wBuf = some rw) (hr : o.rBuf = some rr) (e : ε) (q : Asked) (s : ZendString) :
    (flushedWorld w b o rw rr e q s).Exact b (flushed o w.heap.next) := by
  intro a ha
  have hrw : rw ∈ o.refs := TransportObject.mem_refs.mpr (Or.inr (Or.inl hw))
  have hrr : rr ∈ o.refs := TransportObject.mem_refs.mpr (Or.inr (Or.inr hr))
  rw [flushedWorld_ledger, dropRef_ledger, newString_ledger, dropRef_ledger, dropRef_next]
  by_cases hnext : w.heap.next = a
  · subst hnext
    rw [ledger_next hB, if_pos rfl, if_neg (hE.ne_next hB hrw), if_neg (hE.ne_next hB hrr)]
    rfl
  · have hs : o.serviceName = some (.counted a) := by
      simpa [TransportObject.mem_refs, flushed, emptyAlloc, hnext] using ha
    have hle := hE.count_le hown a
    rw [TransportObject.count_refs, hs, hw, hr, if_pos rfl] at hle
    rw [hE a (TransportObject.mem_refs.mpr (Or.inl hs)), if_neg hnext]
    simp only [Option.some.injEq] at hle
    split_ifs at hle ⊢ <;> omega

/-- An object holds nothing if its strings are all interned. -/
theorem all_isInterned_iff : o.refs.all StrRef.isInterned = true ↔ ∀ a, .counted a ∉ o.refs := by
  rw [List.all_eq_true]
  constructor
  · intro h a ha
    cases h _ ha
  · rintro h (s | a) hr
    · rfl
    · exact absurd hr (h a)

/-- The destructor handler leaves a field without its reference. -/
theorem exact_dtor_iff (hE : w.Exact b o) :
    (dtorWorld w b o).Exact b o ↔ o.refs.all StrRef.isInterned = true := by
  rw [all_isInterned_iff]
  unfold World.Exact
  refine forall_congr' fun a => ⟨fun h ha => ?_, fun h ha => absurd ha h⟩
  have hpos := List.count_pos_iff.mpr ha
  have h1 := h ha
  rw [dtorWorld_ledger, hE a ha] at h1
  omega

/-- A live field can be followed. -/
theorem World.Inv.exists_deref {r : StrRef} (hI : Inv true w) (ho : w.objs b = some o)
    (hr : r ∈ o.refs) : ∃ s, w.deref r = some s :=
  World.exists_deref hI.books ((hI.owns b o ho fun _ => rfl).holds hr)

/-! ## Events -/

/-- No released string was followed, and if and only if `h`, the fields are live. -/
def Settled (r : World ε × Label) (h : Bool) : Prop :=
  r.2.outcome ≠ .stopped .useAfterFree ∧ (r.1.Live ↔ h = true) ∧ (h = true → Inv true r.1)

theorem settled_same {call : Call} {m : CM ε Ret} (hI : Inv true w) (hL : w.Live)
    (hm : (∃ r, m w.unasked = .ok r v) ∨ ∃ e, e ≠ .useAfterFree ∧ m w.unasked = .error e v)
    (hheap : v.heap = w.heap) (hled : v.ledger = w.ledger) (hobjs : v.objs = w.objs)
    (hbrk : v.brk = w.brk) : Settled (runMethod w this call m) true := by
  rcases hm with ⟨r, hr⟩ | ⟨e, he, hr⟩
  · rw [runMethod_ok call hr]
    exact ⟨by simp, iff_of_true (live_of_same hL (by simp [hled]) hobjs) rfl,
      fun _ => hI.of_same hheap hled hobjs hbrk⟩
  · rw [runMethod_error call hr]
    exact ⟨by simpa using he, iff_of_true (live_of_same hL (by simp [hled]) hobjs) rfl,
      fun _ => hI.of_same hheap hled hobjs hbrk⟩

/-- An event on the object in block `b`, which becomes `o'`. -/
theorem settled_ok {o' : TransportObject} {call : Call} {m : CM ε Ret} {r : Ret} {h : Bool}
    (hL : w.Live) (hm : m w.unasked = .ok r v)
    (hobjs : v.objs = Function.update w.objs b (some o'))
    (hled : ∀ b' ≠ b, ∀ a, v.ledger (some b') a = w.ledger (some b') a)
    (hE : v.Exact b o' ↔ h = true) (hI : h = true → Inv true v) :
    Settled (runMethod w this call m) h := by
  rw [runMethod_ok call hm]
  exact ⟨by simp, (live_iff_exact hL hobjs hled).trans hE, hI⟩

theorem settled_construct {arg : Option StrRef} (hI : Inv true w) (hL : w.Live)
    (ho : w.objs (fetchObject this) = some o) (hh : w.holdsArg arg = true) :
    Settled (runMethod w this (.construct (w.argBytes arg)) (construct this arg))
      (harmless Z exec w (.construct this arg)) := by
  cases arg with
  | none => exact settled_same hI hL (Or.inl ⟨_, construct_rejected this _⟩) rfl rfl rfl rfl
  | some r =>
      obtain ⟨hr, s, hs, -⟩ := exists_argBytes hI.books hh
      set b := fetchObject this with hb
      refine settled_ok hL (construct_run (w := w.unasked) ho hs)
        (constructedWorld_objs _ _ _ _) ?_ ?_ fun _ => inv_constructed hI.unasked ho hr
      · intro b' hb' a
        rw [constructedWorld, setObj_ledger, takeRef_ledger_of_ne _ _ (by simpa using hb')]
        rfl
      · rw [exact_constructed_iff]
        cases r with
        | interned s => simp [harmless]
        | counted i => simp [harmless, World.unasked]

theorem settled_write {arg : Option StrRef} (hI : Inv true w) (hL : w.Live)
    (ho : w.objs (fetchObject this) = some o) (hh : w.holdsArg arg = true) :
    Settled (runMethod w this (.write (w.argBytes arg)) (write Z this arg)) true := by
  cases arg with
  | none => exact settled_same hI hL (Or.inl ⟨_, write_rejected Z this _⟩) rfl rfl rfl rfl
  | some r =>
      obtain ⟨-, s, hs, -⟩ := exists_argBytes hI.books hh
      have hu : w.unasked.objs (fetchObject this) = some o := ho
      cases hw : o.wBuf with
      | none =>
          exact settled_same hI hL (Or.inr ⟨_, by decide, write_null hu hw⟩) rfl rfl rfl rfl
      | some rw =>
          have hmem : rw ∈ o.refs := TransportObject.mem_refs.mpr (Or.inr (Or.inl hw))
          obtain ⟨p, hp⟩ := hI.unasked.exists_deref hu hmem
          cases hg : Z.grant w.unasked.heap.next (p.val ++ s.val).length with
          | false =>
              exact settled_same hI hL (Or.inr ⟨_, by decide, write_refused hu hw hp hs hg⟩)
                rfl rfl rfl rfl
          | true =>
              refine settled_ok hL (write_run hu hw hp hs hg) (wroteWorld_objs _ _ _ _ _) ?_ ?_
                fun _ => inv_wrote hI.unasked hu (by simp) hw _
              · intro b' hb' a
                rw [wroteWorld, setObj_ledger, dropRef_ledger_of_ne _ _ (by simpa using hb'),
                  newString_ledger_of_ne _ _ (by simpa using hb')]
                rfl
              · exact iff_of_true (exact_wrote (w := w.unasked) (hL _ _ ho)
                  (hI.unasked.owns _ o ho (by simp)) hI.unasked.books hw _) rfl

theorem settled_read {arg : Option Int64} (hI : Inv true w) (hL : w.Live)
    (ho : w.objs (fetchObject this) = some o) :
    Settled (runMethod w this (.read arg) (read Z this arg)) true := by
  cases arg with
  | none => exact settled_same hI hL (Or.inl ⟨_, read_rejected Z this _⟩) rfl rfl rfl rfl
  | some len =>
      have hu : w.unasked.objs (fetchObject this) = some o := ho
      cases hr : o.rBuf with
      | none => exact settled_same hI hL (Or.inl ⟨_, read_closed len hu hr⟩) rfl rfl rfl rfl
      | some rr =>
          obtain ⟨t, ht⟩ := hI.unasked.exists_deref hu
            (TransportObject.mem_refs.mpr (Or.inr (Or.inr hr)))
          rcases read_cases Z len hu hr ht with ⟨e, he, hm⟩ | ⟨r, hm⟩ | ⟨r, s, hm⟩
          · refine settled_same hI hL (Or.inr ⟨e, ?_, hm⟩) rfl rfl rfl rfl
            rcases he with rfl | rfl <;> decide
          · exact settled_same hI hL (Or.inl ⟨r, hm⟩) rfl rfl rfl rfl
          · have hled : ∀ pos b a, (readWorld w.unasked (fetchObject this) o s pos).ledger
                (some b) a = w.ledger (some b) a := by
              intro pos b a
              rw [readWorld, setObj_ledger, newString_ledger_of_ne _ _ (by simp)]
              rfl
            refine settled_ok hL hm (readWorld_objs _ _ _ _ _) (fun b _ a => hled _ b a)
              (iff_of_true ?_ rfl) fun _ => inv_read hI.unasked hu s _
            intro a ha
            rw [hled]
            exact hL _ o ho a ha

/-- The response cannot be copied: the field is left with the reference given back, unless it is not
counted. -/
theorem settled_flush_refused {e : ε} {q : Asked} {bytes : Bytes} {rr : StrRef} (hI : Inv true w)
    (hL : w.Live) (ho : w.objs (fetchObject this) = some o) (hr : o.rBuf = some rr)
    (hm : flush Z exec this w.unasked =
      .error .bailout (released w.unasked (fetchObject this) rr e q bytes)) :
    Settled (runMethod w this .flush (flush Z exec this)) rr.isInterned := by
  set b := fetchObject this with hb
  cases rr with
  | interned s =>
      exact settled_same hI hL (Or.inr ⟨.bailout, by decide, hm⟩) rfl rfl rfl rfl
  | counted a =>
      rw [runMethod_error _ hm]
      refine ⟨by simp, ⟨fun hv => ?_, fun h => by cases h⟩, fun h => by cases h⟩
      have hmem : StrRef.counted a ∈ o.refs := TransportObject.mem_refs.mpr (Or.inr (Or.inr hr))
      have h1 : (w.dropRef (some b) (.counted a)).ledger (some b) a = 1 := hv b o ho a hmem
      rw [dropRef_ledger, if_pos rfl, hL b o ho a hmem] at h1
      cases h1

/-- When a flush that gets as far as the executor is harmless. -/
theorem harmless_flush {rs rw : StrRef} {n p : ZendString} (ho : w.objs (fetchObject this) = some o)
    (hw : o.wBuf = some rw) (hn : o.serviceName = some rs) (hp : w.unasked.deref rw = some p)
    (hs : w.unasked.deref rs = some n) : harmless Z exec w (.flush this) =
      match o.rBuf, (exec w.core n.val p.val).1.reply with
      | some (.counted _), .response r => Z.grant w.heap.next r.length
      | _, _ => true := by
  rw [deref_unasked] at hp hs
  simp only [harmless, ho, hw, hn, Option.bind_some, hp, hs]
  cases o.rBuf with
  | none => rfl
  | some rr =>
      cases rr with
      | interned => rfl
      | counted => cases hr : (exec w.core n.val p.val).1.reply <;> simp only [hr]

theorem settled_flush (hI : Inv true w) (hL : w.Live) (ho : w.objs (fetchObject this) = some o) :
    Settled (runMethod w this .flush (flush Z exec this)) (harmless Z exec w (.flush this)) := by
  have hu : w.unasked.objs (fetchObject this) = some o := ho
  have hderef : ∀ r, o.serviceName = some r ∨ o.wBuf = some r ∨ o.rBuf = some r →
      ∃ s, w.unasked.deref r = some s := fun r hr =>
    hI.unasked.exists_deref hu (TransportObject.mem_refs.mpr hr)
  by_cases hnull : o.wBuf = none ∨ o.serviceName = none
  · have hh : harmless Z exec w (.flush this) = true := by
      rcases hnull with h | h <;> simp [harmless, ho, h]
    rw [hh]
    exact settled_same hI hL (Or.inr ⟨_, by decide, flush_unconstructed hu
      (fun rw hw => hderef rw (Or.inr (Or.inl hw))) hnull⟩) rfl rfl rfl rfl
  rw [not_or] at hnull
  obtain ⟨rw, hw⟩ := Option.ne_none_iff_exists'.mp hnull.1
  obtain ⟨rs, hn⟩ := Option.ne_none_iff_exists'.mp hnull.2
  obtain ⟨p, hp⟩ := hderef rw (Or.inr (Or.inl hw))
  obtain ⟨n, hs⟩ := hderef rs (Or.inl hn)
  rw [harmless_flush ho hw hn hp hs]
  obtain ⟨⟨a, e⟩, he⟩ : ∃ r, exec w.unasked.core n.val p.val = r := ⟨_, rfl⟩
  have he' : exec w.core n.val p.val = (a, e) := he
  rw [he']
  cases ha : a.reply with
  | null =>
      have hm := flush_null (Z := Z) hu hw hn hp hs he ha
      have hset : Settled (runMethod w this .flush (flush Z exec this)) true :=
        settled_same hI hL (Or.inl ⟨_, hm⟩) rfl rfl rfl rfl
      rcases o.rBuf with _ | _ | _ <;> exact hset
  | unwound =>
      have hm := flush_unwound (Z := Z) hu hw hn hp hs he ha
      have hset : Settled (runMethod w this .flush (flush Z exec this)) true :=
        settled_same hI hL (Or.inr ⟨_, by decide, hm⟩) rfl rfl rfl rfl
      rcases o.rBuf with _ | _ | _ <;> exact hset
  | response bytes =>
      cases hr : o.rBuf with
      | none =>
          have hm := flush_unbuffered (Z := Z) hu hw hn hr hp hs he ha
          exact settled_same hI hL (Or.inr ⟨_, by decide, hm⟩) rfl rfl rfl rfl
      | some rr =>
          obtain ⟨t, ht⟩ := hderef rr (Or.inr (Or.inr hr))
          cases hg : Z.grant w.unasked.heap.next bytes.length with
          | false =>
              have hm := flush_refused hu hw hn hr hp hs ht he ha hg
              have hset := settled_flush_refused hI hL ho hr hm
              cases rr with
              | interned => exact hset
              | counted =>
                  change Settled _ (Z.grant w.unasked.heap.next bytes.length)
                  rw [hg]
                  exact hset
          | true =>
              have hp' := deref_wBuf_dropRef hI.unasked hu (by simp) hw hr hp
              have hm := flush_run hu hw hn hr hp hs ht hp' he ha hg
              have hset : Settled (runMethod w this .flush (flush Z exec this)) true := by
                refine settled_ok hL hm (flushedWorld_objs _ _ _ _ _ _ _ _) ?_ (iff_of_true ?_ rfl)
                  fun _ => inv_flushed hI.unasked hu (by simp) hw hr e _ _
                · intro b' hb' a
                  rw [flushedWorld_ledger, dropRef_ledger_of_ne _ _ (by simpa using hb'),
                    newString_ledger_of_ne _ _ (by simpa using hb'),
                    dropRef_ledger_of_ne _ _ (by simpa using hb')]
                  rfl
                · exact exact_flushed (w := w.unasked) (hL _ o ho) (hI.owns _ o ho fun _ => rfl)
                    hI.unasked.books hw hr e _ _
              cases rr with
              | interned => exact hset
              | counted =>
                  change Settled _ (Z.grant w.unasked.heap.next bytes.length)
                  rw [hg]
                  exact hset

theorem settled_dtorObject {object : ℕ} (hI : Inv true w) (hL : w.Live)
    (ho : w.objs (fetchObject object) = some o) :
    Settled (runMethod (w.flagged (fetchObject object) o) object .dtorObject (dtorObject object))
      (o.refs.all StrRef.isInterned) := by
  set b := fetchObject object with hb
  have hown : w.Owns b o := hI.owns b o ho fun _ => rfl
  obtain ⟨hrun, hB⟩ := dtorObject_run (w := w.unasked.flagged b o) object
    hI.unasked.books (setObj_self _ _ _) (owns_flagged hown)
  have hled : ∀ b' ≠ b, ∀ a, (dtorWorld (w.unasked.flagged b o) b
      { o with destructorCalled := true }).ledger (some b') a = w.ledger (some b') a := by
    intro b' hb' a
    rw [dtorWorld_ledger_of_ne _ _ (by simpa using hb')]
    rfl
  rw [runMethod_ok (w := w.flagged b o) _ hrun]
  refine ⟨by simp, ?_, fun h => ?_⟩
  · rw [live_iff_exact hL (dtorWorld_objs _ _ _) hled]
    exact exact_dtor_iff (w := w.unasked.flagged b o) (hL b o ho)
  · refine hI.unasked.of_update hB ho (dtorWorld_objs _ _ _) (dtorWorld_brk _ _ _) hled fun _ a => ?_
    have h1 := hown a
    have h2 : (dtorWorld (w.unasked.flagged b o) b { o with destructorCalled := true }).ledger
        (some b) a = w.ledger (some b) a - (o.refs.count (.counted a) : ℤ) :=
      dtorWorld_ledger _ _ _ a
    rw [h2]
    have h3 : o.refs.count (.counted a) = 0 := List.count_eq_zero.mpr (all_isInterned_iff.mp h a)
    change (o.refs.count (.counted a) : ℤ) ≤ _
    omega

/-- An event that leaves the objects and their references alone. -/
theorem settled_frame {l : Label} (hI : Inv true v) (hL : w.Live)
    (hled : ∀ b a, v.ledger (some b) a = w.ledger (some b) a) (hobjs : v.objs = w.objs)
    (hl : l.outcome = .returned .null) : Settled (v, l) true :=
  ⟨by simp [hl], iff_of_true (live_of_same hL hled hobjs) rfl, fun _ => hI⟩

theorem settled_createObject (hI : Inv true w) (hL : w.Live) (n : ℕ) {l : Label}
    (hl : l.outcome = .returned .null) : Settled ((createObject n w).1, l) true := by
  refine ⟨by simp [hl], iff_of_true ?_ rfl, fun _ => inv_createObject hI n⟩
  refine (live_iff_exact (v := (createObject n w).1) hL rfl fun _ _ _ => rfl).mpr ?_
  intro a ha
  simp [TransportObject.mem_refs] at ha

theorem settled_freeObject {object : ℕ} (hI : Inv true w) (hL : w.Live) {l : Label}
    (hl : l.outcome = .returned .null) : Settled (freeObject Z object w, l) true := by
  refine ⟨by simp [hl], iff_of_true (fun c p hp => ?_) rfl, fun _ => inv_freeObject hI⟩
  have hc : c ≠ fetchObject object := by
    rintro rfl
    simp [freeObject] at hp
  simp only [freeObject, Function.update_of_ne hc] at hp
  exact hL c p hp

/-- **One event.** -/
theorem settled_step {ev : Event} {r : World ε × Label} (hI : Inv true w) (hL : w.Live)
    (hs : engineStep Z exec w ev = some r) : Settled r (harmless Z exec w ev) := by
  replace hs := engineStep_eq_some hs
  cases ev with
  | createObject n =>
      cases hs
      exact settled_createObject hI hL n rfl
  | construct this arg =>
      obtain ⟨⟨o, ho⟩, hh, rfl⟩ := hs
      exact settled_construct hI hL ho hh
  | isOpen this | open' this | close this =>
      cases hs
      exact settled_same hI hL (Or.inl ⟨_, rfl⟩) rfl rfl rfl rfl
  | write this arg =>
      obtain ⟨⟨o, ho⟩, hh, rfl⟩ := hs
      exact settled_write hI hL ho hh
  | read this arg =>
      obtain ⟨⟨o, ho⟩, rfl⟩ := hs
      exact settled_read hI hL ho
  | flush this =>
      obtain ⟨⟨o, ho⟩, rfl⟩ := hs
      exact settled_flush hI hL ho
  | dtorObject object =>
      obtain ⟨o, ho, -, rfl⟩ := hs
      have hh : harmless Z exec w (.dtorObject object) = o.refs.all StrRef.isInterned := by
        simp only [harmless, ho]
      rw [hh]
      exact settled_dtorObject hI hL ho
  | freeObject object =>
      obtain ⟨o, -, -, rfl⟩ := hs
      exact settled_freeObject hI hL rfl
  | newString s =>
      cases hs
      exact settled_frame (inv_newString hI s) hL
        (fun _ a => newString_ledger_of_ne w s (by simp) a) rfl rfl
  | copyString a =>
      obtain ⟨ha, rfl⟩ := hs
      exact settled_frame (inv_takeRef hI ha) hL
        (fun _ a => takeRef_ledger_of_ne w _ (by simp) a) (takeRef_objs w _ _) rfl
  | dropString a =>
      obtain ⟨ha, rfl⟩ := hs
      exact settled_frame (inv_dropRef hI ha) hL
        (fun _ a => dropRef_ledger_of_ne w _ (by simp) a) (dropRef_objs w _ _) rfl

/-! ## Runs -/

/-- **The fields of every object stay live, and no released string is followed**, if and only if
all events are harmless. -/
theorem live_iff_harmless (Z : ZendApi) (exec : Executor ε) (core : ε) {w : World ε}
    {ms : List (Move (World ε) Event Label)} (hr : (engine Z exec).Runs (World.init core) ms w) :
    (∀ m ∈ ms, m.post.Live ∧ m.output.outcome ≠ .stopped .useAfterFree) ↔
      ∀ m ∈ ms, harmless Z exec m.pre m.input = true := by
  refine hr.forall_iff (fun w => Inv true w ∧ w.Live) (fun w ev => harmless Z exec w ev = true)
    _ ?_ ?_ ⟨inv_init true core, fun b o ho => by cases ho⟩
  · rintro w ev l w' ⟨hI, hL⟩ hs
    obtain ⟨h1, h2, -⟩ := settled_step hI hL hs
    exact ⟨fun h => h2.mp h.1, fun h => ⟨h2.mpr h, h1⟩⟩
  · rintro w ev l w' ⟨hI, hL⟩ hh hs
    obtain ⟨-, h2, h3⟩ := settled_step hI hL hs
    exact ⟨h3 hh, h2.mpr hh⟩

/-- An executor that returns the request. -/
def echo : Executor Unit := fun _ _ request => (⟨.response request, none⟩, ())

/-- A call, its response read in two parts, and the next request begun. -/
theorem live_one_call :
    ∃ w ms, (engine .unlimited echo).Runs (World.init ()) ms w ∧
      ms.map Move.input = [.createObject 0, .construct 4128 (some (zstrChar 7)),
        .write 4128 (some (zstrChar 1)), .write 4128 (some (zstrChar 2)), .flush 4128,
        .read 4128 (some 1), .read 4128 (some 1), .write 4128 (some (zstrChar 3))] ∧
      ∀ m ∈ ms, m.post.Live ∧ m.output.outcome ≠ .stopped .useAfterFree := by
  obtain ⟨w, ms, hr, hin, hg⟩ := Runs.exists_of_inputs (engine .unlimited echo) (World.init ())
    [.createObject 0, .construct 4128 (some (zstrChar 7)), .write 4128 (some (zstrChar 1)),
      .write 4128 (some (zstrChar 2)), .flush 4128, .read 4128 (some 1), .read 4128 (some 1),
      .write 4128 (some (zstrChar 3))]
    (fun r => r.2.all fun m => harmless .unlimited echo m.pre m.input) rfl
  exact ⟨w, ms, hr, hin, (live_iff_harmless _ _ _ hr).mpr (List.all_eq_true.mp hg)⟩

/-- A `write` after the destructor handler follows the released write buffer. -/
theorem write_after_dtor :
    ∃ w ms, (engine .unlimited echo).Runs (World.init ()) ms w ∧
      ms.map Move.input = [.createObject 0, .construct 4128 (some (zstrChar 7)),
        .write 4128 (some (zstrChar 1)), .dtorObject 4128, .write 4128 (some (zstrChar 2))] ∧
      ms.map (fun m => m.output.outcome) =
        [.returned .null, .returned .null, .returned .null, .returned .null,
          .stopped .useAfterFree] ∧
      ¬ ∀ m ∈ ms, m.post.Live ∧ m.output.outcome ≠ .stopped .useAfterFree := by
  obtain ⟨w, ms, hr, hin, hg⟩ := Runs.exists_of_inputs (engine .unlimited echo) (World.init ())
    [.createObject 0, .construct 4128 (some (zstrChar 7)), .write 4128 (some (zstrChar 1)),
      .dtorObject 4128, .write 4128 (some (zstrChar 2))]
    (fun r => decide (r.2.map (fun m => m.output.outcome) =
      [.returned .null, .returned .null, .returned .null, .returned .null,
        .stopped .useAfterFree])) rfl
  have hout := of_decide_eq_true hg
  refine ⟨w, ms, hr, hin, hout, fun hall => ?_⟩
  have hmem : Outcome.stopped .useAfterFree ∈ ms.map fun m => m.output.outcome := by
    rw [hout]
    simp
  obtain ⟨m, hm, hstop⟩ := List.mem_map.mp hmem
  exact (hall m hm).2 hstop

end ThriftBridge

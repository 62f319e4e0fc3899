import ThriftBridge.Transport.Queues

/-!
# The objects refine the queues

* `Shows w b Q`: the object in block `b` shows the queue `Q`, or no queue;
* `Refines w q`: every object of `w` shows its queue in `q`;
* `simulated_*`: what every event does to the queues;
* `transport_refines_queues`: the refinement, over runs.
-/

set_option autoImplicit false

namespace ThriftBridge

open RefCount World Machine

variable {ε : Type}

/-! ## The relation -/

/-- The queue in the strings of an object. -/
def World.Contents.queue (c : Contents) : Queue :=
  ⟨c.serviceName.val, c.wBuf.val, unread c.rBuf c.rBufPos⟩

/-- The object in block `b` shows `Q`: it is constructed, and its strings hold the queue. An object
that shows no queue is not constructed, destroyed, or not there. -/
def World.Shows (w : World ε) (b : ℕ) : Option Queue → Prop
  | none => ∀ o, w.objs b = some o → o.destructorCalled = false → o.serviceName = none
  | some Q => ∃ o rs rw rr c, w.HasContents b o rs rw rr c ∧ o.destructorCalled = false ∧
      InBuffer c.rBufPos c.rBuf ∧ c.queue = Q

/-- The objects of `w` show the queues of `q`. -/
structure Refines (w : World ε) (q : Queues ε) : Prop where
  inv : Inv false w
  core : w.core = q.core
  shows : ∀ b, w.Shows b (q.queue b)

variable {w v : World ε} {q : Queues ε} {b : ℕ}

theorem refines_init (core : ε) : Refines (World.init core) (Queues.init core) where
  inv := inv_init false core
  core := rfl
  shows b o ho := by cases ho

theorem World.shows_of_contents {o : TransportObject} {c : Contents} (ho : w.objs b = some o)
    (hd : o.destructorCalled = false) (hc : w.contents b = some c)
    (hp : InBuffer c.rBufPos c.rBuf) : w.Shows b (some c.queue) := by
  obtain ⟨o', rs, rw, rr, h⟩ := contents_eq_some.mp hc
  have : o = o' := Option.some.inj (ho.symm.trans h.obj)
  subst this
  exact ⟨o, rs, rw, rr, c, h, hd, hp, rfl⟩

/-- **Frame.** An object that is not touched shows the queue it showed. -/
theorem World.Shows.frame {Q : Option Queue} (hI : Inv false v) (hK : w.Keeps v)
    (hobj : v.objs b = w.objs b) (hS : w.Shows b Q) : v.Shows b Q := by
  cases Q with
  | none => exact fun o ho hd => hS o (hobj.symm.trans ho) hd
  | some Q =>
      obtain ⟨o, rs, rw, rr, c, hc, hd, hp, rfl⟩ := hS
      have hv : v.contents b = some c := by
        refine contents_frame hI hK hobj ?_ (contents_eq_some.mpr ⟨o, rs, rw, rr, hc⟩)
        intro o' ho' hd'
        rw [hc.obj] at ho'
        cases ho'
        rw [hd] at hd'
        cases hd'
      exact shows_of_contents (hobj.trans hc.obj) hd hv hp

theorem Refines.of_objs_eq (hR : Refines w q) (hI : Inv false v) (hK : w.Keeps v)
    (hobjs : v.objs = w.objs) (hcore : v.core = w.core) : Refines v q where
  inv := hI
  core := hcore.trans hR.core
  shows b := (hR.shows b).frame hI hK (by rw [hobjs])

/-- One object and its queue change. -/
theorem Refines.update {o : TransportObject} {Q : Option Queue} (hR : Refines w q)
    (hI : Inv false v) (hK : w.Keeps v) (hobjs : v.objs = Function.update w.objs b (some o))
    (hQ : v.Shows b Q) : Refines v (q.set b Q v.core) where
  inv := hI
  core := rfl
  shows c := by
    by_cases hc : c = b
    · subst hc
      simpa only [Queues.set, Function.update_self] using hQ
    · simp only [Queues.set, Function.update_of_ne hc]
      exact (hR.shows c).frame hI hK (by rw [hobjs, Function.update_of_ne hc])

/-- A call that leaves contents `c` in the object leaves the queue `c.queue`. -/
theorem Refines.set_contents {o : TransportObject} {c : Contents} (hR : Refines w q)
    (hI : Inv false v) (hK : w.Keeps v) (hobjs : v.objs = Function.update w.objs b (some o))
    {e : ε} (hcore : v.core = e) (hd : o.destructorCalled = false) (hc : v.contents b = some c)
    (hp : InBuffer c.rBufPos c.rBuf) : Refines v (q.set b (some c.queue) e) := by
  rw [← hcore]
  exact hR.update hI hK hobjs
    (shows_of_contents (by rw [hobjs, Function.update_self]) hd hc hp)

theorem Queues.set_same {Q : Option Queue} (hq : q.queue b = Q) (e : ε) :
    q.set b Q e = ⟨q.queue, e⟩ := by
  rw [Queues.set, ← hq, Function.update_eq_self]

/-- Strings, references and objects are as they were. -/
theorem Refines.of_same (hR : Refines w q) (hheap : v.heap = w.heap) (hled : v.ledger = w.ledger)
    (hobjs : v.objs = w.objs) (hbrk : v.brk = w.brk) : Refines v ⟨q.queue, v.core⟩ := by
  have hI : Inv false v := hR.inv.of_same hheap hled hobjs hbrk
  refine ⟨hI, rfl, fun b => (hR.shows b).frame hI ?_ (by rw [hobjs])⟩
  intro a s hs
  rw [hheap, hs]

theorem Refines.unasked (hR : Refines w q) : Refines w.unasked q := by
  have h := hR.of_same (v := w.unasked) rfl rfl rfl rfl
  rwa [show w.unasked.core = q.core from hR.core] at h

/-- A method that is left before it has done anything. -/
theorem Refines.refused (hR : Refines w q) :
    Refines { w.unasked with alive := decide (Stop.bailout = .bailout) } q := by
  have h := hR.of_same (v := { w.unasked with alive := decide (Stop.bailout = .bailout) })
    rfl rfl rfl rfl
  rwa [show w.unasked.core = q.core from hR.core] at h

/-- A constructed object has a queue. -/
theorem Refines.exists_contents {this : ℕ} (hR : Refines w q) (hc : w.constructed this = true) :
    ∃ o rs rw rr c, w.unasked.HasContents (fetchObject this) o rs rw rr c ∧
      o.destructorCalled = false ∧ InBuffer c.rBufPos c.rBuf ∧
      q.queue (fetchObject this) = some c.queue := by
  unfold World.constructed at hc
  split at hc
  · next o ho =>
    rw [Bool.and_eq_true, Bool.not_eq_true'] at hc
    have hS := hR.unasked.shows (fetchObject this)
    cases hq : q.queue (fetchObject this) with
    | none =>
        rw [hq] at hS
        have := hS o ho hc.1
        rw [this] at hc
        cases hc.2
    | some Q =>
        rw [hq] at hS
        obtain ⟨o', rs, rw, rr, c, h1, h2, h3, rfl⟩ := hS
        exact ⟨o', rs, rw, rr, c, h1, h2, h3, rfl⟩
  · cases hc

/-! ## Methods -/

/-- What a step has to do: its observation is that of a refused allocation, after which the objects
still show the queues unless it was in a flush; or the queues can make it too, and the objects show
the queues that this leaves. -/
def Simulated (Z : ZendApi) (exec : Executor ε) (q : Queues ε) (r : World ε × Label) : Prop :=
  (Refused Z exec q r.2 ∧ (r.2.call = .flush ∨ Refines r.1 q)) ∨
    ∃ q', queueStep exec q r.2 = some q' ∧ Refines r.1 q'

variable {Z : ZendApi} {exec : Executor ε} {this : ℕ}

/-- A method that leaves every queue as it is. -/
theorem simulated_idle {call : Call} {m : CM ε Ret} {r : Ret} (hR : Refines w q)
    (hm : m w.unasked = .ok r w.unasked)
    (hA : queueStep exec q ⟨fetchObject this, call, none, .returned r⟩ = some q) :
    Simulated Z exec q (runMethod w this call m) := by
  rw [runMethod_ok call hm]
  exact Or.inr ⟨q, hA, hR.unasked⟩

theorem simulated_isOpen (hR : Refines w q) (hc : w.constructed this = true) :
    Simulated Z exec q (runMethod w this .isOpen isOpen) := by
  obtain ⟨o, rs, rw, rr, c, -, -, -, hq⟩ := hR.exists_contents hc
  refine simulated_idle hR rfl ?_
  simp [queueStep, hq, Queue.react, expect, Queues.set_same hq]

theorem simulated_open (hR : Refines w q) (hc : w.constructed this = true) :
    Simulated Z exec q (runMethod w this .open' noop) := by
  obtain ⟨o, rs, rw, rr, c, -, -, -, hq⟩ := hR.exists_contents hc
  refine simulated_idle hR rfl ?_
  simp [queueStep, hq, Queue.react, expect, Queues.set_same hq]

theorem simulated_close (hR : Refines w q) (hc : w.constructed this = true) :
    Simulated Z exec q (runMethod w this .close noop) := by
  obtain ⟨o, rs, rw, rr, c, -, -, -, hq⟩ := hR.exists_contents hc
  refine simulated_idle hR rfl ?_
  simp [queueStep, hq, Queue.react, expect, Queues.set_same hq]

theorem simulated_construct {arg : Option StrRef} (hR : Refines w q)
    (hu : w.undestroyed this = true) (hh : w.holdsArg arg = true) :
    Simulated Z exec q (runMethod w this (.construct (w.argBytes arg)) (construct this arg)) := by
  cases arg with
  | none =>
      refine simulated_idle hR (construct_rejected this _) ?_
      simp [queueStep, argBytes, expect]
  | some r =>
      unfold undestroyed at hu
      split at hu
      · next o ho =>
        have hd : o.destructorCalled = false := by simpa using hu
        obtain ⟨hr, s, hs, hb⟩ := exists_argBytes hR.inv.books hh
        have hI := hR.unasked.inv
        have hr' : w.unasked.Holds none r := hr
        rw [runMethod_ok _ (construct_run (w := w.unasked) ho hs), hb]
        refine Or.inr ⟨q.set (fetchObject this) (some ⟨s.val, [], []⟩) q.core, ?_, ?_⟩
        · simp [queueStep, expect, constructedWorld, World.unasked]
        · exact hR.unasked.set_contents (inv_constructed hI ho hr') (keeps_takeRef _ _ _)
            (constructedWorld_objs _ _ _ _) ((constructedWorld_core _ _ _ _).trans hR.core) hd
            (contents_constructed hI ho (by simp [hd]) hr' hs) (inBuffer_zero _)
      · cases hu

theorem simulated_write {arg : Option StrRef} (hR : Refines w q)
    (hc : w.constructed this = true) (hh : w.holdsArg arg = true) :
    Simulated Z exec q (runMethod w this (.write (w.argBytes arg)) (write Z this arg)) := by
  obtain ⟨o, rs, rw, rr, c, hc, hd, hp, hq⟩ := hR.exists_contents hc
  cases arg with
  | none =>
      refine simulated_idle hR (write_rejected Z this _) ?_
      simp [queueStep, argBytes, hq, Queue.react, expect, Queues.set_same hq]
  | some r =>
      obtain ⟨-, s, hs, hb⟩ := exists_argBytes hR.inv.books hh
      have hI := hR.unasked.inv
      rw [hb]
      cases hg : Z.grant w.unasked.heap.next (c.wBuf.val ++ s.val).length with
      | false =>
          rw [runMethod_error _ (write_refused hc.obj hc.wBuf hc.deref_wBuf hs hg)]
          exact Or.inl ⟨⟨rfl, c.queue, _, _, hq, rfl, hg⟩, Or.inr hR.refused⟩
      | true =>
          rw [runMethod_ok _ (write_run hc.obj hc.wBuf hc.deref_wBuf hs hg)]
          set t := appended c.wBuf s (Z.lt_of_grant _ _ hg) with ht
          refine Or.inr ⟨q.set (fetchObject this)
            (some { c.queue with pending := c.wBuf.val ++ s.val }) q.core, ?_, ?_⟩
          · simp [queueStep, hq, Queue.react, expect, wroteWorld, World.unasked, Contents.queue]
          · exact hR.unasked.set_contents (inv_wrote hI hc.obj (by simp [hd]) hc.wBuf t)
              (keeps_wrote _ _ _ _ _) (wroteWorld_objs _ _ _ _ _)
              ((wroteWorld_core _ _ _ _ _).trans hR.core) hd
              (contents_wrote hI hc (by simp [hd]) t) hp

/-- `read` takes a prefix of the unread bytes. -/
theorem slice_eq_take (len : Int64) {c : Contents} (hp : InBuffer c.rBufPos c.rBuf) :
    slice c.rBuf c.rBufPos (clampLen len c.rBufPos c.rBuf.len) =
      c.queue.unread.take (c.queue.asks len) := by
  rw [slice, clampLen_toNat len c.rBufPos hp, Queue.asks, Contents.queue]
  split_ifs
  · rfl
  · rw [← List.take_take, List.take_length]

theorem drop_clampLen (len : Int64) {c : Contents} (hp : InBuffer c.rBufPos c.rBuf) :
    unread c.rBuf (c.rBufPos.toUInt64 + clampLen len c.rBufPos c.rBuf.len).toInt64 =
      c.queue.unread.drop (c.queue.asks len) := by
  rw [unread_advance len c.rBufPos hp, clampLen_toNat len c.rBufPos hp, Queue.asks, Contents.queue]
  split_ifs
  · rfl
  · rcases le_total len.toInt.toNat (unread c.rBuf c.rBufPos).length with h | h
    · rw [min_eq_left h]
    · rw [min_eq_right h, List.drop_length, List.drop_eq_nil_of_le h]

theorem simulated_read {arg : Option Int64} (hR : Refines w q) (hc : w.constructed this = true) :
    Simulated Z exec q (runMethod w this (.read arg) (read Z this arg)) := by
  obtain ⟨o, rs, rw, rr, c, hc, hd, hp, hq⟩ := hR.exists_contents hc
  have hI := hR.unasked.inv
  have hp' : InBuffer o.rBufPos c.rBuf := by rwa [hc.rBufPos]
  cases arg with
  | none =>
      refine simulated_idle hR (read_rejected Z this _) ?_
      simp [queueStep, hq, Queue.react, expect, Queues.set_same hq]
  | some len =>
      by_cases hne : 0 < len.toInt ∧ unread c.rBuf o.rBufPos = []
      · refine simulated_idle hR (read_empty hc.obj hc.rBuf hc.deref_rBuf hp' hne.1 hne.2) ?_
        have hun : c.queue.unread = [] := by
          rw [Contents.queue, ← hc.rBufPos]
          exact hne.2
        simp [queueStep, hq, Queue.react, expect, Queues.set_same hq, hne.1, hun]
      · have hne' : ¬ (0 < len.toInt ∧ c.queue.unread = []) := by
          rwa [Contents.queue, ← hc.rBufPos]
        have hsl := slice_eq_take len hp
        rw [← hc.rBufPos] at hsl
        cases hg : Z.grant w.unasked.heap.next
            (slice c.rBuf o.rBufPos (clampLen len o.rBufPos c.rBuf.len)).length with
        | false =>
            rw [runMethod_error _ (read_refused hc.obj hc.rBuf hc.deref_rBuf hp' hne hg)]
            rw [hsl] at hg
            exact Or.inl ⟨⟨rfl, c.queue, _, _, hq, rfl, hg⟩, Or.inr hR.refused⟩
        | true =>
            rw [runMethod_ok _ (read_run hc.obj hc.rBuf hc.deref_rBuf hp' hne hg)]
            refine Or.inr ⟨q.set (fetchObject this)
              (some { c.queue with unread := c.queue.unread.drop (c.queue.asks len) }) q.core, ?_, ?_⟩
            · simp [queueStep, hq, Queue.react, expect, hne', hsl, readWorld, World.unasked]
            · have hadv := inBuffer_advance len o.rBufPos hp'
              rw [← drop_clampLen len hp, ← hc.rBufPos]
              generalize (o.rBufPos.toUInt64 + clampLen len o.rBufPos c.rBuf.len).toInt64 = pos at *
              exact hR.unasked.set_contents (inv_read hI hc.obj _ pos) (keeps_newString _ none _)
                (readWorld_objs _ _ _ _ pos) ((readWorld_core _ _ _ _ pos).trans hR.core) hd
                (contents_read hI hc (by simp [hd]) _ pos) hadv

theorem simulated_flush (hR : Refines w q) (hc : w.constructed this = true) :
    Simulated Z exec q (runMethod w this .flush (flush Z exec this)) := by
  obtain ⟨o, rs, rw, rr, c, hc, hd, hp, hq⟩ := hR.exists_contents hc
  have hI := hR.unasked.inv
  have hd' : o.destructorCalled = true → false = true := by simp [hd]
  obtain ⟨⟨a, e⟩, he⟩ : ∃ r, exec q.core c.serviceName.val c.wBuf.val = r := ⟨_, rfl⟩
  have he' : exec w.unasked.core c.serviceName.val c.wBuf.val = (a, e) := by
    rw [hR.unasked.core, he]
  rcases flush_cases (Z := Z) hR.inv hc hd' he' with ⟨ha, hr⟩ | ⟨ha, hr⟩ |
    ⟨bytes, ha, ⟨hg, hcall, hin, hout⟩ | ⟨-, s, rfl, hr⟩⟩
  · rw [hr]
    refine Or.inr ⟨q.set (fetchObject this) (some c.queue) e, ?_, ?_⟩
    · simp [queueStep, hq, Queue.react, he, ha, expect, Contents.queue]
    · rw [Queues.set_same hq]
      exact hR.of_same rfl rfl rfl rfl
  · rw [hr]
    refine Or.inr ⟨q.set (fetchObject this) (some c.queue) e, ?_, ?_⟩
    · simp [queueStep, hq, Queue.react, he, ha, expect, Contents.queue]
    · rw [Queues.set_same hq]
      exact hR.of_same rfl rfl rfl rfl
  · refine Or.inl ⟨⟨hout, c.queue, _, bytes.length, by rw [hin, hq], ?_, hg⟩, Or.inl hcall⟩
    simp [hcall, Queue.need, he, ha, Contents.queue]
  · rw [hr]
    refine Or.inr ⟨q.set (fetchObject this)
      (some { c.queue with pending := [], unread := s.val }) e, ?_, ?_⟩
    · simp [queueStep, hq, Queue.react, he, ha, expect, Contents.queue]
    · exact hR.unasked.set_contents (inv_flushed hI hc.obj hd' hc.wBuf hc.rBuf e _ s)
        (keeps_flushed _ _ _ _ _ _ _ s) (flushedWorld_objs _ _ _ _ _ _ _ s)
        (flushedWorld_core _ _ _ _ _ _ _ s).1 hd (contents_flushed hI hc hd' e _ s)
        (inBuffer_zero s)

/-! ## Creation and destruction -/

theorem simulated_createObject (hR : Refines w q) (n : ℕ) :
    Simulated Z exec q ((createObject n w).1,
      ⟨fetchObject (createObject n w).2, .createObject, none, .returned .null⟩) := by
  refine Or.inr ⟨q, by simp [queueStep, expect], inv_createObject hR.inv n, hR.core, fun b => ?_⟩
  by_cases hb : b = w.brk
  · subst hb
    -- no object was at the new block, so it showed no queue
    have hS := hR.shows w.brk
    cases hq : q.queue w.brk with
    | none =>
        intro o ho _
        simp only [createObject, Function.update_self, Option.some.injEq] at ho
        rw [← ho]
    | some Q =>
        rw [hq] at hS
        obtain ⟨o, rs, rw, rr, c, hc, -⟩ := hS
        have := hc.obj
        rw [hR.inv.fresh w.brk le_rfl] at this
        cases this
  · refine (hR.shows b).frame (inv_createObject hR.inv n) (Keeps.refl w) ?_
    simp only [createObject, Function.update_of_ne hb]

theorem simulated_dtorObject {object : ℕ} {o : TransportObject} (hR : Refines w q)
    (ho : w.objs (fetchObject object) = some o) (hd : o.destructorCalled = false) :
    Simulated Z exec q (runMethod (w.flagged (fetchObject object) o) object .dtorObject
      (dtorObject object)) := by
  set b := fetchObject object with hb
  have hI := hR.unasked.inv
  have hown : w.unasked.Owns b o := hI.owns b o ho (by simp [hd])
  obtain ⟨hrun, hB⟩ := dtorObject_run (w := w.unasked.flagged b o) object
    (hR.unasked.inv.books) (setObj_self _ _ _) (owns_flagged hown)
  rw [runMethod_ok (w := w.flagged b o) _ hrun]
  refine Or.inr ⟨q.set b none q.core, ?_, ?_⟩
  · simp [queueStep, expect, dtorWorld_core, flagged, World.unasked, ← hb]
  · have hcore : q.core = (dtorWorld (w.unasked.flagged b o) b
        { o with destructorCalled := true }).core := by
      rw [(dtorWorld_core _ _ _).1]
      exact hR.core.symm
    rw [hcore]
    refine hR.unasked.update (inv_dtor hI ho hB) (keeps_dtor (w.unasked.flagged b o) b _)
      (dtorWorld_objs _ _ _) ?_
    intro o' ho' hd'
    rw [dtorWorld_objs, flagged, setObj_self] at ho'
    cases ho'
    cases hd'

theorem simulated_freeObject {object : ℕ} {o : TransportObject} (hR : Refines w q)
    (ho : w.objs (fetchObject object) = some o) (hd : o.destructorCalled = true) :
    Simulated Z exec q (freeObject Z object w,
      ⟨fetchObject object, .freeObject, none, .returned .null⟩) := by
  refine Or.inr ⟨q, by simp [queueStep, expect], inv_freeObject hR.inv, hR.core, fun b => ?_⟩
  by_cases hb : b = fetchObject object
  · subst hb
    have hS := hR.shows (fetchObject object)
    cases hq : q.queue (fetchObject object) with
    | none =>
        intro o' ho'
        simp [freeObject] at ho'
    | some Q =>
        rw [hq] at hS
        obtain ⟨o', rs, rw, rr, c, hc, hd', -⟩ := hS
        have := hc.obj
        rw [ho] at this
        cases this
        rw [hd] at hd'
        cases hd'
  · refine (hR.shows b).frame (inv_freeObject hR.inv) (Keeps.refl w) ?_
    simp only [freeObject, Function.update_of_ne hb]

theorem simulated_strings (hR : Refines w q) (hI : Inv false v) (hK : w.Keeps v)
    (hobjs : v.objs = w.objs) (hcore : v.core = w.core) :
    Simulated Z exec q (v, stringsLabel) :=
  Or.inr ⟨q, by simp [queueStep, stringsLabel, expect], hR.of_objs_eq hI hK hobjs hcore⟩

/-! ## Runs -/

/-- **One event.** -/
theorem simulated_step {ev : Event} {r : World ε × Label} (hR : Refines w q)
    (hc : inContract w ev = true) (hs : engineStep Z exec w ev = some r) :
    Simulated Z exec q r := by
  replace hs := engineStep_eq_some hs
  cases ev with
  | createObject n =>
      cases hs
      exact simulated_createObject hR n
  | construct this arg =>
      obtain ⟨-, hh, rfl⟩ := hs
      exact simulated_construct hR hc hh
  | isOpen this =>
      cases hs
      exact simulated_isOpen hR hc
  | open' this =>
      cases hs
      exact simulated_open hR hc
  | close this =>
      cases hs
      exact simulated_close hR hc
  | write this arg =>
      obtain ⟨-, hh, rfl⟩ := hs
      exact simulated_write hR hc hh
  | read this arg =>
      obtain ⟨-, rfl⟩ := hs
      exact simulated_read hR hc
  | flush this =>
      obtain ⟨-, rfl⟩ := hs
      exact simulated_flush hR hc
  | dtorObject object =>
      obtain ⟨o, ho, hd, rfl⟩ := hs
      exact simulated_dtorObject hR ho hd
  | freeObject object =>
      obtain ⟨o, ho, hd, rfl⟩ := hs
      exact simulated_freeObject hR ho hd
  | newString s =>
      cases hs
      exact simulated_strings hR (inv_newString hR.inv s) (keeps_newString w none s) rfl rfl
  | copyString a =>
      obtain ⟨ha, rfl⟩ := hs
      exact simulated_strings hR (inv_takeRef hR.inv ha) (keeps_takeRef w none _) rfl rfl
  | dropString a =>
      obtain ⟨ha, rfl⟩ := hs
      exact simulated_strings hR (inv_dropRef hR.inv ha) (keeps_dropRef w none _) rfl rfl

/-- **The transports refine the queues.** In every interleaving of calls on any number of objects,
over any executor, every call is asked, answered and ended as the queues have it. -/
theorem transport_refines_queues (Z : ZendApi) (exec : Executor ε) (core : ε) {w : World ε}
    {ms : List (Move (World ε) Event Label)} (h : (engine Z exec).Runs (World.init core) ms w)
    (hc : ∀ m ∈ ms, inContract m.pre m.input = true) :
    Accepts (queueStep exec) (Refused Z exec) (Queues.init core) (ms.map Move.output) := by
  refine Runs.accepts Refines (fun w ev => inContract w ev = true) ?_ h (refines_init core) hc
  intro w ev l w' q hR hc hs
  exact (simulated_step hR hc hs).imp_left And.left

/-- An executor that answers every other call, with the service name before the request. -/
def everyOther : Executor ℕ := fun n service request =>
  (if n % 2 = 0 then ⟨.response (service ++ request), none⟩ else ⟨.null, none⟩, n + 1)

/-- Two transports, interleaved: an answered call with a short read, a failed call, and an answered
call of the other transport. -/
theorem transport_refines_queues_two :
    ∃ w ms, (engine .unlimited everyOther).Runs (World.init 0) ms w ∧
      (ms.map Move.output).map Label.outcome =
        [.returned .null, .returned .null, .returned .null, .returned .null, .returned .null,
          .returned .null, .returned .null, .returned (.string [7, 1]), .returned .null,
          .returned (.raised .rpcFailed), .returned (.string [0]), .returned .null,
          .returned (.raised (.cannotRead 1))] ∧
      Accepts (queueStep everyOther) (Refused .unlimited everyOther) (Queues.init 0)
        (ms.map Move.output) := by
  obtain ⟨w, ms, hr, hc, ho⟩ := Runs.exists_of_outputs (engine .unlimited everyOther)
    inContract (World.init 0)
    [.createObject 0, .createObject 0, .construct 4128 (some (zstrChar 7)),
      .construct 4200 (some (zstrChar 8)), .write 4128 (some (zstrChar 1)),
      .write 4128 (some (zstrChar 0)), .flush 4128, .read 4128 (some 2),
      .write 4128 (some (zstrChar 5)), .flush 4128, .read 4128 (some 9), .flush 4200,
      .read 4128 (some 1)] rfl
  exact ⟨w, ms, hr, by rw [ho]; decide, transport_refines_queues _ _ _ hr hc⟩

end ThriftBridge

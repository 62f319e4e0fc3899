import ThriftBridge.Transport.Changes
import ThriftBridge.Transport.Exhaustion
import ThriftBridge.Transport.Lifetime

/-!
# The accounts of an event

* `owed`, `leak`: the references that the destructor handler will give back, and those that it will
  not; `lost`: those that a repeated `__construct` overwrites;
* `Buffers`: what becomes of the response buffers;
* `Accounts`: what an event does to both. `accounts_*`: this for every event, in any state, as long
  as the process lives on.
-/

set_option autoImplicit false

namespace ThriftBridge

open RefCount World Machine

variable {ε : Type} {Z : ZendApi} {exec : Executor ε} {w v u : World ε} {a b c this : ℕ}
  {o o' : TransportObject} {ev : Event} {l : Label}

/-! ## References -/

/-- The references on string `a` that the object in block `b` gives back at its destruction. -/
def World.owed (w : World ε) (b a : ℕ) : ℕ :=
  match w.objs b with
  | none => 0
  | some o => if o.destructorCalled then 0 else o.refs.count (.counted a)

/-- The references on string `a` that the object in block `b` has and does not give back. -/
def World.leak (w : World ε) (b a : ℕ) : ℤ := w.ledger (some b) a - w.owed b a

/-- The references that an event overwrites. -/
def lost (w : World ε) (b a : ℕ) : Event → ℕ
  | .construct this (some _) => if fetchObject this = b then w.owed b a else 0
  | _ => 0

theorem owed_of_some (ho : w.objs b = some o) (hd : o.destructorCalled = false) (a : ℕ) :
    w.owed b a = o.refs.count (.counted a) := by
  simp [owed, ho, hd]

theorem owed_of_destroyed (ho : w.objs b = some o) (hd : o.destructorCalled = true) (a : ℕ) :
    w.owed b a = 0 := by
  simp [owed, ho, hd]

theorem owed_of_none (ho : w.objs b = none) (a : ℕ) : w.owed b a = 0 := by
  simp [owed, ho]

theorem leak_of_some (ho : w.objs b = some o) (hd : o.destructorCalled = false) (a : ℕ) :
    w.leak b a = w.ledger (some b) a - o.refs.count (.counted a) := by
  rw [leak, owed_of_some ho hd]

theorem leak_setObj (w : World ε) (b : ℕ) (hd : o.destructorCalled = false) (a : ℕ) :
    (w.setObj b o).leak b a = w.ledger (some b) a - o.refs.count (.counted a) :=
  leak_of_some (setObj_self w b o) hd a

theorem leak_frame (hobj : v.objs b = w.objs b)
    (hled : ∀ a, v.ledger (some b) a = w.ledger (some b) a) (a : ℕ) : v.leak b a = w.leak b a := by
  rw [leak, leak, hled, owed, owed, hobj]

/-! ## Buffers -/

/-- The buffers there were are as they were, and if and only if `freed` so are those that have been
allocated since. -/
structure Buffers (w v : World ε) (freed : Bool) : Prop where
  next : w.cHeap.next ≤ v.cHeap.next
  old : ∀ i < w.cHeap.next, v.cHeap.count i = w.cHeap.count i
  new : (∀ i, w.cHeap.next ≤ i → i < v.cHeap.next → v.cHeap.count i = 0) ↔ freed = true

theorem Buffers.same (h : v.cHeap = w.cHeap) : Buffers w v true where
  next := by rw [h]
  old i _ := by rw [h]
  new := iff_of_true (fun i h1 h2 => by rw [h] at h2; omega) rfl

/-- A response that is freed. -/
theorem Buffers.freed (bytes : Bytes)
    (h : v.cHeap = (w.cHeap.alloc bytes).release w.cHeap.next) : Buffers w v true where
  next := by
    rw [h, CountedHeap.next_release, CountedHeap.next_alloc]
    omega
  old i hi := by
    rw [h, CountedHeap.count_release, CountedHeap.count_alloc, if_neg (by omega),
      if_neg (by omega)]
  new := by
    refine iff_of_true (fun i h1 h2 => ?_) rfl
    rw [h, CountedHeap.next_release, CountedHeap.next_alloc] at h2
    have hi : i = w.cHeap.next := by omega
    have h0 := CountedHeap.count_eq_zero_of_le (h := w.cHeap) h1
    rw [h, CountedHeap.count_release, if_pos hi, CountedHeap.count_alloc, if_pos hi, h0]

/-- A response that is left. -/
theorem Buffers.left (bytes : Bytes) (h : v.cHeap = w.cHeap.alloc bytes) : Buffers w v false where
  next := by
    rw [h, CountedHeap.next_alloc]
    omega
  old i hi := by rw [h, CountedHeap.count_alloc, if_neg (by omega)]
  new := by
    refine iff_of_false (fun hz => ?_) (by simp)
    have h1 := hz w.cHeap.next le_rfl (by rw [h, CountedHeap.next_alloc]; omega)
    rw [h, CountedHeap.count_alloc, if_pos rfl] at h1
    omega

/-! ## Accounts -/

/-- Blocks from the break on are free. -/
def World.Fresh (w : World ε) : Prop := ∀ b, w.brk ≤ b → w.objs b = none

/-- What an event does to the accounts: an object leaks what the event overwrites, unless a response
to it could not be copied. -/
structure Accounts (Z : ZendApi) (exec : Executor ε) (w v : World ε) (ev : Event) : Prop where
  fresh : v.Fresh
  buffers : Buffers w v (copyGranted Z exec w ev)
  leak : ∀ b, (∀ this, ev = .flush this → fetchObject this = b → copyGranted Z exec w ev = true) →
    ∀ a, v.leak b a = w.leak b a + lost w b a ev

/-- An event that leaves the objects and their balances alone. -/
theorem Accounts.of_same (hF : w.Fresh) (hobjs : v.objs = w.objs) (hbrk : v.brk = w.brk)
    (hled : ∀ b a, v.ledger (some b) a = w.ledger (some b) a) (hc : v.cHeap = w.cHeap)
    (hg : copyGranted Z exec w ev = true) (hlost : ∀ b a, lost w b a ev = 0) :
    Accounts Z exec w v ev where
  fresh b hb := by
    rw [hobjs]
    exact hF b (by rw [← hbrk]; exact hb)
  buffers := by
    rw [hg]
    exact Buffers.same hc
  leak b _ a := by
    rw [leak_frame (by rw [hobjs]) (hled b), hlost]
    simp

/-- An event on the object in block `c`. -/
theorem Accounts.of_update (hF : w.Fresh) (ho : w.objs c = some o)
    (hobjs : v.objs = Function.update w.objs c (some o')) (hbrk : v.brk = w.brk)
    (hled : ∀ b ≠ c, ∀ a, v.ledger (some b) a = w.ledger (some b) a)
    (hb : Buffers w v (copyGranted Z exec w ev)) (hlost : ∀ b ≠ c, ∀ a, lost w b a ev = 0)
    (hlaw : ∀ a, v.leak c a = w.leak c a + lost w c a ev) : Accounts Z exec w v ev where
  fresh b hb := by
    have hbc : b ≠ c := by
      rintro rfl
      rw [hF b (by rw [← hbrk]; exact hb)] at ho
      cases ho
    rw [hobjs, Function.update_of_ne hbc]
    exact hF b (by rw [← hbrk]; exact hb)
  buffers := hb
  leak b _ a := by
    by_cases hbc : b = c
    · subst hbc
      exact hlaw a
    · rw [leak_frame (by rw [hobjs, Function.update_of_ne hbc]) (hled b hbc), hlost b hbc]
      simp

/-- An event on the object in block `c` that overwrites no reference. -/
theorem Accounts.of_kept (hF : w.Fresh) (ho : w.objs c = some o)
    (hobjs : v.objs = Function.update w.objs c (some o')) (hbrk : v.brk = w.brk)
    (hled : ∀ b ≠ c, ∀ a, v.ledger (some b) a = w.ledger (some b) a)
    (hb : Buffers w v (copyGranted Z exec w ev)) (hlost : ∀ b a, lost w b a ev = 0)
    (hlaw : ∀ a, v.leak c a = w.leak c a) : Accounts Z exec w v ev :=
  .of_update hF ho hobjs hbrk hled hb (fun b _ => hlost b) fun a => by
    rw [hlaw, hlost]
    simp

/-! ## Methods -/

/-- A method after which the process lives on has returned, or was left by the exit of a refused
allocation. -/
theorem runMethod_alive {m : CM ε Ret} {call : Call} (hr : runMethod w this call m = (v, l))
    (hv : v.alive = true) : (∃ r, m w.unasked = .ok r v) ∨
      ∃ u, m w.unasked = .error .bailout u ∧ v = { u with alive := true } := by
  cases hm : m w.unasked with
  | ok r u =>
      rw [runMethod_ok call hm] at hr
      cases hr
      exact Or.inl ⟨r, rfl⟩
  | error e u =>
      rw [runMethod_error call hm] at hr
      cases hr
      have he : e = .bailout := of_decide_eq_true hv
      subst he
      exact Or.inr ⟨u, rfl, rfl⟩

theorem accounts_construct {arg : Option StrRef} (hF : w.Fresh)
    (ho : w.objs (fetchObject this) = some o) (hd : o.destructorCalled = false)
    (hr : runMethod w this (.construct (w.argBytes arg)) (construct this arg) = (v, l))
    (hv : v.alive = true) : Accounts Z exec w v (.construct this arg) := by
  cases arg with
  | none =>
      rw [runMethod_ok _ (construct_rejected this w.unasked)] at hr
      cases hr
      exact .of_same hF rfl rfl (fun _ _ => rfl) rfl rfl fun _ _ => rfl
  | some r =>
      cases hs : w.deref r with
      | none =>
          rw [runMethod_error _ (construct_released (w := w.unasked) ((deref_unasked w r).trans hs))]
            at hr
          cases hr
          exact absurd hv (by simp)
      | some s =>
          have hs' := (deref_unasked w r).trans hs
          rw [runMethod_ok _ (construct_run (w := w.unasked) ho hs')] at hr
          cases hr
          refine .of_update hF ho (constructedWorld_objs _ _ _ _) ?_ ?_ (.same ?_) ?_ fun a => ?_
          · rw [constructedWorld, setObj_brk, takeRef_brk]
            rfl
          · intro b hb a
            rw [constructedWorld, setObj_ledger, takeRef_ledger_of_ne _ _ (by simpa using hb)]
            rfl
          · cases r <;> rfl
          · exact fun b hb a => if_neg (Ne.symm hb)
          · -- the fields are overwritten, and only the new reference will be given back
            have hd' : (constructed o r).destructorCalled = false := hd
            rw [constructedWorld, leak_setObj _ _ hd', takeRef_ledger, TransportObject.count_refs,
              lost, if_pos rfl, leak]
            simp only [constructed, emptyAlloc, Option.some.injEq, reduceCtorEq, if_false,
              World.unasked]
            omega

theorem accounts_write {arg : Option StrRef} {call : Call} (hF : w.Fresh)
    (ho : w.objs (fetchObject this) = some o) (hd : o.destructorCalled = false)
    (hr : runMethod w this call (write Z this arg) = (v, l)) :
    Accounts Z exec w v (.write this arg) := by
  rcases write_ends (w := w.unasked) Z arg ho with ⟨e, -, hm⟩ | ⟨r, hm⟩ |
    ⟨rw, p, t, hw, -, hm⟩
  · rw [runMethod_error _ hm] at hr
    cases hr
    exact .of_same hF rfl rfl (fun _ _ => rfl) rfl rfl fun _ _ => rfl
  · rw [runMethod_ok _ hm] at hr
    cases hr
    exact .of_same hF rfl rfl (fun _ _ => rfl) rfl rfl fun _ _ => rfl
  · rw [runMethod_ok _ hm] at hr
    cases hr
    refine .of_kept hF ho (wroteWorld_objs _ _ _ _ _) ?_ ?_ (.same ?_) (fun _ _ => rfl) fun a => ?_
    · rw [wroteWorld, setObj_brk, dropRef_brk, newString_brk]
      rfl
    · intro b hb a
      rw [wroteWorld, setObj_ledger, dropRef_ledger_of_ne _ _ (by simpa using hb),
        newString_ledger_of_ne _ _ (by simpa using hb)]
      rfl
    · cases rw <;> rfl
    · have hd' : ({ o with wBuf := some (.counted w.unasked.heap.next) } :
          TransportObject).destructorCalled = false := hd
      rw [leak_of_some ho hd, wroteWorld, leak_setObj _ _ hd', dropRef_ledger, newString_ledger,
        TransportObject.count_refs, TransportObject.count_refs]
      simp only [hw, Option.some.injEq, StrRef.counted.injEq,
        show w.unasked.ledger = w.ledger from rfl]
      omega

theorem accounts_read {arg : Option Int64} {call : Call} (hF : w.Fresh)
    (ho : w.objs (fetchObject this) = some o) (hd : o.destructorCalled = false)
    (hr : runMethod w this call (read Z this arg) = (v, l)) :
    Accounts Z exec w v (.read this arg) := by
  rcases read_ends (w := w.unasked) Z arg ho with ⟨e, -, hm⟩ | ⟨r, hm⟩ |
    ⟨len, rr, t, r, s, -, -, hm⟩
  · rw [runMethod_error _ hm] at hr
    cases hr
    exact .of_same hF rfl rfl (fun _ _ => rfl) rfl rfl fun _ _ => rfl
  · rw [runMethod_ok _ hm] at hr
    cases hr
    exact .of_same hF rfl rfl (fun _ _ => rfl) rfl rfl fun _ _ => rfl
  · rw [runMethod_ok _ hm] at hr
    cases hr
    generalize (o.rBufPos.toUInt64 + clampLen len o.rBufPos t.len).toInt64 = pos
    have hled : ∀ b a, (w.unasked.newString none s).ledger (some b) a = w.ledger (some b) a := by
      intro b a
      rw [newString_ledger_of_ne _ _ (by simp)]
      rfl
    refine .of_kept hF ho (readWorld_objs _ _ _ _ _) rfl (fun b _ a => hled b a) (.same rfl)
      (fun _ _ => rfl) fun a => ?_
    have hd' : ({ o with rBufPos := pos } : TransportObject).destructorCalled = false := hd
    rw [leak_of_some ho hd, readWorld, leak_setObj _ _ hd', hled]
    simp [TransportObject.refs]

/-! ### `flush` -/

/-- The condition on a flush that gets as far as the executor. -/
theorem copyGranted_of_presents (Z : ZendApi) (exec : Executor ε) {n p : ZendString}
    (ho : w.objs (fetchObject this) = some o) (hp : Presents w o n p) :
    copyGranted Z exec w (.flush this) =
      match o.rBuf.bind w.deref, (exec w.core n.val p.val).1.reply with
      | some _, .response bytes => Z.grant w.heap.next bytes.length
      | _, _ => true := by
  simp only [copyGranted, contents, ho, hp.service, hp.request]
  cases o.rBuf.bind w.deref with
  | none => rfl
  | some t => cases hr : (exec w.core n.val p.val).1.reply <;> simp only [hr]

theorem FlushReturn.granted {r : Ret} (ho : w.objs (fetchObject this) = some o)
    (h : FlushReturn Z exec w (fetchObject this) o r v) :
    copyGranted Z exec w (.flush this) = true := by
  cases h with
  | failed e q hp ha =>
      rw [copyGranted_of_presents Z exec ho hp, ha]
      cases o.rBuf.bind w.deref <;> rfl
  | installed e q hp hn hw hr ht ha hg =>
      rw [copyGranted_of_presents Z exec ho hp, hr, Option.bind_some, ht, ha]
      exact hg

theorem FlushExit.not_granted (ho : w.objs (fetchObject this) = some o)
    (h : FlushExit Z exec w (fetchObject this) o v) :
    copyGranted Z exec w (.flush this) = false := by
  obtain ⟨e, q, bytes, hp, hr, ht, ha, hg⟩ := h
  rw [copyGranted_of_presents Z exec ho hp, hr, Option.bind_some, ht, ha]
  exact hg

theorem accounts_flush {call : Call} (hF : w.Fresh) (ho : w.objs (fetchObject this) = some o)
    (hd : o.destructorCalled = false) (hr : runMethod w this call (flush Z exec this) = (v, l))
    (hv : v.alive = true) : Accounts Z exec w v (.flush this) := by
  have hwp := wp_flush (w := w.unasked) Z exec ho
  rcases runMethod_alive hr hv with ⟨r, hm⟩ | ⟨u, hm, rfl⟩
  · have hg := (hwp.of_ok hm).granted (w := w.unasked) ho
    obtain ⟨e, q⟩ | @⟨rw, rr, _, _, s, _, e, q, -, -, hw, hrr, -, -, -⟩ := hwp.of_ok hm
    · exact .of_same hF rfl rfl (fun _ _ => rfl) rfl hg fun _ _ => rfl
    · refine .of_kept hF ho (flushedWorld_objs _ _ _ _ _ _ _ _) (flushedWorld_brk _ _ _ _ _ _ _ _)
        ?_ ?_ (fun _ _ => rfl) fun a => ?_
      · intro b hb a
        rw [flushedWorld_ledger, dropRef_ledger_of_ne _ _ (by simpa using hb),
          newString_ledger_of_ne _ _ (by simpa using hb),
          dropRef_ledger_of_ne _ _ (by simpa using hb)]
        rfl
      · rw [show copyGranted Z exec w (.flush this) = true from hg]
        refine Buffers.freed s.val ?_
        cases rw <;> cases rr <;> rfl
      · have hobj : (flushedWorld w.unasked (fetchObject this) o rw rr e q s).objs
            (fetchObject this) = some (flushed o w.unasked.heap.next) := by
          rw [flushedWorld_objs, Function.update_self]
        rw [leak_of_some ho hd, leak_of_some hobj hd, flushedWorld_ledger, dropRef_ledger,
          newString_ledger, dropRef_ledger, dropRef_next, flushed, TransportObject.count_refs,
          TransportObject.count_refs]
        simp only [hw, hrr, emptyAlloc, Option.some.injEq, StrRef.counted.injEq, reduceCtorEq,
          if_false, show w.unasked.ledger = w.ledger from rfl]
        omega
  · have hexit := (hwp.of_error hm).2 rfl
    have hg' : copyGranted Z exec w (.flush this) = false := hexit.not_granted (w := w.unasked) ho
    obtain @⟨rr, _, _, _, e, q, bytes, -, hrr, -, -, -⟩ := hexit
    refine ⟨fun b hb => ?_, ?_, fun b hb a => ?_⟩
    · have hbrk : (released w.unasked (fetchObject this) rr e q bytes).brk = w.brk := by
        cases rr <;> rfl
      rw [released, dropRef_objs]
      exact hF b (by rw [← hbrk]; exact hb)
    · rw [hg']
      refine Buffers.left bytes ?_
      cases rr <;> rfl
    · -- the accounts of the object itself are not kept here
      have hbc : b ≠ fetchObject this := by
        rintro rfl
        cases hg'.symm.trans (hb this rfl rfl)
      rw [show lost w b a (.flush this) = 0 from rfl, Nat.cast_zero, add_zero]
      refine leak_frame ?_ (fun a => ?_) a
      · rw [released, dropRef_objs]
        rfl
      · rw [released, dropRef_ledger_of_ne _ _ (by simpa using hbc)]
        rfl

/-! ### Creation and destruction -/

theorem accounts_createObject (hF : w.Fresh) (n : ℕ) :
    Accounts Z exec w (createObject n w).1 (.createObject n) where
  fresh b hb := by
    have hle : w.brk < b := by
      simp only [createObject] at hb
      omega
    simp only [createObject, Function.update_of_ne hle.ne']
    exact hF b hle.le
  buffers := Buffers.same rfl
  leak b _ a := by
    rw [show lost w b a (.createObject n) = 0 from rfl, Nat.cast_zero, add_zero]
    by_cases hb : b = w.brk
    · subst hb
      rw [leak, leak, owed_of_none (hF _ le_rfl)]
      simp [owed, createObject, TransportObject.refs]
    · refine leak_frame (v := (createObject n w).1) (w := w) ?_ (fun _ => rfl) a
      simp only [createObject, Function.update_of_ne hb]

theorem dropField_cHeap (w : World ε) (b : ℕ) (f : Option StrRef) :
    (dropField w b f).cHeap = w.cHeap := by
  rcases f with _ | _ | _ <;> rfl

theorem dtorWorld_cHeap (w : World ε) (b : ℕ) (o : TransportObject) :
    (dtorWorld w b o).cHeap = w.cHeap := by
  rw [dtorWorld, dropField_cHeap, dropField_cHeap, dropField_cHeap]

theorem accounts_dtorObject {object : ℕ} {call : Call} (hF : w.Fresh)
    (ho : w.objs (fetchObject object) = some o) (hd : o.destructorCalled = false)
    (hr : runMethod (w.flagged (fetchObject object) o) object call (dtorObject object) = (v, l))
    (hv : v.alive = true) : Accounts Z exec w v (.dtorObject object) := by
  have hwp := wp_dtorObject (w := (w.flagged (fetchObject object) o).unasked) object
    (setObj_self _ _ _)
  rcases runMethod_alive hr hv with ⟨r, hm⟩ | ⟨u, hm, -⟩
  · have hw := hwp.of_ok hm
    subst hw
    have hobj : (dtorWorld (w.flagged (fetchObject object) o).unasked (fetchObject object)
        { o with destructorCalled := true }).objs (fetchObject object) =
          some { o with destructorCalled := true } := by
      rw [dtorWorld_objs]
      exact setObj_self _ _ _
    refine .of_kept hF ho (dtorWorld_objs _ _ _) (dtorWorld_brk _ _ _) ?_ (.same ?_)
      (fun _ _ => rfl) fun a => ?_
    · intro b hb a
      rw [dtorWorld_ledger_of_ne _ _ (by simpa using hb)]
      rfl
    · rw [dtorWorld_cHeap]
      rfl
    · rw [leak, owed_of_destroyed hobj rfl, dtorWorld_ledger, leak_of_some ho hd]
      simp only [Nat.cast_zero, sub_zero]
      rfl
  · cases (hwp.of_error hm).2

theorem accounts_freeObject {object : ℕ} (hF : w.Fresh)
    (ho : w.objs (fetchObject object) = some o) (hd : o.destructorCalled = true) :
    Accounts Z exec w (freeObject Z object w) (.freeObject object) where
  fresh b hb := by
    simp only [freeObject, Function.update_apply]
    split_ifs
    · rfl
    · exact hF b hb
  buffers := Buffers.same rfl
  leak b _ a := by
    rw [show lost w b a (.freeObject object) = 0 from rfl, Nat.cast_zero, add_zero]
    by_cases hb : b = fetchObject object
    · subst hb
      have hnone : (freeObject Z object w).objs (fetchObject object) = none := by simp [freeObject]
      rw [leak, leak, owed_of_none hnone, owed_of_destroyed ho hd]
      rfl
    · refine leak_frame (v := freeObject Z object w) (w := w) ?_ (fun _ => rfl) a
      simp only [freeObject, Function.update_of_ne hb]

/-! ## Events -/

/-- The methods of an object are not called after its destructor handler. -/
def beforeDtor (w : World ε) : Event → Bool
  | .construct this _ => w.undestroyed this
  | .write this _ => w.undestroyed this
  | .read this _ => w.undestroyed this
  | .flush this => w.undestroyed this
  | _ => true

theorem not_destroyed (hu : w.undestroyed this = true)
    (ho : w.objs (fetchObject this) = some o) : o.destructorCalled = false := by
  simpa only [undestroyed, ho, Bool.not_eq_true'] using hu

theorem engineStep_alive (hs : engineStep Z exec w ev = some (v, l)) : w.alive = true := by
  cases ev with
  | dtorObject object | freeObject object =>
      simp only [engineStep] at hs
      split at hs
      · cases hs
      · split_ifs at hs with h
        exact h.1
  | createObject n | newString n =>
      simp only [engineStep] at hs
      split_ifs at hs with h
      exact h
  | _ =>
      simp only [engineStep] at hs
      split_ifs at hs with h
      exact h.1

/-- **One event**, after which the process lives on. -/
theorem accounts_step (hF : w.Fresh) (hb : beforeDtor w ev = true)
    (hs : engineStep Z exec w ev = some (v, l)) (hv : v.alive = true) :
    Accounts Z exec w v ev := by
  replace hs := engineStep_eq_some hs
  cases ev with
  | createObject n =>
      cases hs
      exact accounts_createObject hF n
  | construct this arg =>
      obtain ⟨⟨o, ho⟩, -, hr⟩ := hs
      exact accounts_construct hF ho (not_destroyed hb ho) hr.symm hv
  | isOpen this | open' this | close this =>
      cases hs
      exact .of_same hF rfl rfl (fun _ _ => rfl) rfl rfl fun _ _ => rfl
  | write this arg =>
      obtain ⟨⟨o, ho⟩, -, hr⟩ := hs
      exact accounts_write hF ho (not_destroyed hb ho) hr.symm
  | read this arg =>
      obtain ⟨⟨o, ho⟩, hr⟩ := hs
      exact accounts_read hF ho (not_destroyed hb ho) hr.symm
  | flush this =>
      obtain ⟨⟨o, ho⟩, hr⟩ := hs
      exact accounts_flush hF ho (not_destroyed hb ho) hr.symm hv
  | dtorObject object =>
      obtain ⟨o, ho, hd, hr⟩ := hs
      exact accounts_dtorObject hF ho hd hr.symm hv
  | freeObject object =>
      obtain ⟨o, ho, hd, hr⟩ := hs
      cases hr
      exact accounts_freeObject hF ho hd
  | newString s =>
      cases hs
      exact .of_same hF rfl rfl (fun _ _ => newString_ledger_of_ne _ _ (by simp) _) rfl rfl
        fun _ _ => rfl
  | copyString a =>
      obtain ⟨-, hr⟩ := hs
      cases hr
      exact .of_same hF rfl rfl (fun _ _ => takeRef_ledger_of_ne w _ (by simp) _) rfl rfl
        fun _ _ => rfl
  | dropString a =>
      obtain ⟨-, hr⟩ := hs
      cases hr
      exact .of_same hF rfl rfl (fun _ _ => dropRef_ledger_of_ne w _ (by simp) _) rfl rfl
        fun _ _ => rfl

end ThriftBridge

import ThriftBridge.Transport.Calls

/-!
# Running out of memory

The exit of a refused allocation leaves a method where it is, and later calls find the object so.

* `Intact`: the object has its references and its contents, and no response buffer is left;
* `write_exit`, `read_exit`: these methods allocate before they change anything;
* `flush_exit`: a flush is left after it has released the read buffer, with the response allocated;
* `intact_iff_copies_granted`: every exit leaves its object intact if and only if no copy of a
  response is refused.
-/

set_option autoImplicit false

namespace ThriftBridge

open RefCount World Machine

variable {ε : Type} {Z : ZendApi} {exec : Executor ε} {w v : World ε} {q q' : Queues ε}
  {this : ℕ} {l : Label} {ev : Event}

/-! ## Exits -/

/-- The object in block `b` and its cursor are as they were. It holds a reference for every field,
the strings have the bytes they had, and no response buffer is left. -/
def Intact (b : ℕ) (m : Move (World ε) Event Label) : Prop :=
  ∃ o c, m.pre.objs b = some o ∧ m.post.objs b = some o ∧ m.post.Owns b o ∧
    m.pre.contents b = some c ∧ m.post.contents b = some c ∧
    m.post.cHeap.live = m.pre.cHeap.live

/-- If the call is left by the exit of a refused allocation, its object is intact. -/
def IntactAfterExit (m : Move (World ε) Event Label) : Prop :=
  m.output.outcome = .stopped .bailout → Intact m.output.intern m

/-- A flush that gets a response gets the string for it. -/
def copyGranted (Z : ZendApi) (exec : Executor ε) (w : World ε) : Event → Bool
  | .flush this =>
    match w.contents (fetchObject this) with
    | none => true
    | some c =>
      match (exec w.core c.serviceName.val c.wBuf.val).1.reply with
      | .response bytes => Z.grant w.heap.next bytes.length
      | .null => true
      | .unwound => true
  | _ => true

/-! ## The queues never run out of memory -/

theorem Queue.react_outcome {Q : Queue} {e : ε} {call : Call} {r : Reaction ε}
    (h : Q.react exec e call = some r) : r.outcome ≠ .stopped .bailout := by
  cases call with
  | isOpen => cases h; simp
  | open' => cases h; simp
  | close => cases h; simp
  | write arg => cases arg <;> cases h <;> simp
  | read arg =>
      cases arg with
      | none => cases h; simp
      | some len =>
          simp only [react] at h
          split_ifs at h <;> cases h <;> simp
  | flush =>
      simp only [react] at h
      split at h <;> cases h <;> simp
  | createObject => cases h
  | construct => cases h
  | dtorObject => cases h
  | freeObject => cases h
  | strings => cases h

theorem queueStep_outcome (h : queueStep exec q l = some q') :
    l.outcome ≠ .stopped .bailout := by
  unfold queueStep at h
  split at h
  case h_7 =>
    split at h
    · cases h
    · split at h
      · cases h
      · next r hr =>
        rw [(expect_eq_some h).2.1]
        exact Queue.react_outcome hr
  all_goals
    rw [(expect_eq_some h).2.1]
    simp

/-- A call that is left by such an exit needs a string. -/
theorem need_of_exit (hR : Refines w q) (hc : inContract w ev = true)
    (hs : engineStep Z exec w ev = some (v, l)) (hout : l.outcome = .stopped .bailout) :
    ∃ Q len, Queue.need exec Q q.core l.call = some len := by
  rcases simulated_step hR hc hs with ⟨⟨-, Q, -, len, -, hneed, -⟩, -⟩ | ⟨q', hq', -⟩
  · exact ⟨Q, len, hneed⟩
  · exact absurd hout (queueStep_outcome hq')

/-! ## Methods -/

/-- A method that is left before it has done anything leaves its object intact. -/
theorem intact_of_unchanged (hR : Refines w q) (hc : w.constructed this = true)
    (hv : v = { w.unasked with alive := true }) :
    Intact (fetchObject this) ⟨w, ev, l, v⟩ := by
  obtain ⟨o, rs, rw, rr, c, hcon, hd, -, -⟩ := hR.exists_contents hc
  have hcont : w.contents (fetchObject this) = some c :=
    contents_eq_some (w := w.unasked) |>.mpr ⟨o, rs, rw, rr, hcon⟩
  subst hv
  exact ⟨o, c, hcon.obj, hcon.obj, hR.inv.owns _ o hcon.obj (by simp [hd]), hcont, hcont, rfl⟩

theorem write_exit {arg : Option StrRef} (hR : Refines w q) (hc : w.constructed this = true)
    (hs : engineStep Z exec w (.write this arg) = some (v, l))
    (hout : l.outcome = .stopped .bailout) :
    l.intern = fetchObject this ∧ v = { w.unasked with alive := true } := by
  obtain ⟨-, hh, hr⟩ := engineStep_eq_some hs
  obtain ⟨o, rs, rw, rr, c, hcon, -, -, -⟩ := hR.exists_contents hc
  cases arg with
  | none =>
      rw [runMethod_ok _ (write_rejected Z this _)] at hr
      cases hr
      cases hout
  | some r =>
      obtain ⟨-, s, hstr, -⟩ := exists_argBytes hR.inv.books hh
      cases hg : Z.grant w.unasked.heap.next (c.wBuf.val ++ s.val).length with
      | false =>
          rw [runMethod_error _ (write_refused hcon.obj hcon.wBuf hcon.deref_wBuf hstr hg)] at hr
          cases hr
          exact ⟨rfl, rfl⟩
      | true =>
          rw [runMethod_ok _ (write_run hcon.obj hcon.wBuf hcon.deref_wBuf hstr hg)] at hr
          cases hr
          cases hout

theorem read_exit {arg : Option Int64} (hR : Refines w q) (hc : w.constructed this = true)
    (hs : engineStep Z exec w (.read this arg) = some (v, l))
    (hout : l.outcome = .stopped .bailout) :
    l.intern = fetchObject this ∧ v = { w.unasked with alive := true } := by
  obtain ⟨-, hr⟩ := engineStep_eq_some hs
  obtain ⟨o, rs, rw, rr, c, hcon, -, -, -⟩ := hR.exists_contents hc
  cases arg with
  | none =>
      rw [runMethod_ok _ (read_rejected Z this _)] at hr
      cases hr
      cases hout
  | some len =>
      rcases read_cases Z len hcon.obj hcon.rBuf hcon.deref_rBuf with ⟨e, -, hm⟩ | ⟨r, hm⟩ |
        ⟨r, s, hm⟩
      · rw [runMethod_error _ hm] at hr
        cases hr
        cases hout
        exact ⟨rfl, rfl⟩
      · rw [runMethod_ok _ hm] at hr
        cases hr
        cases hout
      · rw [runMethod_ok _ hm] at hr
        cases hr
        cases hout

/-- **A flush that cannot copy the response** leaves it allocated. -/
theorem flush_exit (hR : Refines w q) (hc : w.constructed this = true)
    (hs : engineStep Z exec w (.flush this) = some (v, l)) :
    (l.outcome ≠ .stopped .bailout ∧ copyGranted Z exec w (.flush this) = true) ∨
      l.outcome = .stopped .bailout ∧ copyGranted Z exec w (.flush this) = false ∧
        ∃ bytes, v.cHeap = w.cHeap.alloc bytes := by
  obtain ⟨-, hr⟩ := engineStep_eq_some hs
  obtain ⟨o, rs, rw, rr, c, hcon, hd, -, -⟩ := hR.exists_contents hc
  have hcont : w.contents (fetchObject this) = some c :=
    contents_eq_some (w := w.unasked) |>.mpr ⟨o, rs, rw, rr, hcon⟩
  have hd' : o.destructorCalled = true → false = true := by simp [hd]
  obtain ⟨⟨a, e⟩, he⟩ : ∃ r, exec w.core c.serviceName.val c.wBuf.val = r := ⟨_, rfl⟩
  simp only [copyGranted, hcont, he]
  rcases flush_cases (Z := Z) hR.inv hcon hd' he with ⟨ha, hrun⟩ | ⟨ha, hrun⟩ |
    ⟨bytes, ha, ⟨hg, -, -, -⟩ | ⟨hg, s, rfl, hrun⟩⟩
  · cases hr.trans hrun
    exact Or.inl ⟨by simp, by rw [ha]⟩
  · cases hr.trans hrun
    exact Or.inl ⟨by simp, by rw [ha]⟩
  · have hm := flush_refused hcon.obj hcon.wBuf hcon.serviceName hcon.rBuf hcon.deref_wBuf
      hcon.deref_serviceName hcon.deref_rBuf he ha hg
    cases hr.trans (runMethod_error _ hm)
    refine Or.inr ⟨rfl, by rw [ha]; exact hg, bytes, ?_⟩
    cases rr <;> rfl
  · cases hr.trans hrun
    exact Or.inl ⟨by simp, by rw [ha]; exact hg⟩

/-! ## Runs -/

/-- **One event.** -/
theorem intact_iff (hR : Refines w q) (hc : inContract w ev = true)
    (hs : engineStep Z exec w ev = some (v, l)) :
    IntactAfterExit ⟨w, ev, l, v⟩ ↔ copyGranted Z exec w ev = true := by
  cases ev with
  | flush this =>
      rcases flush_exit hR hc hs with ⟨hout, hg⟩ | ⟨hout, hg, bytes, hlive⟩
      · exact iff_of_true (fun h => absurd h hout) hg
      · refine iff_of_false (fun h => ?_) (by rw [hg]; simp)
        obtain ⟨o, c, -, -, -, -, -, hsame⟩ := h hout
        rw [hlive, CountedHeap.live_alloc] at hsame
        exact absurd (congrArg Multiset.card hsame) (by simp)
  | write this arg =>
      refine iff_of_true (fun hout => ?_) rfl
      obtain ⟨hb, hv⟩ := write_exit hR hc hs hout
      change Intact l.intern _
      rw [hb]
      exact intact_of_unchanged hR hc hv
  | read this arg =>
      refine iff_of_true (fun hout => ?_) rfl
      obtain ⟨hb, hv⟩ := read_exit hR hc hs hout
      change Intact l.intern _
      rw [hb]
      exact intact_of_unchanged hR hc hv
  | _ =>
      refine iff_of_true (fun hout => ?_) rfl
      obtain ⟨Q, len, hneed⟩ := need_of_exit hR hc hs hout
      rw [engineStep_call hs] at hneed
      cases hneed

/-- **Running out of memory leaves the object intact** if and only if it is not the copy of a
response that is refused. -/
theorem intact_iff_copies_granted (Z : ZendApi) (exec : Executor ε) (core : ε) {w : World ε}
    {ms : List (Move (World ε) Event Label)} (hr : (engine Z exec).Runs (World.init core) ms w)
    (hc : ∀ m ∈ ms, inContract m.pre m.input = true) :
    (∀ m ∈ ms, IntactAfterExit m) ↔ ∀ m ∈ ms, copyGranted Z exec m.pre m.input = true := by
  refine hr.forall_iff_of (fun w => ∃ q, Refines w q) (fun w ev => inContract w ev = true)
    (fun w ev => copyGranted Z exec w ev = true) _ ?_ ?_ ⟨_, refines_init core⟩ hc
  · rintro w ev l v ⟨q, hR⟩ hin hs
    exact intact_iff hR hin hs
  · rintro w ev l v ⟨q, hR⟩ hin hg hs
    have hs' : engineStep Z exec w ev = some (v, l) := hs
    rcases simulated_step hR hin hs' with ⟨⟨hout, -⟩, hcall | hR'⟩ | ⟨q', -, hR'⟩
    · obtain ⟨this, rfl⟩ := flush_of_call hs' hcall
      rcases flush_exit hR hin hs' with ⟨hno, -⟩ | ⟨-, hno, -⟩
      · exact absurd hout hno
      · cases hno.symm.trans hg
    · exact ⟨q, hR'⟩
    · exact ⟨q', hR'⟩

/-- An engine that grants the strings of fewer than `n` bytes. -/
def ZendApi.fewerThan (n : ℕ) : ZendApi where
  grant _ len := decide (len < n) && decide (len < 2 ^ 63)
  lt_of_grant _ _ h := by
    rw [Bool.and_eq_true, decide_eq_true_eq, decide_eq_true_eq] at h
    exact h.2
  stdObjectHandlers := ⟨0⟩

/-- The third write of a request runs out of memory. A later call reads the response to the request
before. -/
theorem intact_after_write :
    ∃ w ms, (engine (.fewerThan 3) everyOther).Runs (World.init 0) ms w ∧
      ms.map Move.input = [.createObject 0, .construct 4128 (some (zstrChar 7)),
        .write 4128 (some (zstrChar 1)), .flush 4128, .write 4128 (some (zstrChar 2)),
        .write 4128 (some (zstrChar 3)), .write 4128 (some (zstrChar 4)), .read 4128 (some 2)] ∧
      (ms.map fun m => m.output.outcome).drop 5 =
        [.returned .null, .stopped .bailout, .returned (.string [7, 1])] ∧
      ∀ m ∈ ms, IntactAfterExit m := by
  obtain ⟨w, ms, hr, hin, hg⟩ := Runs.exists_of_inputs (engine (.fewerThan 3) everyOther)
    (World.init 0) [.createObject 0, .construct 4128 (some (zstrChar 7)),
      .write 4128 (some (zstrChar 1)), .flush 4128, .write 4128 (some (zstrChar 2)),
      .write 4128 (some (zstrChar 3)), .write 4128 (some (zstrChar 4)), .read 4128 (some 2)]
    (fun r => (r.2.all fun m => inContract m.pre m.input) &&
      ((r.2.all fun m => copyGranted (.fewerThan 3) everyOther m.pre m.input) &&
        decide ((r.2.map fun m => m.output.outcome).drop 5 =
          [.returned .null, .stopped .bailout, .returned (.string [7, 1])]))) rfl
  rw [Bool.and_eq_true, Bool.and_eq_true, List.all_eq_true, List.all_eq_true,
    decide_eq_true_eq] at hg
  obtain ⟨hc, hgrant, hout⟩ := hg
  exact ⟨w, ms, hr, hin, hout, (intact_iff_copies_granted _ _ _ hr hc).mpr hgrant⟩

/-- A flush runs out of memory for the copy of its response. -/
theorem response_left_allocated :
    ∃ w ms, (engine (.fewerThan 3) everyOther).Runs (World.init 0) ms w ∧
      ms.map Move.input = [.createObject 0, .construct 4128 (some (zstrChar 7)),
        .write 4128 (some (zstrChar 1)), .write 4128 (some (zstrChar 2)), .flush 4128] ∧
      (∀ m ∈ ms, inContract m.pre m.input = true) ∧
      ms.map (fun m => m.output.outcome) = [.returned .null, .returned .null, .returned .null,
        .returned .null, .stopped .bailout] ∧
      ¬ ∀ m ∈ ms, IntactAfterExit m := by
  obtain ⟨w, ms, hr, hin, hg⟩ := Runs.exists_of_inputs (engine (.fewerThan 3) everyOther)
    (World.init 0) [.createObject 0, .construct 4128 (some (zstrChar 7)),
      .write 4128 (some (zstrChar 1)), .write 4128 (some (zstrChar 2)), .flush 4128]
    (fun r => (r.2.all fun m => inContract m.pre m.input) &&
      (decide (r.2.map (fun m => m.output.outcome) = [.returned .null, .returned .null,
          .returned .null, .returned .null, .stopped .bailout]) &&
        (r.2.any fun m => m.output.outcome = .stopped .bailout &&
          m.post.cHeap.live.card ≠ m.pre.cHeap.live.card))) rfl
  rw [Bool.and_eq_true, Bool.and_eq_true, List.all_eq_true, decide_eq_true_eq,
    List.any_eq_true] at hg
  obtain ⟨hc, hout, m, hm, hexit⟩ := hg
  rw [Bool.and_eq_true, decide_eq_true_eq, decide_eq_true_eq] at hexit
  refine ⟨w, ms, hr, hin, hc, hout, fun hall => ?_⟩
  obtain ⟨o, c, -, -, -, -, -, hlive⟩ := hall m hm hexit.1
  exact hexit.2 (congrArg Multiset.card hlive)

end ThriftBridge

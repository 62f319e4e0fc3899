import ThriftBridge.Transport.Calls

/-!
# Failures of a call

* `Installed`, `Untouched`: the two ways in which a failure is contained: there is none, and the
  complete output of the processor is the new read buffer; or an exception is pending, and the
  object is as it was;
* `contained`: this for flushes, and for reads that they return parts of complete outputs only;
* `settles`: the calls of which the bridge and the engine let no exception through;
* `contained_iff_settles`: every failure is contained if and only if all calls are such.
-/

set_option autoImplicit false

namespace ThriftBridge

open World Machine

variable {ε σ : Type} {Z : ZendApi}

/-! ## Containment -/

/-- The complete output of the processor is the new read buffer of the object in block `b`. -/
def Installed (b : ℕ) (m : Move (World ε) Event Label) : Prop :=
  m.output.outcome = .returned .null ∧ ∃ c sv r, m.pre.contents b = some c ∧
    m.output.asked.bind (fun q => q.answer.served) = some sv ∧ sv.ended = .returned true ∧
    r.val = sv.wrote ∧
    m.post.contents b = some { c with wBuf := .empty, rBuf := r, rBufPos := 0 }

/-- An exception is pending, and the object in block `b` and its strings are as they were. -/
def Untouched (b : ℕ) (m : Move (World ε) Event Label) : Prop :=
  (∃ e, m.output.outcome = .returned (.raised e)) ∧ m.post.objs b = m.pre.objs b ∧
    m.post.contents b = m.pre.contents b

/-- The complete output that a call installs: none is left by `__construct`. -/
def Label.installs (l : Label) : Option Bytes :=
  match l.call, l.outcome, l.asked with
  | .construct (some _), .returned _, _ => some []
  | .flush, .returned .null, some ⟨_, _, ⟨_, some sv⟩⟩ =>
    if sv.ended = .returned true then some sv.wrote else none
  | _, _, _ => none

/-- The last complete output that was installed, for each block. -/
def trackOutputs (h : ℕ → Bytes) (l : Label) : ℕ → Bytes :=
  match l.installs with
  | some out => Function.update h l.intern out
  | none => h

/-- A flush installs a complete output or leaves the object untouched. A read returns a part of the
complete output that was installed last. -/
def contained (h : ℕ → Bytes) (m : Move (World ε) Event Label) : Prop :=
  match m.input with
  | .flush this => Installed (fetchObject this) m ∨ Untouched (fetchObject this) m
  | .read this _ => ∀ s, m.output.outcome = .returned (.string s) → s <:+: h (fetchObject this)
  | _ => True

/-- A flush that reaches a processor: the output transport gets its first 1024 bytes, `process`
ends without an exception or with a `TException`, and the engine grants the copy of the response, if
there is one. -/
def settles (Z : ZendApi) (M : Malloc) (between : ℕ → Core σ → Core σ) (w : World (ℕ × Core σ)) :
    Event → Bool
  | .flush this =>
    match w.contents (fetchObject this) with
    | none => true
    | some c =>
      let core := between w.core.1 w.core.2
      match core.registered c.serviceName.val with
      | none => true
      | some p =>
        let (ended, _, T) := core.serve M p c.wBuf.val c.wBuf.len
        M core.mallocs 1024 &&
          match ended with
          | .returned true => !M T.mallocs T.wrote.length || Z.grant w.heap.next T.wrote.length
          | .returned false => true
          | .threwTException => true
          | .threwOther => false
  | _ => true

/-! ## One flush -/

/-- When a flush is contained, by what the executor answers. -/
def Reply.settled (Z : ZendApi) (w : World ε) : Reply → Bool
  | .null => true
  | .unwound => false
  | .response bytes => Z.grant w.heap.next bytes.length

/-- Responses are complete outputs. -/
def Executor.Complete (exec : Executor ε) : Prop :=
  ∀ e s r bytes, (exec e s r).1.reply = .response bytes →
    ∃ sv, (exec e s r).1.served = some sv ∧ sv.ended = .returned true ∧ sv.wrote = bytes

theorem coreExecutor_complete (M : Malloc) (between : ℕ → Core σ → Core σ) :
    (coreExecutor M between).Complete := by
  intro e s r bytes h
  rw [coreExecutor_answer] at h ⊢
  split at h
  · cases h
  · next p _ =>
    simp only at h ⊢
    split_ifs at h ⊢
    simp only [runReply] at h
    split at h
    · next hend =>
      split_ifs at h
      cases h
      exact ⟨_, rfl, hend, rfl⟩
    · cases h
    · cases h

/-- `settles` is about the reply of the bridge. -/
theorem settles_flush (M : Malloc) (between : ℕ → Core σ → Core σ) {w : World (ℕ × Core σ)}
    {this : ℕ} {c : Contents} (hc : w.contents (fetchObject this) = some c) :
    settles Z M between w (.flush this) =
      (coreExecutor M between w.core c.serviceName.val c.wBuf.val).1.reply.settled Z w := by
  simp only [settles, hc]
  rw [coreExecutor_answer]
  cases (between w.core.1 w.core.2).registered c.serviceName.val with
  | none => rfl
  | some p =>
      simp only
      cases hm : M (between w.core.1 w.core.2).mallocs 1024 with
      | false => rfl
      | true =>
          simp only [Bool.true_and, if_true]
          rw [show c.wBuf.len = UInt64.ofNat c.wBuf.val.length from rfl]
          obtain ⟨ended, s, T⟩ :=
            (between w.core.1 w.core.2).serve M p c.wBuf.val (UInt64.ofNat c.wBuf.val.length)
          cases ended with
          | threwTException => rfl
          | threwOther => rfl
          | returned ok =>
              cases ok with
              | false => rfl
              | true =>
                  simp only [runReply]
                  cases M T.mallocs T.wrote.length <;> rfl

variable {exec : Executor ε} {w w' : World ε} {q q' : Queues ε} {this : ℕ} {l : Label}
  {h : ℕ → Bytes}

/-- **One flush** is contained if and only if the reply to it is. -/
theorem contained_flush_iff (hex : exec.Complete) (hR : Refines w q)
    (hc : w.constructed this = true)
    (hs : engineStep Z exec w (.flush this) = some (w', l)) :
    ∃ c, w.contents (fetchObject this) = some c ∧
      (contained h ⟨w, .flush this, l, w'⟩ ↔
        (exec w.core c.serviceName.val c.wBuf.val).1.reply.settled Z w = true) := by
  obtain ⟨o, rs, rw, rr, c, hcon, hd, -, -⟩ := hR.exists_contents hc
  have hcont : w.contents (fetchObject this) = some c :=
    contents_eq_some (w := w.unasked) |>.mpr ⟨o, rs, rw, rr, hcon⟩
  have hd' : o.destructorCalled = true → false = true := by simp [hd]
  refine ⟨c, hcont, ?_⟩
  have hr : runMethod w this .flush (flush Z exec this) = (w', l) := (engineStep_eq_some hs).2.symm
  obtain ⟨⟨a, e⟩, he⟩ : ∃ r, exec w.unasked.core c.serviceName.val c.wBuf.val = r := ⟨_, rfl⟩
  have he' : exec w.core c.serviceName.val c.wBuf.val = (a, e) := he
  rw [he']
  rcases flush_cases (Z := Z) hR.inv hcon hd' he with ⟨ha, hrun⟩ | ⟨ha, hrun⟩ |
    ⟨bytes, ha, ⟨hg, -, -, hout⟩ | ⟨hg, s, rfl, hrun⟩⟩
  · rw [hr] at hrun
    cases hrun
    rw [ha]
    exact iff_of_true (Or.inr ⟨⟨_, rfl⟩, rfl, rfl⟩) rfl
  · rw [hr] at hrun
    cases hrun
    rw [ha]
    refine iff_of_false ?_ (by simp [Reply.settled])
    rintro (⟨hout, -⟩ | ⟨⟨_, hout⟩, -⟩) <;> cases hout
  · rw [hr] at hout
    rw [ha]
    have hg' : Z.grant w.heap.next bytes.length = false := hg
    refine iff_of_false ?_ (by simp [Reply.settled, hg'])
    rintro (⟨hret, -⟩ | ⟨⟨_, hret⟩, -⟩) <;> cases hout.symm.trans hret
  · rw [hr] at hrun
    cases hrun
    rw [ha]
    obtain ⟨sv, hsv, hend, hwrote⟩ := hex _ _ _ _ (by rw [he', ha])
    rw [he'] at hsv
    refine iff_of_true (Or.inl ⟨rfl, c, sv, s, hcont, hsv, hend, hwrote.symm, ?_⟩) hg
    exact contents_flushed hR.inv.unasked hcon hd' e _ s

/-! ## Outputs -/

theorem trackOutputs_of_none (hi : l.installs = none) : trackOutputs h l = h := by
  rw [trackOutputs, hi]

theorem trackOutputs_of_ne {b : ℕ} (hb : l.intern ≠ b) : trackOutputs h l b = h b := by
  unfold trackOutputs
  cases l.installs with
  | none => rfl
  | some out => exact Function.update_of_ne (Ne.symm hb) _ _

theorem trackOutputs_self {out : Bytes} (hi : l.installs = some out) :
    trackOutputs h l l.intern = out := by
  rw [trackOutputs, hi]
  exact Function.update_self _ _ _

/-- What is unread is the end of a complete output. -/
def Outputs (h : ℕ → Bytes) (q : Queues ε) : Prop :=
  ∀ b Q, q.queue b = some Q → Q.unread <:+ h b

theorem outputs_track (hex : exec.Complete) (ho : Outputs h q)
    (hs : queueStep exec q l = some q') : Outputs (trackOutputs h l) q' := by
  intro b Q' hQ'
  rcases queueStep_queue hs hQ' with ⟨hQ, hb | hcall⟩ | ⟨hb, ⟨name, hcall, hout, rfl⟩ |
    ⟨Q, r, hQ, hr, hasked, hout, rfl⟩⟩
  · rw [trackOutputs_of_ne hb]
    exact ho b Q' hQ
  · rw [trackOutputs_of_none]
    · exact ho b Q' hQ
    · unfold Label.installs
      rcases hcall with hcall | hcall | hcall | hcall <;> rw [hcall]
  · exact List.nil_suffix
  · have hsuf := ho b Q hQ
    rcases Queue.react_cases hr with ⟨buf, hcall, hro, hq⟩ | ⟨len, hcall, -, hro, hq⟩ |
      ⟨hcall, ha, ⟨s, hreply, hro, hq⟩ | ⟨-, hro, hq⟩ | ⟨-, hro, hq⟩⟩ | ⟨hq, hcall⟩
    · rw [trackOutputs_of_none (by rw [Label.installs, hcall]), hq]
      exact hsuf
    · rw [trackOutputs_of_none (by rw [Label.installs, hcall]), hq]
      exact (List.drop_suffix _ _).trans hsuf
    · obtain ⟨sv, hsv, hend, hwrote⟩ := hex _ _ _ _ hreply
      have hi : l.installs = some s := by
        rw [Label.installs, hcall, hout, hro, hasked, ha]
        generalize (exec q.core Q.service Q.pending).1 = a at hsv ⊢
        obtain ⟨reply, served⟩ := a
        cases hsv
        simp only [hend, if_true, hwrote]
      rw [← hb, trackOutputs_self hi, hq]
    · rw [trackOutputs_of_none (by rw [Label.installs, hcall, hout, hro]), hq]
      exact hsuf
    · rw [trackOutputs_of_none (by rw [Label.installs, hcall, hout, hro]), hq]
      exact hsuf
    · rw [trackOutputs_of_none, hq]
      · exact hsuf
      · rcases hcall with hcall | hcall | hcall | hcall | hcall | ⟨len, hcall, -⟩ <;>
          rw [Label.installs, hcall]

/-! ## Runs -/

/-- A read returns a part of a complete output. -/
theorem contained_read {arg : Option Int64} (hR : Refines w q) (ho : Outputs h q)
    (hc : inContract w (.read this arg) = true)
    (hs : engineStep Z exec w (.read this arg) = some (w', l)) :
    contained h ⟨w, .read this arg, l, w'⟩ := by
  intro s hout
  have hret : l.returned = true := by
    rw [Label.returned, show l.outcome = _ from hout]
  obtain ⟨q', hq', -⟩ := queueStep_of_returned hR hc hs hret
  have hin := read_intern hs
  have hcall : l.call = .read arg := engineStep_call hs
  rcases queueStep_cases hq' with ⟨-, hc⟩ | ⟨name, hc, -⟩ | ⟨hc, -⟩ | ⟨Q, r, hQ, hr, -, hro, -⟩
  · rcases hc with hc | hc | hc | hc <;> rw [hcall] at hc <;> cases hc
  · rw [hcall] at hc
    cases hc
  · rw [hcall] at hc
    cases hc
  · rw [hin] at hQ
    have hrs : r.outcome = .returned (.string s) := hro.symm.trans hout
    rcases Queue.react_cases hr with ⟨_, hc, -⟩ | ⟨_, -, -, hro, -⟩ | ⟨hc, -⟩ | ⟨-, hc⟩
    · rw [hcall] at hc
      cases hc
    · rw [hrs] at hro
      cases hro
      exact (List.take_prefix _ _).isInfix.trans (ho _ Q hQ).isInfix
    · rw [hcall] at hc
      cases hc
    · rcases hc with hc | hc | hc | hc | hc | ⟨_, -, -, hro⟩
      · rw [hcall] at hc
        cases hc
      · rw [hcall] at hc
        cases hc
      · rw [hcall] at hc
        cases hc
      · rw [hcall] at hc
        cases hc
      · rw [hc] at hr
        cases hr
        cases hrs
      · rw [hrs] at hro
        cases hro

/-- **Every failure of a call is contained** if and only if no exception but a `TException` comes out
of a processor, no output transport is refused its first bytes, and no copy of a response is
refused. -/
theorem contained_iff_settles (Z : ZendApi) (M : Malloc) (between : ℕ → Core σ → Core σ)
    (core : Core σ) {w : World (ℕ × Core σ)} {ms : List (Move (World (ℕ × Core σ)) Event Label)}
    (hr : (engine Z (coreExecutor M between)).Runs (World.init (0, core)) ms w)
    (hc : ∀ m ∈ ms, inContract m.pre m.input = true) :
    Always trackOutputs contained (fun _ => []) ms ↔
      ∀ m ∈ ms, settles Z M between m.pre m.input = true := by
  have hex := coreExecutor_complete M between
  rw [← always_iff_forall trackOutputs (fun m => settles Z M between m.pre m.input = true)
    (fun _ => [])]
  refine hr.always_iff (fun w h => ∃ q, Refines w q ∧ Outputs h q)
    (fun m => inContract m.pre m.input = true) ?_ ?_
    ⟨_, refines_init _, fun b Q hQ => by cases hQ⟩ hc
  · rintro w ev l w' h ⟨q, hR, ho⟩ hin hs
    have hs' : engineStep Z (coreExecutor M between) w ev = some (w', l) := hs
    cases ev with
    | flush this =>
        obtain ⟨c, hcont, hiff⟩ := contained_flush_iff (h := h) hex hR hin hs'
        rw [hiff, settles_flush M between hcont]
    | read this arg => exact iff_of_true (contained_read hR ho hin hs') rfl
    | _ => exact iff_of_true trivial rfl
  · rintro w ev l w' h ⟨q, hR, ho⟩ hin hset hs
    have hs' : engineStep Z (coreExecutor M between) w ev = some (w', l) := hs
    rcases simulated_step hR hin hs' with ⟨⟨hout, -⟩, hcall | hR'⟩ | ⟨q', hq', hR'⟩
    · obtain ⟨this, rfl⟩ := flush_of_call hs' hcall
      obtain ⟨c, hcont, hiff⟩ := contained_flush_iff (h := h) hex hR hin hs'
      have hcon := hiff.mpr ((settles_flush M between hcont).symm.trans hset)
      have hout' : l.outcome = .stopped .bailout := hout
      rcases hcon with ⟨hret, -⟩ | ⟨⟨_, hret⟩, -⟩ <;> cases hout'.symm.trans hret
    · have hi : l.installs = none := by
        have hout' : l.outcome = .stopped .bailout := hout
        rw [Label.installs, hout']
        cases l.call with
        | construct arg => cases arg <;> rfl
        | _ => rfl
      rw [trackOutputs_of_none hi]
      exact ⟨q, hR', ho⟩
    · exact ⟨q', hR', outputs_track hex ho hq'⟩

/-- One write, two flushes and a read, on a transport for the service `A`. -/
def flushedTwice : List Event :=
  [.createObject 0, .construct 4128 (some (zstrChar 65)), .write 4128 (some (zstrChar 1)),
    .flush 4128, .flush 4128, .read 4128 (some 9)]

/-- A `TException`, and then an answer. -/
theorem contained_texception :
    ∃ w ms, (engine .unlimited grantingExecutor).Runs
        (World.init (0, scriptedCore [.threwTException])) ms w ∧
      ms.map Move.input = flushedTwice ∧
      (ms.map fun m => m.output.outcome).drop 3 =
        [.returned (.raised .rpcFailed), .returned .null, .returned (.string [1])] ∧
      Always trackOutputs contained (fun _ => []) ms := by
  obtain ⟨w, ms, hr, hin, hg⟩ := Runs.exists_of_inputs (engine .unlimited grantingExecutor)
    (World.init (0, scriptedCore [.threwTException])) flushedTwice
    (fun r => (r.2.all fun m => inContract m.pre m.input) &&
      ((r.2.all fun m => settles .unlimited (fun _ _ => true) (fun _ c => c) m.pre m.input) &&
        decide ((r.2.map fun m => m.output.outcome).drop 3 =
          [.returned (.raised .rpcFailed), .returned .null, .returned (.string [1])]))) rfl
  rw [Bool.and_eq_true, Bool.and_eq_true, List.all_eq_true, List.all_eq_true,
    decide_eq_true_eq] at hg
  obtain ⟨hc, hset, hout⟩ := hg
  exact ⟨w, ms, hr, hin, hout, (contained_iff_settles _ _ _ _ hr hc).mpr hset⟩

/-- Another C++ exception leaves the method. -/
theorem exception_escapes :
    ∃ w ms, (engine .unlimited grantingExecutor).Runs
        (World.init (0, scriptedCore [.threwOther])) ms w ∧
      ms.map Move.input = flushedTwice.take 4 ∧ (∀ m ∈ ms, inContract m.pre m.input = true) ∧
      (ms.map fun m => m.output.outcome) =
        [.returned .null, .returned .null, .returned .null, .stopped .unwound] ∧
      ¬ Always trackOutputs contained (fun _ => []) ms := by
  obtain ⟨w, ms, hr, hin, hg⟩ := Runs.exists_of_inputs (engine .unlimited grantingExecutor)
    (World.init (0, scriptedCore [.threwOther])) (flushedTwice.take 4)
    (fun r => (r.2.all fun m => inContract m.pre m.input) &&
      (decide ((r.2.map fun m => m.output.outcome) =
          [.returned .null, .returned .null, .returned .null, .stopped .unwound]) &&
        (r.2.any fun m => m.input = .flush 4128 && m.output.outcome = .stopped .unwound))) rfl
  rw [Bool.and_eq_true, Bool.and_eq_true, List.all_eq_true, decide_eq_true_eq,
    List.any_eq_true] at hg
  obtain ⟨hc, hout, m, hm, hflush⟩ := hg
  rw [Bool.and_eq_true, decide_eq_true_eq, decide_eq_true_eq] at hflush
  refine ⟨w, ms, hr, hin, hc, hout, fun hall => ?_⟩
  obtain ⟨h, hcon⟩ := hall.exists_of_mem hm
  unfold contained at hcon
  rw [hflush.1] at hcon
  rcases hcon with ⟨hret, -⟩ | ⟨⟨_, hret⟩, -⟩ <;> cases hflush.2.symm.trans hret

end ThriftBridge

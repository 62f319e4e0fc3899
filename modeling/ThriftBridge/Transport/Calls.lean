import ThriftBridge.Core.Generic
import ThriftBridge.Transport.Refinement

/-!
# Calls, one after the other

A call is any number of writes and a flush.

* `wellEnded`: calls in contract that return; `queueStep_of_returned`: they are calls on the queues;
* `CallBytes`: the history of the requests. It is read off the observations: what has been written
  since the last flush attempt, and what the failed flushes before it have left;
* `own_request_iff`: when each request is the call's own.
-/

set_option autoImplicit false

namespace ThriftBridge

open World Machine

variable {ε : Type} {Z : ZendApi} {exec : Executor ε}

/-! ## Observations -/

/-- The call has returned, or raised a PHP exception. -/
def Label.returned (l : Label) : Bool :=
  match l.outcome with
  | .returned _ => true
  | .stopped _ => false

/-- In contract, and returned. -/
def wellEnded (m : Move (World ε) Event Label) : Bool :=
  inContract m.pre m.input && m.output.returned

theorem wellEnded_iff {m : Move (World ε) Event Label} :
    wellEnded m = true ↔ inContract m.pre m.input = true ∧ m.output.returned = true :=
  Bool.and_eq_true_iff

theorem runMethod_label (w : World ε) (this : ℕ) (call : Call) (m : CM ε Ret) :
    (runMethod w this call m).2.intern = fetchObject this ∧
      (runMethod w this call m).2.call = call := by
  unfold runMethod
  split <;> exact ⟨rfl, rfl⟩

/-- The call that an event is. -/
def Event.call (w : World ε) : Event → Call
  | .createObject _ => .createObject
  | .construct _ arg => .construct (w.argBytes arg)
  | .isOpen _ => .isOpen
  | .open' _ => .open'
  | .close _ => .close
  | .write _ arg => .write (w.argBytes arg)
  | .read _ arg => .read arg
  | .flush _ => .flush
  | .dtorObject _ => .dtorObject
  | .freeObject _ => .freeObject
  | .newString _ => .strings
  | .copyString _ => .strings
  | .dropString _ => .strings

theorem engineStep_call {w w' : World ε} {ev : Event} {l : Label}
    (hs : engineStep Z exec w ev = some (w', l)) : l.call = ev.call w := by
  have h := engineStep_eq_some hs
  cases ev with
  | createObject n | newString n =>
      rw [show l = _ from congrArg Prod.snd h]
      rfl
  | copyString a | dropString a =>
      rw [show l = _ from congrArg Prod.snd h.2]
      rfl
  | isOpen this | open' this | close this =>
      rw [show l = _ from congrArg Prod.snd h]
      exact (runMethod_label w this _ _).2
  | construct this arg | write this arg =>
      rw [show l = _ from congrArg Prod.snd h.2.2]
      exact (runMethod_label w this _ _).2
  | read this arg | flush this =>
      rw [show l = _ from congrArg Prod.snd h.2]
      exact (runMethod_label w this _ _).2
  | dtorObject object =>
      obtain ⟨o, -, -, h⟩ := h
      rw [show l = _ from congrArg Prod.snd h]
      exact (runMethod_label _ object _ _).2
  | freeObject object =>
      obtain ⟨o, -, -, h⟩ := h
      rw [show l = _ from congrArg Prod.snd h]
      rfl

/-- A flush is observed as one, and nothing else is. -/
theorem flush_of_call {w w' : World ε} {ev : Event} {l : Label}
    (hs : engineStep Z exec w ev = some (w', l)) (hcall : l.call = .flush) :
    ∃ this, ev = .flush this := by
  rw [engineStep_call hs] at hcall
  cases ev with
  | flush this => exact ⟨this, rfl⟩
  | _ => cases hcall

theorem flush_intern {w w' : World ε} {this : ℕ} {l : Label}
    (hs : engineStep Z exec w (.flush this) = some (w', l)) : l.intern = fetchObject this := by
  rw [show l = _ from congrArg Prod.snd (engineStep_eq_some hs).2]
  exact (runMethod_label w this _ _).1

theorem read_intern {w w' : World ε} {this : ℕ} {arg : Option Int64} {l : Label}
    (hs : engineStep Z exec w (.read this arg) = some (w', l)) : l.intern = fetchObject this := by
  rw [show l = _ from congrArg Prod.snd (engineStep_eq_some hs).2]
  exact (runMethod_label w this _ _).1

/-- A call in contract that returns is a call on the queues. -/
theorem queueStep_of_returned {w w' : World ε} {q : Queues ε} {ev : Event} {l : Label}
    (hR : Refines w q) (hc : inContract w ev = true) (hs : engineStep Z exec w ev = some (w', l))
    (hret : l.returned = true) : ∃ q', queueStep exec q l = some q' ∧ Refines w' q' := by
  rcases simulated_step hR hc hs with hb | h
  · have hout : l.outcome = .stopped .bailout := hb.1.1
    rw [Label.returned, hout] at hret
    cases hret
  · exact h

/-- A call on a queue gives the reaction of the queue. -/
theorem queueStep_react {q q' : Queues ε} {l : Label} {Q : Queue}
    (h : queueStep exec q l = some q') (hQ : q.queue l.intern = some Q)
    (hcall : (Q.react exec q.core l.call).isSome) :
    ∃ r, Q.react exec q.core l.call = some r ∧ l.asked = r.asked ∧ l.outcome = r.outcome := by
  rcases queueStep_cases h with ⟨-, hc | hc | hc | hc⟩ | ⟨name, hc, -⟩ | ⟨hc, -⟩ |
    ⟨Q', r, hQ', hr, hasked, hout, -⟩
  · rw [hc] at hcall
    cases hcall
  · rw [hc] at hcall
    cases hcall
  · rw [hc] at hcall
    cases hcall
  · rw [hc] at hcall
    cases hcall
  · rw [hc] at hcall
    cases hcall
  · rw [hc] at hcall
    cases hcall
  · rw [hQ] at hQ'
    cases hQ'
    exact ⟨r, hr, hasked, hout⟩

/-- A flush asks the executor for the pending bytes of its queue. -/
theorem asked_of_flush {q q' : Queues ε} {l : Label} {Q : Queue}
    (h : queueStep exec q l = some q') (hcall : l.call = .flush)
    (hQ : q.queue l.intern = some Q) :
    l.asked = some ⟨Q.service, Q.pending, (exec q.core Q.service Q.pending).1⟩ := by
  have hsome : (Q.react exec q.core .flush).isSome := by
    simp only [Queue.react]
    split <;> rfl
  obtain ⟨r, hr, hasked, -⟩ := queueStep_react h hQ (by rw [hcall]; exact hsome)
  rw [hcall] at hr
  rcases Queue.react_cases hr with ⟨_, hc, -⟩ | ⟨_, hc, -⟩ | ⟨-, ha, -⟩ | ⟨-, hc⟩
  · cases hc
  · cases hc
  · rw [hasked, ha]
  · simp at hc

/-! ## Requests -/

/-- The bytes of failed requests that are still pending, and those written since. -/
structure CallBytes where
  left : Bytes
  own : Bytes

/-- The history of transport `b`. -/
def CallBytes.track (b : ℕ) (h : CallBytes) (l : Label) : CallBytes :=
  if l.intern = b then
    match l.call, l.outcome with
    | .construct (some _), .returned _ => ⟨[], []⟩
    | .write (some buf), .returned _ => { h with own := h.own ++ buf }
    | .flush, .returned (.raised _) => ⟨h.left ++ h.own, []⟩
    | .flush, .returned _ => ⟨[], []⟩
    | _, _ => h
  else h

/-- The queue of `b` is as the history has it. -/
def CallBytes.Fits (h : CallBytes) (q : Queues ε) (b : ℕ) : Prop :=
  ∀ Q, q.queue b = some Q → Q.pending = h.left ++ h.own

theorem CallBytes.fits_track {h : CallBytes} {q q' : Queues ε} {b : ℕ} {l : Label}
    (hf : h.Fits q b) (hs : queueStep exec q l = some q') : (h.track b l).Fits q' b := by
  intro Q' hQ'
  unfold track
  rcases queueStep_queue hs hQ' with ⟨hQ, hb | hcall⟩ | ⟨hb, ⟨name, hcall, hout, rfl⟩ |
    ⟨Q, r, hQ, hr, -, hout, rfl⟩⟩
  · rw [if_neg hb]
    exact hf Q' hQ
  · split_ifs
    · rcases hcall with hcall | hcall | hcall | hcall <;> rw [hcall] <;> exact hf Q' hQ
    · exact hf Q' hQ
  · rw [if_pos hb, hcall, hout]
    rfl
  · have hpend := hf Q hQ
    rw [if_pos hb, hout]
    rcases Queue.react_cases hr with ⟨buf, hcall, ho, hq⟩ | ⟨len, hcall, -, ho, hq⟩ |
      ⟨hcall, -, ⟨s, -, ho, hq⟩ | ⟨-, ho, hq⟩ | ⟨-, ho, hq⟩⟩ | ⟨hq, hcall⟩
    · rw [hcall, ho, hq]
      simp only [hpend, List.append_assoc]
    · rw [hcall, ho, hq]
      exact hpend
    · rw [hcall, ho, hq]
      rfl
    · rw [hcall, ho, hq]
      simp only [hpend, List.append_nil]
    · rw [hcall, ho, hq]
      exact hpend
    · rw [hq]
      rcases hcall with hcall | hcall | hcall | hcall | hcall | ⟨len, hcall, -⟩ <;> rw [hcall] <;>
        exact hpend

section Requests

variable {σ : Type} (M : Malloc) (between : ℕ → Core σ → Core σ)

/-- A processor will be run for the service of the object. -/
def reaches (w : World (ℕ × Core σ)) (this : ℕ) : Bool :=
  match w.contents (fetchObject this) with
  | none => false
  | some c => ((between w.core.1 w.core.2).finds M c.serviceName.val).isSome

/-- If this is a flush of `b` at which a processor is run, what it is handed and what it sees is
what has been written since the last flush attempt. -/
def ownRequest (b : ℕ) (h : CallBytes) (m : Move (World (ℕ × Core σ)) Event Label) : Bool :=
  match m.input, m.output.asked with
  | .flush this, some q =>
    fetchObject this ≠ b || q.answer.served.all fun sv => q.request = h.own && sv.input = h.own
  | _, _ => true

/-- If this is a flush of `b` that reaches a processor, the failed flushes before it have left
nothing, and the request is shorter than `2 ^ 32` bytes. -/
def cleanFlush (b : ℕ) (h : CallBytes) (m : Move (World (ℕ × Core σ)) Event Label) : Bool :=
  match m.input with
  | .flush this =>
    fetchObject this ≠ b || !reaches M between m.pre this ||
      (h.left = [] && h.own.length < 2 ^ 32)
  | _ => true

variable {M between}

/-- The processor run behind an answer of the core. -/
theorem coreExecutor_served (M : Malloc) (between : ℕ → Core σ → Core σ) (e : ℕ × Core σ)
    (s r : Bytes) :
    (coreExecutor M between e s r).1.served.map Served.input =
      ((between e.1 e.2).finds M s).map fun _ => r.take (r.length % 2 ^ 32) := by
  show (processThriftDataGeneric M (between e.1 e.2) s r _).1.served.map Served.input = _
  cases hf : (between e.1 e.2).finds M s with
  | none => rw [(generic_of_not_finds hf _ _).1, Option.map_none, Option.map_none]
  | some p => rw [generic_of_finds hf, Option.map_some, Option.map_some, narrowed_length]

/-- What a processor is handed after failed flushes. -/
theorem own_iff {left own : Bytes} :
    (left ++ own = own ∧ (left ++ own).take ((left ++ own).length % 2 ^ 32) = own) ↔
      left = [] ∧ own.length < 2 ^ 32 := by
  constructor
  · rintro ⟨h1, h2⟩
    have hleft : left = [] := List.append_left_eq_self.mp h1
    subst hleft
    refine ⟨rfl, ?_⟩
    have := congrArg List.length h2
    rw [List.nil_append, List.length_take] at this
    have := Nat.mod_lt own.length (show 0 < 2 ^ 32 by norm_num)
    omega
  · rintro ⟨rfl, h2⟩
    rw [List.nil_append, Nat.mod_eq_of_lt h2, List.take_length]
    exact ⟨rfl, rfl⟩

/-- **One flush.** -/
theorem own_flush_iff {w w' : World (ℕ × Core σ)} {q : Queues (ℕ × Core σ)} {this : ℕ} {l : Label}
    {h : CallBytes} {b : ℕ} (hR : Refines w q) (hf : h.Fits q b)
    (hc : inContract w (.flush this) = true)
    (hs : engineStep Z (coreExecutor M between) w (.flush this) = some (w', l))
    (hret : l.returned = true) :
    ownRequest b h ⟨w, .flush this, l, w'⟩ = cleanFlush M between b h ⟨w, .flush this, l, w'⟩ := by
  obtain ⟨q', hq', -⟩ := queueStep_of_returned hR hc hs hret
  have hin := flush_intern hs
  have hcall : l.call = .flush := engineStep_call hs
  obtain ⟨o, rs, rw, rr, c, hcon, -, -, hq⟩ := hR.exists_contents hc
  have hcont : w.contents (fetchObject this) = some c := by
    show w.unasked.contents (fetchObject this) = some c
    exact contents_eq_some.mpr ⟨o, rs, rw, rr, hcon⟩
  have hasked := asked_of_flush hq' hcall (by rw [hin]; exact hq)
  by_cases hb : fetchObject this = b
  · have hpend : c.queue.pending = h.left ++ h.own := hf _ (by rw [← hb]; exact hq)
    have hserved := coreExecutor_served M between q.core c.queue.service
      c.queue.pending
    have hreach : reaches M between w this =
        ((between q.core.1 q.core.2).finds M c.queue.service).isSome := by
      simp only [reaches, hcont, hR.core]
      rfl
    have hrun : ownRequest b h ⟨w, .flush this, l, w'⟩ =
        ((coreExecutor M between q.core c.queue.service c.queue.pending).1.served.map
          Served.input).all fun input => c.queue.pending = h.own && input = h.own := by
      simp [ownRequest, hasked, hb, Option.all_map]
    have hclean : cleanFlush M between b h ⟨w, .flush this, l, w'⟩ =
        (!((between q.core.1 q.core.2).finds M c.queue.service).isSome ||
          (decide (h.left = []) && decide (h.own.length < 2 ^ 32))) := by
      simp only [cleanFlush, hreach, hb, ne_eq, not_true_eq_false, decide_false, Bool.false_or]
    rw [hrun, hclean, hserved, hpend, Bool.eq_iff_iff]
    cases (between q.core.1 q.core.2).finds M c.queue.service with
    | none => simp
    | some p =>
        simp only [Option.map_some, Option.all_some, Option.isSome_some, Bool.not_true,
          Bool.false_or, Bool.and_eq_true, decide_eq_true_eq]
        exact own_iff
  · simp [ownRequest, cleanFlush, hasked, hb]

/-- The other calls ask nothing. -/
theorem own_of_not_flush (M : Malloc) (between : ℕ → Core σ → Core σ) {w w' : World (ℕ × Core σ)}
    {ev : Event} {l : Label} {h : CallBytes} {b : ℕ} (hev : ∀ this, ev ≠ .flush this) :
    ownRequest b h ⟨w, ev, l, w'⟩ = cleanFlush M between b h ⟨w, ev, l, w'⟩ := by
  cases ev <;> first | rfl | exact absurd rfl (hev _)

/-- **Each request is the call's own** if and only if each flush that reaches a processor finds
nothing left by a failed flush, and a request shorter than `2 ^ 32` bytes. -/
theorem own_request_iff (Z : ZendApi) (M : Malloc) (between : ℕ → Core σ → Core σ)
    (core : Core σ) (b : ℕ) {w : World (ℕ × Core σ)}
    {ms : List (Move (World (ℕ × Core σ)) Event Label)}
    (hr : (engine Z (coreExecutor M between)).Runs (World.init (0, core)) ms w)
    (hc : ∀ m ∈ ms, wellEnded m = true) :
    Always (CallBytes.track b) (fun h m => ownRequest b h m = true) ⟨[], []⟩ ms ↔
      Always (CallBytes.track b) (fun h m => cleanFlush M between b h m = true) ⟨[], []⟩ ms := by
  refine hr.always_iff (fun w h => ∃ q, Refines w q ∧ h.Fits q b)
    (fun m => wellEnded m = true) ?_ ?_
    ⟨_, refines_init _, fun Q hQ => by cases hQ⟩ hc
  · rintro w ev l w' h ⟨q, hR, hf⟩ hE hs
    obtain ⟨hin, hret⟩ := wellEnded_iff.mp hE
    by_cases hev : ∃ this, ev = .flush this
    · obtain ⟨this, rfl⟩ := hev
      rw [own_flush_iff hR hf hin hs hret]
    · rw [own_of_not_flush M between (not_exists.mp hev)]
  · rintro w ev l w' h ⟨q, hR, hf⟩ hE - hs
    obtain ⟨hin, hret⟩ := wellEnded_iff.mp hE
    obtain ⟨q', hq', hR'⟩ := queueStep_of_returned hR hin hs hret
    exact ⟨q', hR', CallBytes.fits_track hf hq'⟩

end Requests

/-- A bridge in which every allocation is granted, and nothing happens between the calls. -/
def grantingExecutor : Executor (ℕ × Core (List Ended)) :=
  coreExecutor (fun _ _ => true) fun _ c => c

/-- Two calls of the service `A`, on the transport in block 4096. -/
def twoCalls : List Event :=
  [.createObject 0, .construct 4128 (some (zstrChar 65)), .write 4128 (some (zstrChar 1)),
    .flush 4128, .write 4128 (some (zstrChar 2)), .flush 4128]

/-- Both calls are answered. -/
theorem own_request_two :
    ∃ w ms, (engine .unlimited grantingExecutor).Runs (World.init (0, scriptedCore [])) ms w ∧
      ms.map Move.input = twoCalls ∧
      Always (CallBytes.track 4096) (fun h m => ownRequest 4096 h m = true) ⟨[], []⟩ ms := by
  obtain ⟨w, ms, hr, hin, hg⟩ := Runs.exists_of_inputs (engine .unlimited grantingExecutor)
    (World.init (0, scriptedCore [])) twoCalls
    (fun r => r.2.all wellEnded && decide (Always (CallBytes.track 4096)
      (fun h m => cleanFlush (fun _ _ => true) (fun _ c => c) 4096 h m = true) ⟨[], []⟩ r.2)) rfl
  rw [Bool.and_eq_true, List.all_eq_true, decide_eq_true_eq] at hg
  exact ⟨w, ms, hr, hin, (own_request_iff _ _ _ _ 4096 hr hg.1).mpr hg.2⟩

/-- The first call ends with a `TException`. The processor is then handed its request again, in
front of the second one. -/
theorem failed_request_resent :
    ∃ w ms, (engine .unlimited grantingExecutor).Runs
        (World.init (0, scriptedCore [.threwTException])) ms w ∧
      ms.map Move.input = twoCalls ∧ (∀ m ∈ ms, wellEnded m = true) ∧
      (ms.filterMap fun m => m.output.asked.map Asked.answer) =
        [⟨.null, some ⟨[1], [1], .threwTException⟩⟩,
          ⟨.response [1, 2], some ⟨[1, 2], [1, 2], .returned true⟩⟩] ∧
      ¬ Always (CallBytes.track 4096) (fun h m => ownRequest 4096 h m = true) ⟨[], []⟩ ms := by
  obtain ⟨w, ms, hr, hin, hg⟩ := Runs.exists_of_inputs (engine .unlimited grantingExecutor)
    (World.init (0, scriptedCore [.threwTException])) twoCalls
    (fun r => r.2.all wellEnded && (decide
      ((r.2.filterMap fun m => m.output.asked.map Asked.answer) =
        [⟨.null, some ⟨[1], [1], .threwTException⟩⟩,
          ⟨.response [1, 2], some ⟨[1, 2], [1, 2], .returned true⟩⟩]) &&
      decide (¬ Always (CallBytes.track 4096) (fun h m => ownRequest 4096 h m = true)
        ⟨[], []⟩ r.2))) rfl
  rw [Bool.and_eq_true, Bool.and_eq_true, List.all_eq_true, decide_eq_true_eq,
    decide_eq_true_eq] at hg
  exact ⟨w, ms, hr, hin, hg⟩

end ThriftBridge

import ThriftBridge.Protocol.Code

/-!
# Code as a processor

* `Code.toProcess`, `Code.run_toProcess`: code as a call of `TProcessor::process`;
* `TProcessor.ofCode`: the processor with that code;
* `serve_ofCode`: a request that is presented to it, as a run of the code over the bytes of the
  request.
-/

set_option autoImplicit false

namespace ThriftBridge

variable {σ : Type}

/-- `some a` is `a`, and `none` is the end of the file. -/
def fromOption {α : Type} : Option α → Except Thrown α
  | some a => .ok a
  | none => .error (.transport .endOfFile)

/-- Code as what a call of `process` does, up to its end `last`. What `Process` cannot ask for is
kept: the message size that is left, the recursion depth and the handlers. -/
def Code.toProcess {α : Type} : Code σ α → ℕ → UInt32 → σ → (Except Thrown α → σ → Process σ) →
    Process σ
  | .ret a, _, _, s, last => last (.ok a) s
  | .raise e, _, _, s, last => last (.error e) s
  | .call (.read len) k, size, depth, s, last =>
    .read len fun r => toProcess (k (fromOption r)) size depth s last
  | .call (.readAll len) k, size, depth, s, last =>
    .readAll len fun r => toProcess (k (fromOption r)) size depth s last
  | .call (.borrow len) k, size, depth, s, last =>
    .borrow len fun r => toProcess (k (.ok r)) size depth s last
  | .call (.consume len) k, size, depth, s, last =>
    .consume len fun
      | true => toProcess (k (.ok ())) (size - len.toNat) depth s last
      | false => toProcess (k (.error (consumeError size len))) (size - len.toNat) depth s last
  | .call (.checkReadBytesAvailable numBytes) k, size, depth, s, last =>
    if (size : ℤ) < numBytes then toProcess (k (.error (.transport .endOfFile))) size depth s last
    else toProcess (k (.ok ())) size depth s last
  | .call .readEnd k, _, depth, s, last =>
    .readEnd fun n => toProcess (k (.ok n)) defaultMaxMessageSize depth s last
  | .call (.write buf) k, size, depth, s, last =>
    .write buf fun
      | none => toProcess (k (.ok ())) size depth s last
      | some e => toProcess (k (.error (.write e))) size depth s last
  | .call .incrementInputRecursionDepth k, size, depth, s, last =>
    toProcess (k (.ok (depth + 1))) size (depth + 1) s last
  | .call .decrementInputRecursionDepth k, size, depth, s, last =>
    toProcess (k (.ok ())) size (depth - 1) s last
  | .call .getHandlers k, size, depth, s, last => toProcess (k (.ok s)) size depth s last
  | .call (.setHandlers t) k, size, depth, _, last => toProcess (k (.ok ())) size depth t last

theorem TMemoryBuffer.remaining_read (t : TMemoryBuffer) (len : UInt32) :
    (t.read len).2.remainingMessageSize = t.remainingMessageSize := by
  unfold read
  split_ifs <;> rfl

theorem TMemoryBuffer.remaining_readAll (t : TMemoryBuffer) (len : UInt32) :
    (t.readAll len).2.remainingMessageSize = t.remainingMessageSize := by
  unfold readAll
  split_ifs <;> rfl

theorem TMemoryBuffer.remaining_consume (t : TMemoryBuffer) (len : UInt32) :
    (t.consume len).2.remainingMessageSize = t.remainingMessageSize - len.toNat := by
  unfold consume
  dsimp only
  split_ifs with h
  · exact (Nat.sub_eq_zero_of_le h.le).symm
  · rfl
  · rfl

theorem TMemoryBuffer.remaining_readEnd (t : TMemoryBuffer) :
    t.readEnd.2.remainingMessageSize = defaultMaxMessageSize := by
  unfold readEnd
  split_ifs <;> rfl

/-- The transports of a call. -/
def Session.transports (s : Session TMemoryBuffer σ) : Transports :=
  ⟨s.input, s.output, s.wrote, s.mallocs⟩

/-- What follows the end of a run. -/
def afterRun {α : Type} (M : Malloc) (last : Except Thrown α → σ → Process σ) :
    EStateM.Result Thrown (Session TMemoryBuffer σ) α → Ended × σ × Transports
  | .ok a t => (last (.ok a) t.handlers).run M t.transports
  | .error e t => (last (.error e) t.handlers).run M t.transports

/-- **The call does what the code does.** -/
theorem Code.run_toProcess {α : Type} (M : Malloc) (p : Code σ α)
    (last : Except Thrown α → σ → Process σ) (s : Session TMemoryBuffer σ) :
    (p.toProcess s.input.remainingMessageSize s.inputRecursionDepth s.handlers last).run M
      s.transports = afterRun M last (p.exec M s) := by
  induction p generalizing s with
  | ret a => rfl
  | raise e => rfl
  | call op k ih =>
      cases op with
      | read len =>
          have h := ih (fromOption (s.input.read len).1) { s with input := (s.input.read len).2 }
          simp only [s.input.remaining_read] at h
          refine h.trans ?_
          simp only [exec, Program.exec, sessionHandler, onInput, InputTransport.read]
          cases s.input.read len with
          | mk r t => cases r <;> rfl
      | readAll len =>
          have h := ih (fromOption (s.input.readAll len).1)
            { s with input := (s.input.readAll len).2 }
          simp only [s.input.remaining_readAll] at h
          refine h.trans ?_
          simp only [exec, Program.exec, sessionHandler, onInput, InputTransport.readAll]
          cases s.input.readAll len with
          | mk r t => cases r <;> rfl
      | borrow len => exact ih _ s
      | consume len =>
          have hstep := s.input.remaining_consume len
          simp only [toProcess, Process.run, exec, Program.exec, sessionHandler, onInput,
            InputTransport.consume, Session.transports]
          cases hc : s.input.consume len with
          | mk r t =>
              rw [hc] at hstep
              simp only at hstep
              rw [← hstep]
              cases r with
              | false => exact ih (.error _) { s with input := t }
              | true => exact ih (.ok ()) { s with input := t }
      | checkReadBytesAvailable n =>
          simp only [toProcess, exec, Program.exec, sessionHandler, onInput,
            InputTransport.checkReadBytesAvailable]
          split_ifs
          · exact ih (.error _) s
          · exact ih (.ok ()) s
      | readEnd =>
          have h := ih (.ok s.input.readEnd.1) { s with input := s.input.readEnd.2 }
          simp only [s.input.remaining_readEnd] at h
          exact h
      | write buf =>
          simp only [toProcess, Process.run, exec, Program.exec, sessionHandler,
            Session.transports]
          cases s.output.write M buf s.mallocs with
          | mk r mallocs =>
              cases r with
              | ok t =>
                  exact ih (.ok ()) { s with
                    output := t, wrote := s.wrote ++ buf.val, mallocs := mallocs }
              | error e => exact ih (.error (.write e)) { s with mallocs := mallocs }
      | incrementInputRecursionDepth =>
          exact ih (.ok _) { s with inputRecursionDepth := s.inputRecursionDepth + 1 }
      | decrementInputRecursionDepth =>
          exact ih (.ok ()) { s with inputRecursionDepth := s.inputRecursionDepth - 1 }
      | getHandlers => exact ih _ s
      | setHandlers t => exact ih _ { s with handlers := t }

/-- The processor whose `process` is `code`. -/
def TProcessor.ofCode (code : Code σ Bool) : TProcessor σ where
  process handlers := code.toProcess defaultMaxMessageSize 0 handlers fun
    | .ok ok, s => .done (.returned ok) s
    | .error e, s => .done e.ended s

/-- The session in which a request is presented. -/
def Session.initial {I : Type} (input : I) (c : Core σ) : Session I σ :=
  ⟨input, .owned, [], c.mallocs + 1, 0, c.handlers⟩

/-- A request of which nothing is read. -/
def Unread.ofRequest (request : Bytes) : Unread := ⟨request, 0, defaultMaxMessageSize⟩

/-- How a call of `process` ends. -/
def endedOf {I : Type} : EStateM.Result Thrown (Session I σ) Bool → Ended
  | .ok ok _ => .returned ok
  | .error e _ => e.ended

/-- **A processor that is given as code.** How its call ends, what it writes and leaves unread can be
read off a run of the code over the bytes of the request. -/
theorem serve_ofCode (M : Malloc) (c : Core σ) (code : Code σ Bool) {request : Bytes}
    (hlt : request.length < 2 ^ 32) :
    let run := code.exec M (Session.initial (Unread.ofRequest request) c)
    let served := c.serve M (.ofCode code) request (UInt64.ofNat request.length)
    served.1 = endedOf run ∧ served.2.1 = (Program.endState run).handlers ∧
      served.2.2.wrote = (Program.endState run).wrote ∧
      served.2.2.mallocs = (Program.endState run).mallocs ∧
      served.2.2.input.readable = (Program.endState run).input.bytes := by
  intro run served
  set input := TMemoryBuffer.observe request (UInt64.ofNat request.length).toUInt32 with hinput
  have hread : input.unread = Unread.ofRequest request := by
    have hr : input.readable = request := by
      refine TMemoryBuffer.readable_observe (le_of_eq ?_)
      rw [narrowed_length, Nat.mod_eq_of_lt hlt]
    simp only [TMemoryBuffer.unread, hr]
    rfl
  have hsame := code.exec_alike TMemoryBuffer.alike_unread M
    (s := Session.initial input c) (t := Session.initial (Unread.ofRequest request) c)
    ⟨hread, rfl, rfl, rfl, rfl, rfl⟩
  have hrun : served = _ := code.run_toProcess M _ (Session.initial input c)
  rw [hrun]
  change Program.SameEnd _ _ run at hsame
  cases hx : code.exec M (Session.initial input c) with
  | ok a s =>
      cases hy : run with
      | ok b t =>
          rw [hx, hy] at hsame
          obtain ⟨rfl, hi, -, hw, hm, -, hh⟩ := hsame
          exact ⟨rfl, hh, hw, hm, congrArg Unread.bytes hi⟩
      | error f t =>
          rw [hx, hy] at hsame
          exact hsame.elim
  | error e s =>
      cases hy : run with
      | ok b t =>
          rw [hx, hy] at hsame
          exact hsame.elim
      | error f t =>
          rw [hx, hy] at hsame
          obtain ⟨rfl, hi, -, hw, hm, -, hh⟩ := hsame
          exact ⟨rfl, hh, hw, hm, congrArg Unread.bytes hi⟩

end ThriftBridge

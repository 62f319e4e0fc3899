import ThriftBridge.Protocol.Dispatch
import ThriftBridge.Transport.Batches
import ThriftBridge.Transport.Exhaustion

/-!
# Remote calls

* `CallReturns`: a request is a call of a dispatcher that returns;
* `response_iff`: the bridge answers exactly the calls that return, with what they have written;
* `flush_calls`: a flush succeeds exactly on these;
* `calls_of_run`: so do all flushes of a run.
-/

set_option autoImplicit false

namespace ThriftBridge

open Machine World

variable {σ : Type} {M : Malloc} {Z : ZendApi}

/-- On `c`, the request is a call of `dispatchCall` that returns `true` in `t`, and the allocations
around it succeed. -/
structure CallReturns (M : Malloc) (dispatchCall : Bytes → Int32 → Code σ Bool) (c : Core σ)
    (request : Bytes) (t : Session Unread σ) : Prop where
  output : M c.mallocs 1024 = true
  run : ∃ h name seqid rest, CallHeader h name seqid ∧ presented request = h ++ rest ∧
    (dispatchCall name seqid).exec M (afterHeader c h name rest) = .ok true t
  copy : M t.mallocs t.wrote.length = true

theorem CallReturns.unique {dispatchCall : Bytes → Int32 → Code σ Bool} {c : Core σ}
    {request : Bytes} {t u : Session Unread σ} (ht : CallReturns M dispatchCall c request t)
    (hu : CallReturns M dispatchCall c request u) : t = u := by
  obtain ⟨h, name, seqid, rest, ⟨type, hh, -⟩, hreq, hx⟩ := ht.run
  obtain ⟨h', name', seqid', rest', ⟨type', hh', -⟩, hreq', hx'⟩ := hu.run
  obtain ⟨rfl, rfl, -, rfl, rfl⟩ := hh.unique hh' (hreq.symm.trans hreq')
  rw [hx] at hx'
  cases hx'
  rfl

/-! ## Answers -/

/-- The end of a run is one that returns. -/
theorem endedOf_eq_returned {run : EStateM.Result Thrown (Session Unread σ) Bool} {ok : Bool} :
    endedOf run = .returned ok ↔ run = .ok ok (Program.endState run) := by
  cases run with
  | ok b t =>
      show Ended.returned b = .returned ok ↔ EStateM.Result.ok b t = .ok ok t
      simp
  | error e t =>
      refine ⟨fun h => ?_, fun h => by cases h⟩
      cases e with
      | write e => cases e <;> cases h
      | _ => cases h

/-- A request is answered by a response exactly if `process` returns `true` and the response can be
copied. -/
theorem runReply_eq_response {run : Ended × σ × Transports} {bytes : Bytes} :
    runReply M run = .response bytes ↔
      run.1 = .returned true ∧ M run.2.2.mallocs run.2.2.wrote.length = true ∧
        run.2.2.wrote = bytes := by
  obtain ⟨ended, s, T⟩ := run
  cases ended with
  | threwTException => simp [runReply]
  | threwOther => simp [runReply]
  | returned ok =>
      cases ok with
      | false => simp [runReply]
      | true =>
          simp only [runReply]
          split_ifs with h <;> simp [h]

/-- **The call on a core.** -/
theorem serve_returns_iff {dispatchCall : Bytes → Int32 → Code σ Bool} {c : Core σ}
    (request : Bytes) (hm : M c.mallocs 1024 = true) {bytes : Bytes} {s : σ} :
    let served := c.serve M (TDispatchProcessor.processor dispatchCall) request
      (UInt64.ofNat request.length)
    runReply M served = .response bytes ∧ served.2.1 = s ↔
      ∃ t, CallReturns M dispatchCall c request t ∧ t.wrote = bytes ∧ t.handlers = s := by
  intro served
  have hserved : served = _ := serve_presented M c _ request
  rw [runReply_eq_response]
  by_cases hcall : ∃ h name seqid rest, CallHeader h name seqid ∧ presented request = h ++ rest
  · obtain ⟨h, name, seqid, rest, hh, hreq⟩ := hcall
    have hlt := length_presented_lt request
    rw [hreq] at hserved hlt
    obtain ⟨h1, h2, h3, h4, -⟩ := serve_call M c dispatchCall hh hlt
    rw [← hserved] at h1 h2 h3 h4
    rw [h1, h2, h3, h4, endedOf_eq_returned]
    constructor
    · rintro ⟨⟨hx, hcopy, hw⟩, hs⟩
      exact ⟨_, ⟨hm, ⟨h, name, seqid, rest, hh, hreq, hx⟩, hcopy⟩, hw, hs⟩
    · rintro ⟨t, ht, hw, hs⟩
      obtain ⟨h', name', seqid', rest', ⟨type', hh', -⟩, hreq', hx⟩ := ht.run
      obtain ⟨type, hheader, -⟩ := hh
      obtain ⟨rfl, rfl, -, rfl, rfl⟩ := hheader.unique hh' (hreq.symm.trans hreq')
      rw [hx]
      exact ⟨⟨rfl, ht.copy, hw⟩, hs⟩
  · have hno : ∀ h name seqid rest, CallHeader h name seqid → presented request ≠ h ++ rest :=
      fun h name seqid rest hh hreq => hcall ⟨h, name, seqid, rest, hh, hreq⟩
    have hend := (serve_no_call M c dispatchCall (length_presented_lt request) hno).1
    rw [← hserved] at hend
    refine iff_of_false (fun h => ?_) fun h => ?_
    · rw [h.1.1] at hend
      simp at hend
    · obtain ⟨t, ht, -⟩ := h
      obtain ⟨h', name, seqid, rest, hh, hreq, -⟩ := ht.run
      exact hcall ⟨h', name, seqid, rest, hh, hreq⟩

/-- **The bridge answers exactly the calls that return**, with what they have written. -/
theorem response_iff {between : ℕ → Core σ → Core σ} {e : ℕ × Core σ}
    {dispatchCall : Bytes → Int32 → Code σ Bool} {service request : Bytes}
    (hreg : (between e.1 e.2).registered service =
      some (TDispatchProcessor.processor dispatchCall)) {bytes : Bytes} {s : σ} :
    (coreExecutor M between e service request).1.reply = .response bytes ∧
        (coreExecutor M between e service request).2.2.handlers = s ↔
      ∃ t, CallReturns M dispatchCall (between e.1 e.2) request t ∧ t.wrote = bytes ∧
        t.handlers = s := by
  have hfinds := finds_eq M (between e.1 e.2) service
  have hhandlers : (coreExecutor M between e service request).2.2.handlers = _ :=
    generic_handlers M (between e.1 e.2) service request (UInt64.ofNat request.length)
  rw [hhandlers, hfinds, coreExecutor_answer, hreg]
  by_cases hm : M (between e.1 e.2).mallocs 1024 = true
  · simp only [hm, if_true]
    exact serve_returns_iff request hm
  · refine iff_of_false (fun h => ?_) fun h => ?_
    · simp [hm] at h
    · obtain ⟨t, ht, -⟩ := h
      exact hm ht.output

/-! ## Flushes -/

variable {this : ℕ} {l : Label} {between : ℕ → Core σ → Core σ}
  {dispatchCall : Bytes → Bytes → Int32 → Code σ Bool} {w v : World (ℕ × Core σ)}

/-- On `c`, the request is a call of its service that returns in `t`. -/
def Core.Returns (M : Malloc) (dispatchCall : Bytes → Bytes → Int32 → Code σ Bool) (c : Core σ)
    (service request : Bytes) (t : Session Unread σ) : Prop :=
  c.registered service ≠ none ∧ CallReturns M (dispatchCall service) c request t

/-- The flush of the object in block `b` succeeds exactly if its write buffer is a call of its service
that returns. Then the read buffer has what the call has written, the write buffer is empty, and the
handlers are as the call has left them. -/
def FlushCalls (M : Malloc) (between : ℕ → Core σ → Core σ)
    (dispatchCall : Bytes → Bytes → Int32 → Code σ Bool) (b : ℕ) (w : World (ℕ × Core σ)) (l : Label)
    (v : World (ℕ × Core σ)) : Prop :=
  ∃ service request, w.bytesOf b (·.serviceName) = some service ∧
    w.bytesOf b (·.wBuf) = some request ∧
    (l.outcome = .returned .null ↔
      ∃ t, (between w.core.1 w.core.2).Returns M dispatchCall service request t) ∧
    ∀ t, (between w.core.1 w.core.2).Returns M dispatchCall service request t →
      v.bytesOf b (·.rBuf) = some t.wrote ∧ v.bytesOf b (·.wBuf) = some [] ∧
        v.core.2.handlers = t.handlers

/-- A call that returns is answered by what it has written. -/
theorem Core.Returns.answer {service request : Bytes} {t : Session Unread σ} {e : ℕ × Core σ}
    (hd : Dispatches dispatchCall (between e.1 e.2))
    (ht : (between e.1 e.2).Returns M dispatchCall service request t) :
    (coreExecutor M between e service request).1.reply = .response t.wrote ∧
      (coreExecutor M between e service request).2.2.handlers = t.handlers := by
  obtain ⟨p, hp⟩ := Option.ne_none_iff_exists'.mp ht.1
  rw [hd service p hp] at hp
  exact (response_iff hp).mpr ⟨t, ht.2, rfl, rfl⟩

/-- What is answered by a response is a call that returns. -/
theorem Core.exists_returns {service request bytes : Bytes} {e : ℕ × Core σ}
    (hd : Dispatches dispatchCall (between e.1 e.2))
    (ha : (coreExecutor M between e service request).1.reply = .response bytes) :
    ∃ t, (between e.1 e.2).Returns M dispatchCall service request t := by
  cases hp : (between e.1 e.2).registered service with
  | none =>
      rw [coreExecutor_answer, hp] at ha
      cases ha
  | some p =>
      have hp' := hp
      rw [hd service p hp] at hp'
      obtain ⟨t, ht, -⟩ := (response_iff hp').mp ⟨ha, rfl⟩
      exact ⟨t, by simp [hp], ht⟩

/-- **A flush is a call.** -/
theorem flush_calls {q : Queues (ℕ × Core σ)} (hR : Refines w q) (hc : w.constructed this = true)
    (hs : engineStep Z (coreExecutor M between) w (.flush this) = some (v, l))
    (hg : copyGranted Z (coreExecutor M between) w (.flush this) = true)
    (hd : Dispatches dispatchCall (between w.core.1 w.core.2)) :
    FlushCalls M between dispatchCall (fetchObject this) w l v := by
  have hlive : l.outcome ≠ .stopped .bailout := by
    rcases flush_exit hR hc hs with ⟨h, -⟩ | ⟨-, h, -⟩
    · exact h
    · cases h.symm.trans hg
  obtain ⟨-, hrun⟩ := engineStep_eq_some hs
  obtain ⟨o, rs, rw', rr, c, hcon, hdtor, -, -⟩ := hR.exists_contents hc
  have hd' : o.destructorCalled = true → false = true := by simp [hdtor]
  obtain ⟨⟨a, e⟩, he⟩ : ∃ r, coreExecutor M between w.core c.serviceName.val c.wBuf.val = r :=
    ⟨_, rfl⟩
  have ha := congrArg (fun r => r.1.reply) he
  have hcore := congrArg (fun r => r.2.2.handlers) he
  have hn : w.unasked.bytesOf (fetchObject this) (·.serviceName) = some c.serviceName.val :=
    bytesOf_eq hcon.obj (by simpa only [hcon.serviceName, Option.bind_some] using
      hcon.deref_serviceName)
  have hw : w.unasked.bytesOf (fetchObject this) (·.wBuf) = some c.wBuf.val :=
    bytesOf_eq hcon.obj (by simpa only [hcon.wBuf, Option.bind_some] using hcon.deref_wBuf)
  refine ⟨c.serviceName.val, c.wBuf.val, hn, hw, ?_⟩
  -- a flush that does not succeed is not a call that returns
  have hfailed (hno : ∀ bytes, a.reply ≠ .response bytes) (hout : l.outcome ≠ .returned .null) :
      (l.outcome = .returned .null ↔ ∃ t, (between w.core.1 w.core.2).Returns M dispatchCall
        c.serviceName.val c.wBuf.val t) ∧ ∀ t, (between w.core.1 w.core.2).Returns M dispatchCall
        c.serviceName.val c.wBuf.val t → v.bytesOf (fetchObject this) (·.rBuf) = some t.wrote ∧
          v.bytesOf (fetchObject this) (·.wBuf) = some [] ∧ v.core.2.handlers = t.handlers := by
    have hnot (t : Session Unread σ) : ¬ (between w.core.1 w.core.2).Returns M dispatchCall
        c.serviceName.val c.wBuf.val t := fun ht => hno _ (ha.symm.trans (ht.answer hd).1)
    exact ⟨iff_of_false hout fun ⟨t, ht⟩ => hnot t ht, fun t ht => absurd ht (hnot t)⟩
  rcases flush_cases (Z := Z) hR.inv hcon hd' he with ⟨hnull, hr⟩ | ⟨hunwound, hr⟩ |
    ⟨bytes, hresp, ⟨-, -, -, hout⟩ | ⟨-, s, rfl, hr⟩⟩
  · cases hrun.trans hr
    exact hfailed (by simp [hnull]) (by simp)
  · cases hrun.trans hr
    exact hfailed (by simp [hunwound]) (by simp)
  · rw [← hrun] at hout
    exact absurd hout hlive
  · have hlabel := congrArg Prod.snd (hrun.trans hr)
    have hout : l.outcome = .returned .null := congrArg Label.outcome hlabel
    obtain ⟨t, ht⟩ := Core.exists_returns hd (ha.trans hresp)
    obtain ⟨n, p, bytes, hn', hw', hreply, hrBuf, hwBuf⟩ := flush_succeeds hs hout
    cases hn.symm.trans hn'
    cases hw.symm.trans hw'
    have hworld : v.core = e := by
      have hv := congrArg Prod.fst (hrun.trans hr)
      rw [show v = _ from hv]
      exact (flushedWorld_core _ _ _ _ _ _ _ _).1
    refine ⟨iff_of_true hout ⟨t, ht⟩, fun u hu => ⟨?_, hwBuf, ?_⟩⟩
    · rw [hrBuf]
      have h := (hu.answer hd).1.symm.trans hreply
      cases h
      rfl
    · rw [hworld]
      exact hcore.symm.trans (hu.answer hd).2

/-! ## Runs -/

/-- Unless the copy of a response is refused, the objects show queues after an event. -/
theorem exists_refines {ε : Type} {exec : Executor ε} {w v : World ε} {ev : Event}
    (hR : ∃ q, Refines w q) (hc : inContract w ev = true) (hg : copyGranted Z exec w ev = true)
    (hs : engineStep Z exec w ev = some (v, l)) : ∃ q, Refines v q := by
  obtain ⟨q, hR⟩ := hR
  rcases simulated_step hR hc hs with ⟨⟨hout, -⟩, hcall | hR'⟩ | ⟨q', -, hR'⟩
  · obtain ⟨this, rfl⟩ := flush_of_call hs hcall
    rcases flush_exit hR hc hs with ⟨hno, -⟩ | ⟨-, hno, -⟩
    · exact absurd hout hno
    · cases hno.symm.trans hg
  · exact ⟨q, hR'⟩
  · exact ⟨q', hR'⟩

/-- What is registered is left alone by all events. -/
theorem dispatches_step {ev : Event}
    (hbetween : ∀ i c, Dispatches dispatchCall c → Dispatches dispatchCall (between i c))
    (hd : Dispatches dispatchCall w.core.2)
    (hs : engineStep Z (coreExecutor M between) w ev = some (v, l)) :
    Dispatches dispatchCall v.core.2 := by
  obtain ⟨hcore, -⟩ := engineStep_asked hs
  rw [hcore]
  cases l.asked with
  | none => exact hd
  | some q =>
      intro s p hp
      exact hbetween _ _ hd s p ((generic_registered M _ q.service q.request _ s).symm.trans hp)

end ThriftBridge

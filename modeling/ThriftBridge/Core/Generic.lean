import ThriftBridge.Core.Loader
import ThriftBridge.Core.MemoryBuffer

/-!
# `process_thrift_data_generic`

* `Core σ`: the static state with registered processors, the state of their handlers, and the
  number of C allocations so far;
* `processThriftDataGeneric`: as in the source;
* `coreExecutor`: the bridge's executor over it, with anything happening between two calls;
* `generic_*`: how a call ends;
* `presented_whole_iff`: the requests that a processor gets whole.
-/

set_option autoImplicit false

namespace ThriftBridge

variable {σ : Type}

/-- A `TProcessor`: what its `process` does, from the state of the handlers. -/
structure TProcessor (σ : Type) where
  process : σ → Process σ

/-- The static state, the handlers' state and the number of C allocations. -/
structure Core (σ : Type) where
  lib : CoreLib (TProcessor σ)
  handlers : σ
  mallocs : ℕ

/-- What `process_thrift_data_generic` does for its caller: it returns `NULL`, returns a buffer and
sets `*output_len`, or throws. -/
inductive GenericResult
  | null
  | buffer (result : Bytes) (outputLen : UInt64)
  | threw
deriving DecidableEq

/-- A result, and the processor run behind it, if there was one. -/
structure GenericCall where
  result : GenericResult
  served : Option Served
deriving DecidableEq

/-- What follows `process`: only a `TException` is caught. -/
def finish (M : Malloc) (ended : Ended) (T : Transports) : GenericResult × ℕ :=
  match ended with
  | .returned false => (.null, T.mallocs)
  | .threwTException => (.null, T.mallocs)
  | .threwOther => (.threw, T.mallocs)
  | .returned true =>
    let (buf, len) := T.output.getBuffer
    if M T.mallocs len.toNat then (.buffer (buf.take len.toNat) len.toUInt64, T.mallocs + 1)
    else (.null, T.mallocs + 1)

/-- `process_thrift_data_generic`. The result of `getProcessor` lives until the call returns. The
bridge's own `operator new`s, for the service name, the transports and the protocols, succeed. -/
def processThriftDataGeneric (M : Malloc) (c : Core σ) (serviceName inputBuf : Bytes)
    (inputLen : UInt64) : GenericCall × Core σ :=
  if c.lib.coreInitialized = false then (⟨.null, none⟩, c)
  else
    let (F, result) := c.lib.globalFactory.getProcessor serviceName
    match result.bind F.blocks.content with
    | none => (⟨.null, none⟩, c)
    | some processor =>
      let lib := { c.lib with globalFactory := F.letGo result }
      -- the length is narrowed to the constructor's `uint32_t`
      let input := TMemoryBuffer.observe inputBuf inputLen.toUInt32
      -- the 1024 bytes of the output transport, outside of the `try`
      if M c.mallocs 1024 then
        let r := (processor.process c.handlers).run M
          ⟨input, TMemoryBuffer.owned, [], c.mallocs + 1⟩
        let (res, mallocs) := finish M r.1 r.2.2
        (⟨res, some ⟨input.readable, r.2.2.wrote, r.1⟩⟩, ⟨lib, r.2.1, mallocs⟩)
      else (⟨.threw, none⟩, ⟨lib, c.handlers, c.mallocs + 1⟩)

/-- A result as `flush` sees it: `*output_len` bytes of the buffer. -/
def GenericResult.reply : GenericResult → Reply
  | .null => .null
  | .buffer result outputLen => .response (result.take outputLen.toNat)
  | .threw => .unwound

/-- The executor of the bridge. Its state counts the calls; before each call, `between` may do
anything to the core. -/
def coreExecutor (M : Malloc) (between : ℕ → Core σ → Core σ) : Executor (ℕ × Core σ) :=
  fun e serviceName request =>
    let (call, c) := processThriftDataGeneric M (between e.1 e.2) serviceName request
      (UInt64.ofNat request.length)
    (⟨call.result.reply, call.served⟩, (e.1 + 1, c))

/-! ## How a call ends -/

section Generic

variable {M : Malloc} {c : Core σ} {s buf : Bytes} {len : UInt64}

/-- The processor that a request for `s` is run on: the core is initialised, `s` is registered, and
the output transport gets its first 1024 bytes. -/
def Core.finds (M : Malloc) (c : Core σ) (s : Bytes) : Option (TProcessor σ) :=
  if c.lib.coreInitialized = true ∧ M c.mallocs 1024 = true then c.lib.globalFactory.resolve s
  else none

/-- The run of `processor` on the first bytes of `buf`, as many as the narrowed length says. -/
def Core.serve (M : Malloc) (c : Core σ) (processor : TProcessor σ) (buf : Bytes) (len : UInt64) :
    Ended × σ × Transports :=
  (processor.process c.handlers).run M
    ⟨TMemoryBuffer.observe buf len.toUInt32, TMemoryBuffer.owned, [], c.mallocs + 1⟩

/-- **A call that reaches a processor.** -/
theorem generic_of_finds {processor : TProcessor σ} (h : c.finds M s = some processor) :
    (processThriftDataGeneric M c s buf len).1 =
      ⟨(finish M (c.serve M processor buf len).1 (c.serve M processor buf len).2.2).1,
        some ⟨buf.take len.toUInt32.toNat, (c.serve M processor buf len).2.2.wrote,
          (c.serve M processor buf len).1⟩⟩ := by
  unfold Core.finds at h
  split_ifs at h with hc
  obtain ⟨hinit, hm⟩ := hc
  unfold ProcessorFactory.resolve at h
  unfold processThriftDataGeneric
  rw [if_neg (by simp [hinit])]
  simp only [h, hm, if_true]
  rfl

/-- A call that reaches no processor does not report success. -/
theorem generic_of_not_finds (h : c.finds M s = none) (buf : Bytes) (len : UInt64) :
    (processThriftDataGeneric M c s buf len).1.served = none ∧
      (processThriftDataGeneric M c s buf len).1.result =
        if c.lib.coreInitialized = true ∧ c.lib.globalFactory.resolve s ≠ none then .threw
        else .null := by
  unfold Core.finds at h
  unfold processThriftDataGeneric
  by_cases hinit : c.lib.coreInitialized = true
  · rw [if_neg (by simp [hinit])]
    simp only [hinit, true_and] at h ⊢
    cases hr : c.lib.globalFactory.resolve s with
    | none =>
        unfold ProcessorFactory.resolve at hr
        simp only [hr]
        simp
    | some p =>
        have hm : M c.mallocs 1024 = false := by
          by_contra hm
          rw [if_pos (by simpa using hm), hr] at h
          cases h
        unfold ProcessorFactory.resolve at hr
        simp only [hr, hm]
        simp
  · rw [if_pos (by simpa using hinit)]
    simp [hinit]

/-- **What is returned is what was written**, and only after `process` has returned `true`. -/
theorem finish_eq_buffer {ended : Ended} {T : Transports} (hT : T.Written) {res : Bytes}
    {n : UInt64} (h : (finish M ended T).1 = .buffer res n) :
    ended = .returned true ∧ res = T.wrote ∧ n.toNat = T.wrote.length := by
  obtain ⟨h1, h2⟩ := hT.getBuffer
  unfold finish at h
  split at h
  · cases h
  · cases h
  · cases h
  · simp only at h
    split_ifs at h
    cases h
    refine ⟨rfl, ?_, ?_⟩
    · rw [h1, h2, List.take_length]
    · rw [UInt32.toNat_toUInt64, h2]

theorem serve_written (M : Malloc) (c : Core σ) (processor : TProcessor σ) (buf : Bytes)
    (len : UInt64) : (c.serve M processor buf len).2.2.Written :=
  Process.run_output M _ _ ⟨rfl, rfl⟩

/-- The processor that is registered for `s` in an initialised core. -/
def Core.registered (c : Core σ) (s : Bytes) : Option (TProcessor σ) :=
  if c.lib.coreInitialized then c.lib.globalFactory.resolve s else none

/-- What the caller gets for a run of a processor. -/
def runReply (M : Malloc) (run : Ended × σ × Transports) : Reply :=
  match run.1 with
  | .returned true =>
    if M run.2.2.mallocs run.2.2.wrote.length then .response run.2.2.wrote else .null
  | .threwOther => .unwound
  | _ => .null

theorem finish_reply {run : Ended × σ × Transports} (hT : run.2.2.Written) :
    (finish M run.1 run.2.2).1.reply = runReply M run := by
  obtain ⟨ended, s, T⟩ := run
  obtain ⟨h1, h2⟩ := hT.getBuffer
  cases ended with
  | threwTException => rfl
  | threwOther => rfl
  | returned ok =>
      cases ok with
      | false => rfl
      | true =>
          simp only [finish, runReply, h2]
          split_ifs
          · show Reply.response _ = _
            rw [h1, UInt32.toNat_toUInt64, h2, List.take_length, List.take_length]
          · rfl

/-- The narrowed length of a request. -/
theorem narrowed_length (n : ℕ) : (UInt64.ofNat n).toUInt32.toNat = n % 2 ^ 32 := by
  rw [UInt64.toNat_toUInt32, UInt64.toNat_ofNat']
  omega

theorem finds_eq (M : Malloc) (c : Core σ) (s : Bytes) :
    c.finds M s = if M c.mallocs 1024 then c.registered s else none := by
  unfold Core.finds Core.registered
  split_ifs <;> first | rfl | (exfalso; tauto)

/-- **What the bridge gets for a request**: it depends on the processor that is registered, on the
first allocation, and on the run of the processor. -/
theorem coreExecutor_answer (M : Malloc) (between : ℕ → Core σ → Core σ) (e : ℕ × Core σ)
    (s r : Bytes) : (coreExecutor M between e s r).1 =
      match (between e.1 e.2).registered s with
      | none => ⟨.null, none⟩
      | some p =>
        let run := (between e.1 e.2).serve M p r (UInt64.ofNat r.length)
        if M (between e.1 e.2).mallocs 1024 then
          ⟨runReply M run, some ⟨r.take (r.length % 2 ^ 32), run.2.2.wrote, run.1⟩⟩
        else ⟨.unwound, none⟩ := by
  set c := between e.1 e.2 with hc
  show (⟨(processThriftDataGeneric M c s r _).1.result.reply,
    (processThriftDataGeneric M c s r _).1.served⟩ : Answer) = _
  have hfinds := finds_eq M c s
  cases hreg : c.registered s with
  | none =>
      rw [hreg, ite_self] at hfinds
      obtain ⟨h1, h2⟩ := generic_of_not_finds hfinds r (UInt64.ofNat r.length)
      have hnot : ¬ (c.lib.coreInitialized = true ∧ c.lib.globalFactory.resolve s ≠ none) := by
        rintro ⟨hinit, hres⟩
        rw [Core.registered, if_pos hinit] at hreg
        exact hres hreg
      rw [if_neg hnot] at h2
      rw [h1, h2]
      rfl
  | some p =>
      rw [hreg] at hfinds
      by_cases hm : M c.mallocs 1024 = true
      · rw [if_pos hm] at hfinds
        rw [generic_of_finds hfinds, finish_reply (serve_written M c p r _), narrowed_length]
        simp only [hm, if_true]
      · rw [if_neg hm] at hfinds
        obtain ⟨h1, h2⟩ := generic_of_not_finds hfinds r (UInt64.ofNat r.length)
        have hyes : c.lib.coreInitialized = true ∧ c.lib.globalFactory.resolve s ≠ none := by
          unfold Core.registered at hreg
          split_ifs at hreg with hinit
          exact ⟨hinit, by rw [hreg]; simp⟩
        rw [if_pos hyes] at h2
        rw [h1, h2]
        simp only [hm]
        rfl

end Generic

/-! ## Whole requests -/

/-- The processor saw exactly `buf`, and a returned buffer is exactly what it wrote; without a run,
the call is refused, and `buf` is too long for the transport. -/
def GenericCall.Whole (g : GenericCall) (buf : Bytes) : Prop :=
  match g.served with
  | none => g.result = .null ∧ 2 ^ 32 ≤ buf.length
  | some sv => sv.input = buf ∧ ∀ res n, g.result = .buffer res n →
      sv.ended = .returned true ∧ res = sv.wrote ∧ n.toNat = sv.wrote.length

/-- **The processor sees exactly the request** if and only if the length of the request fits
`uint32_t` and the output transport can be made. -/
theorem presented_whole_iff (M : Malloc) (c : Core σ) (s buf : Bytes)
    (hinit : c.lib.coreInitialized = true) (hreg : c.lib.globalFactory.resolve s ≠ none) :
    (processThriftDataGeneric M c s buf (UInt64.ofNat buf.length)).1.Whole buf ↔
      buf.length < 2 ^ 32 ∧ M c.mallocs 1024 = true := by
  obtain ⟨p, hp⟩ := Option.ne_none_iff_exists'.mp hreg
  by_cases hm : M c.mallocs 1024 = true
  · have hf : c.finds M s = some p := by rw [Core.finds, if_pos ⟨hinit, hm⟩, hp]
    rw [generic_of_finds hf, narrowed_length]
    constructor
    · rintro ⟨htake, -⟩
      refine ⟨?_, hm⟩
      have := congrArg List.length htake
      rw [List.length_take] at this
      have := Nat.mod_lt buf.length (show 0 < 2 ^ 32 by norm_num)
      omega
    · rintro ⟨hlt, -⟩
      refine ⟨?_, fun res n hres => ?_⟩
      · rw [Nat.mod_eq_of_lt hlt, List.take_length]
      · exact finish_eq_buffer (serve_written M c p buf _) hres
  · have hf : c.finds M s = none := by rw [Core.finds, if_neg (fun h => hm h.2)]
    obtain ⟨h1, h2⟩ := generic_of_not_finds hf buf (UInt64.ofNat buf.length)
    rw [if_pos ⟨hinit, hreg⟩] at h2
    refine ⟨fun hW => ?_, fun h => absurd h.2 hm⟩
    unfold GenericCall.Whole at hW
    rw [h1, h2] at hW
    cases hW.1

/-- A processor that writes back what it reads. The handlers' state says how its calls end. -/
def scripted : TProcessor (List Ended) where
  process script := .borrow 0 fun b =>
    if h : (b.getD []).length < 2 ^ 32 then
      .write ⟨b.getD [], h⟩ fun _ => .done (script.headD (.returned true)) script.tail
    else .done (.returned false) script.tail

/-- A core with this processor under the name `A`. -/
def scriptedCore (script : List Ended) : Core (List Ended) where
  lib := { CoreLib.init with
    coreInitialized := true
    globalFactory := ProcessorFactory.empty.staticRegisterCallback (.ofBuffer [65]) scripted }
  handlers := script
  mallocs := 0

/-- A request of two bytes. -/
theorem presented_whole_two :
    (processThriftDataGeneric (fun _ _ => true) (scriptedCore []) [65] [1, 0]
      (UInt64.ofNat [1, 0].length)).1 = ⟨.buffer [1, 0] 2, some ⟨[1, 0], [1, 0], .returned true⟩⟩ ∧
    (processThriftDataGeneric (fun _ _ => true) (scriptedCore []) [65] [1, 0]
      (UInt64.ofNat [1, 0].length)).1.Whole [1, 0] :=
  ⟨by decide, (presented_whole_iff _ _ _ [1, 0] rfl (by decide)).mpr ⟨by decide, rfl⟩⟩

/-- On a request of `2 ^ 32` bytes the processor is run on the empty input, and the call
succeeds. -/
theorem generic_of_length_eq {buf : Bytes} (hlen : buf.length = 2 ^ 32) :
    (processThriftDataGeneric (fun _ _ => true) (scriptedCore []) [65] buf
      (UInt64.ofNat buf.length)).1 = ⟨.buffer [] 0, some ⟨[], [], .returned true⟩⟩ := by
  have hz : (UInt64.ofNat buf.length).toUInt32 = 0 := by
    rw [← UInt32.toNat_inj, narrowed_length, hlen]
    rfl
  have ho : TMemoryBuffer.observe buf 0 = TMemoryBuffer.observe [] 0 := by
    simp [TMemoryBuffer.observe]
  unfold processThriftDataGeneric
  rw [hz, ho]
  decide

/-- A request of 4 GiB. -/
def fourGiB : Bytes := List.replicate (2 ^ 32) 0

/-- The processor does not see it, and the call succeeds. -/
theorem truncated_request :
    (processThriftDataGeneric (fun _ _ => true) (scriptedCore []) [65] fourGiB
      (UInt64.ofNat fourGiB.length)).1.result = .buffer [] 0 ∧
    ¬ (processThriftDataGeneric (fun _ _ => true) (scriptedCore []) [65] fourGiB
      (UInt64.ofNat fourGiB.length)).1.Whole fourGiB := by
  have hlen : fourGiB.length = 2 ^ 32 := List.length_replicate
  generalize fourGiB = buf at hlen ⊢
  rw [generic_of_length_eq hlen]
  refine ⟨rfl, ?_⟩
  rintro ⟨rfl, -⟩
  revert hlen
  decide

end ThriftBridge

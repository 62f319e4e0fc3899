import ThriftBridge.Protocol.ApplicationException
import ThriftBridge.Protocol.Dispatch

/-!
# `TMultiplexedProcessor`

* `TMultiplexedProcessor.process`, `protocolError`: as in the source, over the tokenizer that splits
  the names of messages;
* `select`: the processor that is chosen for a message, or the text of the error;
* `serve_selected`: the chosen processor does the rest of the call;
* `refusal_lost`: an error is written for the client, and the bridge drops it.
-/

set_option autoImplicit false

namespace ThriftBridge

open TBinaryProtocol

variable {σ : Type} {M : Malloc}

/-- The bytes of a text. -/
def text (s : String) : Bytes := s.toUTF8.data.toList

/-- A processor that is given an input protocol: what the protocol reads of a header is all that
tells its decorators from it. -/
abbrev ProtocolProcessor (σ : Type) := Code σ (MessageBegin × UInt32) → Code σ Bool

/-- `StoredMessageProtocol::readMessageBegin`. -/
def StoredMessageProtocol.readMessageBegin (name : Bytes) (type : TMessageType) (seqid : Int32) :
    Code σ (MessageBegin × UInt32) := return ((name, type, seqid), 0)

/-- `TMultiplexedProcessor`. -/
structure TMultiplexedProcessor (σ : Type) where
  services : AList fun _ : Bytes => ProtocolProcessor σ
  defaultProcessor : Option (ProtocolProcessor σ)

namespace TMultiplexedProcessor

/-- `registerProcessor`. -/
def registerProcessor (P : TMultiplexedProcessor σ) (serviceName : Bytes)
    (processor : ProtocolProcessor σ) : TMultiplexedProcessor σ :=
  { P with services := P.services.insert serviceName processor }

/-- `registerDefault`. -/
def registerDefault (P : TMultiplexedProcessor σ) (processor : ProtocolProcessor σ) :
    TMultiplexedProcessor σ :=
  { P with defaultProcessor := some processor }

/-- The exception that `protocol_error` writes. -/
def errorOf (msg : Bytes) : TApplicationException := ⟨text "TMultiplexedProcessor: " ++ msg, 7⟩

/-- `protocol_error`, and the `throw` of what it returns. -/
def protocolError {α : Type} (prot : TBinaryProtocol) (name : Bytes) (seqid : Int32)
    (msg : Bytes) : Code σ α := do
  let _ ← prot.skip requestFuel .struct
  let _ ← Code.readEnd
  let _ ← prot.writeMessageBegin name .exception seqid
  let _ ← (errorOf msg).write
  Code.throw (.exception msg)

/-- `process`. -/
def process (tokenize : Bytes → List Bytes) (P : TMultiplexedProcessor σ) : ProtocolProcessor σ :=
  fun readMessageBegin => do
    let ((name, type, seqid), _) ← readMessageBegin
    if type ≠ .call ∧ type ≠ .oneway then
      protocolError TBinaryProtocol.default name seqid (text "Unexpected message type")
    else
      match tokenize name with
      | [service, method] =>
        match P.services.lookup service with
        | some processor =>
          processor (StoredMessageProtocol.readMessageBegin method type seqid)
        | none =>
          protocolError TBinaryProtocol.default name seqid (text "Unknown service: " ++ service ++
            text ". Did you forget to call registerProcessor()?")
      | [method] =>
        match P.defaultProcessor with
        | some processor =>
          processor (StoredMessageProtocol.readMessageBegin method type seqid)
        | none =>
          protocolError TBinaryProtocol.default name seqid
            (text "Non-multiplexed client request dropped. Did you forget to call defaultProcessor()?")
      | _ =>
        protocolError TBinaryProtocol.default name seqid (text "Wrong number of tokens.")

/-- A `TMultiplexedProcessor` behind the protocols of the bridge. -/
def processor (tokenize : Bytes → List Bytes) (P : TMultiplexedProcessor σ) : TProcessor σ :=
  .ofCode (P.process tokenize TBinaryProtocol.default.readMessageBegin)

/-! ## Selection -/

/-- The processor that is chosen for a message, and the name of the method that it is told; or the
text of the error. -/
def select (tokenize : Bytes → List Bytes) (P : TMultiplexedProcessor σ) (name : Bytes)
    (type : TMessageType) : Except Bytes (ProtocolProcessor σ × Bytes) :=
  if type ≠ .call ∧ type ≠ .oneway then .error (text "Unexpected message type")
  else
    match tokenize name with
    | [service, method] =>
      match P.services.lookup service with
      | some processor => .ok (processor, method)
      | none => .error (text "Unknown service: " ++ service ++
          text ". Did you forget to call registerProcessor()?")
    | [method] =>
      match P.defaultProcessor with
      | some processor => .ok (processor, method)
      | none => .error
          (text "Non-multiplexed client request dropped. Did you forget to call defaultProcessor()?")
    | _ => .error (text "Wrong number of tokens.")

/-- What follows the header. -/
def proceed (name : Bytes) (type : TMessageType) (seqid : Int32) :
    Except Bytes (ProtocolProcessor σ × Bytes) → Code σ Bool
  | .ok (processor, method) => processor (StoredMessageProtocol.readMessageBegin method type seqid)
  | .error msg => protocolError TBinaryProtocol.default name seqid msg

theorem process_eq (tokenize : Bytes → List Bytes) (P : TMultiplexedProcessor σ)
    (readMessageBegin : Code σ (MessageBegin × UInt32)) :
    P.process tokenize readMessageBegin = readMessageBegin >>= fun q =>
      proceed q.1.1 q.1.2.1 q.1.2.2 (P.select tokenize q.1.1 q.1.2.1) := by
  unfold process
  congr 1
  funext q
  obtain ⟨⟨name, type, seqid⟩, n⟩ := q
  simp only [select]
  split_ifs
  · rfl
  · split
    · split <;> rfl
    · split <;> rfl
    · rfl

/-- **The chosen processor does the rest of the call.** -/
theorem serve_selected (M : Malloc) (c : Core σ) (tokenize : Bytes → List Bytes)
    (P : TMultiplexedProcessor σ) {h name rest method : Bytes} {type : TMessageType}
    {seqid : Int32} {processor : ProtocolProcessor σ} (hh : IsHeader h name type seqid)
    (hsel : P.select tokenize name type = .ok (processor, method))
    (hlt : (h ++ rest).length < 2 ^ 32) :
    let run := (processor (StoredMessageProtocol.readMessageBegin method type seqid)).exec M
      (afterHeader c h name rest)
    let served := c.serve M (P.processor tokenize) (h ++ rest) (UInt64.ofNat (h ++ rest).length)
    served.1 = endedOf run ∧ served.2.1 = (Program.endState run).handlers ∧
      served.2.2.wrote = (Program.endState run).wrote ∧
      served.2.2.mallocs = (Program.endState run).mallocs ∧
      served.2.2.input.readable = (Program.endState run).input.bytes := by
  have hserve := serve_ofCode M c (P.process tokenize TBinaryProtocol.default.readMessageBegin) hlt
  rw [process_eq, header_exec _ hh, hsel, proceed, ← process_eq] at hserve
  exact hserve

/-- A `TDispatchProcessor` behind a `StoredMessageProtocol` reads nothing before it dispatches. -/
theorem dispatch_stored (dispatchCall : Bytes → Int32 → Code σ Bool) (method : Bytes)
    {type : TMessageType} (htype : type = .call ∨ type = .oneway) (seqid : Int32) :
    TDispatchProcessor.process dispatchCall
      (StoredMessageProtocol.readMessageBegin method type seqid) = dispatchCall method seqid := by
  have hnot : ¬ (type ≠ .call ∧ type ≠ .oneway) := by tauto
  show (if type ≠ .call ∧ type ≠ .oneway then _ else _) = _
  rw [if_neg hnot]

/-- **A call of a service behind the multiplexer** does what `dispatchCall` of the service does with
the second part of the name. -/
theorem serve_multiplexed (M : Malloc) (c : Core σ) (tokenize : Bytes → List Bytes)
    (P : TMultiplexedProcessor σ) {dispatchCall : Bytes → Int32 → Code σ Bool}
    {h name rest service method : Bytes} {seqid : Int32} (hh : CallHeader h name seqid)
    (hname : tokenize name = [service, method])
    (hservice : P.services.lookup service = some (TDispatchProcessor.process dispatchCall))
    (hlt : (h ++ rest).length < 2 ^ 32) :
    let run := (dispatchCall method seqid).exec M (afterHeader c h name rest)
    let served := c.serve M (P.processor tokenize) (h ++ rest) (UInt64.ofNat (h ++ rest).length)
    served.1 = endedOf run ∧ served.2.1 = (Program.endState run).handlers ∧
      served.2.2.wrote = (Program.endState run).wrote ∧
      served.2.2.mallocs = (Program.endState run).mallocs ∧
      served.2.2.input.readable = (Program.endState run).input.bytes := by
  obtain ⟨type, hheader, htype⟩ := hh
  have hnot : ¬ (type ≠ .call ∧ type ≠ .oneway) := by tauto
  have hsel : P.select tokenize name type =
      .ok (TDispatchProcessor.process dispatchCall, method) := by
    simp only [select, hnot, if_false, hname, hservice]
  have hserve := serve_selected M c tokenize P hheader hsel hlt
  rw [dispatch_stored dispatchCall method htype seqid] at hserve
  exact hserve

/-- A tokenizer: the parts of the name between the colons, but for the empty ones. -/
def betweenColons (name : Bytes) : List Bytes := (name.splitOnP (· == 58)).filter (· ≠ [])

/-- A multiplexer with one service `A`. -/
def oneService : TMultiplexedProcessor ℕ :=
  registerProcessor ⟨∅, none⟩ [65] (TDispatchProcessor.process countCalls)

/-- The header of a call of the method `p` of a service. -/
def serviceHeader (service : UInt8) : Bytes := header true [service, 58, 112] .call 1

theorem serviceHeader_isHeader (service : UInt8) :
    IsHeader (serviceHeader service) [service, 58, 112] .call 1 :=
  isHeader_header true (show [service, 58, 112].length ≤ defaultMaxMessageSize from
    (by decide : 3 ≤ 104857600)) (by decide) 1

/-- A core that has the multiplexer for the service `M`. -/
def multiplexedCore : Core ℕ where
  lib := { CoreLib.init with
    coreInitialized := true
    globalFactory := ProcessorFactory.empty.staticRegisterCallback (.ofBuffer [77])
      (oneService.processor betweenColons) }
  handlers := 0
  mallocs := 0

set_option maxRecDepth 10000 in
/-- A call of `A:p`. -/
theorem serve_multiplexed_counted :
    (multiplexedCore.serve (fun _ _ => true) (oneService.processor betweenColons)
      (serviceHeader 65 ++ [0]) (UInt64.ofNat (serviceHeader 65 ++ [0]).length)).1 =
        .returned true ∧
    (multiplexedCore.serve (fun _ _ => true) (oneService.processor betweenColons)
      (serviceHeader 65 ++ [0]) (UInt64.ofNat (serviceHeader 65 ++ [0]).length)).2.1 = 1 := by
  have hname : betweenColons [65, 58, 112] = [[65], [112]] := by decide
  have hlt : (serviceHeader 65 ++ [0]).length < 2 ^ 32 := by decide
  obtain ⟨h1, h2, -⟩ := serve_multiplexed (fun _ _ => true) multiplexedCore betweenColons oneService
    ⟨.call, serviceHeader_isHeader 65, Or.inl rfl⟩ hname rfl hlt
  exact ⟨h1.trans (by decide +kernel), h2.trans (by decide +kernel)⟩

/-! ## Errors -/

/-- The message that `protocol_error` writes. -/
def exceptionMessage (name : Bytes) (seqid : Int32) (msg : Bytes) : Bytes :=
  header true name .exception seqid ++ (errorOf msg).wire.bytes

/-- The arguments are skipped. -/
def Skips (M : Malloc) (s : Session Unread σ) : Prop :=
  ∃ n t, (TBinaryProtocol.default.skip requestFuel .struct).exec M s = .ok n t

/-- **`protocol_error`** never returns. It writes the exception if it can skip the arguments, and
nothing otherwise. -/
theorem protocolError_exec {α : Type} {name msg : Bytes} (hname : name.length < 2 ^ 31)
    (hmsg : (errorOf msg).message.length < 2 ^ 31) (seqid : Int32) {s : Session Unread σ}
    (hL : s.input.bytes.length < requestFuel)
    (hg : Granted M s (exceptionMessage name seqid msg)) :
    ∃ e t, (protocolError TBinaryProtocol.default name seqid msg : Code σ α).exec M s = .error e t ∧
      e.ended = .threwTException ∧ t.handlers = s.handlers ∧
      (Skips M s → e = .exception msg ∧ t.wrote = s.wrote ++ exceptionMessage name seqid msg) ∧
      (¬ Skips M s → e.Malformed ∧ t.wrote = s.wrote) := by
  have hsafe : Wp ((TBinaryProtocol.default.skip requestFuel .struct).exec M) s _ _ :=
    skip_safe requestFuel .struct s hL
  unfold Wp at hsafe
  cases hx : (TBinaryProtocol.default.skip requestFuel .struct).exec M s with
  | error e t =>
      rw [hx] at hsafe
      obtain ⟨ht, -, he⟩ := hsafe
      have hno : ¬ Skips M s := by
        rintro ⟨n, u, hu⟩
        cases hu.symm.trans hx
      refine ⟨e, t, ?_, he.ended, ht.handlers, fun h => absurd h hno, fun _ => ⟨he, ht.wrote⟩⟩
      simp only [Code.exec] at hx
      simp only [protocolError, Code.exec, Program.exec_bind, hx]
  | ok n u =>
      rw [hx] at hsafe
      obtain ⟨hu, -, -⟩ := hsafe
      -- the input is ended, and the exception is written
      set v : Session Unread σ := { u with input := (⟨u.input.bytes,
        if u.input.bytes = [] then 0 else u.input.taken, defaultMaxMessageSize⟩ : Unread) } with hv
      have hend : (Code.readEnd : Code σ ℕ).exec M u = .ok u.input.taken v := rfl
      have houtput : v.output = s.output := hu.output
      have hgv : Granted M v (exceptionMessage name seqid msg) := by
        unfold Granted
        rw [houtput]
        exact hg
      have hheader : Appends M (TBinaryProtocol.default.writeMessageBegin name .exception seqid :
          Code σ _) (header true name .exception seqid) :=
        writeMessageBegin_appends hname (by decide) seqid
      obtain ⟨t1, hx1, h1⟩ := hheader.exists_ok hgv.left
      obtain ⟨t2, hx2, h2⟩ := ((errorOf msg).write_appends hmsg).exists_ok (hgv.right h1)
      have hyes : Skips M s := ⟨n, u, hx⟩
      refine ⟨.exception msg, t2, ?_, rfl, ?_, fun _ => ⟨rfl, ?_⟩, fun h => absurd hyes h⟩
      · simp only [Code.exec] at hx hend hx1 hx2
        simp only [protocolError, Code.exec, Program.exec_bind, hx, hend, hx1, hx2]
        rfl
      · rw [h2.rest, h1.rest]
        exact hu.handlers
      · have hwrote : v.wrote = s.wrote := hu.wrote
        rw [h2.wrote, h1.wrote, hwrote, List.append_assoc]
        rfl

/-- The texts of the errors are not much longer than the name of the message. -/
theorem select_error_length {tokenize : Bytes → List Bytes} {P : TMultiplexedProcessor σ}
    (htok : ∀ name, ∀ t ∈ tokenize name, t.length ≤ name.length) {name msg : Bytes}
    {type : TMessageType} (h : P.select tokenize name type = .error msg) :
    msg.length ≤ 100 + name.length := by
  unfold select at h
  split_ifs at h
  · cases h
    exact Nat.le_add_right_of_le (by decide)
  · split at h
    · next service method heq =>
      split at h
      · cases h
      · cases h
        have hs := htok name service (by rw [heq]; exact List.mem_cons_self)
        have h1 : (text "Unknown service: ").length = 17 := by decide
        have h2 : (text ". Did you forget to call registerProcessor()?").length = 45 := by decide
        rw [List.length_append, List.length_append, h1, h2]
        omega
    · split at h
      · cases h
      · cases h
        exact Nat.le_add_right_of_le (by decide)
    · cases h
      exact Nat.le_add_right_of_le (by decide)

theorem length_exceptionMessage (name : Bytes) (seqid : Int32) (msg : Bytes) :
    (exceptionMessage name seqid msg).length = 50 + name.length + msg.length := by
  have hprefix : (text "TMultiplexedProcessor: ").length = 23 := by decide
  have hh : header true name .exception seqid = versioned 0 _ name seqid := rfl
  rw [exceptionMessage, List.length_append, hh, length_versioned, TApplicationException.wire_bytes]
  simp only [errorOf, List.length_append, hprefix, length_sizeBytes, BigEndian.length_encode,
    List.length_cons, List.length_nil, Wire.fieldHeader]
  omega

/-- The bytes behind a header of a message `name` are a struct that can be skipped, and more. -/
def SkippableArguments (name rest : Bytes) : Prop :=
  ∃ (w : Wire) (tail : Bytes) (r : ℕ), rest = w.bytes ++ tail ∧ w.type = .struct ∧
    w.Skippable 0 TBinaryProtocol.default.recursionLimit.toNat ∧
    w.spend TBinaryProtocol.default (defaultMaxMessageSize - name.length) = some r

theorem skips_afterHeader {c : Core σ} {h name rest : Bytes} (hlt : rest.length < requestFuel) :
    Skips M (afterHeader c h name rest) ↔ SkippableArguments name rest := by
  unfold Skips SkippableArguments
  have hlim : TBinaryProtocol.default.recursionLimit.toNat < 2 ^ 32 - 1 := by decide
  simp only [skip_eq_ok hlim requestFuel .struct (afterHeader c h name rest) _ _ (Nat.zero_le _) hlt]
  constructor
  · rintro ⟨n, t, w, ⟨htype, hw⟩, -, r, hr, ht⟩
    exact ⟨w, t.input.bytes, r, ht.bytes, htype, hw, hr⟩
  · rintro ⟨w, tail, r, hrest, htype, hw, hr⟩
    exact ⟨_, _, w, ⟨htype, hw⟩, rfl, r, hr, Took.of_append hrest r⟩

/-- The call of a message for which no processor is chosen, if every allocation succeeds. -/
theorem serve_refused (hM : ∀ k n, M k n = true) (c : Core σ) {tokenize : Bytes → List Bytes}
    (htok : ∀ name, ∀ t ∈ tokenize name, t.length ≤ name.length) (P : TMultiplexedProcessor σ)
    {h name rest msg : Bytes} {type : TMessageType} {seqid : Int32}
    (hh : IsHeader h name type seqid) (hsel : P.select tokenize name type = .error msg)
    (hlt : (h ++ rest).length < 2 ^ 32) :
    let served := c.serve M (P.processor tokenize) (h ++ rest) (UInt64.ofNat (h ++ rest).length)
    served.1 = .threwTException ∧ served.2.1 = c.handlers ∧
      (SkippableArguments name rest → served.2.2.wrote = exceptionMessage name seqid msg) ∧
      (¬ SkippableArguments name rest → served.2.2.wrote = []) := by
  intro served
  have hname : name.length ≤ 104857600 := hh.1
  have hmsg := select_error_length htok hsel
  have hprefix : (errorOf msg).message.length = 23 + msg.length := by
    have : (text "TMultiplexedProcessor: ").length = 23 := by decide
    rw [errorOf, List.length_append, this]
  have hrest : rest.length < requestFuel := by
    rw [List.length_append] at hlt
    unfold requestFuel
    omega
  have hg : Granted M (afterHeader c h name rest) (exceptionMessage name seqid msg) := by
    refine ⟨rfl, hM, ?_⟩
    rw [length_exceptionMessage]
    show 0 + (50 + name.length + msg.length) < 2 ^ 32
    omega
  obtain ⟨e, t, hx, he, hhandlers, hskips, hnot⟩ : ∃ e t, (protocolError TBinaryProtocol.default
      name seqid msg : Code σ Bool).exec M (afterHeader c h name rest) = .error e t ∧ _ :=
    protocolError_exec (by omega) (by omega) seqid hrest hg
  obtain ⟨h1, h2, h3, -, -⟩ :=
    serve_ofCode M c (P.process tokenize TBinaryProtocol.default.readMessageBegin) hlt
  rw [process_eq, header_exec _ hh, hsel, proceed, hx, ← process_eq] at h1 h2 h3
  refine ⟨h1.trans he, h2.trans hhandlers, fun hs => ?_, fun hs => ?_⟩
  · exact h3.trans (hskips ((skips_afterHeader hrest).mpr hs)).2
  · exact h3.trans (hnot fun h => hs ((skips_afterHeader hrest).mp h)).2

/-- **The exception of a refused message is lost.** Whether or not one was written for the client,
the bridge gets `NULL`, and the handlers see nothing of the message. -/
theorem refusal_lost (hM : ∀ k n, M k n = true) (between : ℕ → Core σ → Core σ) (e : ℕ × Core σ)
    {tokenize : Bytes → List Bytes} (htok : ∀ name, ∀ t ∈ tokenize name, t.length ≤ name.length)
    {P : TMultiplexedProcessor σ} {s request h name rest msg : Bytes} {type : TMessageType}
    {seqid : Int32} (hreg : (between e.1 e.2).registered s = some (P.processor tokenize))
    (hreq : presented request = h ++ rest) (hh : IsHeader h name type seqid)
    (hsel : P.select tokenize name type = .error msg) :
    ∃ wrote, (coreExecutor M between e s request).1 =
        ⟨.null, some ⟨presented request, wrote, .threwTException⟩⟩ ∧
      (coreExecutor M between e s request).2.2.handlers = (between e.1 e.2).handlers ∧
      (SkippableArguments name rest → wrote = exceptionMessage name seqid msg) ∧
      (¬ SkippableArguments name rest → wrote = []) := by
  have hlt := length_presented_lt request
  rw [hreq] at hlt
  obtain ⟨h1, h2, h3, h4⟩ := serve_refused hM (between e.1 e.2) htok P hh hsel hlt
  rw [← hreq, ← serve_presented] at h1 h2 h3 h4
  refine ⟨_, ?_, ?_, h3, h4⟩
  · rw [coreExecutor_answer, hreg]
    simp only [hM, if_true, runReply, h1]
    rfl
  · have hfinds : (between e.1 e.2).finds M s = some (P.processor tokenize) := by
      rw [finds_eq, hM, hreg]
      rfl
    show (processThriftDataGeneric M (between e.1 e.2) s request _).2.handlers = _
    rw [generic_handlers, hfinds]
    exact h2

theorem length_le_of_mem_splitOnP {name t : Bytes} (p : UInt8 → Bool)
    (h : t ∈ name.splitOnP p) : t.length ≤ name.length := by
  induction name generalizing t with
  | nil =>
      rw [List.splitOnP_nil, List.mem_singleton] at h
      exact (congrArg List.length h).le
  | cons c name ih =>
      rw [List.splitOnP_cons_eq_if_modifyHead] at h
      split_ifs at h
      · rcases List.mem_cons.mp h with rfl | h
        · exact Nat.zero_le _
        · exact (ih h).trans (Nat.le_succ _)
      · obtain ⟨head, tail, hs⟩ := List.exists_cons_of_ne_nil (List.splitOnP_ne_nil p name)
        rw [hs, List.modifyHead_cons] at h
        rw [hs] at ih
        rcases List.mem_cons.mp h with rfl | h
        · exact Nat.succ_le_succ (ih List.mem_cons_self)
        · exact (ih (List.mem_cons_of_mem _ h)).trans (Nat.le_succ _)

theorem length_le_of_mem_betweenColons (name : Bytes) :
    ∀ t ∈ betweenColons name, t.length ≤ name.length := fun _ ht =>
  length_le_of_mem_splitOnP _ (List.mem_of_mem_filter ht)

/-- A struct without fields can be skipped. -/
theorem skippableArguments_stop : SkippableArguments [66, 58, 112] [0] :=
  ⟨.struct 0 Fin.elim0 Fin.elim0, [], defaultMaxMessageSize - 3, rfl, rfl,
    ⟨fun i => i.elim0, fun i => i.elim0, by decide⟩, rfl⟩

/-- A call of `B:p`. -/
theorem refusal_lost_unknown :
    ∃ wrote, (coreExecutor (fun _ _ => true) (fun _ c => c) (0, multiplexedCore) [77]
        (serviceHeader 66 ++ [0])).1 =
        ⟨.null, some ⟨presented (serviceHeader 66 ++ [0]), wrote, .threwTException⟩⟩ ∧
      wrote = exceptionMessage [66, 58, 112] 1
        (text "Unknown service: " ++ [66] ++
          text ". Did you forget to call registerProcessor()?") := by
  have hlt : (serviceHeader 66 ++ [0]).length < 2 ^ 32 := by decide
  have hsel : oneService.select betweenColons [66, 58, 112] .call =
      .error (text "Unknown service: " ++ [66] ++
        text ". Did you forget to call registerProcessor()?") := rfl
  obtain ⟨wrote, hx, -, hw, -⟩ := refusal_lost (fun _ _ => rfl) (fun _ c => c) (0, multiplexedCore)
    length_le_of_mem_betweenColons (s := [77]) rfl (presented_of_lt hlt) (serviceHeader_isHeader 66)
    hsel
  exact ⟨wrote, hx, hw skippableArguments_stop⟩

end TMultiplexedProcessor

end ThriftBridge

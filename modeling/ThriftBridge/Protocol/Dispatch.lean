import ThriftBridge.Core.Scan
import ThriftBridge.Protocol.Malformed
import ThriftBridge.Protocol.Messages
import ThriftBridge.Protocol.Presented
import ThriftBridge.Transport.Batches
import ThriftBridge.Transport.Trace

/-!
# `TDispatchProcessor`

* `TDispatchProcessor.process`: reads the header of a message, and dispatches calls;
* `CallHeader`: the headers that it dispatches, and what they say;
* `serve_call`, `serve_no_call`: what a request does that begins with such a header, and one that does
  not;
* `dispatch_consumesOne`, `dispatch_leftUnread`: a second call in the request is left unread;
* `handlers_of_run`: over a run, the handlers see nothing of requests without such a header.
-/

set_option autoImplicit false

namespace ThriftBridge

open TBinaryProtocol Machine World

variable {σ : Type} {M : Malloc}

/-- The name, the type and the sequence number in the header of a message. -/
abbrev MessageBegin := Bytes × TMessageType × Int32

/-- `TDispatchProcessor::process`, over the `readMessageBegin` of its input protocol. -/
def TDispatchProcessor.process (dispatchCall : Bytes → Int32 → Code σ Bool)
    (readMessageBegin : Code σ (MessageBegin × UInt32)) : Code σ Bool := do
  let ((fname, mtype, seqid), _) ← readMessageBegin
  if mtype ≠ .call ∧ mtype ≠ .oneway then return false
  else dispatchCall fname seqid

/-- A `TDispatchProcessor` behind the protocols of the bridge. -/
def TDispatchProcessor.processor (dispatchCall : Bytes → Int32 → Code σ Bool) : TProcessor σ :=
  .ofCode (process dispatchCall TBinaryProtocol.default.readMessageBegin)

/-! ## Headers -/

/-- `h` is a header of type `type`, in one of the two forms that are read. -/
def IsHeader (h name : Bytes) (type : TMessageType) (seqid : Int32) : Prop :=
  name.length ≤ defaultMaxMessageSize ∧
    ((∃ x y : UInt8, type = .ofInt32 y.toUInt32.toInt32 ∧ h = versioned x y name seqid) ∨
      ∃ y : Int8, type = .ofInt32 y.toInt32 ∧ h = unversioned y name seqid)

/-- The header of a call. -/
def CallHeader (h name : Bytes) (seqid : Int32) : Prop :=
  ∃ type, IsHeader h name type seqid ∧ (type = .call ∨ type = .oneway)

/-- The session after the header `h`. -/
def afterHeader (c : Core σ) (h name rest : Bytes) : Session Unread σ :=
  Session.initial ⟨rest, h.length, defaultMaxMessageSize - name.length⟩ c

theorem took_initial {c : Core σ} {request h : Bytes} {r : ℕ} {t : Session Unread σ} :
    Took (Session.initial (Unread.ofRequest request) c) h r t ↔
      ∃ rest, request = h ++ rest ∧ t = Session.initial ⟨rest, h.length, r⟩ c := by
  constructor
  · rintro ⟨hb, hs⟩
    refine ⟨t.input.bytes, hb, ?_⟩
    rw [hs]
    simp only [Session.initial, Unread.ofRequest, Nat.zero_add]
  · rintro ⟨rest, rfl, rfl⟩
    refine ⟨rfl, ?_⟩
    simp only [Session.initial, Unread.ofRequest, Nat.zero_add]

/-- What the header of a request is. -/
theorem readMessageBegin_initial {c : Core σ} {request name : Bytes} {type : TMessageType}
    {seqid : Int32} {n : UInt32} {t : Session Unread σ} :
    (TBinaryProtocol.default.readMessageBegin).exec M
        (Session.initial (Unread.ofRequest request) c) = .ok ((name, type, seqid), n) t ↔
      ∃ h rest, request = h ++ rest ∧ IsHeader h name type seqid ∧ n = UInt32.ofNat h.length ∧
        t = afterHeader c h name rest := by
  have hfits : TBinaryProtocol.default.StringFits name.length := by
    rintro ⟨hpos, -⟩
    exact absurd hpos (by decide)
  have hremaining : (Session.initial (Unread.ofRequest request) c).input.remaining =
      defaultMaxMessageSize := rfl
  rw [readMessageBegin_eq_ok, hremaining]
  simp only [took_initial]
  constructor
  · rintro ⟨⟨-, -, hname⟩, ⟨x, y, htype, hn, rest, hreq, ht⟩ | ⟨-, y, htype, hn, rest, hreq, ht⟩⟩
    · rw [← length_versioned x y name seqid] at hn
      exact ⟨_, rest, hreq, ⟨hname, Or.inl ⟨x, y, htype, rfl⟩⟩, hn, ht⟩
    · rw [← length_unversioned y name seqid] at hn
      exact ⟨_, rest, hreq, ⟨hname, Or.inr ⟨y, htype, rfl⟩⟩, hn, ht⟩
  · rintro ⟨h, rest, hreq, ⟨hname, hform⟩, hn, ht⟩
    have hlt : name.length < 2 ^ 31 := lt_of_le_of_lt hname (by decide)
    refine ⟨⟨hlt, hfits, hname⟩, ?_⟩
    rcases hform with ⟨x, y, htype, rfl⟩ | ⟨y, htype, rfl⟩
    · rw [length_versioned] at hn
      exact Or.inl ⟨x, y, htype, hn, rest, hreq, ht⟩
    · rw [length_unversioned] at hn
      exact Or.inr ⟨rfl, y, htype, hn, rest, hreq, ht⟩

theorem IsHeader.name_lt {h name : Bytes} {type : TMessageType} {seqid : Int32}
    (hh : IsHeader h name type seqid) : name.length < 2 ^ 31 :=
  lt_of_le_of_lt hh.1 (by decide)

/-- **A request has at most one header.** -/
theorem IsHeader.unique {h h' name name' rest rest' : Bytes} {type type' : TMessageType}
    {seqid seqid' : Int32} (hh : IsHeader h name type seqid)
    (hh' : IsHeader h' name' type' seqid') (he : h ++ rest = h' ++ rest') :
    h = h' ∧ name = name' ∧ type = type' ∧ seqid = seqid' ∧ rest = rest' := by
  have hn := hh.name_lt
  have hn' := hh'.name_lt
  rcases hh.2 with ⟨x, y, rfl, rfl⟩ | ⟨y, rfl, rfl⟩ <;>
    rcases hh'.2 with ⟨x', y', rfl, rfl⟩ | ⟨y', rfl, rfl⟩
  · obtain ⟨⟨rfl, rfl, rfl, rfl⟩, hr⟩ := versioned_unique hn hn' he
    exact ⟨rfl, rfl, rfl, rfl, hr⟩
  · exact absurd he (versioned_ne_unversioned hn')
  · exact absurd he.symm (versioned_ne_unversioned hn)
  · obtain ⟨⟨rfl, rfl, rfl⟩, hr⟩ := unversioned_unique hn hn' he
    exact ⟨rfl, rfl, rfl, rfl, hr⟩

/-- `writeMessageBegin` writes headers that are read. -/
theorem isHeader_header (strictWrite : Bool) {name : Bytes} {type : TMessageType}
    (hname : name.length ≤ defaultMaxMessageSize) (htype : type.Named) (seqid : Int32) :
    IsHeader (header strictWrite name type seqid) name type seqid := by
  refine ⟨hname, ?_⟩
  cases strictWrite with
  | true => exact Or.inl ⟨0, _, (ofInt32_byte htype).symm, rfl⟩
  | false => exact Or.inr ⟨_, (ofInt32_int8 htype).symm, rfl⟩

/-! ## Requests -/

/-- Fuel for the arguments of any request. -/
def requestFuel : ℕ := 2 ^ 32

/-- What a processor sees of a request. -/
def presented (request : Bytes) : Bytes := request.take (request.length % 2 ^ 32)

theorem length_presented (request : Bytes) : (presented request).length = request.length % 2 ^ 32 :=
  (List.length_take ..).trans (Nat.min_eq_left (Nat.mod_le _ _))

theorem length_presented_lt (request : Bytes) : (presented request).length < 2 ^ 32 := by
  rw [length_presented]
  exact Nat.mod_lt _ (by norm_num)

theorem presented_of_lt {request : Bytes} (h : request.length < 2 ^ 32) :
    presented request = request := by
  rw [presented, Nat.mod_eq_of_lt h, List.take_length]

theorem serve_presented (M : Malloc) (c : Core σ) (p : TProcessor σ) (request : Bytes) :
    c.serve M p request (UInt64.ofNat request.length) =
      c.serve M p (presented request) (UInt64.ofNat (presented request).length) := by
  have hlen : (UInt64.ofNat (presented request).length).toUInt32 =
      (UInt64.ofNat request.length).toUInt32 := by
    rw [← UInt32.toNat_inj, narrowed_length, narrowed_length, length_presented, Nat.mod_mod]
  have hobserve : TMemoryBuffer.observe (presented request)
      (UInt64.ofNat request.length).toUInt32 =
      TMemoryBuffer.observe request (UInt64.ofNat request.length).toUInt32 := by
    simp only [TMemoryBuffer.observe, narrowed_length, presented, List.take_take, Nat.min_self]
  unfold Core.serve
  rw [hlen, hobserve]

/-- Code that begins with reading the header of a message. -/
theorem header_exec {α : Type} (f : MessageBegin × UInt32 → Code σ α) {c : Core σ}
    {h name rest : Bytes} {type : TMessageType} {seqid : Int32} (hh : IsHeader h name type seqid) :
    (TBinaryProtocol.default.readMessageBegin >>= f).exec M
        (Session.initial (Unread.ofRequest (h ++ rest)) c) =
      (f ((name, type, seqid), UInt32.ofNat h.length)).exec M (afterHeader c h name rest) := by
  have hread : (TBinaryProtocol.default.readMessageBegin).exec M
      (Session.initial (Unread.ofRequest (h ++ rest)) c) =
        .ok ((name, type, seqid), UInt32.ofNat h.length) (afterHeader c h name rest) :=
    readMessageBegin_initial.mpr ⟨h, rest, rfl, hh, rfl, rfl⟩
  simp only [Code.exec, Program.exec_bind] at hread ⊢
  rw [hread]

/-- The header is the only thing that is looked at before a call is dispatched. -/
theorem process_exec (dispatchCall : Bytes → Int32 → Code σ Bool) {c : Core σ}
    {h name rest : Bytes} {seqid : Int32} (hh : CallHeader h name seqid) :
    (TDispatchProcessor.process dispatchCall TBinaryProtocol.default.readMessageBegin).exec M
        (Session.initial (Unread.ofRequest (h ++ rest)) c) =
      (dispatchCall name seqid).exec M (afterHeader c h name rest) := by
  obtain ⟨type, hheader, htype⟩ := hh
  have hnot : ¬ (type ≠ .call ∧ type ≠ .oneway) := by tauto
  rw [TDispatchProcessor.process, header_exec _ hheader]
  simp only [hnot, if_false]

/-- **A request that begins with the header of a call** does what `dispatchCall` does behind it. -/
theorem serve_call (M : Malloc) (c : Core σ) (dispatchCall : Bytes → Int32 → Code σ Bool)
    {h name rest : Bytes} {seqid : Int32} (hh : CallHeader h name seqid)
    (hlt : (h ++ rest).length < 2 ^ 32) :
    let run := (dispatchCall name seqid).exec M (afterHeader c h name rest)
    let served := c.serve M (TDispatchProcessor.processor dispatchCall) (h ++ rest)
      (UInt64.ofNat (h ++ rest).length)
    served.1 = endedOf run ∧ served.2.1 = (Program.endState run).handlers ∧
      served.2.2.wrote = (Program.endState run).wrote ∧
      served.2.2.mallocs = (Program.endState run).mallocs ∧
      served.2.2.input.readable = (Program.endState run).input.bytes := by
  have hserve := serve_ofCode M c
    (TDispatchProcessor.process dispatchCall TBinaryProtocol.default.readMessageBegin) hlt
  rw [process_exec dispatchCall hh] at hserve
  exact hserve

theorem safe_readMessageBegin {prot : TBinaryProtocol} {L : ℕ} :
    Safe M L (prot.readMessageBegin : Code σ _) 4 := by
  refine safe_readI32.bind (m := 0) fun r => ?_
  obtain ⟨sz, n1⟩ := r
  simp only
  split_ifs
  · exact Safe.raise (.protocol _ _) (leak_protocol (by decide))
  · exact (safe_readString.bind (m := 0) fun _ => (safe_readI32.bind (m := 0) fun _ =>
      Safe.ret _).weaken (Nat.zero_le _)).weaken (Nat.zero_le _)
  · exact Safe.raise (.protocol _ _) (leak_protocol (by decide))
  · exact (safe_readStringBody _).bind (m := 0) fun _ => (safe_readByte.bind (m := 0) fun _ =>
      (safe_readI32.bind (m := 0) fun _ => Safe.ret _).weaken (Nat.zero_le _)).weaken
        (Nat.zero_le _)

/-- **All other requests** are refused: nothing is written, and the handlers see nothing of them. -/
theorem serve_no_call (M : Malloc) (c : Core σ) (dispatchCall : Bytes → Int32 → Code σ Bool)
    {request : Bytes} (hlt : request.length < 2 ^ 32)
    (hno : ∀ h name seqid rest, CallHeader h name seqid → request ≠ h ++ rest) :
    let served := c.serve M (TDispatchProcessor.processor dispatchCall) request
      (UInt64.ofNat request.length)
    (served.1 = .returned false ∨ served.1 = .threwTException) ∧ served.2.1 = c.handlers ∧
      served.2.2.wrote = [] ∧ served.2.2.mallocs = c.mallocs + 1 := by
  intro served
  obtain ⟨h1, h2, h3, h4, -⟩ := serve_ofCode M c
    (TDispatchProcessor.process dispatchCall TBinaryProtocol.default.readMessageBegin) hlt
  set s := Session.initial (Unread.ofRequest request) c with hs
  have hreader : Safe M (request.length + 1) (TBinaryProtocol.default.readMessageBegin : Code σ _) 4 :=
    safe_readMessageBegin
  have hsafe := hreader s (Nat.lt_succ_self _)
  simp only [TDispatchProcessor.process, Code.exec, Program.exec_bind] at h1 h2 h3 h4
  unfold Wp at hsafe
  cases hx : Code.exec M (TBinaryProtocol.default.readMessageBegin) s with
  | error e t =>
      rw [hx] at hsafe
      obtain ⟨ht, -, he⟩ := hsafe
      simp only [Code.exec] at hx
      rw [hx] at h1 h2 h3 h4
      exact ⟨Or.inr (h1.trans he.ended), h2.trans ht.handlers, h3.trans ht.wrote,
        h4.trans ht.mallocs⟩
  | ok q t =>
      obtain ⟨⟨name, type, seqid⟩, n⟩ := q
      obtain ⟨h, rest, hreq, hheader, -, rfl⟩ := readMessageBegin_initial.mp hx
      have htype : type ≠ .call ∧ type ≠ .oneway := by
        rw [← not_or]
        exact fun htype => hno h name seqid rest ⟨type, hheader, htype⟩ hreq
      simp only [Code.exec] at hx
      rw [hx] at h1 h2 h3 h4
      simp only [htype, and_self, if_true, ne_eq, not_false_eq_true] at h1 h2 h3 h4
      exact ⟨Or.inl h1, h2, h3, h4⟩

/-! ## Messages -/

/-- When `dispatchCall` returns `true`, it has read exactly the arguments of its method. -/
def ReadsArguments (M : Malloc) (dispatchCall : Bytes → Int32 → Code σ Bool)
    (arguments : Bytes → Bytes → Prop) : Prop :=
  ∀ (c : Core σ) (h name : Bytes) (seqid : Int32) (a rest : Bytes) (t : Session Unread σ),
    arguments name a → (h ++ (a ++ rest)).length < 2 ^ 32 →
    (dispatchCall name seqid).exec M (afterHeader c h name (a ++ rest)) = .ok true t →
    t.input.bytes = rest

theorem IsHeader.ne_nil {h name : Bytes} {type : TMessageType} {seqid : Int32}
    (hh : IsHeader h name type seqid) : h ≠ [] := by
  rcases hh.2 with ⟨x, y, -, rfl⟩ | ⟨y, -, rfl⟩
  · exact List.cons_ne_nil _ _
  · intro hnil
    have := congrArg List.length hnil
    rw [length_unversioned, List.length_nil] at this
    omega

/-- The messages of a service: the header of a call, and arguments of the method. -/
def callMessages (arguments : Bytes → Bytes → Prop) : Messages where
  complete m := ∃ h name seqid a, CallHeader h name seqid ∧ arguments name a ∧ m = h ++ a
  ne_nil := by
    rintro m ⟨h, name, seqid, a, ⟨type, hh, -⟩, -, rfl⟩
    exact List.append_ne_nil_of_left_ne_nil hh.ne_nil a

/-- **A `TDispatchProcessor` reads one message.** -/
theorem dispatch_consumesOne {dispatchCall : Bytes → Int32 → Code σ Bool}
    {arguments : Bytes → Bytes → Prop} (ha : ReadsArguments M dispatchCall arguments) :
    (TDispatchProcessor.processor dispatchCall).ConsumesOne M (callMessages arguments) := by
  rintro c m rest ⟨h, name, seqid, a, hh, harg, rfl⟩ hlt hrun
  rw [List.append_assoc] at hlt hrun ⊢
  obtain ⟨h1, -, -, -, h5⟩ := serve_call M c dispatchCall hh hlt
  rw [h5]
  rw [h1] at hrun
  cases hx : (dispatchCall name seqid).exec M (afterHeader c h name (a ++ rest)) with
  | ok b t =>
      rw [hx] at hrun
      cases hrun
      exact ha c h name seqid a rest t harg hlt hx
  | error e t =>
      rw [hx] at hrun
      cases e with
      | write e => cases e <;> cases hrun
      | _ => cases hrun

/-- Dispatches to a method `p` without parameters, which counts its calls. -/
def countCalls (_fname : Bytes) (seqid : Int32) : Code ℕ Bool := do
  let _ ← TBinaryProtocol.default.skip requestFuel .struct
  let calls ← Code.getHandlers
  Code.setHandlers (calls + 1)
  let _ ← TBinaryProtocol.default.writeMessageBegin [112] .reply seqid
  return true

theorem countCalls_readsArguments : ReadsArguments M countCalls fun _ a =>
    ∃ w : Wire, w.type = .struct ∧ w.WellFormed ∧ w.bytes = a := by
  rintro c h name seqid _ rest t ⟨w, htype, hw, rfl⟩ hlt hx
  have hlim : TBinaryProtocol.default.recursionLimit.toNat < 2 ^ 32 - 1 := by decide
  have hfuel : (afterHeader c h name (w.bytes ++ rest)).input.bytes.length < requestFuel := by
    rw [List.length_append] at hlt
    exact lt_of_le_of_lt (Nat.le_add_left _ _) hlt
  simp only [countCalls, Code.bind_eq_ok] at hx
  obtain ⟨n, u, hskip, calls, u1, hget, ⟨⟩, u2, hset, m, u3, hwrite, hret⟩ := hx
  obtain ⟨w', ⟨htype', hw', -⟩, -, r, -, hu⟩ :=
    (skip_eq_ok hlim requestFuel .struct _ n u (Nat.zero_le _) hfuel).mp hskip
  have hsame := w.unique hw w' hw' (htype.trans htype'.symm) _ _ hu.bytes
  cases hget
  cases hset
  cases hret
  have hreply : Appends M (TBinaryProtocol.default.writeMessageBegin [112] .reply seqid :
      Code ℕ _) (header true [112] .reply seqid) :=
    writeMessageBegin_appends (by decide) (by decide) seqid
  have happended := hreply { u with handlers := u.handlers + 1 }
  unfold Wp at happended
  rw [hwrite] at happended
  rw [happended.2.rest]
  exact hsame.2.symm

/-- The header of a call of `p`. -/
def callHeader : Bytes := header true [112] .call 1

theorem callHeader_isHeader : CallHeader callHeader [112] 1 :=
  ⟨.call, isHeader_header true (by decide) (by decide) 1, Or.inl rfl⟩

/-- A core that dispatches to `countCalls` for the service `A`. -/
def countingCore : Core ℕ where
  lib := { CoreLib.init with
    coreInitialized := true
    globalFactory := ProcessorFactory.empty.staticRegisterCallback (.ofBuffer [65])
      (TDispatchProcessor.processor countCalls) }
  handlers := 0
  mallocs := 0

/-- What is registered for a name is the dispatcher of that name. -/
def Dispatches (dispatchCall : Bytes → Bytes → Int32 → Code σ Bool) (c : Core σ) : Prop :=
  ∀ s p, c.registered s = some p → p = TDispatchProcessor.processor (dispatchCall s)

/-- The request calls the method `name`. -/
def Calls (request name : Bytes) (seqid : Int32) : Prop :=
  ∃ h rest, CallHeader h name seqid ∧ presented request = h ++ rest

theorem resolve_letGo (F : ProcessorFactory (TProcessor σ)) (s s' : Bytes) :
    ((F.getProcessor s).1.letGo (F.getProcessor s).2).resolve s' = F.resolve s' := by
  rw [ProcessorFactory.resolve_eq, ProcessorFactory.resolve_eq]
  unfold ProcessorFactory.getProcessor
  cases F.processors.lookup s with
  | none => rfl
  | some b =>
      simp only [ProcessorFactory.letGo, ProcessorFactory.release, ProcessorFactory.retain,
        RefCount.CountedHeap.content_release, RefCount.CountedHeap.content_retain]

/-- A call registers nothing. -/
theorem generic_registered (M : Malloc) (c : Core σ) (s buf : Bytes) (len : UInt64) (s' : Bytes) :
    (processThriftDataGeneric M c s buf len).2.registered s' = c.registered s' := by
  have hlib : (if c.lib.coreInitialized then ((c.lib.globalFactory.getProcessor s).1.letGo
      (c.lib.globalFactory.getProcessor s).2).resolve s' else none) = c.registered s' := by
    rw [resolve_letGo]
    rfl
  unfold processThriftDataGeneric
  by_cases hinit : c.lib.coreInitialized = true
  · rw [if_neg (by simp [hinit])]
    dsimp only
    cases (c.lib.globalFactory.getProcessor s).2.bind
        (c.lib.globalFactory.getProcessor s).1.blocks.content with
    | none => rfl
    | some p =>
        by_cases hm : M c.mallocs 1024 = true
        · simp only [hm, if_true]
          exact hlib
        · simp only [hm]
          exact hlib
  · rw [if_pos (by simpa using hinit)]

/-- The handlers after a call. -/
theorem generic_handlers (M : Malloc) (c : Core σ) (s buf : Bytes) (len : UInt64) :
    (processThriftDataGeneric M c s buf len).2.handlers =
      match c.finds M s with
      | none => c.handlers
      | some p => (c.serve M p buf len).2.1 := by
  unfold processThriftDataGeneric Core.finds ProcessorFactory.resolve
  by_cases hinit : c.lib.coreInitialized = true
  · rw [if_neg (by simp [hinit])]
    dsimp only
    cases hp : (c.lib.globalFactory.getProcessor s).2.bind
        (c.lib.globalFactory.getProcessor s).1.blocks.content with
    | none => simp
    | some p =>
        by_cases hm : M c.mallocs 1024 = true
        · rw [if_pos ⟨hinit, hm⟩]
          simp only [hm, if_true]
          rfl
        · rw [if_neg (fun h => hm h.2)]
          simp only [hm]
          rfl
  · rw [if_pos (by simpa using hinit), if_neg (fun h => hinit h.1)]

/-- **One request.** What the called methods keep of the handlers, the request keeps. -/
theorem generic_keeps {dispatchCall : Bytes → Bytes → Int32 → Code σ Bool} {I : σ → Prop}
    {c : Core σ} {s request : Bytes} (hd : Dispatches dispatchCall c) (hI : I c.handlers)
    (hkeep : ∀ name seqid, Calls request name seqid → ∀ u : Session Unread σ, I u.handlers →
      I (Program.endState ((dispatchCall s name seqid).exec M u)).handlers) :
    I (processThriftDataGeneric M c s request (UInt64.ofNat request.length)).2.handlers := by
  rw [generic_handlers]
  cases hf : c.finds M s with
  | none => exact hI
  | some p =>
      have hp : c.registered s = some p := by
        rw [finds_eq] at hf
        split_ifs at hf
        exact hf
      show I (c.serve M p request _).2.1
      rw [hd s p hp, serve_presented]
      by_cases hcall : ∃ name seqid, Calls request name seqid
      · obtain ⟨name, seqid, h, rest, hh, hreq⟩ := hcall
        have hlt := length_presented_lt request
        rw [hreq] at hlt ⊢
        rw [(serve_call M c (dispatchCall s) hh hlt).2.1]
        exact hkeep name seqid ⟨h, rest, hh, hreq⟩ _ hI
      · have hno : ∀ h name seqid rest, CallHeader h name seqid → presented request ≠ h ++ rest :=
          fun h name seqid rest hh hreq => hcall ⟨name, seqid, h, rest, hh, hreq⟩
        rw [(serve_no_call M c (dispatchCall s) (length_presented_lt request) hno).2.1]
        exact hI

/-- **The handlers along a run.** In any interleaving, what the methods keep that are called by the
requests of the run, is kept in the run. -/
theorem handlers_of_run {Z : ZendApi} {between : ℕ → Core σ → Core σ}
    {dispatchCall : Bytes → Bytes → Int32 → Code σ Bool} {I : σ → Prop} {w v : World (ℕ × Core σ)}
    {ms : List (Machine.Move (World (ℕ × Core σ)) Event Label)}
    (hr : (engine Z (coreExecutor M between)).Runs w ms v)
    (hbetween : ∀ i c, Dispatches dispatchCall c → I c.handlers →
      Dispatches dispatchCall (between i c) ∧ I (between i c).handlers)
    (hd : Dispatches dispatchCall w.core.2) (hI : I w.core.2.handlers)
    (hkeep : ∀ m ∈ ms, ∀ q, m.output.asked = some q → ∀ name seqid, Calls q.request name seqid →
      ∀ u : Session Unread σ, I u.handlers →
        I (Program.endState ((dispatchCall q.service name seqid).exec M u)).handlers) :
    I v.core.2.handlers := by
  have hP : Dispatches dispatchCall v.core.2 ∧ I v.core.2.handlers := by
    refine (served_in_order hr).invariant (P := fun e => Dispatches dispatchCall e.2 ∧ I e.2.handlers)
      ⟨hd, hI⟩ ?_
    rintro q hq e ⟨hd, hI⟩
    obtain ⟨m, hm, hasked⟩ := List.mem_filterMap.mp hq
    obtain ⟨hd', hI'⟩ := hbetween e.1 e.2 hd hI
    refine ⟨fun s p hp => ?_, generic_keeps hd' hI' (hkeep m hm q hasked)⟩
    exact hd' s p ((generic_registered M (between e.1 e.2) q.service q.request _ s).symm.trans hp)
  exact hP.2

theorem countingCore_dispatches : Dispatches (fun _ => countCalls) countingCore := by
  intro s p hp
  have hempty : (ProcessorFactory.empty : ProcessorFactory (TProcessor ℕ)).Allocated := by
    intro s b h
    cases (AList.lookup_empty s).symm.trans h
  have hresolve : countingCore.registered s = if [65] = s then some
      (TDispatchProcessor.processor countCalls) else none :=
    ProcessorFactory.resolve_staticRegisterCallback hempty _ _ s
  rw [hresolve] at hp
  split_ifs at hp
  exact (Option.some.inj hp).symm

/-- A core between whose requests nothing happens, and that is granted every allocation. -/
def countingExecutor : Executor (ℕ × Core ℕ) := coreExecutor (fun _ _ => true) fun _ c => c

set_option maxRecDepth 10000 in
/-- A flush of a reply. -/
theorem replies_change_nothing :
    ∃ w ms, (engine .unlimited countingExecutor).Runs (World.init (0, countingCore)) ms w ∧
      ms.filterMap (fun m => m.output.asked.map Asked.request) = [header true [112] .reply 1] ∧
      w.core.2.handlers = 0 := by
  obtain ⟨w, ms, hr, -, hf⟩ := Runs.exists_of_result (engine .unlimited countingExecutor)
    (World.init (0, countingCore)) (writtenOneByOne (header true [112] .reply 1) ++ [.flush 4128])
    (fun r => r.2.filterMap fun m => m.output.asked.map Asked.request)
    (a := [header true [112] .reply 1]) (by decide +kernel)
  refine ⟨w, ms, hr, hf, ?_⟩
  refine handlers_of_run (I := (· = 0)) hr (fun _ _ hd hI => ⟨hd, hI⟩) countingCore_dispatches rfl
    ?_
  intro m hm q hq name seqid hcall
  have hmem : q.request ∈ ms.filterMap fun m => m.output.asked.map Asked.request :=
    List.mem_filterMap.mpr ⟨m, hm, by rw [hq]; rfl⟩
  rw [hf, List.mem_singleton] at hmem
  obtain ⟨h, rest, ⟨type, hh, htype⟩, hreq⟩ := hcall
  rw [hmem, presented_of_lt (by decide)] at hreq
  obtain ⟨-, -, rfl, -, -⟩ := (isHeader_header true (by decide) (by decide) 1).unique hh
    ((List.append_nil _).trans hreq)
  exact absurd htype (by decide)

end ThriftBridge

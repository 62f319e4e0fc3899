import ThriftBridge.Core.Generic
import ThriftBridge.Transport.Accounts

/-!
# Several messages in one flush

* `Messages`, `TProcessor.ConsumesOne`: processors whose `process` reads one message;
* `Core.leftUnread`: what a call leaves unread of its request. `Core.replies`: the replies to
  messages that are presented one after the other;
* `AllServed`, `RestKept`: the two ways in which a flush drops no message;
* `nothing_dropped_iff`: a successful flush drops no message if and only if there was only one,
  which is not too long.
-/

set_option autoImplicit false

namespace ThriftBridge

open RefCount World Machine

variable {ε σ : Type} {Z : ZendApi} {exec : Executor ε} {w v : World ε} {b this : ℕ} {l : Label}

/-! ## Fields after a flush -/

/-- The bytes of a field of the object in block `b`. -/
def World.bytesOf (w : World ε) (b : ℕ) (field : TransportObject → Option StrRef) : Option Bytes :=
  (((w.objs b).bind field).bind w.deref).map ZendString.val

theorem bytesOf_eq {o : TransportObject} {field : TransportObject → Option StrRef} {s : ZendString}
    (ho : w.objs b = some o) (hs : (field o).bind w.deref = some s) :
    w.bytesOf b field = some s.val := by
  rw [bytesOf, ho, Option.bind_some, hs, Option.map_some]

/-- The string that `flush` has installed is not the one that it releases last. -/
theorem deref_installed {o : TransportObject} {rw rr : StrRef} {p : ZendString}
    (hp : w.deref rw = some p) (e : ε) (q : Asked) (s : ZendString) :
    (flushedWorld w b o rw rr e q s).deref (.counted w.heap.next) = some s := by
  have hself := deref_newString_self (w.dropRef (some b) rr) (some b) s
  rw [dropRef_next] at hself
  show (flushedWorld w b o rw rr e q s).heap.get? w.heap.next = some s
  rw [flushedWorld_heap]
  cases rw with
  | interned t => exact hself
  | counted a =>
      have hlt : a < w.heap.next :=
        CountedHeap.lt_next_of_count_pos (CountedHeap.get?_eq_some.mp hp).1
      obtain ⟨hpos, hcont⟩ := CountedHeap.get?_eq_some.mp hself
      refine CountedHeap.get?_eq_some.mpr ⟨?_, ?_⟩
      · simp only [dropRef, CountedHeap.count_release]
        rw [if_neg (by omega)]
        exact hpos
      · simpa only [dropRef, CountedHeap.content_release] using hcont

/-- **A flush that succeeds** has installed the response to the write buffer, and cleared it. -/
theorem flush_succeeds (hs : engineStep Z exec w (.flush this) = some (v, l))
    (hout : l.outcome = .returned .null) :
    ∃ n p bytes, w.bytesOf (fetchObject this) (·.serviceName) = some n ∧
      w.bytesOf (fetchObject this) (·.wBuf) = some p ∧ (exec w.core n p).1.reply = .response bytes ∧
      v.bytesOf (fetchObject this) (·.rBuf) = some bytes ∧
      v.bytesOf (fetchObject this) (·.wBuf) = some [] := by
  obtain ⟨⟨o, ho⟩, hr⟩ := engineStep_eq_some hs
  rcases runMethod_wp (wp_flush (w := w.unasked) Z exec ho) with
    ⟨r, u, hret, he⟩ | ⟨e, u, -, he⟩
  · cases hr.trans he
    cases hout
    cases hret with
    | @installed rw rr n p s t e q hpres hnn hw hrr ht ha hg =>
        have hp : w.unasked.deref rw = some p := by
          simpa only [hw, Option.bind_some] using hpres.request
        have hobj : (flushedWorld w.unasked (fetchObject this) o rw rr e q s).objs
            (fetchObject this) = some (flushed o w.heap.next) := by
          rw [flushedWorld_objs, Function.update_self]
          rfl
        exact ⟨n.val, p.val, s.val, bytesOf_eq ho hpres.service, bytesOf_eq ho hpres.request, ha,
          bytesOf_eq hobj (deref_installed hp e q s), bytesOf_eq (s := .empty) hobj rfl⟩
  · cases hr.trans he
    cases hout

/-! ## Messages -/

/-- The requests that a processor takes one at a time. None is empty. -/
structure Messages where
  complete : Bytes → Prop
  ne_nil : ∀ m, complete m → m ≠ []

/-- When it returns `true`, `process` has read exactly the first message of its input. -/
def TProcessor.ConsumesOne (M : Malloc) (F : Messages) (p : TProcessor σ) : Prop :=
  ∀ (c : Core σ) (m rest : Bytes), F.complete m → (m ++ rest).length < 2 ^ 32 →
    (c.serve M p (m ++ rest) (UInt64.ofNat (m ++ rest).length)).1 = .returned true →
    (c.serve M p (m ++ rest) (UInt64.ofNat (m ++ rest).length)).2.2.input.readable = rest

/-- What a call on `request` leaves unread of it: the rest of the input transport, and what the
narrowed length leaves out. -/
def Core.leftUnread (M : Malloc) (c : Core σ) (p : TProcessor σ) (request : Bytes) : Bytes :=
  (c.serve M p request (UInt64.ofNat request.length)).2.2.input.readable ++
    request.drop (request.length % 2 ^ 32)

/-- The replies to messages that are presented one after the other. -/
def Core.replies (M : Malloc) (service : Bytes) : Core σ → List Bytes → Option Bytes
  | _, [] => some []
  | c, m :: msgs =>
    let (call, c) := processThriftDataGeneric M c service m (UInt64.ofNat m.length)
    match call.result.reply with
    | .response r => (c.replies M service msgs).map (r ++ ·)
    | _ => none

section Messages

variable {M : Malloc} {F : Messages} {c : Core σ} {p : TProcessor σ} {m rest n request : Bytes}

theorem leftUnread_cons (hone : p.ConsumesOne M F) (hm : F.complete m)
    (hlt : (m ++ rest).length < 2 ^ 32)
    (hrun : (c.serve M p (m ++ rest) (UInt64.ofNat (m ++ rest).length)).1 = .returned true) :
    c.leftUnread M p (m ++ rest) = rest := by
  rw [Core.leftUnread, hone c m rest hm hlt hrun, Nat.mod_eq_of_lt hlt, List.drop_length,
    List.append_nil]

/-- A request that is read to its end fits `uint32_t`. -/
theorem lt_of_leftUnread (h : c.leftUnread M p request = []) : request.length < 2 ^ 32 := by
  have hdrop := List.drop_eq_nil_iff.mp (List.append_eq_nil_iff.mp h).2
  have := Nat.mod_lt request.length (show 0 < 2 ^ 32 by norm_num)
  omega

/-- A response is the output of a processor that has returned `true`. -/
theorem serve_of_response {between : ℕ → Core σ → Core σ} {e : ℕ × Core σ} {bytes : Bytes}
    (hp : (between e.1 e.2).registered n = some p)
    (ha : (coreExecutor M between e n request).1.reply = .response bytes) :
    ((between e.1 e.2).serve M p request (UInt64.ofNat request.length)).1 = .returned true := by
  rw [coreExecutor_answer, hp] at ha
  simp only at ha
  split_ifs at ha
  unfold runReply at ha
  split at ha
  · assumption
  · cases ha
  · cases ha

/-- One message. -/
theorem replies_single {between : ℕ → Core σ → Core σ} {e : ℕ × Core σ} {bytes : Bytes}
    (ha : (coreExecutor M between e n m).1.reply = .response bytes) :
    (between e.1 e.2).replies M n [m] = some bytes := by
  simp only [coreExecutor] at ha
  simp [Core.replies, ha]

end Messages

/-! ## Flushes -/

/-- All messages have been read, and the read buffer has the replies to them. -/
def AllServed (M : Malloc) (c : Core σ) (p : TProcessor σ) (service : Bytes) (msgs : List Bytes)
    (v : World ε) (b : ℕ) : Prop :=
  c.leftUnread M p msgs.flatten = [] ∧
    ∃ r, c.replies M service msgs = some r ∧ v.bytesOf b (·.rBuf) = some r

/-- The write buffer still has the messages that have not been read. -/
def RestKept (M : Malloc) (c : Core σ) (p : TProcessor σ) (msgs : List Bytes) (v : World ε)
    (b : ℕ) : Prop :=
  ∃ done left, msgs = done ++ left ∧ left ≠ [] ∧ c.leftUnread M p msgs.flatten = left.flatten ∧
    v.bytesOf b (·.wBuf) = some left.flatten

theorem flatten_eq_nil {F : Messages} {msgs : List Bytes} (hF : ∀ m ∈ msgs, F.complete m)
    (h : msgs.flatten = []) : msgs = [] := by
  cases msgs with
  | nil => rfl
  | cons m msgs =>
      rw [List.flatten_cons, List.append_eq_nil_iff] at h
      exact absurd h.1 (F.ne_nil m (hF m List.mem_cons_self))

/-- **A successful flush drops no message** if and only if the write buffer has exactly one, of less
than `2 ^ 32` bytes. -/
theorem nothing_dropped_iff (M : Malloc) (between : ℕ → Core σ → Core σ) {F : Messages}
    {w v : World (ℕ × Core σ)} {p : TProcessor σ} {service : Bytes} {msgs : List Bytes}
    (hs : engineStep Z (coreExecutor M between) w (.flush this) = some (v, l))
    (hout : l.outcome = .returned .null)
    (hn : w.bytesOf (fetchObject this) (·.serviceName) = some service)
    (hp : (between w.core.1 w.core.2).registered service = some p) (hone : p.ConsumesOne M F)
    (hw : w.bytesOf (fetchObject this) (·.wBuf) = some msgs.flatten)
    (hF : ∀ m ∈ msgs, F.complete m) (hne : msgs ≠ []) :
    AllServed M (between w.core.1 w.core.2) p service msgs v (fetchObject this) ∨
        RestKept M (between w.core.1 w.core.2) p msgs v (fetchObject this) ↔
      msgs.length = 1 ∧ msgs.flatten.length < 2 ^ 32 := by
  obtain ⟨n', p', bytes, hn', hw', ha, hr, hclear⟩ := flush_succeeds hs hout
  cases hn.symm.trans hn'
  cases hw.symm.trans hw'
  have hrun := serve_of_response hp ha
  obtain ⟨m, rest, rfl⟩ := List.exists_cons_of_ne_nil hne
  have hm := hF m List.mem_cons_self
  have hrest : ∀ m ∈ rest, F.complete m := fun m' h => hF m' (List.mem_cons_of_mem m h)
  constructor
  · rintro (⟨hread, -⟩ | ⟨done, left, hsplit, hleft, -, hkept⟩)
    · have hlt := lt_of_leftUnread hread
      rw [List.flatten_cons, leftUnread_cons hone hm hlt hrun] at hread
      rw [flatten_eq_nil hrest hread] at hlt ⊢
      exact ⟨rfl, hlt⟩
    · -- the write buffer is empty, and no message is
      have hnil : left.flatten = [] := (Option.some.inj (hclear.symm.trans hkept)).symm
      refine absurd (flatten_eq_nil (fun m' h => hF m' ?_) hnil) hleft
      rw [hsplit]
      exact List.mem_append_right done h
  · rintro ⟨hk, hlt⟩
    have hnil : rest = [] := List.length_eq_zero_iff.mp (Nat.succ.inj hk)
    subst hnil
    refine Or.inl ⟨leftUnread_cons hone hm hlt hrun, bytes, ?_, hr⟩
    rw [List.flatten_singleton] at ha
    exact replies_single ha

/-! ## Messages of two bytes -/

/-- The call `[1, x]` is answered with `[2, x]`, and all other messages are one-way. The handlers'
state has the arguments that were seen. -/
def pairs : TProcessor (List UInt8) where
  process seen := .readAll 2 fun b =>
    match b with
    | some [1, x] => .write ⟨[2, x], by simp⟩ fun _ => .done (.returned true) (seen ++ [x])
    | some [_, x] => .done (.returned true) (seen ++ [x])
    | _ => .done .threwTException seen

/-- Its messages. -/
def pairMessages : Messages where
  complete m := m.length = 2
  ne_nil := by
    rintro m hm rfl
    cases hm

/-- A core with this processor under the name `A`. -/
def pairCore : Core (List UInt8) where
  lib := { CoreLib.init with
    coreInitialized := true
    globalFactory := ProcessorFactory.empty.staticRegisterCallback (.ofBuffer [65]) pairs }
  handlers := []
  mallocs := 0

theorem pairs_consumesOne (M : Malloc) : pairs.ConsumesOne M pairMessages := by
  intro c m rest hm hlt _
  obtain ⟨a, x, rfl⟩ := List.length_eq_two.mp hm
  set t := TMemoryBuffer.observe ([a, x] ++ rest)
    (UInt64.ofNat ([a, x] ++ rest).length).toUInt32 with ht
  have hr : t.readable = [a, x] ++ rest := by
    refine TMemoryBuffer.readable_observe (le_of_eq ?_)
    rw [narrowed_length, Nat.mod_eq_of_lt hlt]
  have hread : t.readAll 2 = (some [a, x], t.advance 2) := by
    unfold TMemoryBuffer.readAll
    rw [hr]
    simp
  have hleft : (t.advance 2).readable = rest := by
    rw [TMemoryBuffer.readable_advance, hr]
    rfl
  simp only [Core.serve, pairs, Process.run, ← ht, hread]
  split
  · unfold Process.run
    split <;> exact hleft
  · exact hleft
  · exact hleft

/-- The bytes are written one by one to the transport in block 4096. -/
def writtenOneByOne (buf : Bytes) : List Event :=
  [.createObject 0, .construct 4128 (some (zstrChar 65))] ++
    buf.map fun c => .write 4128 (some (zstrChar c))

/-- An executor that is granted every allocation, and nothing happens between two calls. -/
def pairExecutor : Executor (ℕ × Core (List UInt8)) := coreExecutor (fun _ _ => true) fun _ c => c

/-- What a flush of the object in block 4096 finds: the core, the service name and the write buffer.
Then how it ends, and the two buffers after it. -/
def beforeAndAfter (w : World (ℕ × Core (List UInt8))) :
    (ℕ × Core (List UInt8)) × Option Bytes × Option Bytes ×
      Option (Outcome × Option Bytes × Option Bytes) :=
  (w.core, w.bytesOf 4096 (·.serviceName), w.bytesOf 4096 (·.wBuf),
    (engineStep .unlimited pairExecutor w (.flush 4128)).map fun r =>
      (r.2.outcome, r.1.bytesOf 4096 (·.wBuf), r.1.bytesOf 4096 (·.rBuf)))

/-- One call. -/
theorem nothing_dropped_of_one :
    ∃ w ms v l, (engine .unlimited pairExecutor).Runs (World.init (0, pairCore)) ms w ∧
      ms.map Move.input = writtenOneByOne [1, 5] ∧
      engineStep .unlimited pairExecutor w (.flush 4128) = some (v, l) ∧
      l.outcome = .returned .null ∧
      (AllServed (fun _ _ => true) w.core.2 pairs [65] [[1, 5]] v 4096 ∨
        RestKept (fun _ _ => true) w.core.2 pairs [[1, 5]] v 4096) := by
  obtain ⟨w, ms, hr, hin, hf⟩ := Runs.exists_of_result (engine .unlimited pairExecutor)
    (World.init (0, pairCore)) (writtenOneByOne [1, 5]) (fun r => beforeAndAfter r.1)
    (a := ((0, pairCore), some [65], some [1, 5], some (.returned .null, some [], some [2, 5]))) rfl
  simp only [beforeAndAfter, Prod.mk.injEq, Option.map_eq_some_iff] at hf
  obtain ⟨hcore, hn, hw, ⟨v, l⟩, hs, hout, -, -⟩ := hf
  have hbuf : w.bytesOf 4096 (·.wBuf) = some [[1, 5]].flatten := hw
  refine ⟨w, ms, v, l, hr, hin, hs, hout, ?_⟩
  exact (nothing_dropped_iff _ _ hs hout hn (by rw [hcore]; rfl) (pairs_consumesOne _) hbuf
    (by simp [pairMessages]) (by decide)).mpr (by decide)

/-- Two calls, flushed together. The flush succeeds, the second one has not been read, and it is
gone. -/
theorem second_message_dropped :
    ∃ w ms v l, (engine .unlimited pairExecutor).Runs (World.init (0, pairCore)) ms w ∧
      ms.map Move.input = writtenOneByOne [1, 5, 1, 6] ∧
      pairs.ConsumesOne (fun _ _ => true) pairMessages ∧
      w.core.2.registered [65] = some pairs ∧
      w.bytesOf 4096 (·.wBuf) = some [[1, 5], [1, 6]].flatten ∧
      engineStep .unlimited pairExecutor w (.flush 4128) = some (v, l) ∧
      l.outcome = .returned .null ∧ v.bytesOf 4096 (·.rBuf) = some [2, 5] ∧
      ¬ (AllServed (fun _ _ => true) w.core.2 pairs [65] [[1, 5], [1, 6]] v 4096 ∨
        RestKept (fun _ _ => true) w.core.2 pairs [[1, 5], [1, 6]] v 4096) := by
  obtain ⟨w, ms, hr, hin, hf⟩ := Runs.exists_of_result (engine .unlimited pairExecutor)
    (World.init (0, pairCore)) (writtenOneByOne [1, 5, 1, 6]) (fun r => beforeAndAfter r.1)
    (a := ((0, pairCore), some [65], some [1, 5, 1, 6],
      some (.returned .null, some [], some [2, 5]))) rfl
  simp only [beforeAndAfter, Prod.mk.injEq, Option.map_eq_some_iff] at hf
  obtain ⟨hcore, -, hw, ⟨v, l⟩, hs, hout, hclear, hrBuf⟩ := hf
  have hunread : w.core.2.leftUnread (fun _ _ => true) pairs [[1, 5], [1, 6]].flatten = [1, 6] := by
    rw [hcore]
    decide
  refine ⟨w, ms, v, l, hr, hin, pairs_consumesOne _, by rw [hcore]; rfl, hw, hs, hout, hrBuf, ?_⟩
  rintro (⟨hread, -⟩ | ⟨done, left, -, -, hread, hkept⟩)
  · cases hunread.symm.trans hread
  · rw [← Option.some.inj (hclear.symm.trans hkept)] at hread
    cases hunread.symm.trans hread

end ThriftBridge

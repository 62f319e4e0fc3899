import ThriftBridge.Zend.World

/-!
# `TMemoryBuffer`, and processors that use it

* `TMemoryBuffer`: the written bytes, the read position and the capacity. Its fields keep the
  position inside the bytes and the bytes inside the capacity;
* `observe`, `owned`: the two constructors the bridge uses;
* `Process σ`: a call of `TProcessor::process`, as what it does with its two transports;
* `Process.run_output`: the output transport ends with exactly the bytes that were written.
-/

set_option autoImplicit false

namespace ThriftBridge

/-- Which `malloc` and `realloc` calls of the C++ code succeed: the number of the call, and the
size. Nothing else can fail for want of memory: `operator new` and the allocations of `std::string`
are taken to succeed. -/
abbrev Malloc := ℕ → ℕ → Bool

/-- `TConfiguration::DEFAULT_MAX_MESSAGE_SIZE`. -/
def defaultMaxMessageSize : ℕ := 100 * 1024 * 1024

/-- `TMemoryBuffer`. `buffer` are the bytes before `wBase_`, `rPos` is `rBase_ - buffer_`. -/
structure TMemoryBuffer where
  buffer : Bytes
  rPos : ℕ
  bufferSize : UInt32
  owner : Bool
  remainingMessageSize : ℕ
  rPos_le : rPos ≤ buffer.length
  length_le : buffer.length ≤ bufferSize.toNat

namespace TMemoryBuffer

/-- `TMemoryBuffer(buf, sz)`: it observes the first `sz` bytes at `buf`. -/
def observe (buf : Bytes) (sz : UInt32) : TMemoryBuffer where
  buffer := buf.take sz.toNat
  rPos := 0
  bufferSize := sz
  owner := false
  remainingMessageSize := defaultMaxMessageSize
  rPos_le := Nat.zero_le _
  length_le := List.length_take_le _ _

/-- `TMemoryBuffer()`, once its 1024 bytes are allocated. -/
def owned : TMemoryBuffer where
  buffer := []
  rPos := 0
  bufferSize := 1024
  owner := true
  remainingMessageSize := defaultMaxMessageSize
  rPos_le := le_rfl
  length_le := Nat.zero_le _

/-- The bytes that a reader still finds. -/
def readable (t : TMemoryBuffer) : Bytes := t.buffer.drop t.rPos

/-- `rBase_ += n`. -/
def advance (t : TMemoryBuffer) (n : ℕ) : TMemoryBuffer :=
  { t with
    rPos := min (t.rPos + n) t.buffer.length
    rPos_le := min_le_right _ _ }

/-- `read`; `none` is a `TTransportException`. -/
def read (t : TMemoryBuffer) (len : UInt32) : Option Bytes × TMemoryBuffer :=
  if t.remainingMessageSize < len.toNat then (none, t)
  else (some (t.readable.take len.toNat), t.advance len.toNat)

/-- `readAll`: without enough bytes it uses up those there are, and raises. -/
def readAll (t : TMemoryBuffer) (len : UInt32) : Option Bytes × TMemoryBuffer :=
  if len.toNat ≤ t.readable.length then (some (t.readable.take len.toNat), t.advance len.toNat)
  else if t.remainingMessageSize < len.toNat then (none, t)
  else (none, t.advance t.readable.length)

/-- `borrow`; `none` is `NULL`. -/
def borrow (t : TMemoryBuffer) (len : UInt32) : Option Bytes :=
  if len.toNat ≤ t.readable.length then some t.readable else none

theorem readable_observe {buf : Bytes} {sz : UInt32} (h : buf.length ≤ sz.toNat) :
    (observe buf sz).readable = buf :=
  List.take_of_length_le h

theorem readable_advance (t : TMemoryBuffer) (n : ℕ) :
    (t.advance n).readable = t.readable.drop n := by
  simp only [readable, advance, List.drop_drop, List.drop_eq_drop_iff]
  omega

/-- `consume`; `false` is a `TTransportException`. -/
def consume (t : TMemoryBuffer) (len : UInt32) : Bool × TMemoryBuffer :=
  if t.remainingMessageSize < len.toNat then (false, { t with remainingMessageSize := 0 })
  else
    let t := { t with remainingMessageSize := t.remainingMessageSize - len.toNat }
    if len.toNat ≤ t.readable.length then (true, t.advance len.toNat) else (false, t)

/-- `readEnd`: a buffer that is used up is reset, and a buffer that is not owned loses its space. -/
def readEnd (t : TMemoryBuffer) : ℕ × TMemoryBuffer :=
  let t' := { t with remainingMessageSize := defaultMaxMessageSize }
  if t.rPos = t.buffer.length then
    (t.rPos, { t' with
      buffer := []
      rPos := 0
      bufferSize := if t.owner then t.bufferSize else 0
      rPos_le := le_rfl
      length_le := Nat.zero_le _ })
  else (t.rPos, t')

/-- `getBuffer`: a pointer to the readable bytes, and their number. -/
def getBuffer (t : TMemoryBuffer) : Bytes × UInt32 :=
  (t.readable, UInt32.ofNat t.readable.length)

end TMemoryBuffer

/-- How a `write` ends: a `TTransportException`, or `std::bad_alloc`. -/
inductive WriteError
  | transport
  | badAlloc
deriving DecidableEq

/-- A chunk that `write` can be given. -/
structure Chunk where
  val : Bytes
  length_lt : val.length < 2 ^ 32

namespace TMemoryBuffer

/-- The bytes are appended, into a buffer of `size` bytes. -/
def append (t : TMemoryBuffer) (buf : Bytes) (size : UInt32)
    (h : (t.buffer ++ buf).length ≤ size.toNat) : TMemoryBuffer :=
  { t with
    buffer := t.buffer ++ buf
    bufferSize := size
    rPos_le := by
      rw [List.length_append]
      exact Nat.le_add_right_of_le t.rPos_le
    length_le := h }

/-- The size that `ensureCanWrite` asks for: the next power of two, but at most `maxBufferSize_`. -/
def newSize (required : ℕ) : UInt32 := UInt32.ofNat (min (2 ^ Nat.clog 2 required) (2 ^ 32 - 1))

theorem newSize_toNat (required : ℕ) :
    (newSize required).toNat = min (2 ^ Nat.clog 2 required) (2 ^ 32 - 1) := by
  rw [newSize, UInt32.toNat_ofNat']
  exact Nat.mod_eq_of_lt (lt_of_le_of_lt (min_le_right _ _) (by norm_num))

theorem le_newSize {required : ℕ} (h : required ≤ 2 ^ 32 - 1) :
    required ≤ (newSize required).toNat := by
  rw [newSize_toNat]
  exact le_min (Nat.le_pow_clog (by norm_num) required) h

/-- `write`, with `ensureCanWrite`. `mallocs` counts the allocations. -/
def write (M : Malloc) (t : TMemoryBuffer) (buf : Chunk) (mallocs : ℕ) :
    Except WriteError TMemoryBuffer × ℕ :=
  let required := (t.buffer ++ buf.val).length
  if h : required ≤ t.bufferSize.toNat then (.ok (t.append buf.val t.bufferSize h), mallocs)
  else if t.owner = false then (.error .transport, mallocs)
  else if hmax : required ≤ 2 ^ 32 - 1 then
    if M mallocs (newSize required).toNat then
      (.ok (t.append buf.val (newSize required) (le_newSize hmax)), mallocs + 1)
    else (.error .badAlloc, mallocs + 1)
  else (.error .transport, mallocs)

/-- **A `write` that succeeds appends**, and one that fails does nothing. -/
theorem write_buffer {M : Malloc} {t t' : TMemoryBuffer} {buf : Chunk} {k : ℕ}
    (h : (write M t buf k).1 = .ok t') : t'.buffer = t.buffer ++ buf.val ∧ t'.rPos = t.rPos := by
  simp only [write] at h
  split_ifs at h <;> cases h <;> exact ⟨rfl, rfl⟩

end TMemoryBuffer

/-! ## Processors -/

/-- A call of `process`. It reads its input, writes chunks to its output, each time going on as it
likes with the result, and ends, with the handlers' state `s`. -/
inductive Process (σ : Type)
  | done (ended : Ended) (s : σ)
  | read (len : UInt32) (k : Option Bytes → Process σ)
  | readAll (len : UInt32) (k : Option Bytes → Process σ)
  | borrow (len : UInt32) (k : Option Bytes → Process σ)
  | consume (len : UInt32) (k : Bool → Process σ)
  | readEnd (k : ℕ → Process σ)
  | write (buf : Chunk) (k : Option WriteError → Process σ)

/-- The two transports of a call, the bytes that its successful writes have written, and the number
of allocations so far. -/
structure Transports where
  input : TMemoryBuffer
  output : TMemoryBuffer
  wrote : Bytes
  mallocs : ℕ

/-- A call of `process`. -/
def Process.run {σ : Type} (M : Malloc) : Process σ → Transports → Ended × σ × Transports
  | .done ended s, T => (ended, s, T)
  | .read len k, T => (k (T.input.read len).1).run M { T with input := (T.input.read len).2 }
  | .readAll len k, T =>
    (k (T.input.readAll len).1).run M { T with input := (T.input.readAll len).2 }
  | .borrow len k, T => (k (T.input.borrow len)).run M T
  | .consume len k, T =>
    (k (T.input.consume len).1).run M { T with input := (T.input.consume len).2 }
  | .readEnd k, T => (k T.input.readEnd.1).run M { T with input := T.input.readEnd.2 }
  | .write buf k, T =>
    match T.output.write M buf T.mallocs with
    | (.ok output, mallocs) =>
      (k none).run M { T with output := output, wrote := T.wrote ++ buf.val, mallocs := mallocs }
    | (.error e, mallocs) => (k (some e)).run M { T with mallocs := mallocs }

/-- The output transport holds what has been written, unread. -/
def Transports.Written (T : Transports) : Prop := T.output.buffer = T.wrote ∧ T.output.rPos = 0

/-- **The output is what was written**, however the call goes and ends. -/
theorem Process.run_output {σ : Type} (M : Malloc) (p : Process σ) (T : Transports)
    (hT : T.Written) : (p.run M T).2.2.Written := by
  induction p generalizing T with
  | done ended s => exact hT
  | read len k ih => exact ih _ _ hT
  | readAll len k ih => exact ih _ _ hT
  | borrow len k ih => exact ih _ _ hT
  | consume len k ih => exact ih _ _ hT
  | readEnd k ih => exact ih _ _ hT
  | write buf k ih =>
      unfold Process.run
      split
      · next output mallocs hw =>
        obtain ⟨h1, h2⟩ := TMemoryBuffer.write_buffer (congrArg Prod.fst hw)
        refine ih _ _ ⟨?_, ?_⟩
        · rw [h1, hT.1]
        · rw [h2, hT.2]
      · exact ih _ _ hT

/-- `getBuffer` on the output of a call gives the written bytes, and their number without loss. -/
theorem Transports.Written.getBuffer {T : Transports} (hT : T.Written) :
    T.output.getBuffer.1 = T.wrote ∧ T.output.getBuffer.2.toNat = T.wrote.length := by
  obtain ⟨h1, h2⟩ := hT
  have hr : T.output.readable = T.wrote := by
    rw [TMemoryBuffer.readable, h2, List.drop_zero, h1]
  have hlt := T.output.length_le
  rw [h1] at hlt
  refine ⟨hr, ?_⟩
  show (UInt32.ofNat T.output.readable.length).toNat = _
  have hsz := T.output.bufferSize.toNat_lt
  rw [hr, UInt32.toNat_ofNat']
  omega

end ThriftBridge

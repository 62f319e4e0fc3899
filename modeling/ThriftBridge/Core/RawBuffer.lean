import ThriftBridge.Lib.Cells
import ThriftBridge.Protocol.Code

/-!
# `TMemoryBuffer` with its pointers

* `RawBuffer`: the block at `buffer_`, and the pointers of `TBufferBase` as offsets into it. Its
  fields keep the pointers in order, and inside the block;
* `read`, `readAll`, `borrow`, `consume`, `write` and so on: their fast paths, with the slow paths
  of `TMemoryBuffer`;
* `RawBuffer.toBuffer`: the `TMemoryBuffer` that it stands for;
* `readAll_agrees_iff`, `borrow_agrees_iff`, `consume_agrees_iff`: where a stale `rBound_` shows;
* `current_iff_agrees`: the two cannot be told apart exactly if `rBound_` is where the written bytes
  end.
-/

set_option autoImplicit false

namespace ThriftBridge

open Cells

/-- The block of a `TMemoryBuffer`, and its pointers as offsets from `buffer_`. -/
structure RawBuffer where
  memory : ℕ → UInt8
  bufferSize : UInt32
  maxBufferSize : UInt32
  owner : Bool
  rBase : ℕ
  rBound : ℕ
  wBase : ℕ
  wBound : ℕ
  remainingMessageSize : ℕ
  rBase_le : rBase ≤ rBound
  rBound_le : rBound ≤ wBase
  wBase_le : wBase ≤ wBound
  wBound_eq : wBound = bufferSize.toNat
  /-- There is no room in a block that is only observed. -/
  observed : owner = false → wBase = wBound

namespace RawBuffer

/-- `initCommon`. -/
def initCommon (buf : ℕ → UInt8) (size : UInt32) (owner : Bool) (wPos : ℕ) (h : wPos ≤ size.toNat)
    (hobs : owner = false → wPos = size.toNat) : RawBuffer where
  memory := buf
  bufferSize := size
  maxBufferSize := UInt32.ofNat (2 ^ 32 - 1)
  owner := owner
  rBase := 0
  rBound := wPos
  wBase := wPos
  wBound := size.toNat
  remainingMessageSize := defaultMaxMessageSize
  rBase_le := Nat.zero_le _
  rBound_le := le_rfl
  wBase_le := h
  wBound_eq := rfl
  observed := hobs

/-- `TMemoryBuffer(buf, sz)`, with the policy `OBSERVE`. -/
def observe (buf : ℕ → UInt8) (sz : UInt32) : RawBuffer :=
  initCommon buf sz false sz.toNat le_rfl fun _ => rfl

theorem owned_le : 0 ≤ (1024 : UInt32).toNat := Nat.zero_le _

theorem owned_observed : true = false → 0 = (1024 : UInt32).toNat := fun h => Bool.noConfusion h

/-- `TMemoryBuffer()`. `fresh` is what the new block has in it. -/
def owned (fresh : ℕ → UInt8) : RawBuffer := initCommon fresh 1024 true 0 owned_le owned_observed

variable (t : RawBuffer)

/-- `available_read`. -/
def availableRead : ℕ := t.wBase - t.rBase

/-- `available_write`. -/
def availableWrite : ℕ := t.wBound - t.wBase

/-! ## Reading -/

/-- `rBase_ += n`. -/
def advance (n : ℕ) (h : t.rBase + n ≤ t.rBound) : RawBuffer :=
  { t with
    rBase := t.rBase + n
    rBase_le := h }

/-- `rBound_ = wBase_`. -/
def correct : RawBuffer :=
  { t with
    rBound := t.wBase
    rBase_le := t.rBase_le.trans t.rBound_le
    rBound_le := le_rfl }

theorem give_le (n : ℕ) : t.correct.rBase + min n t.correct.availableRead ≤ t.correct.rBound := by
  have h : t.rBase ≤ t.wBase := t.rBase_le.trans t.rBound_le
  show t.rBase + min n (t.wBase - t.rBase) ≤ t.wBase
  omega

/-- `computeRead`: the bytes to give, and the pointers after it. -/
def computeRead (len : UInt32) : Bytes × RawBuffer :=
  let give := min len.toNat t.correct.availableRead
  (slice t.memory t.rBase give, t.correct.advance give (t.give_le _))

/-- `readSlow`. -/
def readSlow (len : UInt32) : EStateM Thrown RawBuffer Bytes := fun t =>
  .ok (t.computeRead len).1 (t.computeRead len).2

/-- `checkReadBytesAvailable`. -/
def checkReadBytesAvailable (numBytes : ℤ) : EStateM Thrown RawBuffer Unit := fun t =>
  if (t.remainingMessageSize : ℤ) < numBytes then .error (.transport .endOfFile) t else .ok () t

/-- The fast path of `read` and `readAll`; `slow` is what follows without it. -/
def fastRead (len : UInt32) (slow : EStateM Thrown RawBuffer Bytes) :
    EStateM Thrown RawBuffer Bytes := fun t =>
  if h : t.rBase + len.toNat ≤ t.rBound then
    .ok (slice t.memory t.rBase len.toNat) (t.advance len.toNat h)
  else slow t

/-- `TBufferBase::read`. -/
def read (len : UInt32) : EStateM Thrown RawBuffer Bytes := do
  checkReadBytesAvailable len.toNat
  fastRead len (readSlow len)

/-- The loop of `transport::readAll`. `got` are the bytes that it has. -/
def readAllLoop (len : UInt32) : ℕ → Bytes → EStateM Thrown RawBuffer Bytes
  | 0, _ => throw .outOfFuel
  | fuel + 1, got =>
    if got.length < len.toNat then do
      let get ← read (len - UInt32.ofNat got.length)
      if get.length = 0 then throw (.transport .endOfFile)
      else readAllLoop len fuel (got ++ get)
    else return got

/-- `TBufferBase::readAll`. Each turn of the loop gets a byte. -/
def readAll (len : UInt32) : EStateM Thrown RawBuffer Bytes :=
  fastRead len (readAllLoop len (len.toNat + 1) [])

/-- `borrowSlow`. -/
def borrowSlow (len : UInt32) : EStateM Thrown RawBuffer (Option Bytes) := fun t =>
  .ok (if len.toNat ≤ t.correct.availableRead then
    some (slice t.memory t.rBase t.correct.availableRead) else none) t.correct

/-- `TBufferBase::borrow`: the bytes from the returned pointer on, `*len` of them. -/
def borrow (len : UInt32) : EStateM Thrown RawBuffer (Option Bytes) := fun t =>
  if len.toNat ≤ t.rBound - t.rBase then
    .ok (some (slice t.memory t.rBase (t.rBound - t.rBase))) t
  else borrowSlow len t

/-- `countConsumedMessageBytes`. -/
def countConsumedMessageBytes (numBytes : ℕ) : EStateM Thrown RawBuffer Unit := fun t =>
  if numBytes ≤ t.remainingMessageSize then
    .ok () { t with remainingMessageSize := t.remainingMessageSize - numBytes }
  else .error (.transport .endOfFile) { t with remainingMessageSize := 0 }

/-- `TBufferBase::consume`. It has no slow path. -/
def consume (len : UInt32) : EStateM Thrown RawBuffer Unit := do
  countConsumedMessageBytes len.toNat
  fun t => if h : t.rBase + len.toNat ≤ t.rBound then .ok () (t.advance len.toNat h)
    else .error (.transport .badArgs) t

theorem reset_le : (0 : ℕ) ≤ 0 := le_rfl

theorem reset_wBase_le : 0 ≤ if t.owner then t.wBound else 0 := Nat.zero_le _

theorem reset_wBound_eq : (if t.owner then t.wBound else 0) =
    (if t.owner then t.bufferSize else 0 : UInt32).toNat := by
  rw [apply_ite UInt32.toNat, ← t.wBound_eq]
  rfl

theorem reset_observed (h : t.owner = false) : 0 = if t.owner then t.wBound else 0 := by
  rw [h]
  rfl

/-- `resetBuffer`. -/
def resetBuffer : RawBuffer :=
  { t with
    bufferSize := if t.owner then t.bufferSize else 0
    rBase := 0
    rBound := 0
    wBase := 0
    wBound := if t.owner then t.wBound else 0
    rBase_le := reset_le
    rBound_le := reset_le
    wBase_le := t.reset_wBase_le
    wBound_eq := t.reset_wBound_eq
    observed := t.reset_observed }

/-- `readEnd`. -/
def readEnd : ℕ × RawBuffer :=
  let t' := if t.rBase = t.wBase then t.resetBuffer else t
  (t.rBase, { t' with remainingMessageSize := defaultMaxMessageSize })

/-- `getBuffer`. -/
def getBuffer : Bytes × UInt32 :=
  (slice t.memory t.rBase t.availableRead, UInt32.ofNat t.availableRead)

/-! ## Writing -/

/-- The block is moved into one of `size` bytes, which has `fresh` where nothing is copied. -/
def realloc (fresh : ℕ → UInt8) (size : UInt32) (h : t.wBase ≤ size.toNat)
    (howner : t.owner = true) : RawBuffer :=
  { t with
    memory := fun i => if i < t.bufferSize.toNat then t.memory i else fresh i
    bufferSize := size
    wBound := size.toNat
    wBase_le := h
    wBound_eq := rfl
    observed := fun hobs => Bool.noConfusion (howner.symm.trans hobs) }

/-- `bytes` are copied to `wBase_`, which is moved behind them. -/
def put (bytes : Bytes) (h : t.wBase + bytes.length ≤ t.wBound) : RawBuffer :=
  { t with
    memory := store t.memory t.wBase bytes
    wBase := t.wBase + bytes.length
    rBound_le := t.rBound_le.trans (Nat.le_add_right _ _)
    wBase_le := h
    observed := fun hobs => by
      have := t.observed hobs
      omega }

/-- `required_buffer_size`. -/
def required (len : ℕ) : ℕ := len + (t.bufferSize.toNat - t.availableWrite)

theorem required_eq (len : ℕ) : t.required len = t.wBase + len := by
  have h1 := t.wBound_eq
  have h2 := t.wBase_le
  unfold required availableWrite
  omega

/-- The size of the new block: the next power of two, but at most `maxBufferSize_`. -/
def grownSize (len : ℕ) : UInt32 :=
  UInt32.ofNat (min (2 ^ Nat.clog 2 (t.required len)) t.maxBufferSize.toNat)

theorem le_grownSize {len : ℕ} (h : ¬ t.maxBufferSize.toNat < t.required len) :
    t.wBase + len ≤ (t.grownSize len).toNat := by
  have hmax := t.maxBufferSize.toNat_lt
  have hpow := Nat.le_pow_clog (b := 2) (by norm_num) (t.required len)
  rw [grownSize, UInt32.toNat_ofNat', Nat.mod_eq_of_lt (lt_of_le_of_lt (min_le_right _ _) hmax),
    ← t.required_eq]
  omega

/-- A buffer in which there is room. -/
abbrev Room (len : ℕ) := { t : RawBuffer // t.wBase + len ≤ t.wBound }

/-- `ensureCanWrite`. `mallocs` counts the allocations, and `fresh` is what new blocks have in
them. -/
def ensureCanWrite (M : Malloc) (fresh : ℕ → ℕ → UInt8) (len mallocs : ℕ) :
    Except WriteError (Room len) × ℕ :=
  if h : len ≤ t.availableWrite then
    (.ok ⟨t, by have := t.wBase_le; unfold availableWrite at h; omega⟩, mallocs)
  else if howner : t.owner = false then (.error .transport, mallocs)
  else if hmax : t.maxBufferSize.toNat < t.required len then (.error .transport, mallocs)
  else if M mallocs (t.grownSize len).toNat then
    have hle := t.le_grownSize hmax
    (.ok ⟨t.realloc (fresh mallocs) (t.grownSize len) (by omega) (by simpa using howner), hle⟩,
      mallocs + 1)
  else (.error .badAlloc, mallocs + 1)

/-- `writeSlow`. -/
def writeSlow (M : Malloc) (fresh : ℕ → ℕ → UInt8) (buf : Chunk) (mallocs : ℕ) :
    Except WriteError RawBuffer × ℕ :=
  match t.ensureCanWrite M fresh buf.val.length mallocs with
  | (.ok r, n) => (.ok (r.val.put buf.val r.property), n)
  | (.error e, n) => (.error e, n)

/-- `TBufferBase::write`. -/
def write (M : Malloc) (fresh : ℕ → ℕ → UInt8) (buf : Chunk) (mallocs : ℕ) :
    Except WriteError RawBuffer × ℕ :=
  if h : t.wBase + buf.val.length ≤ t.wBound then (.ok (t.put buf.val h), mallocs)
  else t.writeSlow M fresh buf mallocs

/-! ## The buffer that it stands for -/

/-- The written bytes and the read position, without the pointers. -/
def toBuffer : TMemoryBuffer where
  buffer := slice t.memory 0 t.wBase
  rPos := t.rBase
  bufferSize := t.bufferSize
  owner := t.owner
  remainingMessageSize := t.remainingMessageSize
  rPos_le := by
    rw [length_slice]
    exact t.rBase_le.trans t.rBound_le
  length_le := by
    rw [length_slice, ← t.wBound_eq]
    exact t.wBase_le

/-- `rBound_` is where the written bytes end. -/
def Current : Prop := t.rBound = t.wBase

theorem readable_toBuffer : t.toBuffer.readable = slice t.memory t.rBase (t.wBase - t.rBase) := by
  rw [TMemoryBuffer.readable, toBuffer, drop_slice, Nat.zero_add]

theorem length_readable_toBuffer : t.toBuffer.readable.length = t.wBase - t.rBase := by
  rw [readable_toBuffer, length_slice]

theorem toBuffer_advance {n : ℕ} (h : t.rBase + n ≤ t.rBound) :
    (t.advance n h).toBuffer = t.toBuffer.advance n := by
  have hmin : t.rBase + n = min (t.rBase + n) t.wBase := (min_eq_left (h.trans t.rBound_le)).symm
  simp only [toBuffer, advance, TMemoryBuffer.advance, length_slice, TMemoryBuffer.mk.injEq,
    true_and, and_true]
  exact hmin

/-! ### Reading -/

/-- The pointers after `len` bytes were read. -/
def afterRead (len : UInt32) : RawBuffer :=
  if h : t.rBase + len.toNat ≤ t.rBound then t.advance len.toNat h else (t.computeRead len).2

theorem toBuffer_computeRead (len : UInt32) :
    (t.computeRead len).2.toBuffer = t.toBuffer.advance len.toNat := by
  refine (t.correct.toBuffer_advance (t.give_le _)).trans ?_
  show t.toBuffer.advance _ = _
  have h1 : t.rBase ≤ t.wBase := t.rBase_le.trans t.rBound_le
  simp only [TMemoryBuffer.advance, toBuffer, length_slice, TMemoryBuffer.mk.injEq, true_and,
    and_true]
  show min (t.rBase + min len.toNat (t.wBase - t.rBase)) t.wBase = min (t.rBase + len.toNat) t.wBase
  omega

theorem toBuffer_afterRead (len : UInt32) :
    (t.afterRead len).toBuffer = t.toBuffer.advance len.toNat := by
  unfold afterRead
  split_ifs with h
  · exact t.toBuffer_advance h
  · exact t.toBuffer_computeRead len

theorem current_afterRead (h : t.Current) (len : UInt32) : (t.afterRead len).Current := by
  unfold afterRead
  split_ifs
  · exact h
  · rfl

/-- **The two paths of a read** give the same bytes. -/
theorem fastRead_eq (len : UInt32) :
    fastRead len (readSlow len) t = .ok (t.toBuffer.readable.take len.toNat) (t.afterRead len) := by
  unfold fastRead afterRead
  rw [readable_toBuffer]
  split_ifs with h
  · rw [take_slice _ _ (by have := t.rBound_le; omega)]
  · show EStateM.Result.ok (slice t.memory t.rBase (min len.toNat (t.wBase - t.rBase))) _ = _
    rcases Nat.le_total len.toNat (t.wBase - t.rBase) with hle | hle
    · rw [min_eq_left hle, take_slice _ _ hle]
    · rw [min_eq_right hle, List.take_of_length_le (by rwa [length_slice])]

theorem read_eq (len : UInt32) : read len t =
    if t.remainingMessageSize < len.toNat then .error (.transport .endOfFile) t
    else .ok (t.toBuffer.readable.take len.toNat) (t.afterRead len) := by
  show EStateM.bind (checkReadBytesAvailable len.toNat) _ t = _
  unfold EStateM.bind checkReadBytesAvailable
  split_ifs with h1 h2 h2
  · rfl
  · omega
  · omega
  · exact t.fastRead_eq len

/-- One turn of the loop of `readAll`. -/
theorem readAllLoop_eq {len : UInt32} {got : Bytes} (hlt : got.length < len.toNat) (fuel : ℕ) :
    readAllLoop len (fuel + 1) got t =
      if t.remainingMessageSize < len.toNat - got.length then .error (.transport .endOfFile) t
      else
        let u := t.afterRead (len - UInt32.ofNat got.length)
        if t.toBuffer.readable = [] then .error (.transport .endOfFile) u
        else readAllLoop len fuel
          (got ++ t.toBuffer.readable.take (len.toNat - got.length)) u := by
  have hlen := len.toNat_lt
  have hgot : (UInt32.ofNat got.length).toNat = got.length := by
    rw [UInt32.toNat_ofNat']
    omega
  have hsub : (len - UInt32.ofNat got.length).toNat = len.toNat - got.length := by
    rw [UInt32.toNat_sub_of_le _ _ (UInt32.le_iff_toNat_le.mpr (by omega)), hgot]
  rw [readAllLoop, if_pos hlt]
  show EStateM.bind (read _) _ t = _
  unfold EStateM.bind
  rw [read_eq, hsub]
  by_cases hr : t.remainingMessageSize < len.toNat - got.length
  · rw [if_pos hr, if_pos hr]
  · rw [if_neg hr, if_neg hr]
    by_cases h : t.toBuffer.readable = []
    · simp only [h, List.take_nil, List.length_nil, if_true]
      rfl
    · have hsome : ¬ (t.toBuffer.readable.take (len.toNat - got.length)).length = 0 := by
        rw [List.length_eq_zero_iff, List.take_eq_nil_iff]
        exact not_or.mpr ⟨by omega, h⟩
      simp only [hsome, h, if_false]

/-- Its first turn. -/
theorem readAllLoop_nil {len : UInt32} (hpos : 0 < len.toNat) (fuel : ℕ) :
    readAllLoop len (fuel + 1) [] t =
      if t.remainingMessageSize < len.toNat then .error (.transport .endOfFile) t
      else if t.toBuffer.readable = [] then .error (.transport .endOfFile) (t.afterRead len)
      else readAllLoop len fuel (t.toBuffer.readable.take len.toNat) (t.afterRead len) := by
  have hzero : len - UInt32.ofNat 0 = len := by simp
  have hturn := t.readAllLoop_eq (show ([] : Bytes).length < len.toNat from hpos) fuel
  simp only [List.length_nil, Nat.sub_zero, List.nil_append, hzero] at hturn
  exact hturn

theorem remaining_afterRead (len : UInt32) :
    (t.afterRead len).remainingMessageSize = t.remainingMessageSize :=
  congrArg TMemoryBuffer.remainingMessageSize (t.toBuffer_afterRead len)

theorem readable_afterRead (len : UInt32) :
    (t.afterRead len).toBuffer.readable = t.toBuffer.readable.drop len.toNat := by
  rw [toBuffer_afterRead, TMemoryBuffer.readable_advance]

theorem current_of_slow {len : UInt32} (h : ¬ t.rBase + len.toNat ≤ t.rBound) :
    (t.afterRead len).Current := by
  unfold afterRead
  rw [dif_neg h]
  rfl

/-! `readAll`, by the path that it takes. -/

section ReadAll

variable {t} {len : UInt32}

theorem readAll_of_fast (h : t.rBase + len.toNat ≤ t.rBound) :
    readAll len t = .ok (t.toBuffer.readable.take len.toNat) (t.afterRead len) := by
  rw [← fastRead_eq]
  unfold readAll fastRead
  rw [dif_pos h, dif_pos h]

theorem readAll_of_slow (h : ¬ t.rBase + len.toNat ≤ t.rBound) :
    readAll len t = readAllLoop len (len.toNat + 1) [] t := by
  unfold readAll fastRead
  rw [dif_neg h]

theorem pos_of_slow (h : ¬ t.rBase + len.toNat ≤ t.rBound) : 0 < len.toNat := by
  have := t.rBase_le
  omega

theorem readAll_of_message (h : ¬ t.rBase + len.toNat ≤ t.rBound)
    (hr : t.remainingMessageSize < len.toNat) :
    readAll len t = .error (.transport .endOfFile) t := by
  rw [readAll_of_slow h, readAllLoop_nil t (pos_of_slow h), if_pos hr]

/-- The loop has all bytes after one turn. -/
theorem readAll_of_enough (h : ¬ t.rBase + len.toNat ≤ t.rBound)
    (hr : ¬ t.remainingMessageSize < len.toNat) (hlen : len.toNat ≤ t.toBuffer.readable.length) :
    readAll len t = .ok (t.toBuffer.readable.take len.toNat) (t.afterRead len) := by
  have hpos := pos_of_slow h
  have hne : t.toBuffer.readable ≠ [] := List.ne_nil_of_length_pos (by omega)
  have hall : ¬ (t.toBuffer.readable.take len.toNat).length < len.toNat := by
    rw [List.length_take, min_eq_left hlen]
    exact lt_irrefl _
  obtain ⟨k, hk⟩ := Nat.exists_eq_succ_of_ne_zero hpos.ne'
  rw [readAll_of_slow h, readAllLoop_nil t hpos, if_neg hr, if_neg hne]
  rw [hk, readAllLoop, ← hk, if_neg hall]
  rfl

/-- Without enough bytes, the loop has used up those there are when it raises. -/
theorem readAll_of_short (h : ¬ t.rBase + len.toNat ≤ t.rBound)
    (hr : ¬ t.remainingMessageSize < len.toNat) (hlen : t.toBuffer.readable.length < len.toNat) :
    ∃ u, readAll len t = .error (.transport .endOfFile) u ∧ u.Current ∧
      u.toBuffer = t.toBuffer.advance t.toBuffer.readable.length := by
  have hpos := pos_of_slow h
  have hend (n m : ℕ) (hn : t.toBuffer.readable.length ≤ n) (hm : t.toBuffer.readable.length ≤ m) :
      t.toBuffer.advance n = t.toBuffer.advance m := by
    rw [TMemoryBuffer.length_readable] at hn hm
    simp only [TMemoryBuffer.advance, TMemoryBuffer.mk.injEq, true_and, and_true]
    omega
  rw [readAll_of_slow h, readAllLoop_nil t hpos, if_neg hr]
  by_cases hnil : t.toBuffer.readable = []
  · rw [if_pos hnil]
    refine ⟨_, rfl, current_of_slow t h, ?_⟩
    rw [toBuffer_afterRead]
    exact hend _ _ hlen.le le_rfl
  · rw [if_neg hnil, List.take_of_length_le hlen.le]
    obtain ⟨k, hk⟩ := Nat.exists_eq_succ_of_ne_zero hpos.ne'
    have hrest : (t.afterRead len).toBuffer.readable = [] := by
      rw [readable_afterRead, List.drop_eq_nil_iff]
      exact hlen.le
    rw [hk, readAllLoop_eq _ hlen, remaining_afterRead, if_neg (by omega)]
    simp only [hrest, if_true]
    refine ⟨_, rfl, current_afterRead _ (current_of_slow t h) _, ?_⟩
    rw [toBuffer_afterRead, toBuffer_afterRead]
    simp only [TMemoryBuffer.advance, TMemoryBuffer.mk.injEq, true_and, and_true]
    have hl := t.toBuffer.length_readable
    omega

end ReadAll

instance : InputTransport RawBuffer where
  read := read
  readAll := readAll
  borrow := borrow
  consume := consume
  checkReadBytesAvailable := checkReadBytesAvailable
  readEnd t := .ok t.readEnd.1 t.readEnd.2

/-- Both end alike, in the same written bytes and at the same read position. -/
abbrev Agrees {α : Type} (x : EStateM.Result Thrown RawBuffer α)
    (y : EStateM.Result Thrown TMemoryBuffer α) : Prop :=
  Program.SameEnd (fun u b => u.toBuffer = b) x y

/-- **`read` never shows the pointers.** -/
theorem read_agrees (len : UInt32) : Agrees (read len t) (InputTransport.read len t.toBuffer) := by
  rw [read_eq]
  simp only [InputTransport.read, TMemoryBuffer.read]
  by_cases h : t.remainingMessageSize < len.toNat
  · have h' : t.toBuffer.remainingMessageSize < len.toNat := h
    simp only [h, h', if_true]
    exact ⟨rfl, rfl⟩
  · have h' : ¬ t.toBuffer.remainingMessageSize < len.toNat := h
    simp only [h, h', if_false]
    exact ⟨rfl, t.toBuffer_afterRead len⟩

/-- The fast path is closed although there are `len` bytes. -/
def Stale (len : UInt32) : Prop :=
  ¬ t.rBase + len.toNat ≤ t.rBound ∧ len.toNat ≤ t.toBuffer.readable.length

variable {t} in
theorem Current.not_stale (h : t.Current) (len : UInt32) : ¬ t.Stale len := by
  rintro ⟨hslow, hlen⟩
  rw [length_readable_toBuffer] at hlen
  have h1 := t.rBase_le
  unfold Current at h
  omega

/-- **`readAll` shows them** when the fast path is closed and the message size is used up: then it
raises, although the bytes are there. -/
theorem readAll_agrees_iff (len : UInt32) :
    Agrees (readAll len t) (InputTransport.readAll len t.toBuffer) ↔
      ¬ (t.Stale len ∧ t.remainingMessageSize < len.toNat) := by
  have hmsg : t.toBuffer.remainingMessageSize = t.remainingMessageSize := rfl
  simp only [InputTransport.readAll, TMemoryBuffer.readAll, hmsg, Stale]
  by_cases hfast : t.rBase + len.toNat ≤ t.rBound
  · have hlen : len.toNat ≤ t.toBuffer.readable.length := by
      rw [length_readable_toBuffer]
      have := t.rBound_le
      omega
    rw [readAll_of_fast hfast]
    simp only [hfast, hlen, if_true, not_true, false_and, not_false_iff, iff_true]
    exact ⟨rfl, t.toBuffer_afterRead len⟩
  · by_cases hr : t.remainingMessageSize < len.toNat
    · rw [readAll_of_message hfast hr]
      by_cases hlen : len.toNat ≤ t.toBuffer.readable.length
      · simp only [hfast, hlen, hr, if_true, not_false_iff, true_and, not_true, iff_false]
        exact id
      · simp only [hfast, hlen, hr, if_true, if_false, and_false, false_and, not_false_iff, iff_true]
        exact ⟨rfl, rfl⟩
    · by_cases hlen : len.toNat ≤ t.toBuffer.readable.length
      · rw [readAll_of_enough hfast hr hlen]
        simp only [hlen, hr, if_true, and_false, not_false_iff, iff_true]
        exact ⟨rfl, t.toBuffer_afterRead len⟩
      · obtain ⟨u, hu, -, hb⟩ := readAll_of_short hfast hr (by omega)
        rw [hu]
        simp only [hlen, hr, if_false, and_false, not_false_iff, iff_true]
        exact ⟨rfl, hb⟩

/-- **`consume` shows them** whenever the fast path is closed although the bytes are there: it
raises. -/
theorem consume_agrees_iff (len : UInt32) :
    Agrees (consume len t) (InputTransport.consume len t.toBuffer) ↔
      ¬ (t.Stale len ∧ len.toNat ≤ t.remainingMessageSize) := by
  have hmsg : t.toBuffer.remainingMessageSize = t.remainingMessageSize := rfl
  simp only [InputTransport.consume, TMemoryBuffer.consume, consumeError, hmsg, Stale]
  show Agrees (EStateM.bind (countConsumedMessageBytes len.toNat) _ t) _ ↔ _
  unfold EStateM.bind countConsumedMessageBytes
  by_cases hr : t.remainingMessageSize < len.toNat
  · have hle : ¬ len.toNat ≤ t.remainingMessageSize := not_le.mpr hr
    simp only [hr, hle, if_true, if_false, and_false, not_false_iff, iff_true]
    exact ⟨rfl, rfl⟩
  · have hle : len.toNat ≤ t.remainingMessageSize := not_lt.mp hr
    have hbytes (b : TMemoryBuffer) (n : ℕ) :
        ({ b with remainingMessageSize := n } : TMemoryBuffer).readable = b.readable := rfl
    simp only [hr, hle, if_true, if_false, and_true, hbytes]
    by_cases hfast : t.rBase + len.toNat ≤ t.rBound
    · have hlen : len.toNat ≤ t.toBuffer.readable.length := by
        rw [length_readable_toBuffer]
        have := t.rBound_le
        omega
      simp only [hfast, hlen, if_true, dif_pos, not_true, false_and, not_false_iff, iff_true]
      exact ⟨rfl, toBuffer_advance _ _⟩
    · by_cases hlen : len.toNat ≤ t.toBuffer.readable.length
      · simp only [hfast, hlen, if_true, dif_neg, not_false_iff, true_and, not_true, iff_false]
        exact id
      · simp only [hfast, hlen, if_false, dif_neg, not_false_iff, and_false, iff_true]
        exact ⟨rfl, rfl⟩

/-- **`borrow` shows them** when it takes the fast path before the written bytes end: it then gives
fewer bytes. -/
theorem borrow_agrees_iff (len : UInt32) :
    Agrees (borrow len t) (InputTransport.borrow len t.toBuffer) ↔
      ¬ (t.rBase + len.toNat ≤ t.rBound ∧ t.rBound < t.wBase) := by
  have h1 := t.rBase_le
  have h2 := t.rBound_le
  simp only [InputTransport.borrow, TMemoryBuffer.borrow, length_readable_toBuffer]
  unfold borrow
  by_cases hfast : t.rBase + len.toNat ≤ t.rBound
  · have hlen : len.toNat ≤ t.wBase - t.rBase := by omega
    have hlen' : len.toNat ≤ t.rBound - t.rBase := by omega
    simp only [hfast, hlen, hlen', if_true, true_and, not_lt]
    constructor
    · rintro ⟨hb, -⟩
      have hl := congrArg List.length (Option.some.inj hb)
      rw [length_slice, length_readable_toBuffer] at hl
      omega
    · intro hge
      obtain heq : t.rBound = t.wBase := by omega
      refine ⟨?_, rfl⟩
      rw [readable_toBuffer, heq]
  · have hlen' : ¬ len.toNat ≤ t.rBound - t.rBase := by omega
    simp only [hfast, hlen', if_false, false_and, not_false_iff, iff_true]
    refine ⟨?_, rfl⟩
    show (if len.toNat ≤ t.wBase - t.rBase then some (slice t.memory t.rBase (t.wBase - t.rBase))
      else none) = _
    rw [readable_toBuffer]

/-! ### While `rBound_` is current -/

section Current

variable {t}

theorem current_read (h : t.Current) (len : UInt32) :
    (Program.endState (read len t)).Current := by
  rw [read_eq]
  split_ifs
  · exact h
  · exact current_afterRead t h len

theorem current_readAll (h : t.Current) (len : UInt32) :
    (Program.endState (readAll len t)).Current := by
  by_cases hfast : t.rBase + len.toNat ≤ t.rBound
  · rw [readAll_of_fast hfast]
    exact current_afterRead t h len
  · by_cases hr : t.remainingMessageSize < len.toNat
    · rw [readAll_of_message hfast hr]
      exact h
    · by_cases hlen : len.toNat ≤ t.toBuffer.readable.length
      · rw [readAll_of_enough hfast hr hlen]
        exact current_afterRead t h len
      · obtain ⟨u, hu, hcur, -⟩ := readAll_of_short hfast hr (by omega)
        rw [hu]
        exact hcur

theorem current_borrow (h : t.Current) (len : UInt32) :
    (Program.endState (borrow len t)).Current := by
  unfold borrow
  split_ifs
  · exact h
  · rfl

theorem current_consume (h : t.Current) (len : UInt32) :
    (Program.endState (consume len t)).Current := by
  show (Program.endState (EStateM.bind (countConsumedMessageBytes len.toNat) _ t)).Current
  unfold EStateM.bind countConsumedMessageBytes
  by_cases hr : len.toNat ≤ t.remainingMessageSize
  · simp only [hr, if_true]
    by_cases hfast : t.rBase + len.toNat ≤ t.rBound
    · simp only [hfast, dif_pos]
      exact h
    · simp only [hfast, dif_neg, not_false_iff]
      exact h
  · simp only [hr, if_false]
    exact h

theorem current_readEnd (h : t.Current) : t.readEnd.2.Current := by
  unfold readEnd
  split_ifs
  · rfl
  · exact h

theorem readEnd_eq : t.readEnd.1 = t.toBuffer.readEnd.1 ∧
    t.readEnd.2.toBuffer = t.toBuffer.readEnd.2 := by
  have hpos : t.toBuffer.rPos = t.toBuffer.buffer.length ↔ t.rBase = t.wBase := by
    show t.rBase = (slice t.memory 0 t.wBase).length ↔ _
    rw [length_slice]
  unfold readEnd TMemoryBuffer.readEnd
  by_cases h : t.rBase = t.wBase
  · rw [if_pos h, if_pos (hpos.mpr h)]
    exact ⟨rfl, rfl⟩
  · rw [if_neg h, if_neg (hpos.not.mpr h)]
    exact ⟨rfl, rfl⟩

/-- **While `rBound_` is current**, the pointers cannot be seen. -/
theorem alike : InputTransport.Alike fun (t : RawBuffer) (b : TMemoryBuffer) =>
    t.Current ∧ t.toBuffer = b where
  read := by
    rintro len t _ ⟨h, rfl⟩
    exact (t.read_agrees len).and (current_read h len)
  readAll := by
    rintro len t _ ⟨h, rfl⟩
    refine Program.SameEnd.and ?_ (current_readAll h len)
    exact (t.readAll_agrees_iff len).mpr fun hs => h.not_stale len hs.1
  borrow := by
    rintro len t _ ⟨h, rfl⟩
    refine Program.SameEnd.and ?_ (current_borrow h len)
    exact (t.borrow_agrees_iff len).mpr fun hs => hs.2.ne h
  consume := by
    rintro len t _ ⟨h, rfl⟩
    refine Program.SameEnd.and ?_ (current_consume h len)
    exact (t.consume_agrees_iff len).mpr fun hs => h.not_stale len hs.1
  checkReadBytesAvailable := by
    rintro numBytes t _ ⟨h, rfl⟩
    simp only [InputTransport.checkReadBytesAvailable, checkReadBytesAvailable]
    have hmsg : t.toBuffer.remainingMessageSize = t.remainingMessageSize := rfl
    rw [hmsg]
    split_ifs
    · exact ⟨rfl, h, rfl⟩
    · exact ⟨rfl, h, rfl⟩
  readEnd := by
    rintro t _ ⟨h, rfl⟩
    exact ⟨readEnd_eq.1, current_readEnd h, readEnd_eq.2⟩

end Current

/-- **The fast paths can be told from the plain buffer** exactly if `rBound_` is not current. -/
theorem current_iff_agrees : t.Current ↔ ∀ len,
    Agrees (read len t) (InputTransport.read len t.toBuffer) ∧
      Agrees (readAll len t) (InputTransport.readAll len t.toBuffer) ∧
      Agrees (borrow len t) (InputTransport.borrow len t.toBuffer) ∧
      Agrees (consume len t) (InputTransport.consume len t.toBuffer) := by
  constructor
  · intro h len
    refine ⟨t.read_agrees len, (t.readAll_agrees_iff len).mpr fun hs => h.not_stale len hs.1,
      (t.borrow_agrees_iff len).mpr fun hs => hs.2.ne h, ?_⟩
    exact (t.consume_agrees_iff len).mpr fun hs => h.not_stale len hs.1
  · intro h
    -- to borrow nothing gives all bytes before `rBound_`
    have hborrow := (t.borrow_agrees_iff 0).mp (h 0).2.2.1
    have hzero : t.rBase + (0 : UInt32).toNat ≤ t.rBound := t.rBase_le
    exact le_antisymm t.rBound_le (not_lt.mp fun hlt => hborrow ⟨hzero, hlt⟩)

/-! ### Writing -/

theorem getBuffer_eq : t.getBuffer = t.toBuffer.getBuffer := by
  simp only [getBuffer, TMemoryBuffer.getBuffer, readable_toBuffer, length_slice, availableRead]

theorem buffer_put {bytes : Bytes} (h : t.wBase + bytes.length ≤ t.wBound) :
    (t.put bytes h).toBuffer.buffer = t.toBuffer.buffer ++ bytes := by
  have hs := slice_store_append t.memory 0 t.wBase bytes
  rwa [Nat.zero_add] at hs

theorem buffer_realloc (fresh : ℕ → UInt8) {size : UInt32} (h : t.wBase ≤ size.toNat)
    (howner : t.owner = true) :
    (t.realloc fresh size h howner).toBuffer.buffer = t.toBuffer.buffer := by
  refine slice_congr fun a _ ha => if_pos ?_
  have hlt : a < 0 + t.wBase := ha
  have h1 := t.wBase_le
  have h2 := t.wBound_eq
  omega

/-- What a write gives its caller, without the pointers. -/
def erase : Except WriteError RawBuffer × ℕ → Except WriteError TMemoryBuffer × ℕ
  | (.ok t, n) => (.ok t.toBuffer, n)
  | (.error e, n) => (.error e, n)

/-- The block is moved. -/
theorem ensureCanWrite_of_moved {M : Malloc} (fresh : ℕ → ℕ → UInt8) {len mallocs : ℕ}
    (havail : ¬ len ≤ t.availableWrite) (howner : ¬ t.owner = false)
    (hmax : ¬ t.maxBufferSize.toNat < t.required len)
    (hM : M mallocs (t.grownSize len).toNat = true) :
    ∃ (hle : t.wBase ≤ (t.grownSize len).toNat) (howned : t.owner = true) (hroom : _),
      t.ensureCanWrite M fresh len mallocs =
        (.ok ⟨t.realloc (fresh mallocs) (t.grownSize len) hle howned, hroom⟩, mallocs + 1) := by
  have hle := t.le_grownSize hmax
  refine ⟨by omega, by simpa using howner, hle, ?_⟩
  unfold ensureCanWrite
  rw [dif_neg havail, dif_neg howner, dif_neg hmax, if_pos hM]

/-- **`write` never shows the pointers**, nor what is in the new blocks. -/
theorem write_eq (hmax : t.maxBufferSize.toNat = 2 ^ 32 - 1) (M : Malloc) (fresh : ℕ → ℕ → UInt8)
    (buf : Chunk) (mallocs : ℕ) :
    erase (t.write M fresh buf mallocs) = t.toBuffer.write M buf mallocs := by
  set len := buf.val.length with hdef
  have hlen : (t.toBuffer.buffer ++ buf.val).length = t.wBase + len := by
    rw [List.length_append]
    exact congrArg (· + _) (length_slice _ _ _)
  have hsize : t.toBuffer.bufferSize.toNat = t.wBound := t.wBound_eq.symm
  have hgrown : t.grownSize len = TMemoryBuffer.newSize (t.wBase + len) := by
    rw [grownSize, required_eq, hmax, TMemoryBuffer.newSize]
  have hreq := t.required_eq len
  have howner : t.toBuffer.owner = t.owner := rfl
  simp only [write, writeSlow, TMemoryBuffer.write, ← hdef, hlen, hsize, howner, ← hgrown]
  by_cases hfast : t.wBase + len ≤ t.wBound
  · rw [dif_pos hfast, dif_pos hfast]
    refine congrArg (fun b => (Except.ok b, mallocs)) ?_
    simp only [TMemoryBuffer.append, ← buffer_put t hfast]
    rfl
  have havail : ¬ len ≤ t.availableWrite := by
    have := t.wBase_le
    unfold availableWrite
    omega
  rw [dif_neg hfast, dif_neg hfast]
  by_cases hobs : t.owner = false
  · have he : t.ensureCanWrite M fresh len mallocs = (.error .transport, mallocs) := by
      unfold ensureCanWrite
      rw [dif_neg havail, dif_pos hobs]
    rw [he, if_pos hobs]
    rfl
  rw [if_neg hobs]
  by_cases hover : t.wBase + len ≤ 2 ^ 32 - 1
  · have hfits : ¬ t.maxBufferSize.toNat < t.required len := by omega
    rw [dif_pos hover]
    by_cases hM : M mallocs (t.grownSize len).toNat = true
    · obtain ⟨hle, howned, hroom, he⟩ :=
        t.ensureCanWrite_of_moved fresh havail hobs hfits hM
      rw [he, if_pos hM]
      refine congrArg (fun b => (Except.ok b, mallocs + 1)) ?_
      simp only [TMemoryBuffer.append, ← buffer_realloc t (fresh mallocs) hle howned,
        ← buffer_put _ hroom]
      rfl
    · have he : t.ensureCanWrite M fresh len mallocs = (.error .badAlloc, mallocs + 1) := by
        unfold ensureCanWrite
        rw [dif_neg havail, dif_neg hobs, dif_neg hfits, if_neg hM]
      rw [he, if_neg hM]
      rfl
  · have he : t.ensureCanWrite M fresh len mallocs = (.error .transport, mallocs) := by
      unfold ensureCanWrite
      rw [dif_neg havail, dif_neg hobs, dif_pos (by omega)]
    rw [he, dif_neg hover]
    rfl

end RawBuffer

end ThriftBridge

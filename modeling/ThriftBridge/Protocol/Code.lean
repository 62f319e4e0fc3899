import ThriftBridge.Lib.Program
import ThriftBridge.Core.Generic

/-!
# Code over the two transports of a call

* `Thrown`: what the C++ code of a call throws;
* `TransportOp`, `Code σ`: what protocols and processors do with their transports;
* `InputTransport`: the reading half of a transport, with two instances. `TMemoryBuffer` is the one
  of the bridge, and `Unread` only knows the bytes that are left;
* `TMemoryBuffer.alike_unread`, `Code.exec_alike`: code cannot tell them apart.
-/

set_option autoImplicit false

namespace ThriftBridge

/-- `TTransportException::TTransportExceptionType`, as far as reading raises it. -/
inductive TTransportExceptionType
  | endOfFile
  | badArgs
deriving DecidableEq

/-- `TProtocolException::TProtocolExceptionType`. -/
inductive TProtocolExceptionType
  | unknown
  | invalidData
  | negativeSize
  | sizeLimit
  | badVersion
  | depthLimit
deriving DecidableEq

/-- What is thrown. Only `other` and a failed allocation are not a `TException`. -/
inductive Thrown
  | transport (type : TTransportExceptionType)
  | protocol (type : TProtocolExceptionType) (message : String)
  | write (e : WriteError)
  | exception (message : Bytes)
  | other
  | outOfFuel
deriving DecidableEq

/-- How a call of `process` ends that throws. -/
def Thrown.ended : Thrown → Ended
  | .transport _ => .threwTException
  | .protocol _ _ => .threwTException
  | .write .transport => .threwTException
  | .write .badAlloc => .threwOther
  | .exception _ => .threwTException
  | .other => .threwOther
  | .outOfFuel => .threwOther

/-! ## Input transports -/

/-- The reading half of a transport. -/
class InputTransport (I : Type) where
  read : UInt32 → EStateM Thrown I Bytes
  readAll : UInt32 → EStateM Thrown I Bytes
  borrow : UInt32 → EStateM Thrown I (Option Bytes)
  consume : UInt32 → EStateM Thrown I Unit
  checkReadBytesAvailable : ℤ → EStateM Thrown I Unit
  readEnd : EStateM Thrown I ℕ

/-- The error of a `consume` that fails: the message is too long, or too few bytes are there. -/
def consumeError (remainingMessageSize : ℕ) (len : UInt32) : Thrown :=
  if remainingMessageSize < len.toNat then .transport .endOfFile else .transport .badArgs

/-- A result, or the end of the file. -/
def orEndOfFile {I α : Type} : Option α × I → EStateM.Result Thrown I α
  | (some a, t) => .ok a t
  | (none, t) => .error (.transport .endOfFile) t

instance : InputTransport TMemoryBuffer where
  read len t := orEndOfFile (t.read len)
  readAll len t := orEndOfFile (t.readAll len)
  borrow len t := .ok (t.borrow len) t
  consume len t :=
    match t.consume len with
    | (true, t') => .ok () t'
    | (false, t') => .error (consumeError t.remainingMessageSize len) t'
  checkReadBytesAvailable numBytes t :=
    if (t.remainingMessageSize : ℤ) < numBytes then .error (.transport .endOfFile) t else .ok () t
  readEnd t := .ok t.readEnd.1 t.readEnd.2

/-- What is left of an input: the unread bytes, the number of bytes that were read before them, and
the part of the maximal message size that is left. -/
structure Unread where
  bytes : Bytes
  taken : ℕ
  remaining : ℕ
deriving DecidableEq

/-- `n` bytes are read. -/
def Unread.advance (u : Unread) (n : ℕ) : Unread :=
  { u with bytes := u.bytes.drop n, taken := u.taken + min n u.bytes.length }

instance : InputTransport Unread where
  read len u :=
    if u.remaining < len.toNat then .error (.transport .endOfFile) u
    else .ok (u.bytes.take len.toNat) (u.advance len.toNat)
  readAll len u :=
    if len.toNat ≤ u.bytes.length then .ok (u.bytes.take len.toNat) (u.advance len.toNat)
    else if u.remaining < len.toNat then .error (.transport .endOfFile) u
    else .error (.transport .endOfFile) (u.advance u.bytes.length)
  borrow len u := .ok (if len.toNat ≤ u.bytes.length then some u.bytes else none) u
  consume len u :=
    if u.remaining < len.toNat then .error (.transport .endOfFile) { u with remaining := 0 }
    else if len.toNat ≤ u.bytes.length then
      .ok () { u.advance len.toNat with remaining := u.remaining - len.toNat }
    else .error (.transport .badArgs) { u with remaining := u.remaining - len.toNat }
  checkReadBytesAvailable numBytes u :=
    if (u.remaining : ℤ) < numBytes then .error (.transport .endOfFile) u else .ok () u
  readEnd u :=
    .ok u.taken ⟨u.bytes, if u.bytes = [] then 0 else u.taken, defaultMaxMessageSize⟩

/-- What a `TMemoryBuffer` has left. -/
def TMemoryBuffer.unread (t : TMemoryBuffer) : Unread :=
  ⟨t.readable, t.rPos, t.remainingMessageSize⟩

/-! ## Code -/

/-- What code does with its two transports, its input protocol and the handlers. -/
inductive TransportOp (σ : Type)
  | read (len : UInt32)
  | readAll (len : UInt32)
  | borrow (len : UInt32)
  | consume (len : UInt32)
  | checkReadBytesAvailable (numBytes : ℤ)
  | readEnd
  | write (buf : Chunk)
  | incrementInputRecursionDepth
  | decrementInputRecursionDepth
  | getHandlers
  | setHandlers (s : σ)

/-- What each of them returns. -/
def TransportOp.Ans {σ : Type} : TransportOp σ → Type
  | .read _ => Bytes
  | .readAll _ => Bytes
  | .borrow _ => Option Bytes
  | .consume _ => Unit
  | .checkReadBytesAvailable _ => Unit
  | .readEnd => ℕ
  | .write _ => Unit
  | .incrementInputRecursionDepth => UInt32
  | .decrementInputRecursionDepth => Unit
  | .getHandlers => σ
  | .setHandlers _ => Unit

/-- Code of protocols and processors. -/
abbrev Code (σ α : Type) := Program Thrown (TransportOp σ) TransportOp.Ans α

namespace Code

variable {σ : Type}

/-- A call of one operation. -/
def op (o : TransportOp σ) : Code σ o.Ans := Program.perform o

def read (len : UInt32) : Code σ Bytes := op (.read len)

def readAll (len : UInt32) : Code σ Bytes := op (.readAll len)

def borrow (len : UInt32) : Code σ (Option Bytes) := op (.borrow len)

def consume (len : UInt32) : Code σ Unit := op (.consume len)

def checkReadBytesAvailable (numBytes : ℤ) : Code σ Unit :=
  op (.checkReadBytesAvailable numBytes)

def readEnd : Code σ ℕ := op .readEnd

def write (buf : Chunk) : Code σ Unit := op (.write buf)

def incrementInputRecursionDepth : Code σ UInt32 := op .incrementInputRecursionDepth

def decrementInputRecursionDepth : Code σ Unit := op .decrementInputRecursionDepth

def getHandlers : Code σ σ := op .getHandlers

def setHandlers (s : σ) : Code σ Unit := op (.setHandlers s)

def throw {α : Type} (e : Thrown) : Code σ α := Program.raise e

end Code

/-- The state of a call: its transports, `input_recursion_depth_` of its input protocol, and the
handlers. -/
structure Session (I σ : Type) where
  input : I
  output : TMemoryBuffer
  wrote : Bytes
  mallocs : ℕ
  inputRecursionDepth : UInt32
  handlers : σ

section Handler

variable {I σ : Type}

/-- An operation of the input transport. -/
def onInput {α : Type} (x : EStateM Thrown I α) : EStateM Thrown (Session I σ) α := fun s =>
  match x s.input with
  | .ok a t => .ok a { s with input := t }
  | .error e t => .error e { s with input := t }

/-- What the operations do. -/
def sessionHandler [InputTransport I] (M : Malloc) :
    ∀ op : TransportOp σ, EStateM Thrown (Session I σ) op.Ans
  | .read len => onInput (InputTransport.read len)
  | .readAll len => onInput (InputTransport.readAll len)
  | .borrow len => onInput (InputTransport.borrow len)
  | .consume len => onInput (InputTransport.consume len)
  | .checkReadBytesAvailable numBytes => onInput (InputTransport.checkReadBytesAvailable numBytes)
  | .readEnd => onInput InputTransport.readEnd
  | .write buf => fun s =>
    match s.output.write M buf s.mallocs with
    | (.ok output, mallocs) =>
      .ok () { s with output := output, wrote := s.wrote ++ buf.val, mallocs := mallocs }
    | (.error e, mallocs) => .error (.write e) { s with mallocs := mallocs }
  | .incrementInputRecursionDepth => fun s =>
    .ok (s.inputRecursionDepth + 1) { s with inputRecursionDepth := s.inputRecursionDepth + 1 }
  | .decrementInputRecursionDepth => fun s =>
    .ok () { s with inputRecursionDepth := s.inputRecursionDepth - 1 }
  | .getHandlers => fun s => .ok s.handlers s
  | .setHandlers t => fun s => .ok () { s with handlers := t }

/-- A run of code. -/
def Code.exec {α : Type} [InputTransport I] (M : Malloc) (p : Code σ α) :
    EStateM Thrown (Session I σ) α :=
  Program.exec (sessionHandler M) p

end Handler

/-! ## What code can see of its input -/

section Alike

variable {I J σ : Type}

/-- All operations of two input transports end alike from related states. -/
structure InputTransport.Alike [InputTransport I] [InputTransport J] (R : I → J → Prop) : Prop where
  read : ∀ len t u, R t u → Program.SameEnd R (InputTransport.read len t) (InputTransport.read len u)
  readAll : ∀ len t u, R t u →
    Program.SameEnd R (InputTransport.readAll len t) (InputTransport.readAll len u)
  borrow : ∀ len t u, R t u →
    Program.SameEnd R (InputTransport.borrow len t) (InputTransport.borrow len u)
  consume : ∀ len t u, R t u →
    Program.SameEnd R (InputTransport.consume len t) (InputTransport.consume len u)
  checkReadBytesAvailable : ∀ numBytes t u, R t u →
    Program.SameEnd R (InputTransport.checkReadBytesAvailable numBytes t)
      (InputTransport.checkReadBytesAvailable numBytes u)
  readEnd : ∀ t u, R t u → Program.SameEnd R (InputTransport.readEnd t) (InputTransport.readEnd u)

/-- Two calls have related inputs, and agree otherwise. -/
def Session.Alike (R : I → J → Prop) (s : Session I σ) (t : Session J σ) : Prop :=
  R s.input t.input ∧ s.output = t.output ∧ s.wrote = t.wrote ∧ s.mallocs = t.mallocs ∧
    s.inputRecursionDepth = t.inputRecursionDepth ∧ s.handlers = t.handlers

theorem onInput_alike {R : I → J → Prop} {α : Type} {x : EStateM Thrown I α}
    {y : EStateM Thrown J α} {s : Session I σ} {t : Session J σ} (h : Session.Alike R s t)
    (hxy : Program.SameEnd R (x s.input) (y t.input)) :
    Program.SameEnd (Session.Alike R) (onInput x s) (onInput y t) := by
  unfold onInput
  cases hx : x s.input with
  | ok a u =>
      cases hy : y t.input with
      | ok b v =>
          rw [hx, hy] at hxy
          exact ⟨hxy.1, hxy.2, h.2⟩
      | error e v =>
          rw [hx, hy] at hxy
          exact hxy.elim
  | error e u =>
      cases hy : y t.input with
      | ok b v =>
          rw [hx, hy] at hxy
          exact hxy.elim
      | error f v =>
          rw [hx, hy] at hxy
          exact ⟨hxy.1, hxy.2, h.2⟩

/-- **Code over input transports that are alike** ends alike. -/
theorem Code.exec_alike [InputTransport I] [InputTransport J] {R : I → J → Prop} (hR : InputTransport.Alike R) (M : Malloc) {α : Type}
    (p : Code σ α) {s : Session I σ} {t : Session J σ} (h : Session.Alike R s t) :
    Program.SameEnd (Session.Alike R) (p.exec M s) (p.exec M t) := by
  refine Program.exec_sim ?_ p h
  intro op s t h
  cases op with
  | read len => exact onInput_alike h (hR.read len _ _ h.1)
  | readAll len => exact onInput_alike h (hR.readAll len _ _ h.1)
  | borrow len => exact onInput_alike h (hR.borrow len _ _ h.1)
  | consume len => exact onInput_alike h (hR.consume len _ _ h.1)
  | checkReadBytesAvailable n => exact onInput_alike h (hR.checkReadBytesAvailable n _ _ h.1)
  | readEnd => exact onInput_alike h (hR.readEnd _ _ h.1)
  | write buf =>
      obtain ⟨hi, ho, hw, hm, hd, hs⟩ := h
      simp only [sessionHandler, ho, hm]
      split
      · exact ⟨rfl, hi, rfl, by rw [hw], rfl, hd, hs⟩
      · exact ⟨rfl, hi, rfl, hw, rfl, hd, hs⟩
  | incrementInputRecursionDepth =>
      obtain ⟨hi, ho, hw, hm, hd, hs⟩ := h
      exact ⟨by rw [hd], hi, ho, hw, hm, by rw [hd], hs⟩
  | decrementInputRecursionDepth =>
      obtain ⟨hi, ho, hw, hm, hd, hs⟩ := h
      exact ⟨rfl, hi, ho, hw, hm, by rw [hd], hs⟩
  | getHandlers => exact ⟨h.2.2.2.2.2, h⟩
  | setHandlers u =>
      obtain ⟨hi, ho, hw, hm, hd, -⟩ := h
      exact ⟨rfl, hi, ho, hw, hm, hd, rfl⟩

end Alike

theorem TMemoryBuffer.length_readable (t : TMemoryBuffer) :
    t.readable.length = t.buffer.length - t.rPos :=
  List.length_drop

@[simp] theorem TMemoryBuffer.unread_bytes (t : TMemoryBuffer) : t.unread.bytes = t.readable := rfl

@[simp] theorem TMemoryBuffer.unread_remaining (t : TMemoryBuffer) :
    t.unread.remaining = t.remainingMessageSize := rfl

theorem TMemoryBuffer.unread_advance (t : TMemoryBuffer) (n : ℕ) :
    (t.advance n).unread = t.unread.advance n := by
  have hpos : (t.advance n).rPos = t.rPos + min n t.readable.length := by
    have h1 := t.length_readable
    have h2 := t.rPos_le
    show min (t.rPos + n) t.buffer.length = _
    omega
  simp only [unread, Unread.advance, readable_advance, hpos]
  rfl

/-- **Code only sees the unread bytes** of a `TMemoryBuffer`, how many were read, and what is left
of the message size. -/
theorem TMemoryBuffer.alike_unread :
    InputTransport.Alike fun (t : TMemoryBuffer) (u : Unread) => t.unread = u where
  read := by
    rintro len t _ rfl
    simp only [InputTransport.read, TMemoryBuffer.read, unread_remaining]
    by_cases h : t.remainingMessageSize < len.toNat
    · simp only [h, if_true]
      exact ⟨rfl, rfl⟩
    · simp only [h, if_false]
      exact ⟨rfl, t.unread_advance _⟩
  readAll := by
    rintro len t _ rfl
    simp only [InputTransport.readAll, TMemoryBuffer.readAll, unread_bytes, unread_remaining]
    by_cases hlen : len.toNat ≤ t.readable.length
    · simp only [hlen, if_true]
      exact ⟨rfl, t.unread_advance _⟩
    · by_cases h : t.remainingMessageSize < len.toNat
      · simp only [hlen, h, if_true, if_false]
        exact ⟨rfl, rfl⟩
      · simp only [hlen, h, if_false]
        exact ⟨rfl, t.unread_advance _⟩
  borrow := by
    rintro len t _ rfl
    exact ⟨rfl, rfl⟩
  consume := by
    rintro len t _ rfl
    simp only [InputTransport.consume, TMemoryBuffer.consume, consumeError, unread_bytes,
      unread_remaining]
    by_cases h : t.remainingMessageSize < len.toNat
    · simp only [h, if_true]
      exact ⟨rfl, rfl⟩
    · by_cases hlen : len.toNat ≤ t.readable.length
      · have hlen' : len.toNat ≤ ({ t with
            remainingMessageSize := t.remainingMessageSize - len.toNat }).readable.length := hlen
        simp only [h, hlen, hlen', if_true, if_false]
        exact ⟨rfl, unread_advance _ _⟩
      · have hlen' : ¬ len.toNat ≤ ({ t with
            remainingMessageSize := t.remainingMessageSize - len.toNat }).readable.length := hlen
        simp only [h, hlen, hlen', if_false]
        exact ⟨rfl, rfl⟩
  checkReadBytesAvailable := by
    rintro numBytes t _ rfl
    simp only [InputTransport.checkReadBytesAvailable, unread_remaining]
    by_cases h : (t.remainingMessageSize : ℤ) < numBytes
    · simp only [h, if_true]
      exact ⟨rfl, rfl⟩
    · simp only [h, if_false]
      exact ⟨rfl, rfl⟩
  readEnd := by
    rintro t _ rfl
    refine ⟨?_, ?_⟩
    · show t.readEnd.1 = t.rPos
      unfold TMemoryBuffer.readEnd
      split_ifs <;> rfl
    · show t.readEnd.2.unread = Unread.mk t.readable (if t.readable = [] then 0 else t.rPos) _
      have hiff : t.readable = [] ↔ t.rPos = t.buffer.length := by
        rw [← List.length_eq_zero_iff, t.length_readable]
        have := t.rPos_le
        omega
      unfold TMemoryBuffer.readEnd
      by_cases h : t.rPos = t.buffer.length
      · rw [if_pos h, if_pos (hiff.mpr h), hiff.mpr h]
        rfl
      · rw [if_neg h, if_neg (fun h' => h (hiff.mp h'))]
        rfl

end ThriftBridge

import ThriftBridge.Lib.RefCount
import ThriftBridge.Zend.Strings

/-!
# The world of the extension

* `TransportObject`: `php_thrift_bridge_transport_object`;
* `Executor`: what stands for `process_thrift_data_generic` in a method;
* `World`: the string heap with its ledger, the `malloc`ed response buffers, the objects, and the
  executor's own state;
* `CM`: C code over a world. It returns, or stops by an undefined access, by the non-local exit of
  a refused allocation, or by a C++ exception.

A holder of references is `none` (PHP itself) or `some b` (the object in block `b`).
-/

set_option autoImplicit false

namespace ThriftBridge

open RefCount

/-! ## Objects -/

/-- `php_thrift_bridge_transport_object`; `none` is `NULL`. The flag is the engine's, kept in
`std`: the destructor handler is called at most once. -/
structure TransportObject where
  serviceName : Option StrRef
  wBuf : Option StrRef
  rBuf : Option StrRef
  rBufPos : Int64
  destructorCalled : Bool
deriving DecidableEq

/-- The strings an object points to. -/
def TransportObject.refs (o : TransportObject) : List StrRef :=
  [o.serviceName, o.wBuf, o.rBuf].reduceOption

/-- `XtOffsetOf(php_thrift_bridge_transport_object, std)`: three pointers and a `zend_long`. -/
def offsetOfStd : ℕ := 32

/-- `php_thrift_bridge_transport_fetch_object`: from the `zend_object` to its block. -/
def fetchObject (obj : ℕ) : ℕ := obj - offsetOfStd

/-- `&intern->std`. -/
def stdOf (intern : ℕ) : ℕ := intern + offsetOfStd

@[simp] theorem fetchObject_stdOf (b : ℕ) : fetchObject (stdOf b) = b := by
  simp [fetchObject, stdOf]

/-! ## Results -/

/-- The exceptions the methods raise. -/
inductive PhpException
  | badParameters
  | closedOrNotFlushed
  | cannotRead (len : Int64)
  | rpcFailed
deriving DecidableEq

/-- The text of an exception; that of `badParameters` is the engine's. -/
def PhpException.message : PhpException → Option String
  | badParameters => none
  | closedOrNotFlushed => some "Transport is closed or not flushed."
  | cannotRead n => some ("Cannot read " ++ toString n.toInt ++ " bytes from transport.")
  | rpcFailed => some "CoreLib RPC failed or returned null."

/-- What a method leaves in `return_value`, or the exception it leaves pending. -/
inductive Ret
  | null
  | true
  | string (s : Bytes)
  | raised (e : PhpException)
deriving DecidableEq

/-- Why C code did not return. -/
inductive Stop
  | nullDeref
  | useAfterFree
  | outOfBounds
  | bailout
  | unwound
deriving DecidableEq

/-! ## The executor -/

/-- How a processor's `process` ended. -/
inductive Ended
  | returned (ok : Bool)
  | threwTException
  | threwOther
deriving DecidableEq

/-- A run of a processor: the readable content of its input transport, what it wrote to its output
transport, and how it ended. -/
structure Served where
  input : Bytes
  wrote : Bytes
  ended : Ended
deriving DecidableEq

/-- What `process_thrift_data_generic` does for its caller: it returns `NULL`, returns a buffer, or
lets a C++ exception through. -/
inductive Reply
  | null
  | response (bytes : Bytes)
  | unwound
deriving DecidableEq

/-- A reply, and the processor run behind it, if there was one. -/
structure Answer where
  reply : Reply
  served : Option Served
deriving DecidableEq

/-- From its state, a service name and a request. -/
abbrev Executor (ε : Type) := ε → Bytes → Bytes → Answer × ε

/-- A call of the executor. -/
structure Asked where
  service : Bytes
  request : Bytes
  answer : Answer
deriving DecidableEq

/-! ## Worlds -/

/-- Who holds a reference: PHP, or the object in a block. -/
abbrev Holder := Option ℕ

/-- The state of a process that runs the extension. -/
structure World (ε : Type) where
  heap : CountedHeap ZendString
  ledger : Holder → ℕ → ℤ
  cHeap : CountedHeap Bytes
  objs : ℕ → Option TransportObject
  brk : ℕ
  allocated : List ℕ
  released : List ℕ
  core : ε
  asked : Option Asked
  alive : Bool

/-- Object handlers: where in its block an object starts. -/
structure ZendObjectHandlers where
  offset : ℕ

/-- What the engine does for the extension: which allocations of strings it grants, by the number of
the string and its length, and what `zend_get_std_object_handlers()` returns. A string of `2 ^ 63`
bytes or more is never granted. -/
structure ZendApi where
  grant : ℕ → ℕ → Bool
  lt_of_grant : ∀ n len, grant n len = true → len < 2 ^ 63
  stdObjectHandlers : ZendObjectHandlers

/-- An engine that grants every string it can address. -/
def ZendApi.unlimited : ZendApi where
  grant _ len := len < 2 ^ 63
  lt_of_grant _ _ h := by simpa using h
  stdObjectHandlers := ⟨0⟩

/-- `thrift_bridge_handlers` after `MINIT`: a copy of the standard handlers, `dtor_obj` replaced. -/
def thriftBridgeHandlers (Z : ZendApi) : ZendObjectHandlers := Z.stdObjectHandlers

namespace World

variable {ε : Type}

/-- A process before any object is created. -/
def init (core : ε) : World ε where
  heap := .empty
  ledger := fun _ _ => 0
  cHeap := .empty
  objs := fun _ => none
  brk := 4096
  allocated := []
  released := []
  core := core
  asked := none
  alive := true

/-- The string behind a pointer, unless it is freed. -/
def deref (w : World ε) : StrRef → Option ZendString
  | .interned s => some s
  | .counted a => w.heap.get? a

/-- The object in block `b` becomes `o`. -/
def setObj (w : World ε) (b : ℕ) (o : TransportObject) : World ε :=
  { w with objs := Function.update w.objs b (some o) }

/-- A new string, with one reference, held by `h`. -/
def newString (w : World ε) (h : Holder) (s : ZendString) : World ε :=
  { w with heap := w.heap.alloc s, ledger := credit w.ledger h w.heap.next }

/-- `h` takes a reference. -/
def takeRef (w : World ε) (h : Holder) : StrRef → World ε
  | .interned _ => w
  | .counted a => { w with heap := w.heap.retain a, ledger := credit w.ledger h a }

/-- `h` gives a reference back. -/
def dropRef (w : World ε) (h : Holder) : StrRef → World ε
  | .interned _ => w
  | .counted a => { w with heap := w.heap.release a, ledger := debit w.ledger h a }

end World

/-! ## C code -/

/-- C code over a world. -/
abbrev CM (ε : Type) := EStateM Stop (World ε)

section Primitives

variable {ε : Type}

/-- The fields of an object. -/
def getObj (b : ℕ) : CM ε TransportObject := fun w =>
  match w.objs b with
  | some o => .ok o w
  | none => .error .useAfterFree w

/-- Assignment to a field of an object. -/
def modifyObj (b : ℕ) (f : TransportObject → TransportObject) : CM ε Unit := fun w =>
  match w.objs b with
  | some o => .ok () (w.setObj b (f o))
  | none => .error .useAfterFree w

/-- `ZSTR_VAL` and `ZSTR_LEN` of a pointer. -/
def zstr (r : Option StrRef) : CM ε ZendString := fun w =>
  match r with
  | none => .error .nullDeref w
  | some r =>
    match w.deref r with
    | some s => .ok s w
    | none => .error .useAfterFree w

/-- `zend_string_copy`. -/
def zendStringCopy (h : Holder) (r : StrRef) : CM ε StrRef := fun w =>
  match w.deref r with
  | some _ => .ok r (w.takeRef h r)
  | none => .error .useAfterFree w

/-- `zend_string_release`. -/
def zendStringRelease (h : Holder) (r : Option StrRef) : CM ε Unit := fun w =>
  match r with
  | none => .error .nullDeref w
  | some r =>
    match w.deref r with
    | some _ => .ok () (w.dropRef h r)
    | none => .error .useAfterFree w

/-- `zend_string_init` for `h`: a string with a copy of `bytes`. -/
def zendStringInit (Z : ZendApi) (h : Holder) (bytes : Bytes) : CM ε StrRef := fun w =>
  if hg : Z.grant w.heap.next bytes.length = true then
    .ok (.counted w.heap.next) (w.newString h ⟨bytes, Z.lt_of_grant _ _ hg⟩)
  else .error .bailout w

/-- `zend_string_safe_alloc(1, len, 1, 0)` for `h`; the new string is filled by `memcpy`. -/
def zendStringSafeAlloc (Z : ZendApi) (h : Holder) (len : UInt64) : CM ε StrRef :=
  zendStringInit Z h (List.replicate len.toNat 0)

/-- `memcpy(ZSTR_VAL(dst) + off, src, n)` with the `n` bytes `src`. -/
def memcpy (dst : StrRef) (off : UInt64) (src : Bytes) : CM ε Unit := fun w =>
  match dst with
  | .interned _ => .error .outOfBounds w
  | .counted a =>
    match w.heap.get? a with
    | none => .error .useAfterFree w
    | some s =>
      if h : off.toNat + src.length ≤ s.val.length then
        .ok () { w with heap := w.heap.fill a (s.splice off.toNat src h) }
      else .error .outOfBounds w

/-- `RETVAL_STRINGL(ZSTR_VAL(s) + pos, n)`: a new string for PHP, a slice of `s`. -/
def retvalStringl (Z : ZendApi) (s : ZendString) (pos : Int64) (n : UInt64) : CM ε Ret := do
  if pos.toInt < 0 ∨ (s.val.length : ℤ) < pos.toInt + n.toNat then throw .outOfBounds
  let slice := (s.val.drop pos.toInt.toNat).take n.toNat
  let _ ← zendStringInit Z none slice
  return .string slice

/-- The call of the executor. A response is a `malloc`ed buffer that the caller has to `free`. -/
def askCore (exec : Executor ε) (service request : Bytes) : CM ε (Option ℕ) := fun w =>
  let (answer, core) := exec w.core service request
  let w := { w with core := core, asked := some ⟨service, request, answer⟩ }
  match answer.reply with
  | .null => .ok none w
  | .response bytes => .ok (some w.cHeap.next) { w with cHeap := w.cHeap.alloc bytes }
  | .unwound => .error .unwound w

/-- The bytes of a `malloc`ed buffer. -/
def readBuffer (p : ℕ) : CM ε Bytes := fun w =>
  match w.cHeap.get? p with
  | some bytes => .ok bytes w
  | none => .error .useAfterFree w

/-- `free`. -/
def free (p : ℕ) : CM ε Unit := fun w =>
  if 0 < w.cHeap.count p then .ok () { w with cHeap := w.cHeap.release p }
  else .error .useAfterFree w

end Primitives

end ThriftBridge

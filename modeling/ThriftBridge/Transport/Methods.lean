import ThriftBridge.Zend.World

/-!
# The class `ThriftBridgeTransport`

Every method is written statement by statement: the arguments are those that
`zend_parse_parameters` has accepted, or `none` when it has rejected them and left an exception.
The object is addressed by its `zend_object`, as `Z_OBJ_P(getThis())` gives it.
-/

set_option autoImplicit false

namespace ThriftBridge

variable {ε : Type}

/-- `php_thrift_bridge_transport_create_object`. The structure is 88 bytes, and 16 of them are the
first entry of the property table: with a table of `tableSize` bytes,
`zend_object_properties_size(ce)` is `tableSize - 16`. -/
def createObject (tableSize : ℕ) (w : World ε) : World ε × ℕ :=
  let intern := w.brk
  ({ w with
      brk := intern + 72 + tableSize
      allocated := intern :: w.allocated
      objs := Function.update w.objs intern (some
        { serviceName := none, wBuf := none, rBuf := none, rBufPos := 0,
          destructorCalled := false }) },
    stdOf intern)

/-- A field that is released unless it is `NULL`. -/
def releaseField (b : ℕ) (r : Option StrRef) : CM ε Unit :=
  match r with
  | none => pure ()
  | some r => zendStringRelease (some b) (some r)

/-- `php_thrift_bridge_transport_dtor_object`. The fields keep their pointers. -/
def dtorObject (object : ℕ) : CM ε Ret := do
  let intern := fetchObject object
  let o ← getObj intern
  releaseField intern o.serviceName
  releaseField intern o.wBuf
  releaseField intern o.rBuf
  return .null

/-- The engine frees the block of an object at `(char *)object - object->handlers->offset`. Where no
block starts at that address, what the allocator does from then on is undefined: it is left out here,
and what a run does after such an event is not what the process does. -/
def freeObject (Z : ZendApi) (object : ℕ) (w : World ε) : World ε :=
  { w with
    released := (object - (thriftBridgeHandlers Z).offset) :: w.released
    objs := Function.update w.objs (fetchObject object) none }

/-- `__construct($serviceName)`. -/
def construct (this : ℕ) (arg : Option StrRef) : CM ε Ret := do
  let intern := fetchObject this
  match arg with
  | none => return .raised .badParameters
  | some serviceNameStr =>
    let s ← zendStringCopy (some intern) serviceNameStr
    modifyObj intern fun o => { o with serviceName := some s }
    modifyObj intern fun o => { o with wBuf := some emptyAlloc }
    modifyObj intern fun o => { o with rBuf := some emptyAlloc }
    modifyObj intern fun o => { o with rBufPos := 0 }
    return .null

/-- `isOpen()`. -/
def isOpen : CM ε Ret := return .true

/-- `open()`, and `close()`. -/
def noop : CM ε Ret := return .null

/-- `write($buf)`. -/
def write (Z : ZendApi) (this : ℕ) (arg : Option StrRef) : CM ε Ret := do
  match arg with
  | none => return .raised .badParameters
  | some buf =>
    let intern := fetchObject this
    let o ← getObj intern
    let wBuf ← zstr o.wBuf
    let src ← zstr (some buf)
    let oldLen := wBuf.len
    let writeLen := src.len
    let newLen := oldLen + writeLen
    let newWBuf ← zendStringSafeAlloc Z (some intern) newLen
    memcpy newWBuf 0 wBuf.val
    memcpy newWBuf oldLen src.val
    zendStringRelease (some intern) o.wBuf
    modifyObj intern fun o => { o with wBuf := some newWBuf }
    return .null

/-- How many bytes `read($len)` takes out of a buffer of `totalLen` bytes: `size_t` arithmetic on
two `zend_long`s. -/
def clampLen (len rBufPos : Int64) (totalLen : UInt64) : UInt64 :=
  let readLen := len.toUInt64
  let remainingLen := totalLen - rBufPos.toUInt64
  if readLen > remainingLen then remainingLen else readLen

/-- `read($len)`. -/
def read (Z : ZendApi) (this : ℕ) (arg : Option Int64) : CM ε Ret := do
  match arg with
  | none => return .raised .badParameters
  | some len =>
    let intern := fetchObject this
    let o ← getObj intern
    match o.rBuf with
    | none => return .raised .closedOrNotFlushed
    | some r =>
      let rBuf ← zstr (some r)
      let readLen := clampLen len o.rBufPos rBuf.len
      if readLen = 0 ∧ len > 0 then return .raised (.cannotRead len)
      let ret ← retvalStringl Z rBuf o.rBufPos readLen
      modifyObj intern fun o => { o with rBufPos := (o.rBufPos.toUInt64 + readLen).toInt64 }
      return ret

/-- `flush()`, over an executor in the place of `process_thrift_data_generic`. -/
def flush (Z : ZendApi) (exec : Executor ε) (this : ℕ) : CM ε Ret := do
  let intern := fetchObject this
  let o ← getObj intern
  let requestBinary ← zstr o.wBuf
  let serviceName ← zstr o.serviceName
  match ← askCore exec serviceName.val requestBinary.val with
  | none => return .raised .rpcFailed
  | some responseBinary =>
    zendStringRelease (some intern) o.rBuf
    let response ← readBuffer responseBinary
    -- until the assignment the field still points to the released string
    let rBuf ← zendStringInit Z (some intern) response
    modifyObj intern fun o => { o with rBuf := some rBuf }
    free responseBinary
    modifyObj intern fun o => { o with rBufPos := 0 }
    zendStringRelease (some intern) o.wBuf
    modifyObj intern fun o => { o with wBuf := some emptyAlloc }
    return .null

end ThriftBridge

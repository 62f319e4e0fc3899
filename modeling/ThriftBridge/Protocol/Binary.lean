import ThriftBridge.Lib.BigEndian
import ThriftBridge.Protocol.Code

/-!
# `TBinaryProtocol`

* `TType`, `TMessageType`: the codes on the wire;
* `TBinaryProtocol`: its settings, with the ones that the bridge uses;
* `writeI32`, `writeString`, `writeMessageBegin` and so on, as in the source: each returns the number
  of bytes that it has written;
* `readI32`, `readStringBody`, `readMessageBegin` and so on: each returns what it has read, and the
  number of bytes;
* `skip`: reads one value of any type.
-/

set_option autoImplicit false

namespace ThriftBridge

/-! ## Codes -/

/-- `TType`. A byte that is none of its values is cast all the same. -/
inductive TType
  | stop
  | void
  | bool
  | byte
  | double
  | i16
  | i32
  | u64
  | i64
  | string
  | struct
  | map
  | set
  | list
  | uuid
  | other (code : Int8)
deriving DecidableEq

namespace TType

/-- `(int8_t)type`. -/
def toInt8 : TType → Int8
  | stop => 0
  | void => 1
  | bool => 2
  | byte => 3
  | double => 4
  | i16 => 6
  | i32 => 8
  | u64 => 9
  | i64 => 10
  | string => 11
  | struct => 12
  | map => 13
  | set => 14
  | list => 15
  | uuid => 16
  | other code => code

/-- The values of the enumeration. -/
def values : List TType :=
  [stop, void, bool, byte, double, i16, i32, u64, i64, string, struct, map, set, list, uuid]

/-- `(TType)code`. -/
def ofInt8 (code : Int8) : TType := (values.find? fun t => t.toInt8 = code).getD (other code)

theorem toInt8_ofInt8 (code : Int8) : (ofInt8 code).toInt8 = code := by
  unfold ofInt8
  cases h : values.find? fun t => t.toInt8 = code with
  | none => rfl
  | some t => simpa using List.find?_some h

/-- The enumeration has the type. -/
def Named (t : TType) : Prop := t ∈ values

instance (t : TType) : Decidable t.Named := inferInstanceAs (Decidable (t ∈ values))

theorem ofInt8_toInt8 {t : TType} (h : t.Named) : ofInt8 t.toInt8 = t := by
  unfold Named at h
  revert t
  decide

end TType

/-- `TMessageType`. -/
inductive TMessageType
  | call
  | reply
  | exception
  | oneway
  | other (value : Int32)
deriving DecidableEq

namespace TMessageType

/-- `(int32_t)messageType`. -/
def toInt32 : TMessageType → Int32
  | call => 1
  | reply => 2
  | exception => 3
  | oneway => 4
  | other value => value

/-- `(TMessageType)value`. -/
def ofInt32 (value : Int32) : TMessageType :=
  if value = 1 then call else if value = 2 then reply else if value = 3 then exception
  else if value = 4 then oneway else other value

/-- The enumeration has the type. -/
def Named (t : TMessageType) : Prop := t ∈ [call, reply, exception, oneway]

instance (t : TMessageType) : Decidable t.Named :=
  inferInstanceAs (Decidable (t ∈ [call, reply, exception, oneway]))

end TMessageType

/-! ## The protocol -/

/-- The settings of a `TBinaryProtocol`. -/
structure TBinaryProtocol where
  stringLimit : Int32
  containerLimit : Int32
  strictRead : Bool
  strictWrite : Bool
  recursionLimit : UInt32

namespace TBinaryProtocol

/-- `VERSION_MASK`. -/
def VERSION_MASK : Int32 := Int32.ofBitVec 0xffff0000#32

/-- `VERSION_1`. -/
def VERSION_1 : Int32 := Int32.ofBitVec 0x80010000#32

/-- `TBinaryProtocolT(trans)`, with the recursion limit of `TConfiguration`. -/
def default : TBinaryProtocol where
  stringLimit := 0
  containerLimit := 0
  strictRead := false
  strictWrite := true
  recursionLimit := 64

variable {σ : Type}

/-! ### Writing -/

def writeBool (value : Bool) : Code σ UInt32 := do
  Code.write ⟨[if value then 1 else 0], by simp⟩
  return 1

def writeByte (byte : Int8) : Code σ UInt32 := do
  Code.write ⟨[byte.toUInt8], by simp⟩
  return 1

def writeI16 (i16 : Int16) : Code σ UInt32 := do
  Code.write ⟨BigEndian.encode 2 i16.toBitVec, by simp⟩
  return 2

def writeI32 (i32 : Int32) : Code σ UInt32 := do
  Code.write ⟨BigEndian.encode 4 i32.toBitVec, by simp⟩
  return 4

def writeI64 (i64 : Int64) : Code σ UInt32 := do
  Code.write ⟨BigEndian.encode 8 i64.toBitVec, by simp⟩
  return 8

/-- A `double` is its 64 bits. -/
def writeDouble (dub : UInt64) : Code σ UInt32 := do
  Code.write ⟨BigEndian.encode 8 dub.toBitVec, by simp⟩
  return 8

def writeString (str : Bytes) : Code σ UInt32 :=
  if h : 2 ^ 31 - 1 < str.length then Code.throw (.protocol .sizeLimit "")
  else do
    let size := UInt32.ofNat str.length
    let result ← writeI32 size.toInt32
    if 0 < size then Code.write ⟨str, by omega⟩
    return result + size

/-- `TUuid`. -/
structure TUuid where
  data : Bytes
  length_eq : data.length = 16

def writeUUID (uuid : TUuid) : Code σ UInt32 := do
  Code.write ⟨uuid.data, by rw [uuid.length_eq]; norm_num⟩
  return 16

def writeMessageBegin (prot : TBinaryProtocol) (name : Bytes) (messageType : TMessageType)
    (seqid : Int32) : Code σ UInt32 :=
  if prot.strictWrite then do
    let version := VERSION_1 ||| messageType.toInt32
    let w1 ← writeI32 version
    let w2 ← writeString name
    let w3 ← writeI32 seqid
    return w1 + w2 + w3
  else do
    let w1 ← writeString name
    let w2 ← writeByte messageType.toInt32.toInt8
    let w3 ← writeI32 seqid
    return w1 + w2 + w3

def writeFieldBegin (fieldType : TType) (fieldId : Int16) : Code σ UInt32 := do
  let w1 ← writeByte fieldType.toInt8
  let w2 ← writeI16 fieldId
  return w1 + w2

def writeFieldStop : Code σ UInt32 := writeByte TType.stop.toInt8

def writeMapBegin (keyType valType : TType) (size : UInt32) : Code σ UInt32 := do
  let w1 ← writeByte keyType.toInt8
  let w2 ← writeByte valType.toInt8
  let w3 ← writeI32 size.toInt32
  return w1 + w2 + w3

/-- A type and a size, as lists and sets begin. -/
def writeElemsBegin (elemType : TType) (size : UInt32) : Code σ UInt32 := do
  let w1 ← writeByte elemType.toInt8
  let w2 ← writeI32 size.toInt32
  return w1 + w2

def writeListBegin (elemType : TType) (size : UInt32) : Code σ UInt32 :=
  writeElemsBegin elemType size

def writeSetBegin (elemType : TType) (size : UInt32) : Code σ UInt32 :=
  writeElemsBegin elemType size

/-! ### Reading -/

def readByte : Code σ (Int8 × UInt32) := do
  let b ← Code.readAll 1
  return ((b.headD 0).toInt8, 1)

def readBool : Code σ (Bool × UInt32) := do
  let b ← Code.readAll 1
  return (b.headD 0 != 0, 1)

def readI16 : Code σ (Int16 × UInt32) := do
  let b ← Code.readAll 2
  return (Int16.ofBitVec (BigEndian.decode 2 b), 2)

def readI32 : Code σ (Int32 × UInt32) := do
  let b ← Code.readAll 4
  return (Int32.ofBitVec (BigEndian.decode 4 b), 4)

def readI64 : Code σ (Int64 × UInt32) := do
  let b ← Code.readAll 8
  return (Int64.ofBitVec (BigEndian.decode 8 b), 8)

def readDouble : Code σ (UInt64 × UInt32) := do
  let b ← Code.readAll 8
  return (UInt64.ofBitVec (BigEndian.decode 8 b), 8)

def readStringBody (prot : TBinaryProtocol) (size : Int32) : Code σ (Bytes × UInt32) :=
  if size < 0 then Code.throw (.protocol .negativeSize "")
  else if 0 < prot.stringLimit ∧ prot.stringLimit < size then Code.throw (.protocol .sizeLimit "")
  else if size = 0 then return ([], 0)
  else do
    match ← Code.borrow size.toUInt32 with
    | some borrowBuf =>
      Code.consume size.toUInt32
      return (borrowBuf.take size.toUInt32.toNat, size.toUInt32)
    | none =>
      let str ← Code.readAll size.toUInt32
      return (str, size.toUInt32)

def readString (prot : TBinaryProtocol) : Code σ (Bytes × UInt32) := do
  let (size, result) ← readI32
  let (str, n) ← prot.readStringBody size
  return (str, result + n)

def readBinary (prot : TBinaryProtocol) : Code σ (Bytes × UInt32) := prot.readString

def readMessageBegin (prot : TBinaryProtocol) :
    Code σ ((Bytes × TMessageType × Int32) × UInt32) := do
  let (sz, n1) ← readI32
  if sz < 0 then
    let version := sz &&& VERSION_MASK
    if version ≠ VERSION_1 then Code.throw (.protocol .badVersion "Bad version identifier")
    else
      let messageType := TMessageType.ofInt32 (sz &&& 0xff)
      let (name, n2) ← prot.readString
      let (seqid, n3) ← readI32
      return ((name, messageType, seqid), n1 + n2 + n3)
  else if prot.strictRead then
    Code.throw (.protocol .badVersion
      "No version identifier... old protocol client in strict mode?")
  else
    let (name, n2) ← prot.readStringBody sz
    let (type, n3) ← readByte
    let (seqid, n4) ← readI32
    return ((name, TMessageType.ofInt32 type.toInt32, seqid), n1 + n2 + n3 + n4)

def readFieldBegin : Code σ ((TType × Int16) × UInt32) := do
  let (type, n1) ← readByte
  let fieldType := TType.ofInt8 type
  if fieldType = .stop then return ((fieldType, 0), n1)
  else
    let (fieldId, n2) ← readI16
    return ((fieldType, fieldId), n1 + n2)

/-- The minimum number of bytes a type will consume on the wire. -/
def getMinSerializedSize : TType → Code σ Int32
  | .stop => return 0
  | .void => return 0
  | .bool => return 1
  | .byte => return 1
  | .double => return 8
  | .i16 => return 2
  | .i32 => return 4
  | .i64 => return 8
  | .string => return 4
  | .struct => return 0
  | .map => return 4
  | .set => return 4
  | .list => return 4
  | .uuid => return 16
  | _ => Code.throw (.protocol .unknown "unrecognized type code")

/-- The size of a container, as it is read and checked. -/
def readSize (prot : TBinaryProtocol) : Code σ (UInt32 × UInt32) := do
  let (sizei, n) ← readI32
  if sizei < 0 then Code.throw (.protocol .negativeSize "")
  else if prot.containerLimit ≠ 0 ∧ prot.containerLimit < sizei then
    Code.throw (.protocol .sizeLimit "")
  else return (sizei.toUInt32, n)

def readMapBegin (prot : TBinaryProtocol) : Code σ ((TType × TType × UInt32) × UInt32) := do
  let (k, n1) ← readByte
  let keyType := TType.ofInt8 k
  let (v, n2) ← readByte
  let valType := TType.ofInt8 v
  let (size, n3) ← prot.readSize
  let keySize ← getMinSerializedSize keyType
  let valSize ← getMinSerializedSize valType
  -- the product is an `int`, and wraps
  Code.checkReadBytesAvailable (size.toInt32 * (keySize + valSize)).toInt
  return ((keyType, valType, size), n1 + n2 + n3)

/-- The type and the size with which lists and sets begin. -/
def readElemsBegin (prot : TBinaryProtocol) : Code σ ((TType × UInt32) × UInt32) := do
  let (e, n1) ← readByte
  let elemType := TType.ofInt8 e
  let (size, n2) ← prot.readSize
  let elemSize ← getMinSerializedSize elemType
  Code.checkReadBytesAvailable (size.toInt32 * elemSize).toInt
  return ((elemType, size), n1 + n2)

def readListBegin (prot : TBinaryProtocol) : Code σ ((TType × UInt32) × UInt32) :=
  prot.readElemsBegin

def readSetBegin (prot : TBinaryProtocol) : Code σ ((TType × UInt32) × UInt32) :=
  prot.readElemsBegin

/-! ### Skipping -/

/-- `body`, under a `TInputRecursionTracker`. Beyond the limit the depth stays incremented. -/
def trackInputRecursion {α : Type} (prot : TBinaryProtocol) (body : Code σ α) : Code σ α := do
  let depth ← Code.incrementInputRecursionDepth
  if prot.recursionLimit < depth then Code.throw (.protocol .depthLimit "")
  else body.always Code.decrementInputRecursionDepth

/-- The loop that reads the fields of a struct, up to `T_STOP`. `field` reads the value of a field
into what has been read before. -/
def readFields {α : Type} (field : α → TType → Int16 → Code σ (α × UInt32)) :
    ℕ → α → Code σ (α × UInt32)
  | 0, _ => Code.throw .outOfFuel
  | fuel + 1, a => do
    let ((ftype, fid), n1) ← readFieldBegin
    if ftype = .stop then return (a, n1)
    else
      let (a, n2) ← field a ftype fid
      let (a, n3) ← readFields field fuel a
      return (a, n1 + n2 + n3)

/-- A struct. -/
def skipFields (skip : TType → Code σ UInt32) (fuel : ℕ) : Code σ UInt32 := do
  let (_, n) ← readFields (fun _ ftype _ => do return ((), ← skip ftype)) fuel ()
  return n

/-- `p`, `n` times. The results are added up. -/
def skipTimes (p : Code σ UInt32) : ℕ → Code σ UInt32
  | 0 => return 0
  | n + 1 => do
    let a ← p
    let b ← skipTimes p n
    return a + b

/-- A list or a set. -/
def skipElems (readBegin : Code σ ((TType × UInt32) × UInt32)) (skip : TType → Code σ UInt32) :
    Code σ UInt32 := do
  let ((elemType, size), n1) ← readBegin
  let n2 ← skipTimes (skip elemType) size.toNat
  return n1 + n2

/-- A key and its value. -/
def skipEntry (skip : TType → Code σ UInt32) (keyType valType : TType) : Code σ UInt32 := do
  let k ← skip keyType
  let v ← skip valType
  return k + v

/-- A map. -/
def skipEntries (prot : TBinaryProtocol) (skip : TType → Code σ UInt32) : Code σ UInt32 := do
  let ((keyType, valType, size), n1) ← prot.readMapBegin
  let n2 ← skipTimes (skipEntry skip keyType valType) size.toNat
  return n1 + n2

/-- The `switch` of `skip`, with `skip` for what is inside. -/
def skipValue (prot : TBinaryProtocol) (skip : TType → Code σ UInt32) (fuel : ℕ) :
    TType → Code σ UInt32
  | .bool => do return (← readBool).2
  | .byte => do return (← readByte).2
  | .i16 => do return (← readI16).2
  | .i32 => do return (← readI32).2
  | .i64 => do return (← readI64).2
  | .double => do return (← readDouble).2
  | .string => do return (← prot.readBinary).2
  | .struct => skipFields skip fuel
  | .map => prot.skipEntries skip
  | .set => skipElems prot.readSetBegin skip
  | .list => skipElems prot.readListBegin skip
  | _ => Code.throw (.protocol .invalidData "invalid TType")

/-- `skip`. The fuel bounds its recursion, and its loop over the fields of a struct. -/
def skip (prot : TBinaryProtocol) : ℕ → TType → Code σ UInt32
  | 0, _ => Code.throw .outOfFuel
  | fuel + 1, type => prot.trackInputRecursion (prot.skipValue (prot.skip fuel) (fuel + 1) type)

end TBinaryProtocol

end ThriftBridge

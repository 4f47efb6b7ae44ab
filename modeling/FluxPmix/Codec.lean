import FluxPmix.Base64

/-! Conversions between PMIx data and JSON. Integers keep their C widths, character arrays
their sizes, and a call that returns -1 or NULL is `Fault.error`. -/
namespace FluxPmix

/-- A NUL-terminated string of any length. -/
structure CString where
  bytes : List UInt8
  noNul : 0 ∉ bytes
  deriving DecidableEq

/-- The contents of a `char [size]` up to its terminating NUL. -/
structure CharArray (size : Nat) where
  bytes : List UInt8
  noNul : 0 ∉ bytes
  fits : bytes.length < size
  deriving DecidableEq

/-- What C's string functions see of bytes that may hold a NUL. -/
def cString (bytes : List UInt8) : CString where
  bytes := bytes.takeWhile (· ≠ 0)
  noNul := fun member => by simpa using List.mem_takeWhile_imp member

/-- The bytes of a string literal in the C source. -/
def literal (text : String) : List UInt8 := text.toList.map (fun c => UInt8.ofNat c.toNat)

/-- `strlcpy` into a `char [size + 1]`. -/
def strlcpy (size : Nat) (src : List UInt8) : CharArray (size + 1) where
  bytes := (cString src).bytes.take size
  noNul := fun member => (cString src).noNul (List.mem_of_mem_take member)
  fits := by
    rw [List.length_take]
    omega

def pmixMaxNslen : Nat := 255

def pmixMaxKeylen : Nat := 511

def pmixRankWildcard : UInt32 := 0xfffffffe

def pmixInfoReqd : UInt32 := 1

def pmixSuccess : Int32 := 0

def pmixError : Int32 := -1

def pmixErrBadParam : Int32 := -27

def pmixErrNotSupported : Int32 := -47

structure PmixProc where
  nspace : CharArray (pmixMaxNslen + 1)
  rank : UInt32
  deriving DecidableEq

/-- The value types the codec's switches name. -/
inductive PmixType where
  | bool | byte | string | size | pid | int | int8 | int16 | int32 | int64
  | uint | uint8 | uint16 | uint32 | uint64 | procRank | float | double
  | timeval | time | status | proc
  deriving DecidableEq, Repr

namespace PmixType

def code : PmixType → UInt16
  | bool => 1
  | byte => 2
  | string => 3
  | size => 4
  | pid => 5
  | int => 6
  | int8 => 7
  | int16 => 8
  | int32 => 9
  | int64 => 10
  | uint => 11
  | uint8 => 12
  | uint16 => 13
  | uint32 => 14
  | uint64 => 15
  | float => 16
  | double => 17
  | timeval => 18
  | time => 19
  | status => 20
  | proc => 22
  | procRank => 40

def all : List PmixType :=
  [bool, byte, string, size, pid, int, int8, int16, int32, int64, uint, uint8, uint16, uint32,
    uint64, procRank, float, double, timeval, time, status, proc]

/-- The case label a `switch (type)` jumps to, `none` being its default. -/
def ofCode (type : Int32) : Option PmixType :=
  all.find? (fun t => t.code.toUInt32.toInt32 == type)

end PmixType

/-- `pmix_value_t`: the type and the active member of the union. Single and double precision
values are bit patterns; `other` is any type the codec has no case for. -/
inductive PmixValue where
  | bool (flag : Bool)
  | byte (byte : UInt8)
  | string (string : Option CString)
  | size (size : UInt64)
  | pid (pid : Int32)
  | int (integer : Int32)
  | int8 (int8 : Int8)
  | int16 (int16 : Int16)
  | int32 (int32 : Int32)
  | int64 (int64 : Int64)
  | uint (uint : UInt32)
  | uint8 (uint8 : UInt8)
  | uint16 (uint16 : UInt16)
  | uint32 (uint32 : UInt32)
  | uint64 (uint64 : UInt64)
  | procRank (rank : UInt32)
  | float (fval : UInt32)
  | double (dval : UInt64)
  | timeval (sec usec : Int64)
  | time (time : Int64)
  | status (status : Int32)
  | proc (proc : Option PmixProc)
  | other (code : UInt16) (uncoded : ∀ t : PmixType, t.code ≠ code)

def PmixValue.type : PmixValue → UInt16
  | bool _ => PmixType.bool.code
  | byte _ => PmixType.byte.code
  | string _ => PmixType.string.code
  | size _ => PmixType.size.code
  | pid _ => PmixType.pid.code
  | int _ => PmixType.int.code
  | int8 _ => PmixType.int8.code
  | int16 _ => PmixType.int16.code
  | int32 _ => PmixType.int32.code
  | int64 _ => PmixType.int64.code
  | uint _ => PmixType.uint.code
  | uint8 _ => PmixType.uint8.code
  | uint16 _ => PmixType.uint16.code
  | uint32 _ => PmixType.uint32.code
  | uint64 _ => PmixType.uint64.code
  | procRank _ => PmixType.procRank.code
  | float _ => PmixType.float.code
  | double _ => PmixType.double.code
  | timeval _ _ => PmixType.timeval.code
  | time _ => PmixType.time.code
  | status _ => PmixType.status.code
  | proc _ => PmixType.proc.code
  | other code _ => code

structure PmixInfo where
  key : CharArray (pmixMaxKeylen + 1)
  flags : UInt32
  value : PmixValue

/-- C's conversions between `float` and `double`. Widening a float is exact. -/
class CFloat where
  widen : UInt32 → UInt64
  narrow : UInt64 → UInt32
  narrow_widen : ∀ x, isFinite (widen x) = true → narrow (widen x) = x

/-! ### Pointers and data -/

def codecPointerEncode (ptr : UInt64) : Json := .integer ptr.toInt64

def codecPointerDecode : Json → Except Fault UInt64
  | .integer n => .ok n.toUInt64
  | _ => .error .error

/-- `int x = n` for a `size_t n`. -/
def sizeToInt (n : UInt64) : Int32 := n.toInt64.toInt32

/-- An `int` passed for a `size_t`. -/
def intToSize (n : Int32) : UInt64 := n.toInt64.toUInt64

def codecDataEncode (data : List UInt8) : Except Fault Json := do
  let xlength := sizeToInt (base64EncodedLength (.ofNat data.length) + 1)
  malloc (intToSize xlength)
  let xdata ← base64Encode .rfc4648 (intToSize xlength) data
  return .string (cString xdata).bytes

/-- The `ssize_t` result, -1 or a length that may itself be negative. -/
def codecDataDecodeBufsize : Json → Int64
  | .string bytes => (base64DecodedLength (intToSize (sizeToInt (.ofNat bytes.length)))).toInt64
  | _ => -1

/-- The count returned and the contents of all `length` bytes of the buffer. The string is
followed in memory by its NUL. -/
def codecDataDecodeTobuf (o : Json) (length : UInt64) : Except Fault (Nat × List UInt8) :=
  match o with
  | .string bytes =>
    base64Decode .rfc4648 length (bytes ++ [0]) (intToSize (sizeToInt (.ofNat bytes.length)))
  | _ => .error .error

def codecDataDecode (o : Json) : Except Fault (Nat × List UInt8) :=
  let bufsize := codecDataDecodeBufsize o
  if bufsize < 0 then .error .error
  else do
    malloc bufsize.toUInt64
    codecDataDecodeTobuf o bufsize.toUInt64

def codecDataLength (o : Json) : Except Fault Nat := do
  let (length, _) ← codecDataDecode o
  return length

/-! ### Arrays -/

/-- The encoders' `for (i = 0; i < n; i++)` with an `int i`. -/
def encodeEntries (encode : α → Except Fault Json) : (i : Nat) → List α → Except Fault (List Json)
  | _, [] => .ok []
  | i, x :: rest => do
    let entry ← encode x
    if i = intMax then throw .undefined
    let entries ← encodeEntries encode (i + 1) rest
    return entry :: entries

def decodeEntries (decode : Json → Except Fault α) : List Json → Except Fault (List α)
  | [] => .ok []
  | entry :: rest => do
    let x ← decode entry
    let xs ← decodeEntries decode rest
    return x :: xs

def encodeArray (encode : α → Except Fault Json) (xs : List α) : Except Fault Json := do
  let entries ← encodeEntries encode 0 xs
  return .array entries

def decodeArray (decode : Json → Except Fault α) : Json → Except Fault (List α)
  | .array entries => decodeEntries decode entries
  | _ => .error .error

/-! ### Procs -/

def codecProcEncode (proc : PmixProc) : Except Fault Json :=
  jsonPack [("nspace", .s proc.nspace.bytes), ("rank", .i proc.rank.toInt32)]

def codecProcDecode (o : Json) : Except Fault PmixProc := do
  let (nspace, rank, ()) ← jsonUnpack o [.s, .i] (keyed ["nspace", "rank"])
  return ⟨strlcpy pmixMaxNslen nspace, rank.toUInt32⟩

def codecProcArrayEncode : List PmixProc → Except Fault Json := encodeArray codecProcEncode

def codecProcArrayDecode : Json → Except Fault (List PmixProc) := decodeArray codecProcDecode

/-! ### Values -/

variable [CFloat]

/-- The encoder's switch. -/
def codecValueData : PmixValue → Except Fault Json
  | .bool flag => .ok (.bool flag)
  | .byte byte => .ok (.integer byte.toUInt64.toInt64)
  | .string string => jsonString (string.map CString.bytes)
  | .size size => .ok (.integer size.toInt64)
  | .pid pid => .ok (.integer pid.toInt64)
  | .int integer => .ok (.integer integer.toInt64)
  | .int8 int8 => .ok (.integer int8.toInt64)
  | .int16 int16 => .ok (.integer int16.toInt64)
  | .int32 int32 => .ok (.integer int32.toInt64)
  | .int64 int64 => .ok (.integer int64)
  | .uint uint => .ok (.integer uint.toUInt64.toInt64)
  | .uint8 uint8 => .ok (.integer uint8.toUInt64.toInt64)
  | .uint16 uint16 => .ok (.integer uint16.toUInt64.toInt64)
  | .uint32 uint32 => .ok (.integer uint32.toUInt64.toInt64)
  | .uint64 uint64 => .ok (.integer uint64.toInt64)
  | .procRank rank => .ok (.integer rank.toUInt64.toInt64)
  | .float fval => jsonReal (CFloat.widen fval)
  | .double dval => jsonReal dval
  | .timeval sec usec => jsonPack [("sec", .I sec), ("usec", .I usec)]
  | .time time => .ok (.integer time)
  | .status status => .ok (.integer status.toInt64)
  | .proc (some proc) => codecProcEncode proc
  | .proc none => .error .undefined
  | .other _ _ => .error .error

def codecValueEncode (value : PmixValue) : Except Fault Json := do
  let data ← codecValueData value
  jsonPack [("type", .i value.type.toUInt32.toInt32), ("data", .O data)]

/-- The decoder's switch. The timeval's `json_unpack` is passed its two outputs and no keys. -/
def codecDataValue (data : Json) : PmixType → Except Fault PmixValue
  | .bool => .ok (.bool !data.isFalse)
  | .byte => .ok (.byte data.integerValue.toUInt64.toUInt8)
  | .string =>
    match data.stringValue with
    | some bytes => .ok (.string (some (cString bytes)))
    | none => .error .undefined
  | .size => .ok (.size data.integerValue.toUInt64)
  | .pid => .ok (.pid data.integerValue.toInt32)
  | .int => .ok (.int data.integerValue.toInt32)
  | .int8 => .ok (.int8 data.integerValue.toInt8)
  | .int16 => .ok (.int16 data.integerValue.toInt16)
  | .int32 => .ok (.int32 data.integerValue.toInt32)
  | .int64 => .ok (.int64 data.integerValue)
  | .uint => .ok (.uint data.integerValue.toUInt64.toUInt32)
  | .uint8 => .ok (.uint8 data.integerValue.toUInt64.toUInt8)
  | .uint16 => .ok (.uint16 data.integerValue.toUInt64.toUInt16)
  | .uint32 => .ok (.uint32 data.integerValue.toUInt64.toUInt32)
  | .uint64 => .ok (.uint64 data.integerValue.toUInt64)
  | .procRank => .ok (.procRank data.integerValue.toUInt64.toUInt32)
  | .float => .ok (.float (CFloat.narrow data.realValue))
  | .double => .ok (.double data.realValue)
  | .timeval => do
    let (sec, usec, ()) ← jsonUnpack data [.I, .I] [.dest, .dest]
    return .timeval sec usec
  | .time => .ok (.time data.integerValue)
  | .status => .ok (.status data.integerValue.toInt32)
  | .proc => do
    let proc ← codecProcDecode data
    return .proc (some proc)

def codecValueDecode (o : Json) : Except Fault PmixValue := do
  let (type, data, ()) ← jsonUnpack o [.i, .o] (keyed ["type", "data"])
  match PmixType.ofCode type with
  | some label => codecDataValue data label
  | none => throw .error

/-! ### Infos -/

def codecInfoEncode (info : PmixInfo) : Except Fault Json := do
  let value ← codecValueEncode info.value
  jsonPack [("key", .s info.key.bytes), ("flags", .i info.flags.toInt32), ("value", .O value)]

def codecInfoDecode (o : Json) : Except Fault PmixInfo := do
  let (key, flags, xvalue, ()) ← jsonUnpack o [.s, .i, .o] (keyed ["key", "flags", "value"])
  let value ← codecValueDecode xvalue
  return ⟨strlcpy pmixMaxKeylen key, flags.toUInt32, value⟩

def codecInfoArrayEncode : List PmixInfo → Except Fault Json := encodeArray codecInfoEncode

def codecInfoArrayDecode : Json → Except Fault (List PmixInfo) := decodeArray codecInfoDecode

end FluxPmix

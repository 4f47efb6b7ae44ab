import FluxPmix.Codec

/-! Gathering the base64 strings of `data_out` into one buffer. -/
namespace FluxPmix

/-- First loop: the buffer size, `size_t` sums of the elements' bounds. -/
def getDataBufsize : List Json → UInt64 → Except Fault UInt64
  | [], bufsize => .ok bufsize
  | value :: rest, bufsize =>
    let chunksize := codecDataDecodeBufsize value
    if chunksize < 0 then .error .error else getDataBufsize rest (bufsize + chunksize.toUInt64)

/-- Second loop: each element decodes behind the previous ones and zero-fills what is left. -/
def getDataDecode (bufsize : UInt64) : List Json → List UInt8 → UInt64 →
    Except Fault (List UInt8 × UInt64)
  | [], data, size => .ok (data, size)
  | value :: rest, data, size => do
    let (chunksize, filled) ← codecDataDecodeTobuf value (bufsize - size)
    getDataDecode bufsize rest (data.take size.toNat ++ filled) (size + .ofNat chunksize)

/-- The buffer and size of a successful call. `malloc` may also fail for want of memory, and
what it returns is overwritten before it is read. -/
def getDataBuffer (oom : Bool) (elements : List Json) : Except Fault (List UInt8 × UInt64) := do
  let bufsize ← getDataBufsize elements 0
  if oom then throw .error
  malloc bufsize
  getDataDecode bufsize elements (List.replicate bufsize.toNat 0) 0

/-- `*datap` and `*sizep`. -/
structure DataOutputs where
  data : Option (List UInt8)
  size : UInt64

/-- The return code and outputs of `exchange_get_data`. -/
def exchangeGetData (oom : Bool) (dataOut : Option Json) (out : DataOutputs) :
    Except Fault (Int32 × DataOutputs) :=
  match getDataBuffer oom ((dataOut.map Json.arrayElements).getD []) with
  | .ok (data, size) => .ok (0, ⟨some data, size⟩)
  | .error .error => .ok (-1, out)
  | .error .undefined => .error .undefined

end FluxPmix

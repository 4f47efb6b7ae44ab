import FluxPmix.Jansson
import Mathlib.Data.List.DropRight

/-! The vendored base64 codec. Lengths are `size_t` values and wrap, buffers are the lists of
bytes a call may touch, and an access outside one is `Fault.undefined`. -/
namespace FluxPmix

/-- `decodeMap` holds 0xff for every character outside the alphabet. -/
structure Base64Maps where
  encodeMap : List UInt8
  decodeMap : List UInt8

namespace Base64Maps

def rfc4648 : Base64Maps where
  encodeMap :=
    [65, 66, 67, 68, 69, 70, 71, 72, 73, 74, 75, 76, 77, 78, 79, 80, 81, 82, 83, 84, 85, 86, 87,
      88, 89, 90, 97, 98, 99, 100, 101, 102, 103, 104, 105, 106, 107, 108, 109, 110, 111, 112, 113,
      114, 115, 116, 117, 118, 119, 120, 121, 122, 48, 49, 50, 51, 52, 53, 54, 55, 56, 57, 43, 47]
  decodeMap :=
    List.replicate 43 0xff ++ [0x3e, 0xff, 0xff, 0xff, 0x3f] ++
      [0x34, 0x35, 0x36, 0x37, 0x38, 0x39, 0x3a, 0x3b, 0x3c, 0x3d] ++ List.replicate 7 0xff ++
      [0x00, 0x01, 0x02, 0x03, 0x04, 0x05, 0x06, 0x07, 0x08, 0x09, 0x0a, 0x0b, 0x0c, 0x0d, 0x0e,
        0x0f, 0x10, 0x11, 0x12, 0x13, 0x14, 0x15, 0x16, 0x17, 0x18, 0x19] ++
      List.replicate 6 0xff ++
      [0x1a, 0x1b, 0x1c, 0x1d, 0x1e, 0x1f, 0x20, 0x21, 0x22, 0x23, 0x24, 0x25, 0x26, 0x27, 0x28,
        0x29, 0x2a, 0x2b, 0x2c, 0x2d, 0x2e, 0x2f, 0x30, 0x31, 0x32, 0x33] ++
      List.replicate 133 0xff

end Base64Maps

def sixbitToB64 (maps : Base64Maps) (sixbit : UInt8) : UInt8 := maps.encodeMap.getD sixbit.toNat 0

/-- `none` is the -1 of a character outside the alphabet. -/
def sixbitFromB64 (maps : Base64Maps) (letter : UInt8) : Option UInt8 :=
  let ret := maps.decodeMap.getD letter.toNat 0xff
  if ret = 0xff then none else some ret

def padding : UInt8 := 61

def letterA : UInt8 := 65

def base64EncodedLength (srclen : UInt64) : UInt64 := (srclen + 2) / 3 * 4

def base64DecodedLength (srclen : UInt64) : UInt64 := (srclen + 3) / 4 * 3

def base64EncodeTriplet (maps : Base64Maps) (a b c : UInt8) : List UInt8 :=
  [sixbitToB64 maps ((a &&& 0xfc) >>> 2),
    sixbitToB64 maps (((a &&& 0x3) <<< 4) ||| ((b &&& 0xf0) >>> 4)),
    sixbitToB64 maps (((c &&& 0xc0) >>> 6) ||| ((b &&& 0xf) <<< 2)),
    sixbitToB64 maps (c &&& 0x3f)]

/-- The triplet of `src` filled up with zeros, its characters after the first `1 + srclen`
overwritten by padding. -/
def base64EncodeTail (maps : Base64Maps) (src : List UInt8) : List UInt8 :=
  (base64EncodeTriplet maps (src.getD 0 0) (src.getD 1 0) (src.getD 2 0)).take (1 + src.length) ++
    List.replicate (3 - src.length) padding

/-- What the encoder writes before its NUL fill. -/
def base64EncodeText (maps : Base64Maps) : List UInt8 → List UInt8
  | a :: b :: c :: rest => base64EncodeTriplet maps a b c ++ base64EncodeText maps rest
  | [] => []
  | src => base64EncodeTail maps src

/-- The contents of `dest`, all `destlen` bytes of it. -/
def base64Encode (maps : Base64Maps) (destlen : UInt64) (src : List UInt8) :
    Except Fault (List UInt8) :=
  if destlen < base64EncodedLength (.ofNat src.length) then .error .error
  else
    let text := base64EncodeText maps src
    .ok (text ++ List.replicate (destlen.toNat - text.length) 0)

def base64DecodeQuartet (maps : Base64Maps) (a b c d : UInt8) : Option (List UInt8) := do
  let a ← sixbitFromB64 maps a
  let b ← sixbitFromB64 maps b
  let c ← sixbitFromB64 maps c
  let d ← sixbitFromB64 maps d
  return [(a <<< 2) ||| (b >>> 4), ((b &&& 0xf) <<< 4) ||| (c >>> 2), ((c &&& 0x3) <<< 6) ||| d]

/-- A quartet's three bytes go to `dest`, of which `avail` bytes are left. -/
def storeQuartet (avail : Nat) : Option (List UInt8) → Except Fault (List UInt8)
  | none => .error .error
  | some bytes => if avail < 3 then .error .undefined else .ok bytes

/-- The last `srclen` characters, at most four, at the head of `src`. -/
def base64DecodeTail (maps : Base64Maps) (avail srclen : Nat) (src : List UInt8) :
    Except Fault (List UInt8) :=
  if src.length < srclen then .error .undefined
  else
    match (src.take srclen).rdropWhile (· == padding) with
    | [] => .ok []
    | [_] => .error .error
    | [a, b] => (List.take 1) <$> storeQuartet avail (base64DecodeQuartet maps a b letterA letterA)
    | [a, b, c] => (List.take 2) <$> storeQuartet avail (base64DecodeQuartet maps a b c letterA)
    | a :: b :: c :: d :: _ => storeQuartet avail (base64DecodeQuartet maps a b c d)

/-- The decoder's loop, `srclen` being the count still to decode. It trusts that count: `src`
may end before it. -/
def base64DecodeText (maps : Base64Maps) : (avail srclen : Nat) → List UInt8 →
    Except Fault (List UInt8)
  | avail, srclen, a :: b :: c :: d :: rest =>
    if 4 < srclen then do
      let quartet ← storeQuartet avail (base64DecodeQuartet maps a b c d)
      let bytes ← base64DecodeText maps (avail - 3) (srclen - 4) rest
      return quartet ++ bytes
    else base64DecodeTail maps avail srclen (a :: b :: c :: d :: rest)
  | avail, srclen, src =>
    if 4 < srclen then .error .undefined else base64DecodeTail maps avail srclen src

/-- The count returned and the contents of all `destlen` bytes of `dest`. -/
def base64Decode (maps : Base64Maps) (destlen : UInt64) (src : List UInt8) (srclen : UInt64) :
    Except Fault (Nat × List UInt8) :=
  if destlen < base64DecodedLength srclen then .error .error
  else do
    let bytes ← base64DecodeText maps destlen.toNat srclen.toNat src
    return (bytes.length, bytes ++ List.replicate (destlen.toNat - bytes.length) 0)

/-- What a text of at most four characters stands for. -/
def base64TailMeaning (maps : Base64Maps) (text : List UInt8) : Option (List UInt8) :=
  match text.rdropWhile (· == padding) with
  | [] => some []
  | [_] => none
  | [a, b] => (List.take 1) <$> base64DecodeQuartet maps a b letterA letterA
  | [a, b, c] => (List.take 2) <$> base64DecodeQuartet maps a b c letterA
  | a :: b :: c :: d :: _ => base64DecodeQuartet maps a b c d

/-- What a whole text stands for, lengths and buffers aside. -/
def base64Meaning (maps : Base64Maps) : List UInt8 → Option (List UInt8)
  | a :: b :: c :: d :: e :: rest => do
    let quartet ← base64DecodeQuartet maps a b c d
    let bytes ← base64Meaning maps (e :: rest)
    return quartet ++ bytes
  | text => base64TailMeaning maps text

end FluxPmix

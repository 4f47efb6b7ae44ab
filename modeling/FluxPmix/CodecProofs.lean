import FluxPmix.Codec
import FluxPmix.Base64Proofs

/-! Round trips of the info array codec. Every value but a timeval comes back as it was; a
timeval's decoder passes its outputs where `json_unpack` expects keys. -/
namespace FluxPmix

theorem takeWhile_noNul {bytes : List UInt8} (noNul : 0 ∉ bytes) :
    bytes.takeWhile (· ≠ 0) = bytes := by
  rw [List.takeWhile_eq_self_iff]
  intro b member
  have : b ≠ 0 := fun zero => noNul (zero ▸ member)
  simpa using this

@[simp] theorem cString_bytes (s : CString) : cString s.bytes = s := by
  cases s with
  | mk bytes noNul => simp only [cString, takeWhile_noNul noNul]

@[simp] theorem strlcpy_bytes (s : CharArray (size + 1)) : strlcpy size s.bytes = s := by
  cases s with
  | mk bytes noNul fits =>
    have short : bytes.length ≤ size := by omega
    simp only [strlcpy, cString, takeWhile_noNul noNul, List.take_of_length_le short]

@[simp] theorem ofCode_code (t : PmixType) : PmixType.ofCode t.code.toUInt32.toInt32 = some t := by
  cases t <;> decide

/-! ### Procs -/

theorem codecProcEncode_ok : codecProcEncode proc = .ok o ↔ utf8Check proc.nspace.bytes = true ∧
    o = .object [("nspace", .string proc.nspace.bytes), ("rank", .integer proc.rank.toInt32.toInt64)] := by
  simp [codecProcEncode, jsonPack_ok, PackItem.packable, PackItem.value]

theorem codecProcDecode_encode (encoded : codecProcEncode proc = .ok o) :
    codecProcDecode o = .ok proc := by
  obtain ⟨_, rfl⟩ := codecProcEncode_ok.mp encoded
  simp [codecProcDecode]

section Floats
variable [CFloat]

/-! ### Values -/

theorem codecValueEncode_ok : codecValueEncode v = .ok o ↔ ∃ data, codecValueData v = .ok data ∧
    o = .object [("type", .integer v.type.toUInt32.toInt32.toInt64), ("data", data)] := by
  simp [codecValueEncode, bind_ok, jsonPack_ok, PackItem.packable, PackItem.value]

theorem codecValueDecode_label (label : PmixType) (data : Json) :
    codecValueDecode (.object [("type", .integer label.code.toUInt32.toInt32.toInt64), ("data", data)]) =
      codecDataValue data label := by
  simp [codecValueDecode]

/-- No arguments make the timeval's `json_unpack` call return 0. -/
theorem codecDataValue_timeval (data : Json) : codecDataValue data .timeval ≠ .ok v := by
  cases data <;>
    simp [codecDataValue, jsonUnpack, unpackMembers, Json.isObject, bind, Except.bind, throw,
      throwThe, MonadExceptOf.throw]

/-- The label the two switches share, for a value the encoder accepts. -/
theorem codecDataValue_data (encoded : codecValueData v = .ok data) :
    ∃ label : PmixType, v.type = label.code ∧ (label ≠ .timeval → codecDataValue data label = .ok v) := by
  cases v with
  | bool flag =>
    cases Except.ok.inj encoded
    exact ⟨.bool, rfl, fun _ => by cases flag <;> rfl⟩
  | string string =>
    obtain ⟨bytes, given, _, rfl⟩ := jsonString_ok.mp encoded
    obtain ⟨s, rfl, rfl⟩ := Option.map_eq_some_iff.mp given
    exact ⟨.string, rfl, fun _ => by simp [codecDataValue, Json.stringValue]⟩
  | float fval =>
    obtain ⟨finite, rfl⟩ := jsonReal_ok.mp encoded
    exact ⟨.float, rfl, fun _ => by simp [codecDataValue, Json.realValue, CFloat.narrow_widen _ finite]⟩
  | double dval =>
    obtain ⟨_, rfl⟩ := jsonReal_ok.mp encoded
    exact ⟨.double, rfl, fun _ => rfl⟩
  | timeval sec usec => exact ⟨.timeval, rfl, fun other => absurd rfl other⟩
  | proc proc =>
    cases proc with
    | none => contradiction
    | some proc =>
      refine ⟨.proc, rfl, fun _ => ?_⟩
      simp [codecDataValue, codecProcDecode_encode encoded, bind, Except.bind, pure, Except.pure]
  | other code uncoded => contradiction
  | byte n =>
    cases Except.ok.inj encoded
    exact ⟨.byte, rfl, fun _ => by simp [codecDataValue, Json.integerValue]⟩
  | size n =>
    cases Except.ok.inj encoded
    exact ⟨.size, rfl, fun _ => by simp [codecDataValue, Json.integerValue]⟩
  | pid n =>
    cases Except.ok.inj encoded
    exact ⟨.pid, rfl, fun _ => by simp [codecDataValue, Json.integerValue]⟩
  | int n =>
    cases Except.ok.inj encoded
    exact ⟨.int, rfl, fun _ => by simp [codecDataValue, Json.integerValue]⟩
  | int8 n =>
    cases Except.ok.inj encoded
    exact ⟨.int8, rfl, fun _ => by simp [codecDataValue, Json.integerValue]⟩
  | int16 n =>
    cases Except.ok.inj encoded
    exact ⟨.int16, rfl, fun _ => by simp [codecDataValue, Json.integerValue]⟩
  | int32 n =>
    cases Except.ok.inj encoded
    exact ⟨.int32, rfl, fun _ => by simp [codecDataValue, Json.integerValue]⟩
  | int64 n =>
    cases Except.ok.inj encoded
    exact ⟨.int64, rfl, fun _ => rfl⟩
  | uint n =>
    cases Except.ok.inj encoded
    exact ⟨.uint, rfl, fun _ => by simp [codecDataValue, Json.integerValue]⟩
  | uint8 n =>
    cases Except.ok.inj encoded
    exact ⟨.uint8, rfl, fun _ => by simp [codecDataValue, Json.integerValue]⟩
  | uint16 n =>
    cases Except.ok.inj encoded
    exact ⟨.uint16, rfl, fun _ => by simp [codecDataValue, Json.integerValue]⟩
  | uint32 n =>
    cases Except.ok.inj encoded
    exact ⟨.uint32, rfl, fun _ => by simp [codecDataValue, Json.integerValue]⟩
  | uint64 n =>
    cases Except.ok.inj encoded
    exact ⟨.uint64, rfl, fun _ => by simp [codecDataValue, Json.integerValue]⟩
  | procRank n =>
    cases Except.ok.inj encoded
    exact ⟨.procRank, rfl, fun _ => by simp [codecDataValue, Json.integerValue]⟩
  | time n =>
    cases Except.ok.inj encoded
    exact ⟨.time, rfl, fun _ => rfl⟩
  | status n =>
    cases Except.ok.inj encoded
    exact ⟨.status, rfl, fun _ => by simp [codecDataValue, Json.integerValue]⟩

omit [CFloat] in
theorem code_injective {s t : PmixType} (same : s.code = t.code) : s = t := by
  have := congrArg (fun code => PmixType.ofCode code.toUInt32.toInt32) same
  simpa using this

theorem codecValue_roundtrip (encoded : codecValueEncode v = .ok o) :
    codecValueDecode o = .ok v ↔ v.type ≠ PmixType.timeval.code := by
  obtain ⟨data, switched, rfl⟩ := codecValueEncode_ok.mp encoded
  obtain ⟨label, typed, decoded⟩ := codecDataValue_data switched
  rw [typed, codecValueDecode_label]
  constructor
  · intro returned same
    cases code_injective same
    exact codecDataValue_timeval data returned
  · intro different
    exact decoded (fun same => different (same ▸ rfl))

/-! ### Infos -/

theorem codecInfoEncode_ok : codecInfoEncode info = .ok o ↔ utf8Check info.key.bytes = true ∧
    ∃ value, codecValueEncode info.value = .ok value ∧ o = .object [("key", .string info.key.bytes),
      ("flags", .integer info.flags.toInt32.toInt64), ("value", value)] := by
  simp only [codecInfoEncode, bind_ok, jsonPack_ok, PackItem.packable, PackItem.value, List.all_cons,
    List.all_nil, Bool.and_true, List.map_cons, List.map_nil]
  constructor
  · rintro ⟨value, packed, valid, rfl⟩
    exact ⟨valid, value, packed, rfl⟩
  · rintro ⟨valid, value, packed, rfl⟩
    exact ⟨value, packed, valid, rfl⟩

theorem codecInfoDecode_object (key : CharArray (pmixMaxKeylen + 1)) (flags : UInt32) (value : Json) :
    codecInfoDecode (.object [("key", .string key.bytes), ("flags", .integer flags.toInt32.toInt64),
      ("value", value)]) = (do
        let v ← codecValueDecode value
        return ⟨key, flags, v⟩) := by
  simp [codecInfoDecode]

theorem codecInfo_roundtrip (encoded : codecInfoEncode info = .ok o) :
    codecInfoDecode o = .ok info ↔ info.value.type ≠ PmixType.timeval.code := by
  obtain ⟨_, value, packed, rfl⟩ := codecInfoEncode_ok.mp encoded
  rw [← codecValue_roundtrip packed, codecInfoDecode_object]
  simp only [bind_ok, pure_ok]
  constructor
  · rintro ⟨v, decoded, same⟩
    rw [decoded, same]
  · intro decoded
    exact ⟨info.value, decoded, rfl⟩

/-! ### Arrays -/

omit [CFloat] in
/-- What the entries of a non-empty array were made from. -/
theorem encodeEntries_cons {encode : α → Except Fault Json}
    (encoded : encodeEntries encode i (x :: rest) = .ok entries) : ∃ entry others, entries = entry :: others ∧
      i ≠ intMax ∧ encode x = .ok entry ∧ encodeEntries encode (i + 1) rest = .ok others := by
  simp only [encodeEntries, bind_ok] at encoded
  obtain ⟨entry, first, encoded⟩ := encoded
  split at encoded
  · contradiction
  · rename_i below
    rw [bind_ok] at encoded
    obtain ⟨others, remaining, encoded⟩ := encoded
    exact ⟨entry, others, pure_ok.mp encoded, below, first, remaining⟩

omit [CFloat] in
theorem encodeEntries_roundtrip {encode : α → Except Fault Json} {decode : Json → Except Fault α}
    {Good : α → Prop} (each : ∀ x o, encode x = .ok o → (decode o = .ok x ↔ Good x))
    (encoded : encodeEntries encode i xs = .ok entries) :
    decodeEntries decode entries = .ok xs ↔ ∀ x ∈ xs, Good x := by
  induction xs generalizing i entries with
  | nil =>
    cases encoded
    simp [decodeEntries]
  | cons x rest ih =>
    obtain ⟨entry, others, rfl, _, first, remaining⟩ := encodeEntries_cons encoded
    rw [List.forall_mem_cons, ← each x entry first, ← ih remaining]
    simp only [decodeEntries, bind_ok, pure_ok, List.cons.injEq]
    constructor
    · rintro ⟨_, head, _, decoded, rfl, rfl⟩
      exact ⟨head, decoded⟩
    · rintro ⟨head, decoded⟩
      exact ⟨x, head, rest, decoded, rfl, rfl⟩

omit [CFloat] in
theorem encodeArray_roundtrip {encode : α → Except Fault Json} {decode : Json → Except Fault α}
    {Good : α → Prop} (each : ∀ x o, encode x = .ok o → (decode o = .ok x ↔ Good x))
    (encoded : encodeArray encode xs = .ok o) :
    decodeArray decode o = .ok xs ↔ ∀ x ∈ xs, Good x := by
  simp only [encodeArray, bind_ok, pure_ok] at encoded
  obtain ⟨entries, encoded, rfl⟩ := encoded
  exact encodeEntries_roundtrip each encoded

/-- An encoded array decodes to the very infos it was made from exactly when none of them
holds a timeval. -/
theorem codecInfoArray_roundtrip (infos : List PmixInfo) (o : Json)
    (encoded : codecInfoArrayEncode infos = .ok o) :
    codecInfoArrayDecode o = .ok infos ↔ ∀ info ∈ infos, info.value.type ≠ PmixType.timeval.code :=
  encodeArray_roundtrip (fun _ _ => codecInfo_roundtrip) encoded

end Floats

/-- The conversions that keep the bit pattern: right for zero, and enough where nothing is
converted. -/
@[reducible] def CFloat.verbatim : CFloat where
  widen := UInt32.toUInt64
  narrow := UInt64.toUInt32
  narrow_widen := by simp

def sampleInfo (value : PmixValue) : PmixInfo := ⟨⟨[107], by decide, by decide⟩, 0x80000001, value⟩

/-- Infos of four types: what changes its sign on the way, what is copied, and what is an object of its own. -/
def mixedInfos : List PmixInfo :=
  [sampleInfo (.int8 (-1)), sampleInfo (.string (some (cString [97, 98]))), sampleInfo (.uint64 0xffffffffffffffff),
    sampleInfo (.proc (some ⟨strlcpy pmixMaxNslen [97], 0xfffffffe⟩))]

theorem codecInfoArray_roundtrip_sample : ∃ o, @codecInfoArrayEncode .verbatim mixedInfos = .ok o ∧
    @codecInfoArrayDecode .verbatim o = .ok mixedInfos := by
  obtain ⟨o, encoded⟩ : ∃ o, @codecInfoArrayEncode .verbatim mixedInfos = .ok o := ⟨_, rfl⟩
  exact ⟨o, encoded, (@codecInfoArray_roundtrip .verbatim mixedInfos o encoded).mpr (by decide)⟩

/-- One timeval is enough: its array encodes and does not decode. -/
theorem codecInfoArray_timeval_lost : ¬ ∀ (infos : List PmixInfo) (o : Json),
    @codecInfoArrayEncode .verbatim infos = .ok o → @codecInfoArrayDecode .verbatim o = .ok infos := by
  intro every
  have decoded := every [sampleInfo (.timeval 1 2)] _ rfl
  contradiction

end FluxPmix

import FluxPmix.CodecProofs

/-! What the value decoders accept. The format is what the encoders emit; the decoder looks at the
type's low 32 bits and, where an accessor answers 0 for the wrong kind, not at the data at all. -/
namespace FluxPmix

/-! ### The format -/

inductive DataKind where
  | boolean
  | integer
  | string
  | real
  | timeval
  | proc
  deriving DecidableEq, Repr

/-- The kind of data that belongs to a type. -/
def PmixType.dataKind : PmixType → DataKind
  | .bool => .boolean
  | .string => .string
  | .float | .double => .real
  | .timeval => .timeval
  | .proc => .proc
  | _ => .integer

def DataKind.admits : DataKind → Json → Bool
  | .boolean, .bool _ => true
  | .integer, .integer _ => true
  | .string, .string _ => true
  | .real, .real _ => true
  | .timeval, data => data.has [.I, .I] ["sec", "usec"]
  | .proc, data => data.has [.s, .i] ["nspace", "rank"]
  | _, _ => false

/-- An integer type that is exactly one of the supported ones, and data of its kind. -/
def isValue (o : Json) : Bool :=
  match o.objectGet "type", o.objectGet "data" with
  | some (.integer type), some data =>
    PmixType.all.any (fun t => t.code.toUInt64.toInt64 == type && t.dataKind.admits data)
  | _, _ => false

/-- The value of an info that has a string key and integer flags. -/
def infoValue (o : Json) : Option Json :=
  match o.objectGet "key", o.objectGet "flags" with
  | some (.string _), some (.integer _) => o.objectGet "value"
  | _, _ => none

def isInfo (o : Json) : Bool := (infoValue o).any isValue

def isInfoArray : Json → Bool
  | .array entries => entries.all isInfo
  | _ => false

/-! ### How far the decoders look -/

/-- The case of the switch, and the data, when the decoder of a value gets there. -/
def valueLabel (o : Json) : Option (PmixType × Json) :=
  match o.objectGet "type", o.objectGet "data" with
  | some (.integer type), some data => (PmixType.ofCode type.toInt32).map (·, data)
  | _, _ => none

/-- The data is unpacked further, and this fails. -/
def dataRefused : PmixType → Json → Bool
  | .timeval, data => !data.isObject
  | .proc, data => !DataKind.proc.admits data
  | _, _ => false

/-- A string is copied that is not there, or a timeval is unpacked without keys. -/
def dataUndefined : PmixType → Json → Bool
  | .string, data => !data.isString
  | .timeval, data => data.isObject
  | _, _ => false

def infoRefused (o : Json) : Bool :=
  match (infoValue o).bind valueLabel with
  | some (label, data) => dataRefused label data
  | none => true

def infoUndefined (o : Json) : Bool :=
  match (infoValue o).bind valueLabel with
  | some (label, data) => dataUndefined label data
  | none => false

/-- The decoder of the array does not get past this element. -/
def infoStops (o : Json) : Bool := infoRefused o || infoUndefined o

/-- The first element the decoder does not get past is one it refuses, or all are in the format. -/
def infosGuarded (entries : List Json) : Bool :=
  match entries.find? infoStops with
  | some o => infoRefused o
  | none => entries.all isInfo

section
variable [CFloat]

theorem codecValueData_kind (encoded : codecValueData v = .ok data) :
    ∃ t : PmixType, v.type = t.code ∧ t.dataKind.admits data = true := by
  cases v with
  | string text =>
    obtain ⟨bytes, _, _, rfl⟩ := jsonString_ok.mp encoded
    exact ⟨.string, rfl, rfl⟩
  | float fval =>
    obtain ⟨_, rfl⟩ := jsonReal_ok.mp encoded
    exact ⟨.float, rfl, rfl⟩
  | double dval =>
    obtain ⟨_, rfl⟩ := jsonReal_ok.mp encoded
    exact ⟨.double, rfl, rfl⟩
  | timeval sec usec =>
    obtain ⟨_, rfl⟩ := jsonPack_ok.mp encoded
    exact ⟨.timeval, rfl, rfl⟩
  | proc proc =>
    cases proc with
    | none => contradiction
    | some proc =>
      obtain ⟨_, rfl⟩ := codecProcEncode_ok.mp encoded
      exact ⟨.proc, rfl, rfl⟩
  | other code uncoded => contradiction
  | bool flag =>
    cases Except.ok.inj encoded
    exact ⟨.bool, rfl, rfl⟩
  | _ =>
    -- the types whose data is an integer
    cases Except.ok.inj encoded
    simp only [PmixValue.type]
    exact ⟨_, rfl, rfl⟩

/-- What the encoder of values emits is in the format. -/
theorem codecValueEncode_isValue (encoded : codecValueEncode v = .ok o) : isValue o = true := by
  obtain ⟨data, switched, rfl⟩ := codecValueEncode_ok.mp encoded
  obtain ⟨t, typed, kind⟩ := codecValueData_kind switched
  have member : t ∈ PmixType.all := by cases t <;> decide
  have code : t.code.toUInt64.toInt64 = t.code.toUInt32.toInt32.toInt64 := by cases t <;> rfl
  have unequal : "data" ≠ "type" := by decide
  simp only [isValue, objectGet_cons_self, objectGet_cons_ne unequal, List.any_eq_true, Bool.and_eq_true,
    beq_iff_eq]
  exact ⟨t, member, by rw [code, typed], kind⟩

omit [CFloat] in
theorem codecProcDecode_admits (o : Json) :
    (∃ proc, codecProcDecode o = .ok proc) ↔ DataKind.proc.admits o = true := by
  rw [DataKind.admits, ← jsonUnpack_has o (by rfl)]
  constructor
  · rintro ⟨proc, decoded⟩
    obtain ⟨outs, unpacked, _⟩ := bind_ok.mp decoded
    exact ⟨outs, unpacked⟩
  · rintro ⟨outs, unpacked⟩
    exact ⟨_, bind_ok.mpr ⟨outs, unpacked, rfl⟩⟩

omit [CFloat] in
theorem codecProcDecode_defined (o : Json) : codecProcDecode o ≠ .error .undefined := by
  apply bind_defined (jsonUnpack_defined o rfl)
  intro outs _
  exact ok_defined _

omit [CFloat] in
theorem timeval_unpack (data : Json) :
    jsonUnpack data [.I, .I] [.dest, .dest] = .error (if data.isObject then .undefined else .error) := by
  rw [jsonUnpack]
  cases data.isObject <;> rfl

theorem codecDataValue_undefined (data : Json) (label : PmixType) :
    codecDataValue data label = .error .undefined ↔ dataUndefined label data = true := by
  cases label with
  | string => cases data <;> simp [codecDataValue, Json.stringValue, Json.isString, dataUndefined]
  | timeval =>
    rw [codecDataValue, timeval_unpack, dataUndefined]
    cases data.isObject <;> simp [bind, Except.bind]
  | proc =>
    refine iff_of_false ?_ Bool.false_ne_true
    apply bind_defined (codecProcDecode_defined data)
    intro proc _
    exact ok_defined _
  | _ => simp [codecDataValue, dataUndefined]

theorem codecDataValue_refused (data : Json) (label : PmixType) :
    codecDataValue data label = .error .error ↔ dataRefused label data = true := by
  cases label with
  | string => cases data <;> simp [codecDataValue, Json.stringValue, dataRefused]
  | timeval =>
    rw [codecDataValue, timeval_unpack, dataRefused]
    cases data.isObject <;> simp [bind, Except.bind]
  | proc =>
    rw [codecDataValue, dataRefused, Bool.not_eq_true', ← Bool.not_eq_true, ← codecProcDecode_admits]
    cases decoded : codecProcDecode data with
    | ok proc => simp [bind, Except.bind, pure, Except.pure]
    | error fault =>
      cases fault with
      | error => simp [bind, Except.bind]
      | undefined => exact absurd decoded (codecProcDecode_defined data)
  | _ => simp [codecDataValue, dataRefused]

/-- The decoder of a value is its switch, when it gets there. -/
theorem codecValueDecode_eq (o : Json) : codecValueDecode o =
    match valueLabel o with
    | some (label, data) => codecDataValue data label
    | none => .error .error := by
  rw [codecValueDecode, keyed_cons, jsonUnpack_members, valueLabel]
  cases typed : o.objectGet "type" with
  | none =>
    rw [unpackMembers_absent typed]
    rfl
  | some type =>
    rw [unpackMembers_key typed, keyed_cons]
    cases given : o.objectGet "data" with
    | none =>
      rw [unpackMembers_absent given]
      cases type <;> rfl
    | some data =>
      rw [unpackMembers_key given]
      cases type with
      | integer n =>
        simp only [unpack_i, unpack_o, ok_bind, keyed_nil, unpackMembers_nil, pure_bind]
        cases PmixType.ofCode n.toInt32 <;> rfl
      | _ => rfl

/-- An info is decoded as its value is, when it has a key and flags. -/
theorem codecInfoDecode_eq (o : Json) : ∃ key flags, codecInfoDecode o =
    match infoValue o with
    | some value => (fun v => ⟨key, flags, v⟩) <$> codecValueDecode value
    | none => .error .error := by
  rw [codecInfoDecode, keyed_cons, jsonUnpack_members, infoValue]
  cases named : o.objectGet "key" with
  | none =>
    rw [unpackMembers_absent named]
    exact ⟨strlcpy pmixMaxKeylen [], 0, rfl⟩
  | some key =>
    rw [unpackMembers_key named, keyed_cons]
    cases flagged : o.objectGet "flags" with
    | none =>
      rw [unpackMembers_absent flagged]
      cases key <;> exact ⟨strlcpy pmixMaxKeylen [], 0, rfl⟩
    | some flags =>
      rw [unpackMembers_key flagged, keyed_cons]
      cases key with
      | string bytes =>
        cases flags with
        | integer n =>
          refine ⟨strlcpy pmixMaxKeylen bytes, n.toInt32.toUInt32, ?_⟩
          cases given : o.objectGet "value" with
          | none =>
            rw [unpackMembers_absent given]
            rfl
          | some value =>
            rw [unpackMembers_key given]
            simp only [unpack_s, unpack_i, unpack_o, ok_bind, keyed_nil, unpackMembers_nil, pure_bind]
            cases codecValueDecode value <;> rfl
        | _ => exact ⟨strlcpy pmixMaxKeylen [], 0, rfl⟩
      | _ => exact ⟨strlcpy pmixMaxKeylen [], 0, rfl⟩

theorem codecInfoDecode_undefined (o : Json) :
    codecInfoDecode o = .error .undefined ↔ infoUndefined o = true := by
  obtain ⟨key, flags, decoded⟩ := codecInfoDecode_eq o
  rw [decoded, infoUndefined]
  cases infoValue o with
  | none => simp
  | some value =>
    simp only [codecValueDecode_eq, Option.bind_some]
    cases valueLabel value with
    | none => simp [Functor.map, Except.map]
    | some switched =>
      simp only [← codecDataValue_undefined]
      cases codecDataValue switched.2 switched.1 <;> simp [Functor.map, Except.map]

theorem codecInfoDecode_refused (o : Json) : codecInfoDecode o = .error .error ↔ infoRefused o = true := by
  obtain ⟨key, flags, decoded⟩ := codecInfoDecode_eq o
  rw [decoded, infoRefused]
  cases infoValue o with
  | none => simp
  | some value =>
    simp only [codecValueDecode_eq, Option.bind_some]
    cases valueLabel value with
    | none => simp [Functor.map, Except.map]
    | some switched =>
      simp only [← codecDataValue_refused]
      cases codecDataValue switched.2 switched.1 <;> simp [Functor.map, Except.map]

theorem codecInfoDecode_ok (o : Json) :
    (∃ info, codecInfoDecode o = .ok info) ↔ infoStops o = false := by
  rw [infoStops, Bool.or_eq_false_iff, ← Bool.not_eq_true, ← Bool.not_eq_true, ← codecInfoDecode_refused,
    ← codecInfoDecode_undefined]
  cases codecInfoDecode o with
  | ok info => simp
  | error fault => cases fault <;> simp

/-! ### Arrays -/

section
variable {decode : Json → Except Fault α} {bad : Json → Bool}
  (decodes : ∀ o, (∃ x, decode o = .ok x) ↔ bad o = false)
include decodes

omit [CFloat] in
theorem decodeEntries_ok (entries : List Json) :
    (∃ xs, decodeEntries decode entries = .ok xs) ↔ entries.find? bad = none := by
  induction entries with
  | nil => exact iff_of_true ⟨[], rfl⟩ rfl
  | cons o rest ih =>
    cases flawed : bad o with
    | true =>
      have failed : ¬ ∃ x, decode o = .ok x := by rw [decodes, flawed]; decide
      refine iff_of_false ?_ (by simp [flawed])
      rintro ⟨xs, decoded⟩
      obtain ⟨x, first, _⟩ := bind_ok.mp decoded
      exact failed ⟨x, first⟩
    | false =>
      obtain ⟨x, first⟩ := (decodes o).mpr flawed
      rw [List.find?_cons_of_neg (by simp [flawed]), ← ih, decodeEntries, first, ok_bind]
      constructor
      · rintro ⟨_, decoded⟩
        obtain ⟨xs, remaining, _⟩ := bind_ok.mp decoded
        exact ⟨xs, remaining⟩
      · rintro ⟨xs, remaining⟩
        exact ⟨x :: xs, by rw [remaining, ok_bind]; rfl⟩

omit [CFloat] in
/-- The first element that does not decode decides how the array fails. -/
theorem decodeEntries_fault (found : entries.find? bad = some o) (failed : decode o = .error fault) :
    decodeEntries decode entries = .error fault := by
  induction entries with
  | nil => contradiction
  | cons first rest ih =>
    rw [decodeEntries]
    cases flawed : bad first with
    | true =>
      rw [List.find?_cons_of_pos flawed] at found
      cases found
      rw [failed]
      rfl
    | false =>
      obtain ⟨x, decoded⟩ := (decodes first).mpr flawed
      rw [List.find?_cons_of_neg (by simp [flawed])] at found
      rw [decoded, ok_bind, ih found]
      rfl

end

omit [CFloat] in
theorem decodeEntries_length {decode : Json → Except Fault α} (decoded : decodeEntries decode entries = .ok xs) :
    xs.length = entries.length := by
  induction entries generalizing xs with
  | nil =>
    cases decoded
    rfl
  | cons o rest ih =>
    obtain ⟨x, _, others⟩ := bind_ok.mp decoded
    obtain ⟨ys, remaining, collected⟩ := bind_ok.mp others
    rw [pure_ok.mp collected, List.length_cons, List.length_cons, ih remaining]

/-- `*infop` and `*ninfop`. -/
structure InfoArrayOut where
  infop : Option (List PmixInfo)
  ninfop : Nat

/-- The return code and the outputs, unless the behaviour is undefined. -/
def codecInfoArrayDecodeOut (o : Json) (out : InfoArrayOut) : Option (Int32 × InfoArrayOut) :=
  match codecInfoArrayDecode o with
  | .ok infos => some (0, ⟨some infos, infos.length⟩)
  | .error .error => some (-1, out)
  | .error .undefined => none

/-- The decoder returns 0 on an array in the format, or -1 with its outputs untouched. -/
def DecodesInFormat (o : Json) : Prop :=
  ∀ out, ∃ rc after, codecInfoArrayDecodeOut o out = some (rc, after) ∧
    ((rc = 0 ∧ isInfoArray o = true) ∨ (rc = -1 ∧ after = out))

/-- Decoding stays in the format exactly when everything before the first refused element is in it. -/
theorem codecInfoArrayDecode_in_format (o : Json) :
    DecodesInFormat o ↔ ∀ entries, o = .array entries → infosGuarded entries = true := by
  cases o with
  | array entries =>
    simp only [Json.array.injEq, forall_eq', infosGuarded]
    cases found : entries.find? infoStops with
    | none =>
      obtain ⟨infos, decoded⟩ := (decodeEntries_ok codecInfoDecode_ok entries).mpr found
      have returned (out : InfoArrayOut) : codecInfoArrayDecodeOut (.array entries) out =
          some (0, ⟨some infos, infos.length⟩) := by
        simp only [codecInfoArrayDecodeOut, codecInfoArrayDecode, decodeArray, decoded]
      constructor
      · intro inFormat
        obtain ⟨rc, after, same, ⟨_, inside⟩ | ⟨rfl, _⟩⟩ := inFormat ⟨none, 0⟩
        · exact inside
        · simp [returned] at same
      · intro inside out
        exact ⟨0, _, returned out, .inl ⟨rfl, inside⟩⟩
    | some first =>
      have stops : infoStops first = true := List.find?_some found
      cases refused : infoRefused first with
      | true =>
        have failed := decodeEntries_fault codecInfoDecode_ok found ((codecInfoDecode_refused first).mpr refused)
        refine iff_of_true (fun out => ⟨-1, out, ?_, .inr ⟨rfl, rfl⟩⟩) refused
        simp only [codecInfoArrayDecodeOut, codecInfoArrayDecode, decodeArray, failed]
      | false =>
        have undefined : infoUndefined first = true := by simpa [infoStops, refused] using stops
        have failed := decodeEntries_fault codecInfoDecode_ok found ((codecInfoDecode_undefined first).mpr undefined)
        refine iff_of_false (fun inFormat => ?_) (by simp [refused])
        obtain ⟨rc, after, returned, _⟩ := inFormat ⟨none, 0⟩
        simp [codecInfoArrayDecodeOut, codecInfoArrayDecode, decodeArray, failed] at returned
  | _ =>
    refine iff_of_true (fun out => ⟨-1, out, rfl, .inr ⟨rfl, rfl⟩⟩) ?_
    rintro entries ⟨⟩

end

/-- The entry of one info. -/
def infoEntry (type : Int64) (data : Json) : Json := .object [("key", .string [97]),
  ("flags", .integer 0), ("value", .object [("type", .integer type), ("data", data)])]

/-- A string passes for a boolean, and an integer is copied as a string. -/
theorem codecInfoArrayDecode_mismatch :
    ¬ @DecodesInFormat .verbatim (.array [infoEntry 1 (.string [97])]) ∧
    ¬ @DecodesInFormat .verbatim (.array [infoEntry 3 (.integer 0)]) := by
  constructor
  · intro inFormat
    obtain ⟨rc, after, returned, ⟨_, inside⟩ | ⟨refused, _⟩⟩ := inFormat ⟨none, 0⟩
    · exact absurd inside (by decide)
    · cases returned
      cases refused
  · intro inFormat
    obtain ⟨rc, after, returned, _⟩ := inFormat ⟨none, 0⟩
    cases returned

end FluxPmix

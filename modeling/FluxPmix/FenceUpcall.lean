import FluxPmix.Fence

/-! A fence upcall end to end. Optional attributes are ignored on the shell thread, but only after
the whole array was encoded on the server thread. What the codec cannot encode makes the server
callback return an error, and nothing is sent. -/
namespace FluxPmix

section Encoding
variable [CFloat]

/-- The encoder has a case for the value's type and accepts its content. -/
def PmixValue.encodable : PmixValue → Bool
  | .string text => text.any (fun s => utf8Check s.bytes)
  | .float fval => isFinite (CFloat.widen fval)
  | .double dval => isFinite dval
  | .proc named => named.any (fun p => utf8Check p.nspace.bytes)
  | .other _ _ => false
  | _ => true

def PmixInfo.encodable (info : PmixInfo) : Bool := utf8Check info.key.bytes && info.value.encodable

theorem codecValueData_valid (v : PmixValue) : (∃ data, codecValueData v = .ok data) ↔ v.encodable = true := by
  cases v with
  | string string =>
    simp only [codecValueData, jsonString_ok, PmixValue.encodable]
    cases string with
    | none => simp
    | some s => simp
  | float fval => simp [codecValueData, jsonReal_ok, PmixValue.encodable]
  | double dval => simp [codecValueData, jsonReal_ok, PmixValue.encodable]
  | timeval sec usec => simp [codecValueData, jsonPack_ok, PackItem.packable, PmixValue.encodable]
  | proc proc =>
    cases proc with
    | none => simp [codecValueData, PmixValue.encodable]
    | some p => simpa [codecValueData, PmixValue.encodable] using codecProcEncode_valid
  | _ => simp [codecValueData, PmixValue.encodable]

theorem codecValueData_defined (pointed : v ≠ .proc none) : codecValueData v ≠ .error .undefined := by
  cases v with
  | string text => exact jsonString_defined _
  | float fval => exact jsonReal_defined _
  | double dval => exact jsonReal_defined dval
  | timeval sec usec => exact jsonPack_defined _
  | proc named =>
    cases named with
    | none => exact absurd rfl pointed
    | some p => exact codecProcEncode_defined p
  | other code => exact error_defined
  | _ => exact ok_defined _

theorem codecInfoEncode_valid (info : PmixInfo) :
    (∃ o, codecInfoEncode info = .ok o) ↔ info.encodable = true := by
  rw [PmixInfo.encodable, Bool.and_eq_true, ← codecValueData_valid]
  constructor
  · rintro ⟨o, encoded⟩
    obtain ⟨valid, value, packed, _⟩ := codecInfoEncode_ok.mp encoded
    obtain ⟨data, switched, _⟩ := codecValueEncode_ok.mp packed
    exact ⟨valid, data, switched⟩
  · rintro ⟨valid, data, switched⟩
    exact ⟨_, codecInfoEncode_ok.mpr ⟨valid, _, codecValueEncode_ok.mpr ⟨data, switched, rfl⟩, rfl⟩⟩

theorem codecInfoEncode_defined (pointed : info.value ≠ .proc none) :
    codecInfoEncode info ≠ .error .undefined := by
  apply bind_defined
  · apply bind_defined (codecValueData_defined pointed)
    intro data _
    exact jsonPack_defined _
  · intro value _
    exact jsonPack_defined _

/-! ### Attributes -/

/-- `pmix.collect` with a boolean, or another key that is not required. -/
def PmixInfo.tolerable (info : PmixInfo) : Bool :=
  if info.key = pmixCollect then
    match info.value with
    | .bool _ => true
    | _ => false
  else info.flags &&& pmixInfoReqd = 0

/-- `pmix.collect` with the value true. -/
def PmixInfo.collects (info : PmixInfo) : Bool :=
  info.key = pmixCollect &&
    match info.value with
    | .bool flag => flag
    | _ => false

omit [CFloat] in
theorem parseFenceAttr_tolerable (tolerable : info.tolerable = true) (collect : Bool) :
    parseFenceAttr collect info = (pmixSuccess, info.collects || collect) := by
  by_cases collects : info.key = pmixCollect
  · cases value : info.value with
    | bool flag => simp [parseFenceAttr, PmixInfo.collects, collects, value]
    | _ => simp [PmixInfo.tolerable, collects, value] at tolerable
  · have clear : info.flags &&& pmixInfoReqd = 0 := by
      simpa [PmixInfo.tolerable, collects] using tolerable
    simp [parseFenceAttr, PmixInfo.collects, collects, clear]

omit [CFloat] in
theorem parseFenceAttrs_tolerable {infos : List PmixInfo} (tolerable : ∀ info ∈ infos, info.tolerable = true)
    (counted : i + infos.length ≤ intMax) (collect : Bool) :
    parseFenceAttrs i collect infos = .ok (pmixSuccess, infos.any PmixInfo.collects || collect) := by
  induction infos generalizing i collect with
  | nil => rfl
  | cons info rest ih =>
    rw [List.forall_mem_cons] at tolerable
    rw [List.length_cons] at counted
    have below : i ≠ intMax := by omega
    have others := ih (i := i + 1) tolerable.2 (by omega) (info.collects || collect)
    rw [parseFenceAttrs, parseFenceAttr_tolerable tolerable.1]
    simp only [ne_eq, not_true_eq_false, if_false, below, others, List.any_cons, Bool.or_assoc,
      Bool.or_left_comm]

/-! ### Sending and admitting -/

/-- What `fence_server_cb` can send: UTF-8 names, encodable attributes, and data whose encoding
and its NUL fit an `int`. -/
structure Sendable (proc : PmixProc) (infos : List PmixInfo) (data : List UInt8) : Prop where
  nspace : utf8Check proc.nspace.bytes = true
  infos : ∀ info ∈ infos, info.encodable = true
  data : (data.length + 2) / 3 * 4 + 1 < 2 ^ 31

variable {proc : PmixProc} {infos : List PmixInfo} {data : List UInt8} {cbfunc cbdata : UInt64}

theorem codecInfoArrayEncode_valid (counted : infos.length ≤ intMax) :
    (∃ o, codecInfoArrayEncode infos = .ok o) ↔ ∀ info ∈ infos, info.encodable = true := by
  rw [codecInfoArrayEncode, encodeArray_ok]
  simp only [codecInfoEncode_valid, counted, and_true]

/-- The message `fence_server_cb` sends. -/
def fenceUpcallMsg (xprocs xinfo xdata : Json) (cbfunc cbdata : UInt64) : InterthreadMsg :=
  ⟨"fence_upcall", .object [("procs", xprocs), ("info", xinfo), ("data", xdata),
    ("cbfunc", codecPointerEncode cbfunc), ("cbdata", codecPointerEncode cbdata)]⟩

theorem fenceUpcallPack_ok {procs : List PmixProc} :
    fenceUpcallPack procs infos data cbfunc cbdata = .ok msg ↔
      ∃ xprocs xinfo xdata, codecProcArrayEncode procs = .ok xprocs ∧ codecInfoArrayEncode infos = .ok xinfo ∧
        codecDataEncode data = .ok xdata ∧ msg = fenceUpcallMsg xprocs xinfo xdata cbfunc cbdata := by
  have packed (xprocs xinfo xdata : Json) := interthreadSendPack_values "fence_upcall" [("procs", xprocs),
    ("info", xinfo), ("data", xdata), ("cbfunc", codecPointerEncode cbfunc), ("cbdata", codecPointerEncode cbdata)]
  simp only [List.map_cons, List.map_nil] at packed
  simp only [fenceUpcallPack, bind_ok, packed, Except.ok.injEq, fenceUpcallMsg]
  constructor
  · rintro ⟨xprocs, procsEncoded, xinfo, infoEncoded, xdata, dataEncoded, rfl⟩
    exact ⟨xprocs, xinfo, xdata, procsEncoded, infoEncoded, dataEncoded, rfl⟩
  · rintro ⟨xprocs, xinfo, xdata, procsEncoded, infoEncoded, dataEncoded, rfl⟩
    exact ⟨xprocs, procsEncoded, xinfo, infoEncoded, xdata, dataEncoded, rfl⟩

theorem fenceUpcallPack_defined (pointed : ∀ info ∈ infos, info.value ≠ .proc none)
    (counted : infos.length ≤ intMax) : fenceUpcallPack [proc] infos data cbfunc cbdata ≠ .error .undefined := by
  apply bind_defined (encodeArray_defined (fun p _ => codecProcEncode_defined p) (by simp [intMax]))
  intro xprocs _
  apply bind_defined (encodeArray_defined (fun info member => codecInfoEncode_defined (pointed info member)) counted)
  intro xinfo _
  apply bind_defined (codecDataEncode_defined data)
  intro xdata _
  have packed := interthreadSendPack_values "fence_upcall" [("procs", xprocs), ("info", xinfo),
    ("data", xdata), ("cbfunc", codecPointerEncode cbfunc), ("cbdata", codecPointerEncode cbdata)]
  exact fun undefined => nomatch packed.symm.trans undefined

theorem fenceUpcallPack_sendable (counted : infos.length ≤ intMax) (bounded : data.length < 2 ^ 63) :
    (∃ msg, fenceUpcallPack [proc] infos data cbfunc cbdata = .ok msg) ↔ Sendable proc infos data := by
  constructor
  · rintro ⟨msg, packed⟩
    obtain ⟨xprocs, xinfo, xdata, procsEncoded, infoEncoded, dataEncoded, _⟩ := fenceUpcallPack_ok.mp packed
    constructor
    · exact (codecProcArrayEncode_valid.mp ⟨_, procsEncoded⟩).1 proc List.mem_cons_self
    · exact (codecInfoArrayEncode_valid counted).mp ⟨_, infoEncoded⟩
    · exact ((codecDataEncode_ok bounded).mp dataEncoded).1
  · rintro ⟨nspace, encodable, fits⟩
    obtain ⟨xprocs, procsEncoded⟩ := (@codecProcArrayEncode_valid [proc]).mpr
      ⟨by simpa using nspace, by simp [intMax]⟩
    obtain ⟨xinfo, infoEncoded⟩ := (codecInfoArrayEncode_valid counted).mpr encodable
    have dataEncoded := (codecDataEncode_ok bounded).mpr ⟨fits, rfl⟩
    exact ⟨_, fenceUpcallPack_ok.mpr ⟨xprocs, xinfo, _, procsEncoded, infoEncoded, dataEncoded, rfl⟩⟩

/-- The shell thread unpacks what the server thread packed, unless a timeval is in it. -/
theorem fenceUpcallUnpack_pack {procs : List PmixProc} (hooked : cbfunc ≠ 0)
    (timeless : ∀ info ∈ infos, info.value.type ≠ PmixType.timeval.code)
    (procsEncoded : codecProcArrayEncode procs = .ok xprocs)
    (infoEncoded : codecInfoArrayEncode infos = .ok xinfo) :
    fenceUpcallUnpack (fenceUpcallMsg xprocs xinfo xdata cbfunc cbdata).payload =
      .ok (⟨procs, infos, cbfunc, cbdata, false⟩, xdata) := by
  have infoDecoded : codecInfoArrayDecode xinfo = .ok infos :=
    (encodeArray_roundtrip (fun _ _ => codecInfo_roundtrip) infoEncoded).mpr timeless
  simp [fenceUpcallUnpack, fenceUpcallMsg, codecProcArray_roundtrip procsEncoded, infoDecoded, hooked]

omit [CFloat] in
/-- Decoding gives back the data, at the head of a buffer with room for the padding. -/
theorem codecDataDecode_encode (bounded : data.length < 2 ^ 63) (encoded : codecDataEncode data = .ok xdata) :
    ∃ padding, codecDataDecode xdata = .ok (data.length, data ++ padding) := by
  obtain ⟨fits, rfl⟩ := (codecDataEncode_ok bounded).mp encoded
  have short : (base64EncodeText .rfc4648 data).length < 2 ^ 31 := by
    rw [base64EncodeText_length]
    omega
  rw [codecDataDecode_string short, base64Meaning_encode Base64Maps.rfc4648_lawful.inverts data]
  exact ⟨_, rfl⟩

omit [CFloat] in
/-- The length the trace message asks for is that of the data. -/
theorem codecDataLength_encode (bounded : data.length < 2 ^ 63) (encoded : codecDataEncode data = .ok xdata) :
    codecDataLength xdata = .ok data.length := by
  obtain ⟨padding, decoded⟩ := codecDataDecode_encode bounded encoded
  simp only [codecDataLength, decoded]
  rfl

/-- An upcall with tolerable attributes is admitted, with its data when one of them collects. -/
theorem fenceAdmit_pack (wildcard : proc.rank = pmixRankWildcard) (hooked : cbfunc ≠ 0)
    (tolerable : ∀ info ∈ infos, info.tolerable = true)
    (timeless : ∀ info ∈ infos, info.value.type ≠ PmixType.timeval.code) (counted : infos.length ≤ intMax)
    (bounded : data.length < 2 ^ 63) (packed : fenceUpcallPack [proc] infos data cbfunc cbdata = .ok msg) :
    fenceAdmit {} msg.payload = .entering ⟨[proc], infos, cbfunc, cbdata, infos.any PmixInfo.collects⟩
      (if infos.any PmixInfo.collects then some (.string (base64EncodeText .rfc4648 data)) else none) := by
  obtain ⟨xprocs, xinfo, xdata, procsEncoded, infoEncoded, dataEncoded, rfl⟩ := fenceUpcallPack_ok.mp packed
  have unpacked := @fenceUpcallUnpack_pack _ infos cbfunc cbdata xprocs xinfo xdata [proc] hooked timeless
    procsEncoded infoEncoded
  have checked := parseFenceAttrs_tolerable (i := 0) tolerable (by omega) false
  rw [Bool.or_false] at checked
  have length := codecDataLength_encode bounded dataEncoded
  obtain ⟨_, rfl⟩ := (codecDataEncode_ok bounded).mp dataEncoded
  simp only [fenceAdmit, Bool.false_eq_true, if_false, unpacked, fenceCheck, wildcard, if_true, checked,
    ne_eq, not_true_eq_false]
  cases infos.any PmixInfo.collects with
  | true => simp [length]
  | false => simp

omit [CFloat] in
/-- Without failures an entry is accepted while no other local one is pending. -/
theorem exchangeEnter_accepted (xcg : Exchange) (shell : Shell Nat) (data : Option Json) (id : Nat)
    (string : data.all Json.isString = true)
    (outside : shell.session.all (fun ses => !ses.isLocal) = true) :
    ∃ shell' rest, exchangeEnterBase64String xcg {} shell data (some id) = (shell', .entered id data :: rest) := by
  have strings : data.any (fun json => !json.isString) = false := by
    cases data with
    | none => rfl
    | some json => simpa using string
  obtain ⟨ses, opened, fresh⟩ : ∃ ses, shell.ensureSession {} = some ses ∧ ses.isLocal = false := by
    cases live : shell.session with
    | none => exact ⟨sessionCreate, by simp [Shell.ensureSession, live], rfl⟩
    | some ses => exact ⟨ses, by simp [Shell.ensureSession, live], by simpa [live] using outside⟩
  simp only [exchangeEnterBase64String, strings, opened, fresh, Bool.false_eq_true, if_false,
    Bool.and_false]
  exact ⟨_, _, rfl⟩

theorem fenceShellCb_enters (xcg : Exchange) (fx : Fence) (admitted : fenceAdmit {} msg = .entering call json)
    (string : json.all Json.isString = true)
    (outside : fx.exchange.session.all (fun ses => !ses.isLocal) = true) :
    ∃ rest, (fenceShellCb xcg {} fx msg).2 = .exchange (.entered fx.exchangeSeq json) :: rest := by
  obtain ⟨shell, effects, accepted⟩ := exchangeEnter_accepted xcg fx.exchange json fx.exchangeSeq string outside
  simp only [fenceShellCb, admitted, Fence.enter, accepted, Bool.false_eq_true, if_false, Fence.exits,
    List.cons_append, List.nil_append]
  split
  · exact ⟨_, rfl⟩
  · exact ⟨_, rfl⟩

/-- Tolerable attributes that can be encoded never make a fence fail. The server callback returns
success, and the shell admits its message and enters with the data exactly when an attribute
collects. Anything that cannot be encoded is an error on the server thread, and nothing is sent. -/
theorem fence_attributes_tolerated (xcg : Exchange) (proc : PmixProc) (infos : List PmixInfo)
    (data : List UInt8) (cbfunc cbdata : UInt64) (wildcard : proc.rank = pmixRankWildcard)
    (hooked : cbfunc ≠ 0) (tolerable : ∀ info ∈ infos, info.tolerable = true)
    (pointed : ∀ info ∈ infos, info.value ≠ .proc none)
    (timeless : ∀ info ∈ infos, info.value.type ≠ PmixType.timeval.code)
    (counted : infos.length ≤ intMax) (bounded : data.length < 2 ^ 63) :
    (Sendable proc infos data → ∃ msg,
      fenceServerCb [proc] infos data cbfunc cbdata = .ok (pmixSuccess, some msg) ∧
      ∃ json, fenceAdmit {} msg.payload =
          .entering ⟨[proc], infos, cbfunc, cbdata, infos.any PmixInfo.collects⟩ json ∧
        json = (if infos.any PmixInfo.collects then some (.string (base64EncodeText .rfc4648 data)) else none) ∧
        ∀ fx : Fence, fx.exchange.session.all (fun ses => !ses.isLocal) = true →
          ∃ rest, (fenceShellCb xcg {} fx msg.payload).2 = .exchange (.entered fx.exchangeSeq json) :: rest) ∧
    (¬ Sendable proc infos data → fenceServerCb [proc] infos data cbfunc cbdata = .ok (pmixError, none)) := by
  constructor
  · intro sendable
    obtain ⟨msg, packed⟩ := (fenceUpcallPack_sendable counted bounded).mpr sendable
    have admitted := fenceAdmit_pack wildcard hooked tolerable timeless counted bounded packed
    refine ⟨msg, upcallStatus_ok.mpr packed, _, admitted, rfl, fun fx outside => ?_⟩
    apply fenceShellCb_enters xcg fx admitted ?_ outside
    split <;> rfl
  · intro unsendable
    have defined := @fenceUpcallPack_defined _ proc infos data cbfunc cbdata pointed counted
    rw [fenceServerCb]
    cases packed : fenceUpcallPack [proc] infos data cbfunc cbdata with
    | ok msg => exact absurd ((fenceUpcallPack_sendable counted bounded).mp ⟨msg, packed⟩) unsendable
    | error fault =>
      cases fault with
      | error => rfl
      | undefined => exact absurd packed defined

/-- Whatever fence call the server thread manages to send, the shell thread unpacks: the same
procs in the same order, the same pointers, and data of which the decoder makes the original
bytes. A C object has at most `PTRDIFF_MAX` of them. -/
theorem fence_upcall_transport (procs : List PmixProc) (data : List UInt8) (cbfunc cbdata : UInt64)
    (hooked : cbfunc ≠ 0) (bounded : data.length < 2 ^ 63)
    (returned : fenceServerCb procs [] data cbfunc cbdata = .ok (rc, some msg)) :
    ∃ xdata, fenceUpcallUnpack msg.payload = .ok (⟨procs, [], cbfunc, cbdata, false⟩, xdata) ∧
      (∃ buffer, codecDataDecode xdata = .ok (data.length, buffer) ∧ buffer.take data.length = data) ∧
      codecDataLength xdata = .ok data.length := by
  have packed := upcallStatus_sent returned
  obtain ⟨xprocs, xinfo, xdata, procsEncoded, infoEncoded, dataEncoded, rfl⟩ := fenceUpcallPack_ok.mp packed
  obtain ⟨padding, decoded⟩ := codecDataDecode_encode bounded dataEncoded
  refine ⟨xdata, ?_, ⟨_, decoded, List.take_left⟩, codecDataLength_encode bounded dataEncoded⟩
  exact fenceUpcallUnpack_pack hooked (List.forall_mem_nil _) procsEncoded infoEncoded

end Encoding

/-- All procs of a job. -/
def sampleProc : PmixProc := ⟨⟨literal "job", by decide, by decide⟩, pmixRankWildcard⟩

/-- The message `fence_server_cb` sends for two procs and three bytes. -/
theorem fence_upcall_transport_sample : ∃ msg xdata, @fenceUpcallUnpack .verbatim msg =
    .ok (⟨[sampleProc, ⟨sampleProc.nspace, 0xffffffff⟩], [], 0xffffffffffffffff, 7, false⟩, xdata) := by
  obtain ⟨msg, returned⟩ : ∃ msg, @fenceServerCb .verbatim [sampleProc, ⟨sampleProc.nspace, 0xffffffff⟩] []
      [0, 255, 10] 0xffffffffffffffff 7 = .ok (pmixSuccess, some msg) := ⟨_, rfl⟩
  obtain ⟨xdata, unpacked, _⟩ := @fence_upcall_transport .verbatim pmixSuccess msg
    [sampleProc, ⟨sampleProc.nspace, 0xffffffff⟩] [0, 255, 10] 0xffffffffffffffff 7 (by decide) (by decide) returned
  exact ⟨msg.payload, xdata, unpacked⟩

/-- An attribute that may be ignored. -/
def optionalInfo (value : PmixValue) : PmixInfo := ⟨⟨literal "unknown", by decide, by decide⟩, 0, value⟩

theorem fence_attributes_tolerated_sample : ∃ msg,
    @fenceServerCb .verbatim [sampleProc] [optionalInfo (.int 42), ⟨pmixCollect, 1, .bool true⟩] [1, 2, 3] 1 0 =
      .ok (pmixSuccess, some msg) := by
  obtain ⟨sent, _⟩ := @fence_attributes_tolerated .verbatim (exchangeCreate 1 0 0) sampleProc
    [optionalInfo (.int 42), ⟨pmixCollect, 1, .bool true⟩] [1, 2, 3] 1 0 rfl (by decide) (by decide)
    (by simp [optionalInfo]) (by decide) (by decide) (by decide)
  obtain ⟨msg, success, _⟩ := sent (@Sendable.mk .verbatim _ _ _ (by decide) (by decide) (by decide))
  exact ⟨msg, success⟩

/-- One optional attribute of a type the codec has no case for fails the fence. -/
theorem fence_attribute_refused :
    (optionalInfo (.other 27 (fun t => by cases t <;> decide))).tolerable = true ∧
    @fenceServerCb .verbatim [sampleProc] [optionalInfo (.other 27 (fun t => by cases t <;> decide))] [] 1 0 =
      .ok (pmixError, none) :=
  ⟨by decide, rfl⟩

end FluxPmix

import FluxPmix.Dmodex
import FluxPmix.Notify

/-! What the callbacks for a direct modex and for an event pack on the server thread, and what the shell
thread makes of it. -/
namespace FluxPmix
open Locals

section
variable [CFloat]

def dmodexUpcallPack (proc : PmixProc) (info : List PmixInfo) (cbfunc cbdata : UInt64) :
    Except Fault InterthreadMsg := do
  let xproc ← codecProcEncode proc
  let xinfo ← codecInfoArrayEncode info
  interthreadSendPack "dmodex_upcall" [("proc", .O xproc), ("info", .O xinfo),
    ("cbfunc", .O (codecPointerEncode cbfunc)), ("cbdata", .O (codecPointerEncode cbdata))]

def dmodexServerCb (proc : PmixProc) (info : List PmixInfo) (cbfunc cbdata : UInt64) :
    Except Fault (Int32 × Option InterthreadMsg) :=
  upcallStatus (dmodexUpcallPack proc info cbfunc cbdata)

/-- The registration id is a `size_t` passed where the format has an `int`, which sees its low half. -/
def notifyUpcallPack (evhdlrRegistrationId : UInt64) (status : Int32) (source : PmixProc)
    (info results : List PmixInfo) (cbfunc cbdata : UInt64) : Except Fault InterthreadMsg := do
  let xsource ← codecProcEncode source
  let xinfo ← codecInfoArrayEncode info
  let xresults ← codecInfoArrayEncode results
  interthreadSendPack "notify_upcall" [("id", .i evhdlrRegistrationId.toUInt32.toInt32), ("status", .i status),
    ("source", .O xsource), ("info", .O xinfo), ("results", .O xresults),
    ("cbfunc", .O (codecPointerEncode cbfunc)), ("cbdata", .O (codecPointerEncode cbdata))]

/-- An event that cannot be packed is only reported on stderr. -/
def notifyServerCb (evhdlrRegistrationId : UInt64) (status : Int32) (source : PmixProc)
    (info results : List PmixInfo) (cbfunc cbdata : UInt64) : Except Fault (Option InterthreadMsg) := do
  let (_, msg) ← upcallStatus (notifyUpcallPack evhdlrRegistrationId status source info results cbfunc cbdata)
  return msg

variable {proc source : PmixProc} {info results : List PmixInfo} {cbfunc cbdata id : UInt64} {status : Int32}
  {sent : InterthreadMsg}

theorem codecInfos_decode (timeless : ∀ i ∈ info, i.value.type ≠ PmixType.timeval.code)
    (encoded : codecInfoArrayEncode info = .ok o) : codecInfoArrayDecode o = .ok info :=
  (encodeArray_roundtrip (fun _ _ => codecInfo_roundtrip) encoded).mpr timeless

/-! ### Direct modex -/

theorem dmodexUpcallPack_ok : dmodexUpcallPack proc info cbfunc cbdata = .ok sent ↔
    ∃ xproc xinfo, codecProcEncode proc = .ok xproc ∧ codecInfoArrayEncode info = .ok xinfo ∧
      sent = ⟨"dmodex_upcall", .object [("proc", xproc), ("info", xinfo), ("cbfunc", codecPointerEncode cbfunc),
        ("cbdata", codecPointerEncode cbdata)]⟩ := by
  have packed (xproc xinfo : Json) := interthreadSendPack_values "dmodex_upcall" [("proc", xproc), ("info", xinfo),
    ("cbfunc", codecPointerEncode cbfunc), ("cbdata", codecPointerEncode cbdata)]
  simp only [List.map_cons, List.map_nil] at packed
  simp only [dmodexUpcallPack, bind_ok, packed, Except.ok.injEq]
  constructor
  · rintro ⟨xproc, procEncoded, xinfo, infoEncoded, rfl⟩
    exact ⟨xproc, xinfo, procEncoded, infoEncoded, rfl⟩
  · rintro ⟨xproc, xinfo, procEncoded, infoEncoded, rfl⟩
    exact ⟨xproc, procEncoded, xinfo, infoEncoded, rfl⟩

/-- The shell thread unpacks what was asked for, and whom to answer. -/
theorem dmodexUnpack_pack (timeless : ∀ i ∈ info, i.value.type ≠ PmixType.timeval.code)
    (packed : dmodexUpcallPack proc info cbfunc cbdata = .ok sent) :
    dmodexUnpack false sent.payload = .ok (proc, cbfunc, cbdata) := by
  obtain ⟨xproc, xinfo, procEncoded, infoEncoded, rfl⟩ := dmodexUpcallPack_ok.mp packed
  simp [dmodexUnpack, codecProcDecode_encode procEncoded, codecInfos_decode timeless infoEncoded]

/-! ### Events -/

theorem notifyUpcallPack_ok : notifyUpcallPack id status source info results cbfunc cbdata = .ok sent ↔
    ∃ xsource xinfo xresults, codecProcEncode source = .ok xsource ∧ codecInfoArrayEncode info = .ok xinfo ∧
      codecInfoArrayEncode results = .ok xresults ∧
      sent = ⟨"notify_upcall", .object [("id", .integer id.toUInt32.toInt32.toInt64),
        ("status", .integer status.toInt64), ("source", xsource), ("info", xinfo), ("results", xresults),
        ("cbfunc", codecPointerEncode cbfunc), ("cbdata", codecPointerEncode cbdata)]⟩ := by
  simp only [notifyUpcallPack, interthreadSendPack, bind_ok, pure_ok, jsonPack_ok, PackItem.packable,
    PackItem.value, List.all_cons, List.all_nil, Bool.and_true, List.map_cons, List.map_nil]
  constructor
  · rintro ⟨xsource, sourceEncoded, xinfo, infoEncoded, xresults, resultsEncoded, payload, ⟨_, rfl⟩, rfl⟩
    exact ⟨xsource, xinfo, xresults, sourceEncoded, infoEncoded, resultsEncoded, rfl⟩
  · rintro ⟨xsource, xinfo, xresults, sourceEncoded, infoEncoded, resultsEncoded, rfl⟩
    exact ⟨xsource, sourceEncoded, xinfo, infoEncoded, xresults, resultsEncoded, _, ⟨trivial, rfl⟩, rfl⟩

theorem notifyDecode_pack (timeless : ∀ i ∈ info ++ results, i.value.type ≠ PmixType.timeval.code)
    (packed : notifyUpcallPack id status source info results cbfunc cbdata = .ok sent) :
    (notifyDecode false false sent.payload).result = .ok (status, source, info) := by
  obtain ⟨xsource, xinfo, xresults, sourceEncoded, infoEncoded, resultsEncoded, rfl⟩ := notifyUpcallPack_ok.mp packed
  obtain ⟨infoTimeless, resultsTimeless⟩ := List.forall_mem_append.mp timeless
  simp [notifyDecode, bind_result, attempt, allocating, codecProcDecode_encode sourceEncoded,
    codecInfos_decode infoTimeless infoEncoded, codecInfos_decode resultsTimeless resultsEncoded]

/-- The last message text among the infos is the one that is logged. -/
def notifyMessage (info : List PmixInfo) : Option CString := (info.filterMap notifyText).getLast?.join

omit [CFloat] in
theorem notifyLoop_ok (counted : i + info.length ≤ intMax) (message : Option CString) :
    (notifyLoop i info message).result = .ok ((info.filterMap notifyText).getLast?.getD message) := by
  induction info generalizing i message with
  | nil => rfl
  | cons first rest ih =>
    rw [List.length_cons] at counted
    have below : i ≠ intMax := by omega
    have others := ih (i := i + 1) (by omega) ((notifyText first).getD message)
    simp only [notifyLoop, bind_result, attempt, ok_bind, below, if_false, others]
    cases text : notifyText first with
    | none => rw [List.filterMap_cons_none text, Option.getD_none]
    | some found =>
      rw [List.filterMap_cons_some text, List.getLast?_cons, Option.getD_some, Option.getD_some]

/-- An event that was packed is logged with its source, its status and its last message. -/
theorem notifyShellCb_pack (timeless : ∀ i ∈ info ++ results, i.value.type ≠ PmixType.timeval.code)
    (packed : notifyUpcallPack id status source info results cbfunc cbdata = .ok sent)
    (counted : info.length ≤ intMax) : (notifyShellCb false false sent.payload).result =
      .ok (some ⟨source.nspace.bytes, source.rank.toInt32, status, notifyMessage info⟩) := by
  have loop : (notifyLoop 0 info none).result = .ok ((info.filterMap notifyText).getLast?.getD none) :=
    notifyLoop_ok (by omega) none
  have joined : (info.filterMap notifyText).getLast?.getD none = notifyMessage info := by
    rw [notifyMessage]
    cases (info.filterMap notifyText).getLast? <;> rfl
  have warned : (notifyWarn status source info).result =
      .ok ⟨source.nspace.bytes, source.rank.toInt32, status, notifyMessage info⟩ := by
    simp only [notifyWarn, bind_result, attempt, ok_bind, loop, joined]
  rw [notifyShellCb, Path.finish, bind_result, notifyDecode_pack timeless packed, ok_bind]
  simp only [warned]

end
end FluxPmix

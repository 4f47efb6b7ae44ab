import FluxPmix.Upcall

/-! `PMIx_Abort` from the server's callback to the exception on the shell thread. The message and
every nspace must be UTF-8 to be packed at all, so some aborts end on the server thread. -/
namespace FluxPmix

/-- The arguments of `"%s.%d called PMIx_Abort (status=%d): %s"`. -/
structure AbortNote where
  nspace : List UInt8
  rank : Int32
  status : Int32
  message : List UInt8

/-- `undefined` includes freeing the `procs` that were never assigned. -/
inductive AbortEffect where
  | raise (type : String) (severity : Nat) (note : AbortNote)
  | cbfunc (cbfunc : UInt64) (status : Int32) (cbdata : UInt64)
  | dropped
  | free (procs : List PmixProc)
  | undefined

/-- The unpacking up to the point where `procs` is assigned, and what is left to decode. -/
def abortUpcallUnpack (msg : Json) :
    Except Fault (PmixProc × Int32 × CString × List PmixProc × Json × Json) := do
  let (xproc, xserverObject, status, message, xprocs, xcbfunc, xcbdata, ()) ←
    jsonUnpack msg [.o, .o, .i, .s, .o, .o, .o]
      (keyed ["proc", "server_object", "status", "msg", "procs", "cbfunc", "cbdata"])
  let proc ← codecProcDecode xproc
  let _ ← codecPointerDecode xserverObject
  let procs ← codecProcArrayDecode xprocs
  return (proc, status, cString message, procs, xcbfunc, xcbdata)

def abortPointers (xcbfunc xcbdata : Json) : Except Fault (UInt64 × UInt64) := do
  let cbfunc ← codecPointerDecode xcbfunc
  let cbdata ← codecPointerDecode xcbdata
  return (cbfunc, cbdata)

def abortShellCb (msg : Json) : List AbortEffect :=
  match abortUpcallUnpack msg with
  | .error _ => [.undefined]
  | .ok (proc, status, message, procs, xcbfunc, xcbdata) =>
    match abortPointers xcbfunc xcbdata with
    | .error _ => [.dropped, .free procs]
    | .ok (cbfunc, cbdata) =>
      .raise "exec" 0 ⟨proc.nspace.bytes, proc.rank.toInt32, status, message.bytes⟩ ::
        (if cbfunc ≠ 0 then [.cbfunc cbfunc pmixSuccess cbdata] else []) ++ [.free procs]

/-- `msg ? msg : "(no message)"`. -/
def abortMessage (msg : Option CString) : List UInt8 :=
  (msg.map CString.bytes).getD (literal "(no message)")

def abortUpcallPack (proc : PmixProc) (serverObject : UInt64) (status : Int32) (msg : Option CString)
    (procs : List PmixProc) (cbfunc cbdata : UInt64) : Except Fault InterthreadMsg := do
  let xproc ← codecProcEncode proc
  let xprocs ← codecProcArrayEncode procs
  interthreadSendPack "abort_upcall" [("proc", .O xproc),
    ("server_object", .O (codecPointerEncode serverObject)), ("status", .i status),
    ("msg", .s (abortMessage msg)), ("procs", .O xprocs), ("cbfunc", .O (codecPointerEncode cbfunc)),
    ("cbdata", .O (codecPointerEncode cbdata))]

def abortServerCb (proc : PmixProc) (serverObject : UInt64) (status : Int32) (msg : Option CString)
    (procs : List PmixProc) (cbfunc cbdata : UInt64) : Except Fault (Int32 × Option InterthreadMsg) :=
  upcallStatus (abortUpcallPack proc serverObject status msg procs cbfunc cbdata)

/-- The server callback succeeds, and its message raises one fatal exception that names the
caller and its status and then releases the caller once. -/
def AbortReachesJob (proc : PmixProc) (serverObject : UInt64) (status : Int32) (msg : Option CString)
    (procs : List PmixProc) (cbfunc cbdata : UInt64) : Prop :=
  ∃ sent, abortServerCb proc serverObject status msg procs cbfunc cbdata = .ok (pmixSuccess, some sent) ∧
    ∃ note : AbortNote, abortShellCb sent.payload = .raise "exec" 0 note ::
        (if cbfunc ≠ 0 then [.cbfunc cbfunc pmixSuccess cbdata] else []) ++ [.free procs] ∧
      note.nspace = proc.nspace.bytes ∧ note.rank.toInt = proc.rank.toNat ∧ note.status = status

variable {proc : PmixProc} {serverObject cbfunc cbdata : UInt64} {status : Int32} {msg : Option CString}
  {procs : List PmixProc}

theorem abortUpcallPack_ok : abortUpcallPack proc serverObject status msg procs cbfunc cbdata = .ok sent ↔
    utf8Check (abortMessage msg) = true ∧ ∃ xproc xprocs, codecProcEncode proc = .ok xproc ∧
      codecProcArrayEncode procs = .ok xprocs ∧
      sent = ⟨"abort_upcall", .object [("proc", xproc), ("server_object", codecPointerEncode serverObject),
        ("status", .integer status.toInt64), ("msg", .string (abortMessage msg)), ("procs", xprocs),
        ("cbfunc", codecPointerEncode cbfunc), ("cbdata", codecPointerEncode cbdata)]⟩ := by
  simp only [abortUpcallPack, interthreadSendPack, bind_ok, pure_ok, jsonPack_ok, PackItem.packable,
    PackItem.value, List.all_cons, List.all_nil, Bool.and_true, Bool.true_and, List.map_cons, List.map_nil]
  constructor
  · rintro ⟨xproc, procEncoded, xprocs, procsEncoded, payload, ⟨valid, rfl⟩, rfl⟩
    exact ⟨valid, xproc, xprocs, procEncoded, procsEncoded, rfl⟩
  · rintro ⟨valid, xproc, xprocs, procEncoded, procsEncoded, rfl⟩
    exact ⟨xproc, procEncoded, xprocs, procsEncoded, _, ⟨valid, rfl⟩, rfl⟩

theorem abortMessage_cString (msg : Option CString) : (cString (abortMessage msg)).bytes = abortMessage msg := by
  cases msg with
  | none => rfl
  | some text => exact congrArg CString.bytes (cString_bytes text)

/-- Without a message the default is packed, which is ASCII. -/
theorem abortMessage_valid : utf8Check (abortMessage msg) = true ↔
    ∀ text, msg = some text → utf8Check text.bytes = true := by
  cases msg with
  | none =>
    constructor
    · intro _ text given
      cases given
    · intro _
      decide
  | some text => simp [abortMessage]

/-- The shell thread does with a packed abort what it should, with the rank as an `int`. -/
theorem abortShellCb_pack (packed : abortUpcallPack proc serverObject status msg procs cbfunc cbdata = .ok sent) :
    abortShellCb sent.payload =
      .raise "exec" 0 ⟨proc.nspace.bytes, proc.rank.toInt32, status, abortMessage msg⟩ ::
        (if cbfunc ≠ 0 then [.cbfunc cbfunc pmixSuccess cbdata] else []) ++ [.free procs] := by
  obtain ⟨_, xproc, xprocs, procEncoded, procsEncoded, rfl⟩ := abortUpcallPack_ok.mp packed
  simp [abortShellCb, abortUpcallUnpack, abortPointers, codecProcDecode_encode procEncoded,
    codecProcArray_roundtrip procsEncoded, abortMessage_cString]

/-- `%d` prints a rank as it is only up to `INT_MAX`. -/
theorem rank_printed (rank : UInt32) : rank.toInt32.toInt = rank.toNat ↔ rank.toNat < 2 ^ 31 := by
  have bits : rank.toInt32.toInt = rank.toBitVec.toInt := rfl
  have bound := rank.toNat_lt
  rw [bits, BitVec.toInt_eq_toNat_cond, UInt32.toNat_toBitVec]
  split <;> omega

/-- An abort reaches the job exactly when its message and all nspaces are UTF-8, an `int` can
count the procs, and the caller's rank is one that `%d` prints. -/
theorem abort_reaches_job (proc : PmixProc) (serverObject : UInt64) (status : Int32) (msg : Option CString)
    (procs : List PmixProc) (cbfunc cbdata : UInt64) (valid : utf8Check proc.nspace.bytes = true) :
    AbortReachesJob proc serverObject status msg procs cbfunc cbdata ↔
      (∀ text, msg = some text → utf8Check text.bytes = true) ∧
      (∀ p ∈ procs, utf8Check p.nspace.bytes = true) ∧ procs.length ≤ intMax ∧ proc.rank.toNat < 2 ^ 31 := by
  rw [← abortMessage_valid, ← rank_printed]
  constructor
  · rintro ⟨sent, success, note, raised, _, named, _⟩
    have packed := upcallStatus_ok.mp success
    obtain ⟨text, _, xprocs, _, procsEncoded, _⟩ := abortUpcallPack_ok.mp packed
    obtain ⟨nspaces, counted⟩ := codecProcArrayEncode_valid.mp ⟨xprocs, procsEncoded⟩
    rw [abortShellCb_pack packed] at raised
    obtain ⟨_, _, rfl⟩ := AbortEffect.raise.inj (List.cons.inj raised).1
    exact ⟨text, nspaces, counted, named⟩
  · rintro ⟨text, nspaces, counted, printed⟩
    obtain ⟨xproc, procEncoded⟩ := codecProcEncode_valid.mpr valid
    obtain ⟨xprocs, procsEncoded⟩ := codecProcArrayEncode_valid.mpr ⟨nspaces, counted⟩
    obtain ⟨sent, packed⟩ :
        ∃ sent, abortUpcallPack proc serverObject status msg procs cbfunc cbdata = .ok sent :=
      ⟨_, abortUpcallPack_ok.mpr ⟨text, xproc, xprocs, procEncoded, procsEncoded, rfl⟩⟩
    exact ⟨sent, upcallStatus_ok.mpr packed, _, abortShellCb_pack packed, rfl, printed, rfl⟩

/-- Rank 0 of a job named "a". -/
def abortingProc : PmixProc := ⟨⟨literal "a", by decide, by decide⟩, 0⟩

theorem abort_reaches_job_sample : AbortReachesJob abortingProc 0 42 (some (cString (literal "bye"))) [] 1 7 := by
  apply (abort_reaches_job abortingProc 0 42 (some (cString (literal "bye"))) [] 1 7 (by decide)).mpr
  refine ⟨?_, nofun, Nat.zero_le _, by decide⟩
  rintro text ⟨rfl⟩
  decide

/-- A message of one Latin-1 letter fails on the server thread, and the job runs on. -/
theorem abort_message_refused :
    abortServerCb abortingProc 0 42 (some (cString [0xe9])) [] 1 7 = .ok (pmixError, none) ∧
    ¬ AbortReachesJob abortingProc 0 42 (some (cString [0xe9])) [] 1 7 := by
  have refused : abortServerCb abortingProc 0 42 (some (cString [0xe9])) [] 1 7 = .ok (pmixError, none) := rfl
  constructor
  · exact refused
  · rintro ⟨sent, success, _⟩
    cases refused.symm.trans success

end FluxPmix

import FluxPmix.Abort
import FluxPmix.Notify

/-! What the handlers of upcalls release. `abort_shell_cb` frees `procs` on every path, and sets it
only where it decodes. -/
namespace FluxPmix
open Locals

inductive AbortVar where
  | xproc | xserverObject | xprocs | xcbfunc | xcbdata | proc | serverObject | status | procs | nprocs
  | message | cbfunc | cbdata
  deriving DecidableEq, Repr

abbrev abortFormat : List Conv := [.o, .o, .i, .s, .o, .o, .o]

abbrev abortKeys : List String := ["proc", "server_object", "status", "msg", "procs", "cbfunc", "cbdata"]

/-- The body of `abort_shell_cb` before `free (procs)`, and what it does for the job. -/
def abortBody (procsFail : Bool) (msg : Json) : Path AbortVar Fault (List AbortEffect) := do
  let (xproc, xserverObject, status, message, xprocs, xcbfunc, xcbdata, ()) ←
    attempt [] (jsonUnpack msg abortFormat (keyed abortKeys))
      [.assign .xproc, .assign .xserverObject, .assign .status, .assign .message, .assign .xprocs,
        .assign .xcbfunc, .assign .xcbdata]
  let proc ← attempt [.xproc] (codecProcDecode xproc) [.assign .proc]
  let _ ← attempt [.xserverObject] (codecPointerDecode xserverObject) [.assign .serverObject]
  let _ ← attempt [.xprocs] (allocating procsFail (codecProcArrayDecode xprocs)) [.acquire .procs, .assign .nprocs]
  let cbfunc ← attempt [.xcbfunc] (codecPointerDecode xcbfunc) [.assign .cbfunc]
  let cbdata ← attempt [.xcbdata] (codecPointerDecode xcbdata) [.assign .cbdata]
  let raise ← attempt [.proc, .status, .message]
    (.ok (.raise "exec" 0 ⟨proc.nspace.bytes, proc.rank.toInt32, status, (cString message).bytes⟩)) []
  attempt [.cbfunc] (.ok ()) []
  if cbfunc ≠ 0 then
    attempt [.cbfunc, .cbdata] (.ok [raise, .cbfunc cbfunc pmixSuccess cbdata]) []
  else
    return [raise]

/-- No initial values, and the same cleanup on success and on failure. -/
def abortAccesses (procsFail : Bool) (msg : Json) : Path AbortVar Fault (Option (List AbortEffect)) :=
  (abortBody procsFail msg).finish Fault.halts [] [.release .procs]

/-! ### The payload -/

def procsDecode : Json → Bool
  | .array entries => entries.all DataKind.proc.admits
  | _ => false

/-- The unpacking gets past `procs`. -/
def abortAcquires (procsFail : Bool) (msg : Json) : Bool :=
  msg.has abortFormat abortKeys && (DataKind.proc.admits (msg.member "proc") &&
    (isInteger (msg.member "server_object") && (!procsFail && procsDecode (msg.member "procs"))))

theorem codecProcArrayDecode_ok (o : Json) :
    (∃ procs, codecProcArrayDecode o = .ok procs) ↔ procsDecode o = true := by
  have each (o : Json) : (∃ proc, codecProcDecode o = .ok proc) ↔ (!DataKind.proc.admits o) = false := by
    rw [codecProcDecode_admits, Bool.not_eq_false']
  cases o with
  | array entries =>
    apply (decodeEntries_ok each entries).trans
    simp [procsDecode]
  | _ => simp [codecProcArrayDecode, decodeArray, procsDecode]

theorem codecProcArrayDecode_defined (o : Json) : codecProcArrayDecode o ≠ .error .undefined := by
  cases o with
  | array entries =>
    induction entries with
    | nil => exact ok_defined []
    | cons entry rest ih =>
      apply bind_defined (codecProcDecode_defined entry)
      intro proc _
      apply bind_defined ih
      intro procs _
      exact ok_defined _
  | _ => exact error_defined

theorem abortUnpack_members {outs : Outputs abortFormat}
    (unpacked : jsonUnpack msg abortFormat (keyed abortKeys) = .ok outs) :
    ∃ status message, outs = (msg.member "proc", msg.member "server_object", status, message,
      msg.member "procs", msg.member "cbfunc", msg.member "cbdata", ()) := by
  obtain ⟨xproc, xserverObject, status, message, xprocs, xcbfunc, xcbdata, ⟨⟩⟩ := outs
  rw [keyed_cons, jsonUnpack_members] at unpacked
  obtain ⟨rfl, unpacked⟩ := unpackMembers_o unpacked
  obtain ⟨rfl, unpacked⟩ := unpackMembers_o unpacked
  obtain ⟨_, _, _, unpacked⟩ := unpackMembers_ok.mp unpacked
  obtain ⟨_, _, _, unpacked⟩ := unpackMembers_ok.mp unpacked
  obtain ⟨rfl, unpacked⟩ := unpackMembers_o unpacked
  obtain ⟨rfl, unpacked⟩ := unpackMembers_o unpacked
  obtain ⟨rfl, _⟩ := unpackMembers_o unpacked
  exact ⟨status, message, rfl⟩

/-! ### The trace -/

/-- All accesses of an abort that calls back. -/
def abortTrace : List (Access AbortVar) :=
  [.assign .xproc, .assign .xserverObject, .assign .status, .assign .message, .assign .xprocs,
    .assign .xcbfunc, .assign .xcbdata, .use .xproc, .assign .proc, .use .xserverObject,
    .assign .serverObject, .use .xprocs, .acquire .procs, .assign .nprocs, .use .xcbfunc, .assign .cbfunc,
    .use .xcbdata, .assign .cbdata, .use .proc, .use .status, .use .message, .use .cbfunc, .use .cbfunc,
    .use .cbdata]

theorem abortBody_front (procsFail : Bool) (msg : Json) : (abortBody procsFail msg).trace <+: abortTrace := by
  refine attempt_front _ _ _ fun _ => ?_
  refine attempt_front _ _ _ fun _ => ?_
  refine attempt_front _ _ _ fun _ => ?_
  refine attempt_front _ _ _ fun _ => ?_
  refine attempt_front _ _ _ fun cbfunc => ?_
  refine attempt_front _ _ _ fun _ => ?_
  refine attempt_front _ _ _ fun _ => ?_
  refine attempt_front _ _ _ fun _ => ?_
  split
  · exact List.prefix_rfl
  · exact List.nil_prefix

theorem abortBody_defined (procsFail : Bool) (msg : Json) :
    (abortBody procsFail msg).result ≠ .error .undefined := by
  simp only [abortBody, bind_result, attempt, ok_bind]
  apply bind_defined (jsonUnpack_defined msg rfl)
  intro _ _
  apply bind_defined (codecProcDecode_defined _)
  intro _ _
  apply bind_defined (codecPointerDecode_defined _)
  intro _ _
  apply bind_defined (allocating_defined (codecProcArrayDecode_defined _))
  intro _ _
  apply bind_defined (codecPointerDecode_defined _)
  intro _ _
  apply bind_defined (codecPointerDecode_defined _)
  intro _ _
  split
  · exact ok_defined _
  · exact ok_defined _

theorem abortBody_acquires (procsFail : Bool) (msg : Json) :
    AbortVar.procs ∈ (abortBody procsFail msg).trace.flatMap Access.sets ↔
      abortAcquires procsFail msg = true := by
  simp only [abortAcquires, Bool.and_eq_true (msg.has _ _), Bool.and_eq_true (DataKind.admits _ _),
    Bool.and_eq_true (isInteger _)]
  apply attempt_sets_later (by decide) (jsonUnpack_has msg rfl)
  intro outs unpacked
  obtain ⟨status, message, rfl⟩ := abortUnpack_members unpacked
  apply attempt_sets_later (by decide) (codecProcDecode_admits _)
  intro _ _
  apply attempt_sets_later (by decide) (codecPointerDecode_ok _)
  intro _ _
  exact attempt_sets_here (by decide) (allocating_accepts (codecProcArrayDecode_ok _))

theorem abort_cleans_up (procsFail : Bool) (msg : Json) :
    CleansUp (abortAccesses procsFail msg) ↔ abortAcquires procsFail msg = true := by
  have whole : Orderly abortTrace [.release .procs] := by constructor <;> decide
  have orderly : Orderly ([] ++ (abortBody procsFail msg).trace) [.release .procs] :=
    whole.of_front (abortBody_front procsFail msg)
  rw [abortAccesses, Path.finish_cleansUp orderly, ← abortBody_acquires]
  constructor
  · rintro ⟨_, passed⟩
    exact passed _ List.mem_cons_self List.mem_cons_self
  · intro acquired
    refine ⟨Fault.halts_defined (abortBody_defined procsFail msg), ?_⟩
    intro e member
    rw [List.mem_singleton.mp member]
    exact List.cons_subset.mpr ⟨acquired, List.nil_subset _⟩

/-- What an abort does for the job before it frees `procs`. -/
theorem abortShellCb_effects (ended : (abortBody false msg).result = .ok effects) :
    ∃ procs, abortShellCb msg = effects ++ [.free procs] := by
  simp only [abortBody, bind_result, attempt, ok_bind] at ended
  obtain ⟨outs, unpacked, ended⟩ := bind_ok.mp ended
  obtain ⟨proc, procDecoded, ended⟩ := bind_ok.mp ended
  obtain ⟨object, objectDecoded, ended⟩ := bind_ok.mp ended
  obtain ⟨procs, procsDecoded, ended⟩ := bind_ok.mp ended
  obtain ⟨cbfunc, cbfuncDecoded, ended⟩ := bind_ok.mp ended
  obtain ⟨cbdata, cbdataDecoded, ended⟩ := bind_ok.mp ended
  have reached : abortUpcallUnpack msg = .ok (proc, outs.2.2.1, cString outs.2.2.2.1, procs,
      outs.2.2.2.2.2.1, outs.2.2.2.2.2.2.1) := by
    simp only [abortUpcallUnpack, unpacked, ok_bind, procDecoded, objectDecoded, allocating_ok procsDecoded]
    rfl
  have pointers : abortPointers outs.2.2.2.2.2.1 outs.2.2.2.2.2.2.1 = .ok (cbfunc, cbdata) := by
    simp only [abortPointers, cbfuncDecoded, cbdataDecoded, ok_bind]
    rfl
  refine ⟨procs, ?_⟩
  simp only [abortShellCb, reached, pointers]
  split at ended
  · cases ended
    simp [*]
  · cases ended
    simp [*]

theorem abortUpcallUnpack_ok (msg : Json) :
    (∃ outs, abortUpcallUnpack msg = .ok outs) ↔ abortAcquires false msg = true := by
  simp only [abortAcquires, Bool.and_eq_true, Bool.not_false, true_and]
  apply bind_accepts (jsonUnpack_has msg rfl)
  intro outs unpacked
  obtain ⟨status, message, rfl⟩ := abortUnpack_members unpacked
  apply bind_accepts (codecProcDecode_admits _)
  intro _ _
  apply bind_accepts (codecPointerDecode_ok _)
  intro _ _
  rw [← codecProcArrayDecode_ok]
  constructor
  · rintro ⟨outs, unpacked⟩
    obtain ⟨procs, decoded, _⟩ := bind_ok.mp unpacked
    exact ⟨procs, decoded⟩
  · rintro ⟨procs, decoded⟩
    exact ⟨_, bind_ok.mpr ⟨procs, decoded, rfl⟩⟩

/-- `abortShellCb` is undefined exactly where the cleanup is not in order. -/
theorem abortShellCb_undefined (msg : Json) :
    abortShellCb msg = [.undefined] ↔ ¬ CleansUp (abortAccesses false msg) := by
  rw [abort_cleans_up, ← abortUpcallUnpack_ok, abortShellCb]
  cases unpacked : abortUpcallUnpack msg with
  | error fault => simp
  | ok outs =>
    obtain ⟨proc, status, message, procs, xcbfunc, xcbdata⟩ := outs
    cases pointers : abortPointers xcbfunc xcbdata <;> simp [pointers]

variable [CFloat]

/-- The cleanup of an abort is right exactly from `procs` on; that of a notification always, up to
the undefined behaviour of its decoders and of a loop over more infos than an `int` counts. -/
theorem upcall_cleanup (procsFail infoFails resultsFails : Bool) (msg : Json) :
    (CleansUp (abortAccesses procsFail msg) ↔ abortAcquires procsFail msg = true) ∧
    (CleansUp (notifyShellCb infoFails resultsFails msg) ↔
      notifyUndefined infoFails resultsFails msg = false) :=
  ⟨abort_cleans_up procsFail msg, notify_cleans_up infoFails resultsFails msg⟩

/-- An event whose one info is typed as a string and holds an integer. -/
def unstringEvent : Json := .object [("id", .integer 0), ("status", .integer 0),
  ("source", .object [("nspace", .string []), ("rank", .integer 0)]),
  ("info", .array [infoEntry 3 (.integer 0)]), ("results", .array []), ("cbfunc", .integer 0),
  ("cbdata", .integer 0)]

omit [CFloat] in
/-- An abort without members frees `procs` as the stack left it. -/
theorem upcall_cleanup_uninitialised : ¬ CleansUp (abortAccesses false (.object [])) ∧
    ¬ CleansUp (@notifyShellCb .verbatim false false unstringEvent) := by
  constructor
  · rintro ⟨_, passed, _⟩
    exact absurd passed (by decide)
  · rintro ⟨⟨note, ended⟩, _⟩
    cases ended

end FluxPmix

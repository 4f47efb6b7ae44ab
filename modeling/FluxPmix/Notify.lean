import FluxPmix.CodecFormat
import FluxPmix.Locals
import FluxPmix.Upcall

/-! Event notifications on the shell thread, with what the handler does to its local variables.
The arrays are initialised, so every failure has something to clean up. -/
namespace FluxPmix
open Locals

inductive NotifyVar where
  | id | status | xsource | xinfo | xresults | xcbfunc | xcbdata | source | info | ninfo | results
  | nresults | cbfunc | cbdata | i | message
  deriving DecidableEq, Repr

/-- The arguments of `"notify source=%s.%d event-status=%d%s%s"`. -/
structure NotifyNote where
  nspace : List UInt8
  rank : Int32
  status : Int32
  message : Option CString

/-- A decoder that runs out of memory before it reads any further. -/
def allocating (fails : Bool) (decoded : Except Fault α) : Except Fault α :=
  if fails then .error .error else decoded

/-- After undefined behaviour nothing is known of the rest of the function. -/
def Fault.halts : Fault → Bool
  | .error => false
  | .undefined => true

theorem Fault.halts_defined {outcome : Except Fault α} (defined : outcome ≠ .error .undefined) :
    ∀ fault, outcome = .error fault → fault.halts = false := by
  intro fault failed
  cases fault with
  | error => rfl
  | undefined => exact absurd failed defined

def pmixEventTextMessage : List UInt8 := literal "pmix.evtext"

/-- The string an info has for the log, where it is one that is looked for. -/
def notifyText (info : PmixInfo) : Option (Option CString) :=
  match info.value with
  | .string string => if info.key.bytes = pmixEventTextMessage then some string else none
  | _ => none

/-- `for (i = 0; i < ninfo; i++)` with an `int i`. -/
def notifyLoop : (i : Nat) → List PmixInfo → Option CString → Path NotifyVar Fault (Option CString)
  | _, [], message => attempt [.i, .ninfo] (.ok message) []
  | i, info :: rest, message => do
    let message ← attempt [.i, .ninfo, .info] (.ok ((notifyText info).getD message))
      (if (notifyText info).isSome then [.assign .message] else [])
    attempt [.i] (if i = intMax then .error .undefined else .ok ()) [.assign .i]
    notifyLoop (i + 1) rest message

variable [CFloat]

abbrev notifyFormat : List Conv := [.i, .i, .o, .o, .o, .o, .o]

abbrev notifyKeys : List String := ["id", "status", "source", "info", "results", "cbfunc", "cbdata"]

def notifyDecode (infoFails resultsFails : Bool) (msg : Json) :
    Path NotifyVar Fault (Int32 × PmixProc × List PmixInfo) := do
  let (_, status, xsource, xinfo, xresults, xcbfunc, xcbdata, ()) ←
    attempt [] (jsonUnpack msg notifyFormat (keyed notifyKeys))
      [.assign .id, .assign .status, .assign .xsource, .assign .xinfo, .assign .xresults, .assign .xcbfunc,
        .assign .xcbdata]
  let source ← attempt [.xsource] (codecProcDecode xsource) [.assign .source]
  let info ← attempt [.xinfo] (allocating infoFails (codecInfoArrayDecode xinfo))
    [.acquire .info, .assign .ninfo]
  let _ ← attempt [.xresults] (allocating resultsFails (codecInfoArrayDecode xresults))
    [.acquire .results, .assign .nresults]
  let _ ← attempt [.xcbfunc] (codecPointerDecode xcbfunc) [.assign .cbfunc]
  let _ ← attempt [.xcbdata] (codecPointerDecode xcbdata) [.assign .cbdata]
  return (status, source, info)

def notifyWarn (status : Int32) (source : PmixProc) (info : List PmixInfo) : Path NotifyVar Fault NotifyNote := do
  attempt [] (.ok ()) [.assign .i]
  let message ← notifyLoop 0 info none
  attempt [.source, .status, .message] (.ok ⟨source.nspace.bytes, source.rank.toInt32, status, message⟩) []

def notifySetup : List (Access NotifyVar) :=
  [.initialise .info, .initialise .ninfo, .initialise .results, .initialise .nresults, .assign .message]

/-- `codec_info_array_destroy` of both arrays. -/
def notifyCleanup : List (Access NotifyVar) := [.release .info, .pass .ninfo, .release .results, .pass .nresults]

/-- No note means that the message was not unpacked. -/
def notifyShellCb (infoFails resultsFails : Bool) (msg : Json) : Path NotifyVar Fault (Option NotifyNote) :=
  Path.finish Fault.halts notifySetup notifyCleanup (do
    let (status, source, info) ← notifyDecode infoFails resultsFails msg
    notifyWarn status source info)

/-! ### The payload -/

/-- What the decoder of an array gets through. -/
def infosDecode : Json → Bool
  | .array entries => (entries.find? infoStops).isNone
  | _ => false

/-- The first element it does not get past is one where its behaviour is undefined. -/
def infosUndefined : Json → Bool
  | .array entries => (entries.find? infoStops).any infoUndefined
  | _ => false

def isInteger : Json → Bool
  | .integer _ => true
  | _ => false

/-- A decoder whose behaviour is undefined is reached, or a loop over more infos than an `int` counts. -/
def notifyUndefined (infoFails resultsFails : Bool) (msg : Json) : Bool :=
  msg.has notifyFormat notifyKeys && DataKind.proc.admits (msg.member "source") && !infoFails &&
  (infosUndefined (msg.member "info") || infosDecode (msg.member "info") && !resultsFails &&
    (infosUndefined (msg.member "results") || infosDecode (msg.member "results") &&
      isInteger (msg.member "cbfunc") && isInteger (msg.member "cbdata") &&
      intMax < (msg.member "info").arrayElements.length))

theorem codecInfoArrayDecode_ok (o : Json) :
    (∃ infos, codecInfoArrayDecode o = .ok infos) ↔ infosDecode o = true := by
  cases o with
  | array entries =>
    rw [infosDecode, Option.isNone_iff_eq_none]
    exact decodeEntries_ok codecInfoDecode_ok entries
  | _ => simp [codecInfoArrayDecode, decodeArray, infosDecode]

theorem codecInfoArrayDecode_undefined (o : Json) :
    codecInfoArrayDecode o = .error .undefined ↔ infosUndefined o = true := by
  cases o with
  | array entries =>
    rw [infosUndefined]
    cases found : entries.find? infoStops with
    | none =>
      obtain ⟨infos, decoded⟩ := (decodeEntries_ok codecInfoDecode_ok entries).mpr found
      simp [codecInfoArrayDecode, decodeArray, decoded]
    | some first =>
      have stops : infoStops first = true := List.find?_some found
      rw [Option.any_some, ← codecInfoDecode_undefined]
      cases decoded : codecInfoDecode first with
      | ok info => simp [(codecInfoDecode_ok first).mp ⟨info, decoded⟩] at stops
      | error fault =>
        have failed := decodeEntries_fault codecInfoDecode_ok found decoded
        simp [codecInfoArrayDecode, decodeArray, failed]
  | _ => simp [codecInfoArrayDecode, decodeArray, infosUndefined]

theorem codecInfoArrayDecode_length (decoded : codecInfoArrayDecode o = .ok infos) :
    infos.length = o.arrayElements.length := by
  cases o with
  | array entries => exact decodeEntries_length decoded
  | _ => contradiction

omit [CFloat] in
theorem codecPointerDecode_ok (o : Json) : (∃ ptr, codecPointerDecode o = .ok ptr) ↔ isInteger o = true := by
  cases o <;> simp [codecPointerDecode, isInteger]

omit [CFloat] in
theorem codecPointerDecode_defined (o : Json) : codecPointerDecode o ≠ .error .undefined := by
  cases o <;> simp [codecPointerDecode]

omit [CFloat] in
theorem allocating_accepts {decoded : Except Fault α} (accepts : (∃ a, decoded = .ok a) ↔ A = true) :
    (∃ a, allocating fails decoded = .ok a) ↔ (!fails && A) = true := by
  cases fails <;> simp [allocating, accepts]

omit [CFloat] in
theorem allocating_undefined {decoded : Except Fault α} (undefined : decoded = .error .undefined ↔ U = true) :
    allocating fails decoded = .error .undefined ↔ (!fails && U) = true := by
  cases fails <;> simp [allocating, undefined]

omit [CFloat] in
theorem allocating_ok {decoded : Except Fault α} (allocated : allocating fails decoded = .ok a) :
    decoded = .ok a := by
  cases fails with
  | false => exact allocated
  | true => contradiction

omit [CFloat] in
theorem allocating_defined {decoded : Except Fault α} (defined : decoded ≠ .error .undefined) :
    allocating fails decoded ≠ .error .undefined := by
  cases fails with
  | false => exact defined
  | true => exact error_defined

/-! ### The trace -/

omit [CFloat] in
theorem notifyLoop_plain (i : Nat) (info : List PmixInfo) (message : Option CString) :
    ∀ e ∈ (notifyLoop i info message).trace, e.Plain [.i, .ninfo, .info] := by
  induction info generalizing i message with
  | nil => simp [notifyLoop, attempt, Access.Plain, Access.acquires, Access.passes, Access.uses]
  | cons first rest ih =>
    apply bind_forall
    · apply attempt_forall
      cases notifyText first <;> simp [Access.Plain, Access.acquires, Access.passes, Access.uses]
    · intro _
      apply bind_forall
      · apply attempt_forall
        simp [Access.Plain, Access.acquires, Access.passes, Access.uses]
      · intro _
        exact ih _ _

omit [CFloat] in
theorem notifyWarn_plain (status : Int32) (source : PmixProc) (info : List PmixInfo) :
    ∃ more, (notifyWarn status source info).trace = .assign .i :: more ∧
      ∀ e ∈ more, e.Plain [.i, .ninfo, .info, .source, .status, .message] := by
  refine ⟨_, rfl, ?_⟩
  apply bind_forall
  · intro e member
    exact (notifyLoop_plain 0 info none e member).mono (by decide)
  · intro message
    apply attempt_forall
    simp [Access.Plain, Access.acquires, Access.passes, Access.uses]

/-- The accesses of an unpacking that succeeds. -/
def notifyDecoded : List (Access NotifyVar) :=
  [.assign .id, .assign .status, .assign .xsource, .assign .xinfo, .assign .xresults, .assign .xcbfunc,
    .assign .xcbdata, .use .xsource, .assign .source, .use .xinfo, .acquire .info, .assign .ninfo,
    .use .xresults, .acquire .results, .assign .nresults, .use .xcbfunc, .assign .cbfunc, .use .xcbdata,
    .assign .cbdata]

theorem notifyDecode_follows (infoFails resultsFails : Bool) (msg : Json) :
    (notifyDecode infoFails resultsFails msg).Follows notifyDecoded := by
  refine attempt_follows _ _ _ fun _ => ?_
  refine attempt_follows _ _ _ fun _ => ?_
  refine attempt_follows _ _ _ fun _ => ?_
  refine attempt_follows _ _ _ fun _ => ?_
  refine attempt_follows _ _ _ fun _ => ?_
  refine attempt_follows _ _ _ fun _ => ?_
  exact pure_follows _

/-! ### Undefined behaviour -/

omit [CFloat] in
theorem notifyLoop_undefined (within : i ≤ intMax) (info : List PmixInfo) (message : Option CString) :
    (notifyLoop i info message).result = .error .undefined ↔ intMax < i + info.length := by
  induction info generalizing i message with
  | nil => simpa [notifyLoop, attempt] using within
  | cons first rest ih =>
    simp only [notifyLoop, bind_result, attempt, ok_bind]
    by_cases last : i = intMax
    · simp [last, bind_error]
    · have next := ih (i := i + 1) (by omega) ((notifyText first).getD message)
      simp only [last, if_false, ok_bind, next, List.length_cons]
      omega

omit [CFloat] in
theorem notifyWarn_undefined (status : Int32) (source : PmixProc) (info : List PmixInfo) :
    (notifyWarn status source info).result = .error .undefined ↔ intMax < info.length := by
  have loop := notifyLoop_undefined (Nat.zero_le intMax) info none
  rw [Nat.zero_add] at loop
  simp only [notifyWarn, bind_result, attempt, ok_bind, bind_error, loop, reduceCtorEq, and_false,
    exists_false, or_false]

omit [CFloat] in
theorem notifyUnpack_members {outs : Outputs notifyFormat}
    (unpacked : jsonUnpack msg notifyFormat (keyed notifyKeys) = .ok outs) :
    ∃ id status, outs = (id, status, msg.member "source", msg.member "info", msg.member "results",
      msg.member "cbfunc", msg.member "cbdata", ()) := by
  obtain ⟨id, status, source, info, results, cbfunc, cbdata, ⟨⟩⟩ := outs
  rw [keyed_cons, jsonUnpack_members] at unpacked
  obtain ⟨_, _, _, unpacked⟩ := unpackMembers_ok.mp unpacked
  obtain ⟨_, _, _, unpacked⟩ := unpackMembers_ok.mp unpacked
  obtain ⟨rfl, unpacked⟩ := unpackMembers_o unpacked
  obtain ⟨rfl, unpacked⟩ := unpackMembers_o unpacked
  obtain ⟨rfl, unpacked⟩ := unpackMembers_o unpacked
  obtain ⟨rfl, unpacked⟩ := unpackMembers_o unpacked
  obtain ⟨rfl, _⟩ := unpackMembers_o unpacked
  exact ⟨id, status, rfl⟩

omit [CFloat] in
/-- The condition, operand by operand. -/
theorem notifyUndefined_steps (infoFails resultsFails : Bool) (msg : Json) :
    notifyUndefined infoFails resultsFails msg = true ↔
      False ∨ msg.has notifyFormat notifyKeys = true ∧
      (False ∨ DataKind.proc.admits (msg.member "source") = true ∧
      ((!infoFails && infosUndefined (msg.member "info")) = true ∨
        (!infoFails && infosDecode (msg.member "info")) = true ∧
      ((!resultsFails && infosUndefined (msg.member "results")) = true ∨
        (!resultsFails && infosDecode (msg.member "results")) = true ∧
      (False ∨ isInteger (msg.member "cbfunc") = true ∧
      (False ∨ isInteger (msg.member "cbdata") = true ∧
      intMax < (msg.member "info").arrayElements.length))))) := by
  cases infoFails <;> cases resultsFails <;> simp [notifyUndefined, and_assoc]

theorem notifyBody_undefined (infoFails resultsFails : Bool) (msg : Json) :
    (do
      let (status, source, info) ← notifyDecode infoFails resultsFails msg
      notifyWarn status source info).result = .error .undefined ↔
      notifyUndefined infoFails resultsFails msg = true := by
  rw [notifyUndefined_steps]
  simp only [bind_result, notifyDecode, attempt, bind_assoc, pure_result, ok_bind]
  apply bind_undefined (iff_false_intro (jsonUnpack_defined msg rfl)) (jsonUnpack_has msg rfl)
  intro outs unpacked
  obtain ⟨id, status, rfl⟩ := notifyUnpack_members unpacked
  apply bind_undefined (iff_false_intro (codecProcDecode_defined _)) (codecProcDecode_admits _)
  intro source _
  apply bind_undefined (allocating_undefined (codecInfoArrayDecode_undefined _))
    (allocating_accepts (codecInfoArrayDecode_ok _))
  intro info decoded
  apply bind_undefined (allocating_undefined (codecInfoArrayDecode_undefined _))
    (allocating_accepts (codecInfoArrayDecode_ok _))
  intro _ _
  apply bind_undefined (iff_false_intro (codecPointerDecode_defined _)) (codecPointerDecode_ok _)
  intro _ _
  apply bind_undefined (iff_false_intro (codecPointerDecode_defined _)) (codecPointerDecode_ok _)
  intro _ _
  rw [notifyWarn_undefined, codecInfoArrayDecode_length (allocating_ok decoded)]

omit [CFloat] in
theorem notifyDecoded_orderly : Orderly (notifySetup ++ notifyDecoded) notifyCleanup := by
  constructor <;> decide

theorem notify_orderly (infoFails resultsFails : Bool) (msg : Json) : Orderly
    (notifySetup ++ (do
      let (status, source, info) ← notifyDecode infoFails resultsFails msg
      notifyWarn status source info).trace) notifyCleanup := by
  have follows := notifyDecode_follows infoFails resultsFails msg
  cases decoded : (notifyDecode infoFails resultsFails msg).result with
  | error fault =>
    rw [bind_trace_error decoded]
    exact notifyDecoded_orderly.of_front ((List.prefix_append_right_inj _).mpr follows.front)
  | ok outs =>
    obtain ⟨more, warned, plain⟩ := notifyWarn_plain outs.1 outs.2.1 outs.2.2
    rw [bind_trace_ok decoded, follows.whole _ decoded, warned, ← List.append_assoc]
    have started : Orderly (notifySetup ++ notifyDecoded ++ [.assign .i]) notifyCleanup := by
      constructor <;> decide
    rw [← List.singleton_append, ← List.append_assoc]
    apply started.extend
    intro e member
    exact (plain e member).mono (by decide)

/-- With its arrays initialised the handler cleans up unless its behaviour is undefined. -/
theorem notify_cleans_up (infoFails resultsFails : Bool) (msg : Json) :
    CleansUp (notifyShellCb infoFails resultsFails msg) ↔
      notifyUndefined infoFails resultsFails msg = false := by
  rw [notifyShellCb, Path.finish_cleansUp (notify_orderly infoFails resultsFails msg), ← Bool.not_eq_true,
    ← notifyBody_undefined]
  constructor
  · rintro ⟨ends, _⟩ undefined
    exact absurd (ends _ undefined) (by decide)
  · intro defined
    refine ⟨Fault.halts_defined defined, ?_⟩
    have initialised : ∀ e ∈ notifyCleanup, e.passes ⊆ notifySetup.flatMap Access.sets := by decide
    intro e member
    apply List.Subset.trans (initialised e member)
    rw [List.flatMap_append]
    exact List.subset_append_left _ _

end FluxPmix

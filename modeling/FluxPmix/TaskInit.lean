import FluxPmix.Blocks
import FluxPmix.Codec
import Mathlib.Logic.Function.Basic

/-! The environment of a task. What `PMIx_server_setup_fork` hands over is an array of strings, each in a block of
its own: they are set in the task's command one by one, and of the blocks only the array's is freed. -/
namespace FluxPmix.Owned
open Blocks

/-- A command's environment. -/
abbrev Environ := List UInt8 → Option (List UInt8)

def equals : UInt8 := 61

/-- A string is cut at its first `=`. Without one there is no value. -/
def cutName (text : CString) : List UInt8 := text.bytes.takeWhile (· != equals)

def cutValue (text : CString) : Option (List UInt8) := (text.bytes.dropWhile (· != equals)).tail?

/-- What a task's initialisation is given. `fork` is there if `PMIx_server_setup_fork` succeeds, with NULL or the
array; `refuses` are the names that `flux_cmd_setenvf` fails for. -/
structure TaskCalls where
  rank : Int32
  nspace : CString
  fork : Option (Option (Block × List (Block × CString)))
  refuses : List UInt8 → Bool
  registers : Bool

def TaskCalls.proc (calls : TaskCalls) : PmixProc := ⟨strlcpy pmixMaxNslen calls.nspace.bytes, calls.rank.toUInt32⟩

/-- The loop: whether it comes to the end, and the environment it leaves. A NULL must not be printed. -/
def setVariables (refuses : List UInt8 → Bool) : List CString → Environ → Except Fault (Bool × Environ)
  | [], environ => .ok (true, environ)
  | text :: rest, environ =>
    match cutValue text with
    | none => .error .undefined
    | some value =>
      if refuses (cutName text) then .ok (false, environ)
      else setVariables refuses rest (Function.update environ (cutName text) (some value))

def registerClient (registers : Bool) (proc : PmixProc) (environ : Environ) : Int32 × Environ × Option PmixProc :=
  if registers then (0, environ, some proc) else (-1, environ, none)

/-- The return value, the environment and the client that is registered. `none` is a handle that is missing. -/
def pxTaskInit (environ : Environ) : Option TaskCalls → Prog (Int32 × Environ × Option PmixProc)
  | none => return (-1, environ, none)
  | some calls =>
    match calls.fork with
    | none => return (-1, environ, none)
    | some none => return registerClient calls.registers calls.proc environ
    | some (some (env, strings)) =>
      match setVariables calls.refuses (strings.map Prod.snd) environ with
      | .error _ => undefined
      | .ok (false, environ) => return (-1, environ, none)
      | .ok (true, environ) => do
        free env
        return registerClient calls.registers calls.proc environ

/-! ### The loop -/

/-- Where `=` is in a text there is a value. -/
theorem cutValue_some {text : CString} (named : equals ∈ text.bytes) : ∃ value, cutValue text = some value := by
  have left : text.bytes.dropWhile (· != equals) ≠ [] := by
    intro none
    have apart := List.dropWhile_eq_nil_iff.mp none equals named
    simp at apart
  obtain ⟨b, value, cut⟩ := List.exists_cons_of_ne_nil left
  exact ⟨value, by rw [cutValue, cut]; rfl⟩

/-- The last text that has the name decides, and without one the environment before. -/
def assigned (texts : List CString) (environ : Environ) : Environ := fun name =>
  match texts.reverse.find? fun text => cutName text == name with
  | some text => cutValue text
  | none => environ name

theorem assigned_cons {text : CString} {value : List UInt8} (cut : cutValue text = some value) (rest : List CString)
    (environ : Environ) :
    assigned (text :: rest) environ = assigned rest (Function.update environ (cutName text) (some value)) := by
  funext name
  rw [assigned, assigned, List.reverse_cons, List.find?_append]
  cases rest.reverse.find? fun text => cutName text == name with
  | some last => rfl
  | none =>
    by_cases same : cutName text = name
    · subst same
      simp [cut]
    · rw [Function.update_of_ne (Ne.symm same)]
      simp [same]

/-- The texts before the first one with a name that is refused are set. -/
theorem setVariables_spec {refuses : List UInt8 → Bool} {texts : List CString} (environ : Environ)
    (named : ∀ text ∈ texts, equals ∈ text.bytes) : ∃ done more, texts = done ++ more ∧
      setVariables refuses texts environ = .ok (more.isEmpty, assigned done environ) ∧
      (∀ text ∈ done, refuses (cutName text) = false) ∧
      ∀ text, more.head? = some text → refuses (cutName text) = true := by
  induction texts generalizing environ with
  | nil => exact ⟨[], [], rfl, rfl, by simp, by simp⟩
  | cons text rest ih =>
    obtain ⟨first, others⟩ := List.forall_mem_cons.mp named
    obtain ⟨value, cut⟩ := cutValue_some first
    rw [setVariables, cut]
    by_cases refused : refuses (cutName text) = true
    · refine ⟨[], text :: rest, rfl, if_pos refused, by simp, ?_⟩
      rintro _ ⟨⟩
      exact refused
    · obtain ⟨done, more, rfl, ran, set, stopped⟩ :=
        ih (Function.update environ (cutName text) (some value)) others
      refine ⟨text :: done, more, rfl, ?_, ?_, stopped⟩
      · rw [assigned_cons cut, ← ran]
        exact if_neg refused
      · exact List.forall_mem_cons.mpr ⟨Bool.eq_false_iff.mpr refused, set⟩

/-! ### The whole -/

namespace TaskCalls
variable (calls : TaskCalls)

def texts : List CString := calls.fork.elim [] fun env => env.elim [] fun env => env.2.map Prod.snd

def strings : Multiset Block := calls.fork.elim 0 fun env => env.elim 0 fun env => env.2.map Prod.fst

def array : Multiset Block := calls.fork.elim 0 fun env => env.elim 0 fun env => {env.1}

end TaskCalls

/-- What a task's initialisation comes to: the texts that were set, the client, and the blocks that are left. -/
structure TaskInitialised (calls : TaskCalls) (environ : Environ) (out : Int32 × Environ × Option PmixProc)
    (own : Multiset Block) (done more : List CString) : Prop where
  split : calls.texts = done ++ more
  accepted : ∀ text ∈ done, calls.refuses (cutName text) = false
  stopped : ∀ text, more.head? = some text → calls.refuses (cutName text) = true
  environment : out.2.1 = assigned done environ
  succeeds : out.1 = 0 ↔ calls.fork.isSome ∧ more = [] ∧ calls.registers = true
  client : out.2.2 = if out.1 = 0 then some calls.proc else none
  lost : own = calls.strings + if more = [] then 0 else calls.array

theorem registerClient_succeeds (registers : Bool) (proc : PmixProc) (environ : Environ) :
    (registerClient registers proc environ).2.1 = environ ∧
    ((registerClient registers proc environ).1 = 0 ↔ registers = true) ∧
    (registerClient registers proc environ).2.2 =
      if (registerClient registers proc environ).1 = 0 then some proc else none := by
  cases registers <;> exact ⟨rfl, by simp [registerClient], rfl⟩

theorem pxTaskInit_spec (calls : TaskCalls) (environ : Environ)
    (named : ∀ text ∈ calls.texts, equals ∈ text.bytes) :
    Triple lack (calls.strings + calls.array) (pxTaskInit environ (some calls)) fun out own =>
      ∃ done more, TaskInitialised calls environ out own done more := by
  obtain ⟨rank, nspace, fork, refuses, registers⟩ := calls
  rcases fork with _ | _ | ⟨env, strings⟩
  · exact Triple.pure ⟨[], [], rfl, by simp, by simp, rfl, by simp, rfl, rfl⟩
  · obtain ⟨kept, succeeds, client⟩ := registerClient_succeeds registers
      (TaskCalls.proc ⟨rank, nspace, some none, refuses, registers⟩) environ
    exact Triple.pure ⟨[], [], rfl, by simp, by simp, kept, by simp [succeeds], client, rfl⟩
  obtain ⟨done, more, split, ran, accepted, stopped⟩ := @setVariables_spec refuses _ environ named
  change setVariables refuses (strings.map Prod.snd) environ = _ at ran
  simp only [pxTaskInit, ran]
  cases more with
  | nil =>
    obtain ⟨kept, succeeds, client⟩ := registerClient_succeeds registers
      (TaskCalls.proc ⟨rank, nspace, some (some (env, strings)), refuses, registers⟩) (assigned done environ)
    refine Triple.free.step (add_comm _ _) ?_
    rintro _ _ rfl
    exact Triple.pure ⟨done, [], split, accepted, stopped, kept, by simp [succeeds], client, add_comm _ _⟩
  | cons text rest =>
    exact Triple.pure ⟨done, text :: rest, split, accepted, stopped, rfl, by simp, rfl, rfl⟩

/-- A task's environment becomes what PMIx has for it, the rest of it kept, as far as its names are accepted; and
every string that was handed over stays allocated, with the array if a name was refused. -/
theorem px_task_init (calls : TaskCalls) (environ : Environ) (rest : Multiset Block) (heap : Heap)
    (handed : heap.live = rest + (calls.strings + calls.array))
    (named : ∀ text ∈ calls.texts, equals ∈ text.bytes) :
    ∃ out after own done more, pxTaskInit environ (some calls) heap = some (out, after) ∧
      after.live = rest + own ∧ TaskInitialised calls environ out own done more := by
  obtain ⟨out, after, own, ran, left, done, more, initialised⟩ :=
    (pxTaskInit_spec calls environ named).run handed
  exact ⟨out, after, own, done, more, ran, left, initialised⟩

/-- The same name twice. -/
def twiceNamed : TaskCalls where
  rank := 0
  nspace := cString [102]
  fork := some (some (0, [(1, cString [65, 61, 98]), (2, cString [65, 61, 99])]))
  refuses _ := false
  registers := true

theorem px_task_init_sample : ∃ out after,
    pxTaskInit (fun _ => none) (some twiceNamed) (Heap.empty fun _ => false).push.push.push = some (out, after) ∧
      out.2.1 [65] = some [99] ∧ after.live = {1, 2} := by
  obtain ⟨out, after, own, done, more, ran, left, initialised⟩ :=
    px_task_init twiceNamed (fun _ => none) 0 (Heap.empty fun _ => false).push.push.push (by decide) (by decide)
  have whole : more = [] := by
    cases more with
    | nil => rfl
    | cons text rest => cases initialised.stopped text rfl
  subst whole
  have texts := initialised.split
  rw [List.append_nil] at texts
  refine ⟨out, after, ran, ?_, ?_⟩
  · rw [initialised.environment, ← texts]
    rfl
  · rw [left, initialised.lost]
    decide

end FluxPmix.Owned

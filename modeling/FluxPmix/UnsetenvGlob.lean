import FluxPmix.CInt
import FluxPmix.Codec
import FluxPmix.Sweep

/-! Unsetting the environment variables that match a pattern. The walk is over a copy of the environment,
and variables are counted as they are visited, also those that an equal name has removed already. -/
namespace FluxPmix
open Sweep

/-- A variable of an environment, NAME=VALUE. The value may have '=' in it. -/
structure EnvVar where
  name : CString
  value : CString
  named : name.bytes ≠ []
  plain : 61 ∉ name.bytes

def EnvVar.entry (var : EnvVar) : CString where
  bytes := var.name.bytes ++ 61 :: var.value.bytes
  noNul := by simp [var.name.noNul, var.value.noNul]

def fnmNomatch : Int32 := 1

/-- Which allocations fail: the copy of the environment, and that of its `i`-th entry. -/
structure GlobFaults where
  argzCreate : Bool := false
  strdup : Nat → Bool := fun _ => false

structure GlobReturn where
  rc : Int32
  errno : Option Errno
  environ : Option (List CString)

def split (strdupFails : Bool) (s : CString) (delim : UInt8) : Option CString :=
  if strdupFails then none
  else some ⟨s.bytes.takeWhile (· ≠ delim), fun member => s.noNul (List.takeWhile_subset _ member)⟩

/-- Removes every entry that begins with the name and '='. -/
def unsetenv (name : CString) (environ : List CString) : Except Errno (List CString) :=
  if name.bytes = [] ∨ 61 ∈ name.bytes then .error .EINVAL
  else .ok (environ.filter (fun entry => !(name.bytes ++ [61]).isPrefixOf entry.bytes))

section
variable (fnmatch : CString → CString → Int32)

/-- The count for one entry, and what is left of the environment. -/
def unsetenvGlobEntry (strdupFails : Bool) (entry pattern : CString) (environ : List CString) :
    Except Errno (Int32 × List CString) := do
  let some name := split strdupFails entry 61 | throw .ENOMEM
  let rc := fnmatch pattern name
  if rc ≠ 0 ∧ rc ≠ fnmNomatch then
    throw .EINVAL
  if rc = 0 then
    let environ ← unsetenv name environ
    return (1, environ)
  return (0, environ)

/-- The walk over the rest of the copy, from its `i`-th entry on. -/
def unsetenvGlobFrom (fault : GlobFaults) (pattern : CString) : (envz : List CString) → (i : Nat) →
    (count : Int32) → (environ : List CString) → Except Fault GlobReturn
  | [], _, count, environ => .ok ⟨count, none, some environ⟩
  | entry :: envz, i, count, environ =>
    match unsetenvGlobEntry fnmatch (fault.strdup i) entry pattern environ with
    | .error errno => .ok ⟨-1, some errno, some environ⟩
    | .ok (rc, environ) => do
      let count ← intAdd count rc
      unsetenvGlobFrom fault pattern envz (i + 1) count environ

/-- `argz_create` reads its vector, also when `environ` is NULL as `clearenv` leaves it. -/
def unsetenvGlob (fault : GlobFaults) (pattern : Option CString) (environ : Option (List CString)) :
    Except Fault GlobReturn :=
  match pattern, environ with
  | none, environ => .ok ⟨-1, some .EINVAL, environ⟩
  | some _, none => .error .undefined
  | some pattern, some environ =>
    if fault.argzCreate then .ok ⟨-1, some .ENOMEM, some environ⟩
    else unsetenvGlobFrom fnmatch fault pattern environ 0 0 environ

/-- The name of the variable matches the pattern. -/
def globMatches (pattern : CString) (var : EnvVar) : Bool := fnmatch pattern var.name = 0

/-- The other variables, in order. -/
def globOthers (pattern : CString) (vars : List EnvVar) : List EnvVar :=
  vars.filter (fun var => !globMatches fnmatch pattern var)

/-- The call counts the variables that match, and leaves the others as they were. -/
def UnsetsMatches (fault : GlobFaults) (pattern : CString) (environ : Option (List EnvVar)) : Prop :=
  ∃ rc, unsetenvGlob fnmatch fault (some pattern) (environ.map (List.map EnvVar.entry)) =
      .ok ⟨rc, none, some ((globOthers fnmatch pattern (environ.getD [])).map EnvVar.entry)⟩ ∧
    rc.toInt = (environ.getD []).countP (globMatches fnmatch pattern)

end

/-! ### Names -/

theorem CString.ext {one other : CString} (same : one.bytes = other.bytes) : one = other := by
  cases one
  cases other
  cases same
  rfl

theorem takeWhile_name (plain : 61 ∉ name) (value : List UInt8) :
    (name ++ 61 :: value).takeWhile (fun b => decide (b ≠ 61)) = name := by
  have before : ∀ b ∈ name, decide (b ≠ 61) = true := by
    intro b member
    exact decide_eq_true fun same => plain (same ▸ member)
  rw [List.takeWhile_append_of_pos before]
  simp

/-- The name is cut at the first '='. -/
theorem split_entry (var : EnvVar) : split false var.entry 61 = some var.name := by
  have name := takeWhile_name var.plain var.value.bytes
  simp only [split, EnvVar.entry, Bool.false_eq_true, if_false, name]

theorem prefix_entry (var : EnvVar) (plain : 61 ∉ name) :
    name ++ [61] <+: var.entry.bytes ↔ var.name.bytes = name := by
  constructor
  · rintro ⟨rest, same⟩
    have cut := takeWhile_name plain rest
    rw [List.append_cons, same] at cut
    exact (takeWhile_name var.plain var.value.bytes).symm.trans cut
  · rintro rfl
    exact ⟨var.value.bytes, by simp [EnvVar.entry]⟩

/-- Removing a variable removes all of that name. -/
theorem unsetenv_entries (var : EnvVar) (live : List EnvVar) : unsetenv var.name (live.map EnvVar.entry) =
    .ok ((remove EnvVar.name var.name live).map EnvVar.entry) := by
  have valid : ¬ (var.name.bytes = [] ∨ 61 ∈ var.name.bytes) := not_or.mpr ⟨var.named, var.plain⟩
  have stays (other : EnvVar) : (!(var.name.bytes ++ [61]).isPrefixOf other.entry.bytes) =
      decide (other.name ≠ var.name) := by
    rw [Bool.eq_iff_iff, Bool.not_eq_true', ← Bool.not_eq_true, List.isPrefixOf_iff_prefix,
      prefix_entry other var.plain, decide_eq_true_iff]
    exact not_congr ⟨CString.ext, congrArg CString.bytes⟩
  rw [unsetenv, if_neg valid, remove, List.filter_map]
  exact congrArg (fun p => Except.ok ((live.filter p).map EnvVar.entry)) (funext stays)

/-! ### The walk -/

section
variable {fnmatch : CString → CString → Int32} {pattern : CString} {fault : GlobFaults}

/-- What a visit to a variable of the copy leaves of the live ones. -/
def globVisit (fnmatch : CString → CString → Int32) (pattern : CString) (var : EnvVar) (live : List EnvVar) :
    List EnvVar :=
  if globMatches fnmatch pattern var then remove EnvVar.name var.name live else live

/-- What a walk over the copy leaves of them. -/
def sweepVars (fnmatch : CString → CString → Int32) (pattern : CString) (live copy : List EnvVar) :
    List EnvVar :=
  sweep EnvVar.name (fun name => fnmatch pattern name = 0) live copy

theorem sweepVars_cons (var : EnvVar) (live copy : List EnvVar) : sweepVars fnmatch pattern live (var :: copy) =
    sweepVars fnmatch pattern (globVisit fnmatch pattern var live) copy := rfl

theorem sweepVars_self (vars : List EnvVar) :
    sweepVars fnmatch pattern vars vars = globOthers fnmatch pattern vars := sweep_self vars

theorem sweepVars_sublist (live copy : List EnvVar) : (sweepVars fnmatch pattern live copy).Sublist live :=
  sweep_sublist live copy

theorem globOthers_sweepVars (live copy : List EnvVar) :
    globOthers fnmatch pattern (sweepVars fnmatch pattern live copy) = globOthers fnmatch pattern live :=
  @filter_sweep EnvVar CString _ EnvVar.name (fun name => fnmatch pattern name = 0) live copy

/-- What the walk over a copy of variables comes to, from the `i`-th one on, with `n` counted before: too
many to count, one that cannot be copied, or the environment swept. -/
inductive Walked (fnmatch : CString → CString → Int32) (pattern : CString) (fault : GlobFaults)
    (copy live : List EnvVar) (i n : Nat) : Except Fault GlobReturn → Prop
  | overflowed (beyond : intMax < n + copy.countP (globMatches fnmatch pattern)) :
      Walked fnmatch pattern fault copy live i n (.error .undefined)
  | uncopied (j : Nat) (within : j < copy.length) (fails : fault.strdup (i + j) = true) :
      Walked fnmatch pattern fault copy live i n
        (.ok ⟨-1, some .ENOMEM, some ((sweepVars fnmatch pattern live (copy.take j)).map EnvVar.entry)⟩)
  | swept (counted : n + copy.countP (globMatches fnmatch pattern) ≤ intMax)
      (copied : ∀ j < copy.length, fault.strdup (i + j) = false) :
      Walked fnmatch pattern fault copy live i n
        (.ok ⟨.ofNat (n + copy.countP (globMatches fnmatch pattern)), none,
          some ((sweepVars fnmatch pattern live copy).map EnvVar.entry)⟩)

/-- A visit before the rest of the walk. -/
theorem Walked.cons (copies : fault.strdup i = false)
    (walked : Walked fnmatch pattern fault rest (globVisit fnmatch pattern var live) (i + 1)
      (n + if globMatches fnmatch pattern var then 1 else 0) outcome) :
    Walked fnmatch pattern fault (var :: rest) live i n outcome := by
  have count : n + (var :: rest).countP (globMatches fnmatch pattern) =
      n + (if globMatches fnmatch pattern var then 1 else 0) + rest.countP (globMatches fnmatch pattern) := by
    rw [List.countP_cons]
    omega
  have later (j : Nat) : i + (j + 1) = i + 1 + j := by omega
  cases walked with
  | overflowed beyond => exact .overflowed (count ▸ beyond)
  | uncopied j within fails =>
    rw [← sweepVars_cons, ← List.take_succ_cons]
    exact .uncopied (j + 1) (Nat.succ_lt_succ within) (later j ▸ fails)
  | swept counted copied =>
    rw [← sweepVars_cons]
    rw [← count] at counted ⊢
    refine .swept counted fun j within => ?_
    cases j with
    | zero => exact copies
    | succ j => exact later j ▸ copied j (Nat.lt_of_succ_lt_succ within)

variable (total : ∀ name, fnmatch pattern name = 0 ∨ fnmatch pattern name = fnmNomatch)
include total

/-- One visit, to the entry of a variable. -/
theorem unsetenvGlobEntry_var (var : EnvVar) (live : List EnvVar) :
    unsetenvGlobEntry fnmatch false var.entry pattern (live.map EnvVar.entry) =
      .ok (.ofNat (if globMatches fnmatch pattern var then 1 else 0),
        (globVisit fnmatch pattern var live).map EnvVar.entry) := by
  simp only [unsetenvGlobEntry, split_entry, globVisit, globMatches]
  rcases total var.name with hit | missed
  · simp only [hit, unsetenv_entries]
    rfl
  · simp only [missed]
    rfl

theorem unsetenvGlobFrom_walked (fault : GlobFaults) (copy live : List EnvVar) (i : Nat) (counted : n ≤ intMax) :
    Walked fnmatch pattern fault copy live i n
      (unsetenvGlobFrom fnmatch fault pattern (copy.map EnvVar.entry) i (.ofNat n) (live.map EnvVar.entry)) := by
  induction copy generalizing live i n with
  | nil => exact .swept counted fun _ none => absurd none (Nat.not_lt_zero _)
  | cons var rest ih =>
    simp only [List.map_cons, unsetenvGlobFrom]
    cases copies : fault.strdup i with
    | true => exact .uncopied 0 (Nat.succ_pos _) copies
    | false =>
      rw [unsetenvGlobEntry_var total]
      rcases Nat.lt_or_ge intMax (n + if globMatches fnmatch pattern var then 1 else 0) with beyond | room
      · have one : (if globMatches fnmatch pattern var then 1 else 0) ≤ intMax := by split <;> decide
        simp only [intAdd_overflow counted one beyond]
        apply Walked.overflowed
        rw [List.countP_cons]
        omega
      · simp only [intAdd_ofNat room, ok_bind]
        exact (ih _ (i + 1) room).cons copies

/-- The walk over a copy of the environment itself. -/
theorem unsetenvGlob_walked (fault : GlobFaults) (vars : List EnvVar) (copies : fault.argzCreate = false) :
    Walked fnmatch pattern fault vars vars 0 0
      (unsetenvGlob fnmatch fault (some pattern) (some (vars.map EnvVar.entry))) := by
  simp only [unsetenvGlob, copies, Bool.false_eq_true, if_false]
  exact unsetenvGlobFrom_walked total fault vars vars 0 (Nat.zero_le _)

/-- Whatever it returns, the call leaves variables of the environment, in order, and has taken none
that does not match. -/
theorem unsetenvGlob_keeps (fault : GlobFaults) (vars : List EnvVar)
    (returned : unsetenvGlob fnmatch fault (some pattern) (some (vars.map EnvVar.entry)) = .ok result) :
    ∃ left : List EnvVar, result.environ = some (left.map EnvVar.entry) ∧ left.Sublist vars ∧
      globOthers fnmatch pattern left = globOthers fnmatch pattern vars := by
  cases copies : fault.argzCreate with
  | true =>
    simp only [unsetenvGlob, copies, if_true] at returned
    cases returned
    exact ⟨vars, rfl, List.Sublist.refl vars, rfl⟩
  | false =>
    have walked := unsetenvGlob_walked total fault vars copies
    rw [returned] at walked
    cases walked with
    | uncopied j => exact ⟨_, rfl, sweepVars_sublist vars _, globOthers_sweepVars vars _⟩
    | swept => exact ⟨_, rfl, sweepVars_sublist vars vars, globOthers_sweepVars vars vars⟩

omit total in
/-- The return code is an `int`. -/
theorem UnsetsMatches.counted (unsets : UnsetsMatches fnmatch fault pattern (some vars)) :
    vars.countP (globMatches fnmatch pattern) ≤ intMax := by
  obtain ⟨rc, _, count⟩ := unsets
  have bound := Int32.toInt_lt rc
  rw [count, Option.getD_some] at bound
  rw [intMax]
  omega

/-- Exactly the variables that match are counted and removed, except where `environ` is NULL, an
allocation fails, or more of them match than an `int` counts. -/
theorem unsetenvGlob_exact (fault : GlobFaults) (environ : Option (List EnvVar)) :
    UnsetsMatches fnmatch fault pattern environ ↔ ∃ vars, environ = some vars ∧ fault.argzCreate = false ∧
      (∀ i < vars.length, fault.strdup i = false) ∧ vars.countP (globMatches fnmatch pattern) ≤ intMax := by
  constructor
  · intro unsets
    have counted (vars : List EnvVar) (same : environ = some vars) := (same ▸ unsets).counted
    obtain ⟨rc, returned, count⟩ := unsets
    cases environ with
    | none => contradiction
    | some vars =>
      refine ⟨vars, rfl, ?_⟩
      cases copies : fault.argzCreate with
      | true => simp [unsetenvGlob, copies] at returned
      | false =>
        have walked := unsetenvGlob_walked total fault vars copies
        rw [Option.map_some] at returned
        generalize unsetenvGlob fnmatch fault (some pattern) (some (vars.map EnvVar.entry)) = outcome
          at walked returned
        cases walked with
        | overflowed => contradiction
        | uncopied => simp at returned
        | swept _ copied => exact ⟨rfl, fun i within => Nat.zero_add i ▸ copied i within, counted vars rfl⟩
  · rintro ⟨vars, rfl, copies, copied, counted⟩
    have walked := unsetenvGlob_walked total fault vars copies
    generalize returned : unsetenvGlob fnmatch fault (some pattern) (some (vars.map EnvVar.entry)) = outcome
      at walked
    cases walked with
    | overflowed beyond => omega
    | uncopied j within fails =>
      rw [Nat.zero_add, copied j within] at fails
      contradiction
    | swept =>
      rw [sweepVars_self, Nat.zero_add] at returned
      exact ⟨_, returned, toInt_ofNat_counted counted⟩

end

/-- `fnmatch` for patterns without special characters. -/
def literalMatch (pattern name : CString) : Int32 := if pattern = name then 0 else fnmNomatch

theorem literalMatch_total (pattern name : CString) :
    literalMatch pattern name = 0 ∨ literalMatch pattern name = fnmNomatch := by
  rw [literalMatch]
  split
  · exact .inl rfl
  · exact .inr rfl

/-- A=x. -/
def varA : EnvVar := ⟨⟨[65], by decide⟩, ⟨[120], by decide⟩, by decide, by decide⟩

/-- AB=x. -/
def varAB : EnvVar := ⟨⟨[65, 66], by decide⟩, ⟨[120], by decide⟩, by decide, by decide⟩

theorem unsetenvGlob_exact_sample : UnsetsMatches literalMatch {} varA.name (some [varA, varAB, varA]) := by
  have counted : [varA, varAB, varA].countP (globMatches literalMatch varA.name) ≤ intMax :=
    List.countP_le_length.trans (by decide)
  exact (unsetenvGlob_exact (literalMatch_total varA.name) {} _).mpr ⟨_, rfl, rfl, fun _ _ => rfl, counted⟩

/-- There is no `environ` after `clearenv`, and more variables than an `int` counts. -/
theorem unsetenvGlob_uncounted : ¬ UnsetsMatches literalMatch {} varA.name none ∧
    ¬ UnsetsMatches literalMatch {} varA.name (some (List.replicate 0x80000000 varA)) := by
  constructor
  · rintro ⟨_, returned, _⟩
    contradiction
  · intro unsets
    have bound := unsets.counted
    have all : globMatches literalMatch varA.name varA = true := by simp [globMatches, literalMatch]
    rw [List.countP_replicate, if_pos all] at bound
    exact absurd bound (by decide)

end FluxPmix

import FluxPmix.CodecFormat
import FluxPmix.Taskmap

/-! Direct modex: the shell that hosts a proc is found by its rank among the tasks, counted shell by
shell. That is where the task map has it only when the tasks are placed in blocks. -/
namespace FluxPmix
open Placement

/-- What the shell is told of its job: the number of shells, and each one's number of tasks. -/
structure ShellInfo where
  size : Option Int32
  ntasks : Int32 → Option Int32

/-- The loop from `shell_rank` on, with so many shells to go. -/
def lookupFrom (ntasks : Int32 → Option Int32) (rank : Int32) :
    (remaining : Nat) → (shellRank baseRank : Int32) → Except Fault Int32
  | 0, _, _ => .ok (-1)
  | remaining + 1, shellRank, baseRank =>
    match ntasks shellRank with
    | none => .ok (-1)
    | some n => do
      if baseRank ≤ rank then
        if rank < (← intAdd baseRank n) then
          return shellRank
      lookupFrom ntasks rank remaining (shellRank + 1) (← intAdd baseRank n)

def lookupShellRank (shell : ShellInfo) (rank : Int32) : Except Fault Int32 :=
  match shell.size with
  | none => .ok (-1)
  | some shellSize => lookupFrom shell.ntasks rank shellSize.toNatClampNeg 0 0

/-- The job as its task map lays it out. -/
def TaskMap.shellInfo (map : TaskMap) : ShellInfo where
  size := some (.ofNat map.nnodes)
  ntasks shellRank := (taskmapTaskids map shellRank).map (fun ids => .ofNat ids.length)

/-- For a task of the job the lookup finds the node of the task map, for any other rank nothing. -/
def LookupAgrees (map : TaskMap) : Prop :=
  ∀ rank : Int32, lookupShellRank map.shellInfo rank = .ok
    (if 0 ≤ rank ∧ rank.toInt < map.nodeids.length then taskmapNodeid map rank else -1)

inductive DmodexStatus where
  | procEntryNotFound
  | notImplemented
  deriving DecidableEq, Repr

inductive DmodexEffect where
  | warn (nspace : List UInt8) (rank shellRank : Int32) (rc : DmodexStatus)
  | cbfunc (cbfunc : UInt64) (rc : DmodexStatus) (cbdata : UInt64)
  | dropped

section
variable [CFloat]

def dmodexUnpack (callocFails : Bool) (msg : Json) : Except Fault (PmixProc × UInt64 × UInt64) := do
  if callocFails then throw .error
  let (xproc, xinfo, xcbfunc, xcbdata, ()) ←
    jsonUnpack msg [.o, .o, .o, .o] (keyed ["proc", "info", "cbfunc", "cbdata"])
  let proc ← codecProcDecode xproc
  let _ ← codecInfoArrayDecode xinfo
  let cbfunc ← codecPointerDecode xcbfunc
  let cbdata ← codecPointerDecode xcbdata
  return (proc, cbfunc, cbdata)

def dmodexShellCb (callocFails : Bool) (shell : ShellInfo) (msg : Json) : Except Fault (List DmodexEffect) :=
  match dmodexUnpack callocFails msg with
  | .error .error => .ok [.dropped]
  | .error .undefined => .error .undefined
  | .ok (proc, cbfunc, cbdata) => do
    let rank := proc.rank.toInt32
    let shellRank ← lookupShellRank shell rank
    let rc : DmodexStatus := if shellRank < 0 then .procEntryNotFound else .notImplemented
    return .warn proc.nspace.bytes rank shellRank rc ::
      if cbfunc ≠ 0 then [.cbfunc cbfunc rc cbdata] else []

end

variable (map : TaskMap)

/-- The loop stops at the shell whose block has the rank, or finds that there is none left. -/
theorem lookupFrom_spec (rank : Int32) (started : s + remaining = map.nnodes) :
    ∃ found,
      lookupFrom map.shellInfo.ntasks rank remaining (.ofNat s) (.ofNat (offset map.nodeids s)) = .ok found ∧
      ((found = -1 ∧ (rank.toInt < offset map.nodeids s ∨ map.nodeids.length ≤ rank.toInt)) ∨
        ∃ t, found = .ofNat t ∧ t < map.nnodes ∧ offset map.nodeids t ≤ rank.toInt ∧
          rank.toInt < (offset map.nodeids t + map.nodeids.count t : Nat)) := by
  induction remaining generalizing s with
  | zero =>
    obtain rfl : s = map.nnodes := by omega
    refine ⟨-1, rfl, .inl ⟨rfl, ?_⟩⟩
    rw [map.offset_nnodes]
    omega
  | succ remaining ih =>
    have within : s < map.nnodes := by omega
    have counted : offset map.nodeids s + map.nodeids.count s ≤ intMax := by
      rw [offset_add_count]
      exact List.countP_le_length.trans map.tasksCounted
    have told : map.shellInfo.ntasks (.ofNat s) = some (.ofNat (map.nodeids.count s)) := by
      simp [TaskMap.shellInfo, taskmapTaskids_ofNat map within]
    have base : (Int32.ofNat (offset map.nodeids s)).toInt = offset map.nodeids s :=
      toInt_ofNat_counted (by omega)
    obtain ⟨found, looked, result⟩ := ih (s := s + 1) (by omega)
    rw [map.offset_succ] at looked result
    rw [Int32.ofNat_add s 1] at looked
    simp only [lookupFrom, told, intAdd_ofNat counted, ok_bind]
    by_cases reached : Int32.ofNat (offset map.nodeids s) ≤ rank
    · rw [if_pos reached]
      rw [Int32.le_iff_toInt_le, base] at reached
      by_cases inside : rank < .ofNat (offset map.nodeids s + map.nodeids.count s)
      · rw [if_pos inside]
        rw [Int32.lt_iff_toInt_lt, toInt_ofNat_counted counted] at inside
        exact ⟨_, rfl, .inr ⟨s, rfl, within, reached, inside⟩⟩
      · rw [if_neg inside]
        rw [Int32.lt_iff_toInt_lt, toInt_ofNat_counted counted] at inside
        refine ⟨found, looked, result.imp_left ?_⟩
        rintro ⟨absent, outside⟩
        exact ⟨absent, .inr (by omega)⟩
    · rw [if_neg reached]
      rw [Int32.le_iff_toInt_le, base] at reached
      refine ⟨found, looked, result.imp_left ?_⟩
      rintro ⟨absent, _⟩
      exact ⟨absent, .inl (by omega)⟩

/-- The lookup finds a shell for the ranks of the job, the one whose block it is in. -/
theorem lookupShellRank_spec (rank : Int32) : ∃ found, lookupShellRank map.shellInfo rank = .ok found ∧
    ((found = -1 ∧ (rank.toInt < 0 ∨ map.nodeids.length ≤ rank.toInt)) ∨
      ∃ t i : Nat, found = .ofNat t ∧ t < map.nnodes ∧ rank.toInt = i ∧ i < map.nodeids.length ∧
        offset map.nodeids t ≤ i ∧ i < offset map.nodeids t + map.nodeids.count t) := by
  have size : (Int32.ofNat map.nnodes).toNatClampNeg = map.nnodes := toNat_ofNat_counted map.nodesCounted
  obtain ⟨found, looked, result⟩ := lookupFrom_spec map rank (s := 0) (Nat.zero_add map.nnodes)
  rw [map.offset_zero] at looked result
  refine ⟨found, ?_, result.imp_right ?_⟩
  · simp only [lookupShellRank, TaskMap.shellInfo, size]
    exact looked
  · rintro ⟨t, hosted, within, low, high⟩
    have bound : offset map.nodeids t + map.nodeids.count t ≤ map.nodeids.length := by
      rw [offset_add_count]
      exact List.countP_le_length
    exact ⟨t, rank.toInt.toNat, hosted, within, by omega, by omega, by omega, by omega⟩

/-- The two mappings agree exactly on the layouts that give each shell a block of ranks, in order. -/
theorem lookupShellRank_agrees : LookupAgrees map ↔ map.nodeids.Pairwise (· ≤ ·) := by
  rw [sorted_iff]
  constructor
  · intro agrees i within
    obtain ⟨value, inside⟩ := map.rank_inside within
    have looked := agrees (.ofNat i)
    rw [if_pos inside, taskmapNodeid_ofNat map within] at looked
    obtain ⟨found, ended, ⟨_, outside⟩ | ⟨t, j, rfl, below, same, _, block⟩⟩ :=
      lookupShellRank_spec map (.ofNat i)
    · omega
    · have hosted := ofNat_inj_counted (map.shell_counted below) (map.node_counted within)
        (Except.ok.inj (ended.symm.trans looked))
      obtain rfl : i = j := by omega
      exact hosted ▸ block
  · intro blocks rank
    obtain ⟨found, ended, ⟨rfl, outside⟩ | ⟨t, i, rfl, below, value, within, block⟩⟩ :=
      lookupShellRank_spec map rank
    · have excluded : ¬ (0 ≤ rank ∧ rank.toInt < map.nodeids.length) := by
        rw [Int32.le_iff_toInt_le]
        rintro ⟨nonneg, bound⟩
        have positive : 0 ≤ rank.toInt := nonneg
        omega
      rw [if_neg excluded]
      exact ended
    · obtain rfl := block_unique block (blocks i within)
      obtain ⟨same, inside⟩ := map.rank_inside within
      obtain rfl : rank = .ofNat i := Int32.toInt_inj.mp (value.trans same.symm)
      rw [if_pos inside, taskmapNodeid_ofNat map within]
      exact ended

/-- Of four tasks dealt to two shells in turn, task 1 runs on shell 1, and the lookup finds shell 0. -/
theorem lookupShellRank_cyclic : ¬ LookupAgrees cyclicMap ∧
    lookupShellRank cyclicMap.shellInfo 1 = .ok 0 ∧ taskmapNodeid cyclicMap 1 = 1 := by
  have looked : lookupShellRank cyclicMap.shellInfo 1 = .ok 0 := rfl
  refine ⟨fun agrees => ?_, looked, rfl⟩
  cases looked.symm.trans (agrees 1)

/-! ### The callback -/

section
variable [CFloat]

/-- Whatever the order, a proc is reported as not found exactly when it is none of the job. -/
theorem dmodexShellCb_found (map : TaskMap) (unpacked : dmodexUnpack callocFails msg = .ok (proc, cbfunc, cbdata)) :
    ∃ shellRank rc, dmodexShellCb callocFails map.shellInfo msg = .ok
        (.warn proc.nspace.bytes proc.rank.toInt32 shellRank rc ::
          if cbfunc ≠ 0 then [.cbfunc cbfunc rc cbdata] else []) ∧
      (rc = .procEntryNotFound ↔ map.nodeids.length ≤ proc.rank.toNat) := by
  obtain ⟨found, looked, result⟩ := lookupShellRank_spec map proc.rank.toInt32
  refine ⟨found, if found < 0 then .procEntryNotFound else .notImplemented, ?_, ?_⟩
  · simp only [dmodexShellCb, unpacked, looked, ok_bind]
    rfl
  · have value : proc.rank.toInt32.toInt = proc.rank.toBitVec.toInt := rfl
    have bound := proc.rank.toNat_lt
    have counted := map.tasksCounted
    rw [BitVec.toInt_eq_toNat_cond, UInt32.toNat_toBitVec] at value
    rw [intMax] at counted
    rcases result with ⟨rfl, outside⟩ | ⟨t, i, rfl, below, same, within, _⟩
    · refine iff_of_true rfl ?_
      split at value <;> omega
    · have nonneg : ¬ Int32.ofNat t < 0 := by
        rw [Int32.not_lt]
        exact ofNat_nonneg_counted (map.shell_counted below)
      rw [if_neg nonneg]
      refine iff_of_false (by simp) ?_
      split at value <;> omega

end

end FluxPmix

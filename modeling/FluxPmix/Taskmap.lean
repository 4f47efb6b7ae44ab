import FluxPmix.CInt
import FluxPmix.Placement

/-! The task map of a job: where each of its tasks runs. There is one shell a node. -/
namespace FluxPmix
open Placement

structure TaskMap where
  nodeids : List Nat
  nnodes : Nat
  placed : ∀ nodeid ∈ nodeids, nodeid < nnodes
  tasksCounted : nodeids.length ≤ intMax
  nodesCounted : nnodes ≤ intMax

/-- Four tasks dealt to two nodes in turn. -/
def cyclicMap : TaskMap := ⟨[0, 1, 0, 1], 2, by decide, by decide, by decide⟩

/-- -1 for an id that is no task. -/
def taskmapNodeid (map : TaskMap) (taskid : Int32) : Int32 :=
  if taskid < 0 then -1 else
    match map.nodeids[taskid.toNatClampNeg]? with
    | some nodeid => .ofNat nodeid
    | none => -1

/-- The ids of a node's tasks, increasing. -/
def taskmapTaskids (map : TaskMap) (nodeid : Int32) : Option (List Nat) :=
  if 0 ≤ nodeid ∧ nodeid.toNatClampNeg < map.nnodes then
    some (map.nodeids.idxsOf nodeid.toNatClampNeg) else none

namespace TaskMap
variable (map : TaskMap)

theorem task_counted (within : i < map.nodeids.length) : i ≤ intMax :=
  Nat.le_of_lt (Nat.lt_of_lt_of_le within map.tasksCounted)

theorem shell_counted (within : nodeid < map.nnodes) : nodeid ≤ intMax :=
  Nat.le_of_lt (Nat.lt_of_lt_of_le within map.nodesCounted)

theorem node_lt (within : i < map.nodeids.length) : map.nodeids[i] < map.nnodes :=
  map.placed _ (List.getElem_mem within)

theorem node_counted (within : i < map.nodeids.length) : map.nodeids[i] ≤ intMax :=
  map.shell_counted (map.node_lt within)

/-- The rank of a task as an `int`. -/
theorem rank_inside (within : i < map.nodeids.length) : (Int32.ofNat i).toInt = i ∧
    0 ≤ Int32.ofNat i ∧ (Int32.ofNat i).toInt < map.nodeids.length := by
  have counted := map.task_counted within
  have value : (Int32.ofNat i).toInt = i := toInt_ofNat_counted counted
  exact ⟨value, ofNat_nonneg_counted counted, value ▸ Int.ofNat_lt.mpr within⟩

theorem count_le (nodeid : Nat) : map.nodeids.count nodeid ≤ intMax :=
  List.count_le_length.trans map.tasksCounted

theorem offset_succ (nodeid : Nat) :
    offset map.nodeids (nodeid + 1) = offset map.nodeids nodeid + map.nodeids.count nodeid := by
  rw [offset_add_count]
  simp only [offset, Nat.lt_succ_iff]

theorem offset_zero : offset map.nodeids 0 = 0 := by
  simp [offset]

theorem offset_nnodes : offset map.nodeids map.nnodes = map.nodeids.length := by
  rw [offset, List.countP_eq_length]
  intro nodeid member
  exact decide_eq_true (map.placed nodeid member)

end TaskMap

theorem taskmapNodeid_ofNat (map : TaskMap) (within : i < map.nodeids.length) :
    taskmapNodeid map (.ofNat i) = .ofNat map.nodeids[i] := by
  have counted := map.task_counted within
  have nonneg : ¬ Int32.ofNat i < 0 := by
    rw [Int32.not_lt]
    exact ofNat_nonneg_counted counted
  simp only [taskmapNodeid, nonneg, if_false, toNat_ofNat_counted counted, List.getElem?_eq_getElem within]

theorem taskmapTaskids_ofNat (map : TaskMap) (within : nodeid < map.nnodes) :
    taskmapTaskids map (.ofNat nodeid) = some (map.nodeids.idxsOf nodeid) := by
  have counted := map.shell_counted within
  simp only [taskmapTaskids, ofNat_nonneg_counted counted, toNat_ofNat_counted counted, within, true_and, if_true]

end FluxPmix

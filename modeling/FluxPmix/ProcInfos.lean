import FluxPmix.Infovec
import FluxPmix.Taskmap
import Mathlib.Data.List.FinRange
import Mathlib.Data.List.Nodup

/-! The info arrays published for the tasks of a job: rank, node, and the local rank that is the number
of smaller ranks on the node. The local rank is an `int` that is stored as a `uint16_t`. -/
namespace FluxPmix
open Placement

/-- The walk over a node's tasks from `localRank` on. -/
def localRankFrom (rank : Int32) : List Nat → (localRank : Int32) → Int32
  | [], _ => -1
  | i :: ranks, localRank =>
    if i = rank.toUInt32.toNat then localRank else localRankFrom rank ranks (localRank + 1)

def getLocalRank (map : TaskMap) (nodeid rank : Int32) : Int32 :=
  match taskmapTaskids map nodeid with
  | some ranks => localRankFrom rank ranks 0
  | none => -1

def pmixRank : CString := cString (literal "pmix.rank")

def pmixNodeid : CString := cString (literal "pmix.nodeid")

def pmixLocalRank : CString := cString (literal "pmix.lrank")

def pmixNodeRank : CString := cString (literal "pmix.nrank")

def pmixProcInfoArray : CString := cString (literal "pmix.pdata")

/-- Which allocations fail for one rank: that of its array, and those of the calls on it in turn. -/
structure ProcInfoFaults where
  create : Bool := false
  set : Nat → InfovecFaults := fun _ => {}

/-- The body of the loop. -/
def setProcInfo (fault : ProcInfoFaults) (key : CString) (map : TaskMap) (iv : Option Infovec) (i : Int32) :
    Except Fault (Int32 × Option Infovec) := do
  let nodeid := taskmapNodeid map i
  if nodeid < 0 then
    return (-1, iv)
  let localRank := getLocalRank map nodeid i
  if localRank < 0 then
    return (-1, iv)
  let some ri := infovecCreate fault.create | return (-1, iv)
  let (rc, ri) ← infovecSetRank (fault.set 0) (some ri) (some pmixRank) i.toUInt32
  if rc < 0 then
    return (-1, iv)
  let (rc, ri) ← infovecSetU32 (fault.set 1) ri (some pmixNodeid) nodeid.toUInt32
  if rc < 0 then
    return (-1, iv)
  let (rc, ri) ← infovecSetU16 (fault.set 2) ri (some pmixLocalRank) localRank.toUInt32.toUInt16
  if rc < 0 then
    return (-1, iv)
  let (rc, ri) ← infovecSetU16 (fault.set 3) ri (some pmixNodeRank) localRank.toUInt32.toUInt16
  if rc < 0 then
    return (-1, iv)
  infovecSetInfovecNew (fault.set 4) iv (some key) ri

/-- The loop from rank `i` on, with so many ranks to go. -/
def setProcInfosFrom (faults : Int32 → ProcInfoFaults) (key : CString) (map : TaskMap) :
    (remaining : Nat) → (i : Int32) → Option Infovec → Except Fault (Int32 × Option Infovec)
  | 0, _, iv => .ok (0, iv)
  | remaining + 1, i, iv => do
    let (rc, iv) ← setProcInfo (faults i) key map iv i
    if rc < 0 then
      return (-1, iv)
    setProcInfosFrom faults key map remaining (i + 1) iv

def setProcInfos (faults : Int32 → ProcInfoFaults) (key : CString) (map : TaskMap) (totalNprocs : Int32)
    (iv : Option Infovec) : Except Fault (Int32 × Option Infovec) :=
  setProcInfosFrom faults key map totalNprocs.toNatClampNeg 0 iv

/-! ### What is published -/

/-- The four infos of a rank under its key. -/
def procInfoEntry (key : CString) (rank nodeid : UInt32) (localRank nodeRank : UInt16) : InfovecEntry :=
  (strlcpy pmixMaxKeylen key.bytes, .dataArray (some
    [(strlcpy pmixMaxKeylen pmixRank.bytes, .procRank rank),
      (strlcpy pmixMaxKeylen pmixNodeid.bytes, .uint32 nodeid),
      (strlcpy pmixMaxKeylen pmixLocalRank.bytes, .uint16 localRank),
      (strlcpy pmixMaxKeylen pmixNodeRank.bytes, .uint16 nodeRank)]))

/-- The entry of rank `i`, its local rank being the number of smaller ranks on its node. -/
def IsProcInfo (key : CString) (map : TaskMap) (i : Fin map.nodeids.length) (entry : InfovecEntry) : Prop :=
  ∃ rank nodeid lrank nrank, entry = procInfoEntry key rank nodeid lrank nrank ∧ rank.toNat = i ∧
    nodeid.toNat = map.nodeids[i] ∧ lrank.toNat = (map.nodeids.take i).count map.nodeids[i] ∧
    nrank.toNat = (map.nodeids.take i).count map.nodeids[i]

/-- The node and the local rank that an entry publishes. -/
def nodeLocalRank : InfovecEntry → Option (Nat × Nat)
  | (_, .dataArray (some [_, (_, .uint32 nodeid), (_, .uint16 localRank), _])) =>
    some (nodeid.toNat, localRank.toNat)
  | _ => none

/-- One entry for each rank, in order. On a node the local ranks are those below its number of tasks,
each of them once. -/
structure Publishes (key : CString) (map : TaskMap) (entries : List InfovecEntry) : Prop where
  complete : entries.length = map.nodeids.length
  exact : ∀ i : Fin map.nodeids.length, ∃ entry, entries[i.val]? = some entry ∧ IsProcInfo key map i entry
  dense : ∀ nodeid r, some (nodeid, r) ∈ entries.map nodeLocalRank ↔ r < map.nodeids.count nodeid
  distinct : (entries.map nodeLocalRank).Nodup

/-- Whatever allocations fail, the call returns -1 or appends what it should publish. -/
def ProcInfosExact (key : CString) (map : TaskMap) (iv : Infovec) : Prop :=
  ∀ faults, ∃ rc after, setProcInfos faults key map (.ofNat map.nodeids.length) (some iv) = .ok (rc, some after) ∧
    (rc = -1 ∨ rc = 0 ∧ ∃ entries, after.info = iv.info ++ entries ∧ Publishes key map entries)

/-! ### The walk -/

theorem toUInt32_ofNat_counted (counted : n ≤ intMax) : (Int32.ofNat n).toUInt32.toNat = n := by
  exact UInt32.toNat_ofNat_of_lt' (Nat.lt_of_le_of_lt counted (by decide))

theorem toUInt16_ofNat_counted (counted : n ≤ intMax) :
    (Int32.ofNat n).toUInt32.toUInt16.toNat = n % 65536 := by
  rw [UInt32.toNat_toUInt16, toUInt32_ofNat_counted counted]

/-- The walk counts its steps up to the rank. -/
theorem localRankFrom_spec {ranks : List Nat} (distinct : ranks.Nodup) (found : ranks[p]? = some rank.toUInt32.toNat)
    (base : Nat) : localRankFrom rank ranks (.ofNat base) = .ofNat (base + p) := by
  induction ranks generalizing p base with
  | nil => contradiction
  | cons first rest ih =>
    rw [List.nodup_cons] at distinct
    cases p with
    | zero =>
      rw [localRankFrom, if_pos (Option.some.inj found)]
      rfl
    | succ p =>
      have later : rank.toUInt32.toNat ∈ rest := List.mem_of_getElem? found
      have other : first ≠ rank.toUInt32.toNat := fun same => distinct.1 (same ▸ later)
      have next := ih distinct.2 found (base + 1)
      rw [Int32.ofNat_add base 1] at next
      rw [localRankFrom, if_neg other]
      exact next.trans (congrArg Int32.ofNat (by omega))

variable {map : TaskMap}

theorem getLocalRank_spec (i : Fin map.nodeids.length) :
    getLocalRank map (.ofNat map.nodeids[i]) (.ofNat i) = .ofNat (localRank map.nodeids i) := by
  have rank := toUInt32_ofNat_counted (map.task_counted i.isLt)
  have found := (getElem_localRank i).trans (congrArg some rank.symm)
  have walked := localRankFrom_spec List.nodup_idxsOf found 0
  rw [Nat.zero_add] at walked
  have hosted : taskmapTaskids map (.ofNat map.nodeids[i]) = some (map.nodeids.idxsOf map.nodeids[i]) :=
    taskmapTaskids_ofNat map (map.node_lt i.isLt)
  simp only [getLocalRank, hosted]
  exact walked

/-! ### One rank -/

/-- The entry the code makes. -/
def procInfoAt (key : CString) (map : TaskMap) (i : Fin map.nodeids.length) : InfovecEntry :=
  let lrank := (Int32.ofNat (localRank map.nodeids i)).toUInt32.toUInt16
  procInfoEntry key (Int32.ofNat i).toUInt32 (Int32.ofNat map.nodeids[i]).toUInt32 lrank lrank

def ProcInfoFaults.Some (fault : ProcInfoFaults) : Prop :=
  fault.create = true ∨ ∃ j, (fault.set j).realloc = true ∨ (fault.set j).calloc = true

/-- A call returns -1 where an allocation failed, or appends, or finds the array at its last length. -/
def Appends (iv : Infovec) (entries : List InfovecEntry) (failed : Prop)
    (outcome : Except Fault (Int32 × Option Infovec)) : Prop :=
  ((∃ after, outcome = .ok (-1, some after)) ∧ failed) ∨
  (outcome = .error .undefined ∧ infovecMax < iv.info.length + entries.length) ∨
  (iv.info.length + entries.length ≤ infovecMax ∧
    ∃ after, outcome = .ok (0, some after) ∧ after.info = iv.info ++ entries)

theorem Appends.imp (appends : Appends iv entries failed outcome) (weaker : failed → reason) :
    Appends iv entries reason outcome :=
  appends.imp_left fun refused => ⟨refused.1, weaker refused.2⟩

/-- One setter after the other on an array of its own, any of which ends the chain. -/
theorem Appends.chain {ri : Infovec} {next : Int32 × Option Infovec → Except Fault (Int32 × Option Infovec)}
    (room : ri.info.length < infovecMax) (reason : fault.realloc = true → failed)
    (rest : ∀ after, after.info = ri.info ++ [(strlcpy pmixMaxKeylen name.bytes, value)] →
      Appends iv entries failed (next (0, some after))) :
    Appends iv entries failed (do
      let x ← infovecSet fault (some ri) (some name) value
      if x.1 < 0 then pure (-1, some iv) else next x) := by
  rcases infovecSet_cases fault ri name value with ⟨_, last⟩ | ⟨_, ⟨refused, cause⟩ | ⟨after, stored, info⟩⟩
  · exact absurd last (Nat.ne_of_lt room)
  · rw [refused]
    exact .inl ⟨⟨iv, rfl⟩, reason cause⟩
  · rw [stored]
    exact rest after info

theorem setProcInfo_appends (fault : ProcInfoFaults) (key : CString) (iv : Infovec) (i : Fin map.nodeids.length) :
    Appends iv [procInfoAt key map i] fault.Some (setProcInfo fault key map (some iv) (.ofNat i)) := by
  have placed : taskmapNodeid map (.ofNat i) = .ofNat map.nodeids[i] := taskmapNodeid_ofNat map i.isLt
  have rankCounted : localRank map.nodeids i ≤ intMax :=
    Nat.le_of_lt (Nat.lt_of_lt_of_le (localRank_lt i) (map.count_le _))
  have nodeNonneg : ¬ Int32.ofNat map.nodeids[i] < 0 :=
    Int32.not_lt.mpr (ofNat_nonneg_counted (map.node_counted i.isLt))
  have rankNonneg : ¬ Int32.ofNat (localRank map.nodeids i) < 0 :=
    Int32.not_lt.mpr (ofNat_nonneg_counted rankCounted)
  simp only [setProcInfo, placed, getLocalRank_spec, nodeNonneg, rankNonneg, if_false]
  cases created : fault.create with
  | true => exact .inl ⟨⟨iv, rfl⟩, .inl created⟩
  | false =>
    obtain ⟨ri, ready, empty⟩ : ∃ ri, infovecCreate false = some ri ∧ ri.info = [] := ⟨_, rfl, rfl⟩
    have reason (j : Nat) (failed : (fault.set j).realloc = true) : fault.Some := .inr ⟨j, .inl failed⟩
    simp only [ready, infovecSetRank, infovecSetU32, infovecSetU16]
    apply Appends.chain (by rw [empty]; decide) (reason 0)
    intro ranked rankedInfo
    rw [empty] at rankedInfo
    apply Appends.chain (by simp [rankedInfo, infovecMax]) (reason 1)
    intro noded nodedInfo
    rw [rankedInfo] at nodedInfo
    apply Appends.chain (by simp [nodedInfo, infovecMax]) (reason 2)
    intro lranked lrankedInfo
    rw [nodedInfo] at lrankedInfo
    apply Appends.chain (by simp [lrankedInfo, infovecMax]) (reason 3)
    intro nranked nrankedInfo
    rw [lrankedInfo] at nrankedInfo
    rcases infovecSetInfovecNew_cases (fault.set 4) iv key nranked with
      ⟨undefined, last⟩ | ⟨below, ⟨after, refused, cause⟩ | ⟨after, stored, info⟩⟩
    · exact .inr (.inl ⟨undefined, by simp [last]⟩)
    · exact .inl ⟨⟨after, refused⟩, .inr ⟨4, cause⟩⟩
    · rw [nrankedInfo] at info
      exact .inr (.inr ⟨below, after, stored, info⟩)

/-! ### All ranks -/

def procInfosFrom (key : CString) (map : TaskMap) (i : Nat) : List InfovecEntry :=
  ((List.finRange map.nodeids.length).drop i).map (procInfoAt key map)

theorem Appends.cons {rest : List InfovecEntry} (first : Appends iv [entry] failed outcome)
    {next : Int32 × Option Infovec → Except Fault (Int32 × Option Infovec)}
    (others : ∀ after, after.info = iv.info ++ [entry] → Appends after rest failed (next (0, some after))) :
    Appends iv (entry :: rest) failed (do
      let x ← outcome
      if x.1 < 0 then pure (-1, x.2) else next x) := by
  rcases first with ⟨⟨after, rfl⟩, cause⟩ | ⟨rfl, last⟩ | ⟨_, after, rfl, info⟩
  · exact .inl ⟨⟨after, rfl⟩, cause⟩
  · refine .inr (.inl ⟨rfl, ?_⟩)
    simp only [List.length_cons, List.length_nil] at last ⊢
    omega
  · have length : after.info.length + rest.length = iv.info.length + (entry :: rest).length := by
      rw [info, List.length_append, List.length_cons, List.length_cons, List.length_nil]
      omega
    rcases others after info with failure | ⟨undefined, last⟩ | ⟨room, final, ended, appended⟩
    · exact .inl failure
    · exact .inr (.inl ⟨undefined, length ▸ last⟩)
    · refine .inr (.inr ⟨length ▸ room, final, ended, ?_⟩)
      rw [appended, info, List.append_assoc, List.singleton_append]

theorem setProcInfosFrom_appends (faults : Int32 → ProcInfoFaults) (key : CString) (iv : Infovec)
    (started : i + remaining = map.nodeids.length) :
    Appends iv (procInfosFrom key map i) (∃ i, (faults i).Some)
      (setProcInfosFrom faults key map remaining (.ofNat i) (some iv)) := by
  induction remaining generalizing i iv with
  | zero =>
    have none : procInfosFrom key map i = [] := by
      rw [procInfosFrom, List.drop_of_length_le (by rw [List.length_finRange]; omega), List.map_nil]
    rw [none]
    exact .inr (.inr ⟨iv.count_le, iv, rfl, (List.append_nil _).symm⟩)
  | succ remaining ih =>
    have within : i < map.nodeids.length := by omega
    have split : procInfosFrom key map i = procInfoAt key map ⟨i, within⟩ :: procInfosFrom key map (i + 1) := by
      rw [procInfosFrom, List.drop_eq_getElem_cons (by rwa [List.length_finRange]), List.getElem_finRange]
      rfl
    rw [split]
    have first := setProcInfo_appends (faults (.ofNat i)) key iv ⟨i, within⟩
    apply (first.imp fun failed => ⟨_, failed⟩).cons
    intro after _
    have later := ih after (i := i + 1) (by omega)
    rw [Int32.ofNat_add i 1] at later
    exact later

theorem setProcInfos_appends (faults : Int32 → ProcInfoFaults) (key : CString) (map : TaskMap) (iv : Infovec) :
    Appends iv (procInfosFrom key map 0) (∃ i, (faults i).Some)
      (setProcInfos faults key map (.ofNat map.nodeids.length) (some iv)) := by
  rw [setProcInfos, toNat_ofNat_counted map.tasksCounted]
  exact setProcInfosFrom_appends faults key iv (Nat.zero_add _)

theorem procInfosFrom_zero (key : CString) (map : TaskMap) :
    procInfosFrom key map 0 = (List.finRange map.nodeids.length).map (procInfoAt key map) := rfl

theorem procInfosFrom_length (key : CString) (map : TaskMap) :
    (procInfosFrom key map 0).length = map.nodeids.length := by
  rw [procInfosFrom_zero, List.length_map, List.length_finRange]

/-! ### Which entries are right -/

section
variable (narrow : ∀ nodeid, map.nodeids.count nodeid ≤ 65536)
include narrow

theorem localRank_narrow (i : Fin map.nodeids.length) :
    (Int32.ofNat (localRank map.nodeids i)).toUInt32.toUInt16.toNat = localRank map.nodeids i := by
  have below := localRank_lt i
  have bound := narrow map.nodeids[i]
  rw [toUInt16_ofNat_counted (Nat.le_trans (Nat.le_of_lt below) (map.count_le _))]
  exact Nat.mod_eq_of_lt (Nat.lt_of_lt_of_le below bound)

omit narrow in
theorem nodeid_exact (i : Fin map.nodeids.length) :
    (Int32.ofNat map.nodeids[i]).toUInt32.toNat = map.nodeids[i] :=
  toUInt32_ofNat_counted (map.node_counted i.isLt)

theorem procInfoAt_isProcInfo (key : CString) (i : Fin map.nodeids.length) :
    IsProcInfo key map i (procInfoAt key map i) := by
  have rank := toUInt32_ofNat_counted (map.task_counted i.isLt)
  have smaller := (localRank_narrow narrow i).trans (localRank_take i)
  exact ⟨_, _, _, _, rfl, rank, nodeid_exact i, smaller, smaller⟩

theorem nodeLocalRank_procInfoAt (key : CString) (i : Fin map.nodeids.length) :
    nodeLocalRank (procInfoAt key map i) = some (map.nodeids[i], localRank map.nodeids i) := by
  have published : nodeLocalRank (procInfoAt key map i) = some ((Int32.ofNat map.nodeids[i]).toUInt32.toNat,
      (Int32.ofNat (localRank map.nodeids i)).toUInt32.toUInt16.toNat) := rfl
  rw [published, nodeid_exact i, localRank_narrow narrow i]

theorem procInfos_published (key : CString) : Publishes key map (procInfosFrom key map 0) := by
  have pairs : (procInfosFrom key map 0).map nodeLocalRank =
      (List.finRange map.nodeids.length).map (fun i => some (map.nodeids[i], localRank map.nodeids i)) := by
    rw [procInfosFrom_zero, List.map_map]
    exact List.map_congr_left fun i _ => nodeLocalRank_procInfoAt narrow key i
  constructor
  · exact procInfosFrom_length key map
  · intro i
    refine ⟨procInfoAt key map i, ?_, procInfoAt_isProcInfo narrow key i⟩
    rw [procInfosFrom_zero, List.getElem?_map, List.getElem?_eq_getElem (by rw [List.length_finRange]; exact i.isLt),
      List.getElem_finRange]
    rfl
  · intro nodeid r
    rw [pairs, List.mem_map]
    constructor
    · rintro ⟨i, _, same⟩
      obtain ⟨rfl, rfl⟩ := Prod.mk.inj (Option.some.inj same)
      exact localRank_lt i
    · intro ranked
      obtain ⟨i, placed, rfl⟩ := localRank_surj ranked
      exact ⟨i, List.mem_finRange i, congrArg (fun k => some (k, localRank map.nodeids i)) placed⟩
  · rw [pairs]
    refine (List.nodup_finRange _).map ?_
    intro i j same
    obtain ⟨samePlace, sameRank⟩ := Prod.mk.inj (Option.some.inj same)
    exact localRank_inj samePlace sameRank

end

/-- Without failing allocations the call runs to its end, or the array is full on the way. -/
theorem setProcInfos_faultless (exact : ProcInfosExact key map iv) :
    iv.info.length + map.nodeids.length ≤ infovecMax ∧ ∃ entries, Publishes key map entries := by
  obtain ⟨rc, after, ended, result⟩ := exact fun _ => {}
  rcases setProcInfos_appends (fun _ => {}) key map iv with
    ⟨_, _, create | ⟨j, realloc | calloc⟩⟩ | ⟨undefined, _⟩ | ⟨room, final, appended, _⟩
  · contradiction
  · contradiction
  · contradiction
  · cases ended.symm.trans undefined
  · rw [procInfosFrom_length] at room
    refine ⟨room, ?_⟩
    cases ended.symm.trans appended
    obtain refused | ⟨_, entries, _, published⟩ := result
    · cases refused
    · exact ⟨entries, published⟩

theorem published_narrow (published : Publishes key map entries) (nodeid : Nat) :
    map.nodeids.count nodeid ≤ 65536 := by
  by_contra crowded
  obtain ⟨i, _, last⟩ := localRank_surj (r := 65536) (Nat.lt_of_not_le crowded)
  obtain ⟨_, _, _, _, lrank, _, _, _, _, smaller, _⟩ := published.exact i
  have bound := lrank.toNat_lt
  rw [smaller, ← localRank_take i, last] at bound
  exact absurd bound (by decide)

/-- The entries are right, or none, exactly when a `uint16_t` can tell the tasks of every node apart
and the array has room for all of them. -/
theorem setProcInfos_exact (key : CString) (map : TaskMap) (iv : Infovec) : ProcInfosExact key map iv ↔
    (∀ nodeid, map.nodeids.count nodeid ≤ 65536) ∧ iv.info.length + map.nodeids.length ≤ infovecMax := by
  constructor
  · intro exact
    obtain ⟨room, entries, published⟩ := setProcInfos_faultless exact
    exact ⟨published_narrow published, room⟩
  · rintro ⟨narrow, room⟩ faults
    rcases setProcInfos_appends faults key map iv with
      ⟨⟨after, refused⟩, _⟩ | ⟨_, full⟩ | ⟨_, after, ended, appended⟩
    · exact ⟨-1, after, refused, .inl rfl⟩
    · rw [procInfosFrom_length] at full
      exact absurd room (Nat.not_le_of_lt full)
    · exact ⟨0, after, ended, .inr ⟨rfl, _, appended, procInfos_published narrow key⟩⟩

/-- One task more on a node than a `uint16_t` can tell apart. -/
def crowdedMap : TaskMap where
  nodeids := List.replicate 65537 0
  nnodes := 1
  placed nodeid member := by
    rw [List.eq_of_mem_replicate member]
    exact Nat.one_pos
  tasksCounted := by
    rw [List.length_replicate]
    decide
  nodesCounted := by decide

/-- No `uint16_t` is left for the local rank of the last of them. -/
theorem setProcInfos_crowded :
    ∃ iv, infovecCreate false = some iv ∧ ¬ ProcInfosExact pmixProcInfoArray crowdedMap iv := by
  refine ⟨_, rfl, fun exact => ?_⟩
  obtain ⟨_, entries, published⟩ := setProcInfos_faultless exact
  have bound := published_narrow published 0
  have tasks : crowdedMap.nodeids.count 0 = 65537 := List.count_replicate_self
  rw [tasks] at bound
  exact absurd bound (by decide)

end FluxPmix

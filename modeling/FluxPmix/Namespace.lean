import FluxPmix.InfovecHeap
import FluxPmix.MapsHeap
import FluxPmix.ProcInfos

/-! The namespace of a job, as a shell registers it with its PMIx server: what is published about the job, and
that nothing is left allocated, whichever allocation fails on the way. -/
namespace FluxPmix.Owned
open Blocks

def pmixJobid : CString := cString (literal "pmix.jobid")

def pmixLocalPeers : CString := cString (literal "pmix.lpeers")

def pmixNodeMap : CString := cString (literal "pmix.nmap")

def pmixProcMap : CString := cString (literal "pmix.pmap")

def pmixTdirRmclean : CString := cString (literal "pmix.tdir.rmclean")

def pmixJobNumApps : CString := cString (literal "pmix.job.napps")

def pmixTmpdir : CString := cString (literal "pmix.tmpdir")

def pmixLocalSize : CString := cString (literal "pmix.local.size")

def pmixUnivSize : CString := cString (literal "pmix.univ.size")

def pmixJobSize : CString := cString (literal "pmix.job.size")

def pmixAppnum : CString := cString (literal "pmix.appnum")

/-- What other libraries make of their arguments. The strings are allocated, and NULL or no success where
there is none. -/
structure Libraries where
  idsetEncode : List Nat → Option CString
  taskmapEncode : TaskMap → Option CString
  generateRegex : CString → Option CString
  generatePpn : CString → Option CString

/-- What the namespace is made of, with the info of the shell that the hosts are in. -/
structure Job where
  nspace : CString
  shellRank : Int32
  localNprocs : Int32
  totalNprocs : Int32
  taskmap : TaskMap
  jobTmpdir : CString
  info : Json

/-- A setter, applied to the array. -/
abbrev Setter := Infovec → Prog (Int32 × Infovec)

/-- `a < 0 || b < 0 || ...`, as far as it is evaluated. -/
def orElse : List Setter → Setter
  | [], iv => pure (0, iv)
  | set :: rest, iv => do
    let (rc, iv) ← set iv
    if rc < 0 then
      return (-1, iv)
    orElse rest iv


/-- A string that a library allocates. -/
def allocated (text : Option CString) : Prog (Option (Block × CString)) :=
  match text with
  | none => return none
  | some text => do
    let some block ← Blocks.malloc | return none
    return some (block, text)

def setLpeers (lib : Libraries) (key : CString) (taskmap : TaskMap) (shellRank : Int32) : Setter := fun iv => do
  let some (block, s) ← allocated ((taskmapTaskids taskmap shellRank).bind lib.idsetEncode) | return (-1, iv)
  let (rc, iv) ← infovecSetStrNew iv key block s
  if rc < 0 then
    free block
    return (-1, iv)
  return (0, iv)

/-- What `set_node_map` and `set_proc_map` share. -/
def setMap (key : CString) (create : Prog (Option (Block × CString))) (generate : CString → Option CString) :
    Setter := fun iv => do
  let some (raw, text) ← create | return (-1, iv)
  let some (cooked, s) ← allocated (generate text) | do
    free raw
    return (-1, iv)
  let (rc, iv) ← infovecSetStrNew iv key cooked s
  if rc < 0 then
    free cooked
    free raw
    return (-1, iv)
  free raw
  return (0, iv)

def setNodeMap [Hostlist] (lib : Libraries) (key : CString) (info : Json) : Setter :=
  setMap key (mapsNodeCreate info) lib.generateRegex

def setProcMap (lib : Libraries) (key : CString) (taskmap : TaskMap) : Setter :=
  setMap key (allocated (lib.taskmapEncode taskmap)) lib.generatePpn

/-- The array of a rank, stored under the key. -/
def putProcInfo (key : CString) (i nodeid localRank : Int32) : Setter := fun iv => do
  let some ri ← infovecCreate | return (-1, iv)
  let (rc, ri) ← orElse [(infovecSetRank · pmixRank i.toUInt32),
    (infovecSetU32 · pmixNodeid nodeid.toUInt32),
    (infovecSetU16 · pmixLocalRank localRank.toUInt32.toUInt16),
    (infovecSetU16 · pmixNodeRank localRank.toUInt32.toUInt16)] ri
  if rc < 0 then
    infovecDestroy (some ri)
    return (-1, iv)
  let (rc, iv) ← infovecSetInfovecNew iv key ri
  if rc < 0 then
    infovecDestroy (some ri)
    return (-1, iv)
  return (0, iv)

/-- The body of the loop. -/
def setProcInfo (key : CString) (map : TaskMap) (i : Int32) : Setter := fun iv =>
  let nodeid := taskmapNodeid map i
  if nodeid < 0 then return (-1, iv)
  else
    let localRank := getLocalRank map nodeid i
    if localRank < 0 then return (-1, iv) else putProcInfo key i nodeid localRank iv

/-- The loop over the ranks below `totalNprocs`. -/
def setProcInfos (key : CString) (map : TaskMap) (totalNprocs : Int32) : Setter :=
  orElse ((List.range totalNprocs.toNatClampNeg).map fun i => setProcInfo key map (.ofNat i))

def namespaceInfos [Hostlist] (lib : Libraries) (job : Job) : List Setter :=
  [(infovecSetStr · pmixJobid job.nspace),
    setLpeers lib pmixLocalPeers job.taskmap job.shellRank,
    setNodeMap lib pmixNodeMap job.info,
    setProcMap lib pmixProcMap job.taskmap,
    (infovecSetBool · pmixTdirRmclean true),
    (infovecSetU32 · pmixJobNumApps 1),
    (infovecSetStr · pmixTmpdir job.jobTmpdir),
    (infovecSetU32 · pmixLocalSize job.localNprocs.toUInt32),
    (infovecSetU32 · pmixUnivSize job.totalNprocs.toUInt32),
    (infovecSetU32 · pmixJobSize job.totalNprocs.toUInt32),
    (infovecSetU32 · pmixAppnum 0),
    setProcInfos pmixProcInfoArray job.taskmap job.totalNprocs]

/-- The end of `px_init`: its return code and what `PMIx_server_register_nspace` is given, if it is called. -/
def registerNspace [Hostlist] (lib : Libraries) (job : Job) (registers : Bool) :
    Prog (Int32 × Option (List InfovecEntry)) := do
  let some iv ← infovecCreate | return (-1, none)
  let (rc, iv) ← orElse (namespaceInfos lib job) iv
  if rc < 0 then
    infovecDestroy (some iv)
    return (-1, none)
  let infos := contents iv.info
  infovecDestroy (some iv)
  return (if registers then 0 else -1, some infos)

/-! ### What a setter adds -/

/-- With room for so many entries the setter adds some of those it may, or fails for want of memory or where
there may be none. It holds what the array holds. -/
structure Adds (lack : Prop) (set : Setter) (count : Nat) (entries : Set (Option (List InfovecEntry))) :
    Prop where
  possible : entries.Nonempty
  adds : ∀ iv, iv.info.length + count ≤ infovecMax → Triple lack iv.owned (set iv) fun out own => own = out.2.owned ∧
    (out.1 = -1 ∧ (none ∈ entries ∨ lack) ∨ out.1 = 0 ∧ ∃ added, some added ∈ entries ∧
      added.length ≤ count ∧ contents out.2.info = contents iv.info ++ added)

/-- The entries of both, if both are there. -/
def both (part rest : Option (List InfovecEntry)) : Option (List InfovecEntry) := do
  let added ← part
  let more ← rest
  return added ++ more

def allOf (parts : List (Option (List InfovecEntry))) : Option (List InfovecEntry) := parts.foldr both (some [])

/-- The entry of a string. -/
def textEntry (key : CString) (text : Option CString) : Option (List InfovecEntry) :=
  text.map fun text => [(strlcpy pmixMaxKeylen key.bytes, .string text)]

variable {lack : Prop} {iv after : Infovec} {key val : CString} {value : Value} {set : Setter}
  {entries : List InfovecEntry}

theorem contents_length (info : List Entry) : (contents info).length = info.length := by
  rw [contents_eq, List.length_map]

/-- What the setter of infos only stored. -/
theorem infovecSet_stored {one other : FluxPmix.Infovec} {value : InfovecValue}
    (set : FluxPmix.infovecSet fault (some one) (some key) value = .ok (0, some other)) :
    other.info = one.info ++ [(strlcpy pmixMaxKeylen key.bytes, value)] := by
  rcases infovecSet_cases fault one key value with ⟨undefined, _⟩ | ⟨_, ⟨refused, _⟩ | ⟨after, stored, info⟩⟩
  · cases undefined.symm.trans set
  · cases refused.symm.trans set
  · cases stored.symm.trans set
    exact info

/-- A value without pointers. -/
theorem infovecSet_adds (key : CString) (plain : value.owned = 0) :
    Adds lack (infovecSet · key value) 1 {some [(strlcpy pmixMaxKeylen key.bytes, value.content)]} := by
  refine ⟨Set.singleton_nonempty _, fun iv room => ?_⟩
  have spec := @infovecSet_spec lack iv room key value
  rw [plain, add_zero] at spec
  refine spec.mono ?_
  rintro ⟨rc, after⟩ own ⟨⟨fault, set⟩, _, ⟨stored, rfl⟩ | ⟨refused, rfl, failed⟩⟩
  · obtain rfl : rc = 0 := stored
    exact ⟨rfl, .inr ⟨rfl, _, rfl, le_rfl, infovecSet_stored set⟩⟩
  · exact ⟨add_zero _, .inl ⟨refused, .inr failed⟩⟩

theorem infovecSetRank_adds (key : CString) (value : UInt32) :
    Adds lack (infovecSetRank · key value) 1 {some [(strlcpy pmixMaxKeylen key.bytes, .procRank value)]} :=
  infovecSet_adds key rfl

theorem infovecSetU32_adds (key : CString) (value : UInt32) :
    Adds lack (infovecSetU32 · key value) 1 {some [(strlcpy pmixMaxKeylen key.bytes, .uint32 value)]} :=
  infovecSet_adds key rfl

theorem infovecSetU16_adds (key : CString) (value : UInt16) :
    Adds lack (infovecSetU16 · key value) 1 {some [(strlcpy pmixMaxKeylen key.bytes, .uint16 value)]} :=
  infovecSet_adds key rfl

theorem infovecSetBool_adds (key : CString) (value : Bool) :
    Adds lack (infovecSetBool · key value) 1 {some [(strlcpy pmixMaxKeylen key.bytes, .bool value)]} :=
  infovecSet_adds key rfl

theorem infovecSetStr_adds (key val : CString) :
    Adds lack (infovecSetStr · key val) 1 {textEntry key (some val)} := by
  refine ⟨Set.singleton_nonempty _, fun iv room => ?_⟩
  refine (infovecSetStr_spec room key val).mono ?_
  rintro ⟨rc, after⟩ own ⟨⟨fault, set⟩, _, ⟨stored, rfl⟩ | ⟨refused, rfl, failed⟩⟩
  · obtain rfl : rc = 0 := stored
    simp only [FluxPmix.infovecSetStr] at set
    split at set
    · cases set
    · exact ⟨rfl, .inr ⟨rfl, _, rfl, le_rfl, infovecSet_stored set⟩⟩
  · exact ⟨add_zero _, .inl ⟨refused, .inr failed⟩⟩

theorem allocated_makes (text : Option CString) : Makes lack (allocated text) {text} := by
  refine ⟨Set.singleton_nonempty _, ?_⟩
  cases text with
  | none => exact Triple.pure (.inl ⟨rfl, rfl, .inl rfl⟩)
  | some s =>
    refine Triple.malloc.bind ?_
    rintro block _ ⟨rfl, failed⟩
    cases block with
    | none => exact Triple.pure (.inl ⟨rfl, rfl, .inr (failed rfl)⟩)
    | some block => exact Triple.pure (.inr ⟨block, s, rfl, rfl, rfl⟩)

/-- A string is the array's or is freed. -/
theorem setStrNew_adds {block : Block} {s : CString} {extra : Multiset Block}
    {later : Int32 × Infovec → Prog (Int32 × Infovec)} {post : Int32 × Infovec → Multiset Block → Prop}
    (room : iv.info.length < infovecMax)
    (stored : ∀ after : Infovec, contents after.info =
      contents iv.info ++ [(strlcpy pmixMaxKeylen key.bytes, .string s)] →
      Triple lack (after.owned + extra) (later (0, after)) post)
    (refused : ∀ after : Infovec, lack →
      Triple lack (after.owned + {block} + extra) (later (-1, after)) post) :
    Triple lack (iv.owned + {block} + extra) (infovecSetStrNew iv key block s >>= later) post := by
  refine (infovecSet_spec room key (.string block s)).step rfl ?_
  rintro ⟨rc, after⟩ own ⟨⟨fault, set⟩, _, ⟨ok, rfl⟩ | ⟨failed, rfl, why⟩⟩
  · obtain rfl : rc = 0 := ok
    exact stored after (infovecSet_stored set)
  · obtain rfl : rc = -1 := failed
    exact refused after why

theorem setLpeers_adds (lib : Libraries) (key : CString) (taskmap : TaskMap) (shellRank : Int32) :
    Adds lack (setLpeers lib key taskmap shellRank) 1
      {textEntry key ((taskmapTaskids taskmap shellRank).bind lib.idsetEncode)} := by
  refine ⟨Set.singleton_nonempty _, fun iv room => ?_⟩
  refine (allocated_makes _).makes.step (zero_add _).symm ?_
  rintro made _ (⟨rfl, rfl, why⟩ | ⟨block, s, rfl, rfl, found⟩)
  · rw [zero_add]
    exact Triple.pure ⟨rfl, .inl ⟨rfl, why.imp_left (congrArg (textEntry key))⟩⟩
  · have order : {block} + iv.owned = iv.owned + {block} + 0 := by rw [add_zero, add_comm]
    rw [order]
    refine setStrNew_adds room (fun after info => ?_) (fun after why => ?_)
    · exact Triple.pure ⟨add_zero _, .inr ⟨rfl, _, congrArg (textEntry key) found, le_rfl, info⟩⟩
    · rw [add_zero, add_comm]
      exact Triple.free.release (Triple.pure ⟨rfl, .inl ⟨rfl, .inr why⟩⟩)

theorem setMap_adds {create : Prog (Option (Block × CString))} {texts : Set (Option CString)} (key : CString)
    (made : Makes lack create texts) (generate : CString → Option CString) :
    Adds lack (setMap key create generate) 1 ((fun raw => textEntry key (raw.bind generate)) '' texts) := by
  refine ⟨made.possible.image _, fun iv room => ?_⟩
  refine made.makes.step (zero_add _).symm ?_
  rintro made _ (⟨rfl, rfl, why⟩ | ⟨raw, text, rfl, rfl, found⟩)
  · rw [zero_add]
    exact Triple.pure ⟨rfl, .inl ⟨rfl, why.imp_left fun none => ⟨_, none, rfl⟩⟩⟩
  · refine (allocated_makes _).makes.step (zero_add _).symm ?_
    rintro made _ (⟨rfl, rfl, why⟩ | ⟨cooked, s, rfl, rfl, generated⟩)
    · rw [zero_add]
      refine Triple.free.release (Triple.pure ⟨rfl, .inl ⟨rfl, why.imp_left fun none => ?_⟩⟩)
      exact ⟨_, found, congrArg (textEntry key) none.symm⟩
    · have order : {cooked} + ({raw} + iv.owned) = iv.owned + {cooked} + {raw} := by ac_rfl
      rw [order]
      refine setStrNew_adds room (fun after info => ?_) (fun after why => ?_)
      · have made := congrArg (textEntry key) generated.symm
        rw [add_comm]
        exact Triple.free.release (Triple.pure ⟨rfl, .inr ⟨rfl, _, ⟨_, found, made⟩, le_rfl, info⟩⟩)
      · have order : after.owned + {cooked} + {raw} = {cooked} + ({raw} + after.owned) := by ac_rfl
        rw [order]
        exact Triple.free.release (Triple.free.release (Triple.pure ⟨rfl, .inl ⟨rfl, .inr why⟩⟩))

/-- One setter and then others. -/
theorem Adds.cons {sets : List Setter} {part rest : Set (Option (List InfovecEntry))} {count more : Nat}
    (first : Adds lack set count part) (others : Adds lack (orElse sets) more rest) :
    Adds lack (orElse (set :: sets)) (count + more) (Set.image2 both part rest) := by
  refine ⟨first.possible.image2 others.possible, fun iv room => ?_⟩
  refine (first.adds iv (by omega)).bind ?_
  rintro ⟨rc, after⟩ _ ⟨rfl, ⟨refused, why⟩ | ⟨stored, added, found, short, info⟩⟩
  · obtain rfl : rc = -1 := refused
    obtain ⟨other, possible⟩ := others.possible
    exact Triple.pure ⟨rfl, .inl ⟨rfl, why.imp_left fun none => ⟨_, none, other, possible, rfl⟩⟩⟩
  · obtain rfl : rc = 0 := stored
    have length : after.info.length = iv.info.length + added.length := by
      rw [← contents_length, info, List.length_append, contents_length]
    refine (others.adds after (by omega)).mono ?_
    rintro ⟨rc, final⟩ _ ⟨rfl, ⟨refused, why⟩ | ⟨ended, later, foundLater, shortLater, infoLater⟩⟩
    · exact ⟨rfl, .inl ⟨refused, why.imp_left fun none => ⟨_, found, _, none, rfl⟩⟩⟩
    · refine ⟨rfl, .inr ⟨ended, added ++ later, ⟨_, found, _, foundLater, rfl⟩, ?_, ?_⟩⟩
      · rw [List.length_append]
        omega
      · rw [infoLater, info, List.append_assoc]

theorem orElse_nil : Adds lack (orElse []) 0 {some []} := by
  refine ⟨Set.singleton_nonempty _, fun iv _ => ?_⟩
  exact Triple.pure ⟨rfl, .inr ⟨rfl, [], rfl, Nat.le_refl 0, (List.append_nil _).symm⟩⟩

/-- A chain of setters adds what they all add. -/
theorem orElse_adds {A : Type} (sets : A → Setter) (parts : A → Option (List InfovecEntry)) (items : List A)
    (adds : ∀ a ∈ items, Adds lack (sets a) 1 {parts a}) :
    Adds lack (orElse (items.map sets)) items.length {allOf (items.map parts)} := by
  induction items with
  | nil => exact orElse_nil
  | cons a rest ih =>
    have first := adds a List.mem_cons_self
    have others := ih fun b member => adds b (List.mem_cons_of_mem a member)
    have chained := first.cons others
    rw [Set.image2_singleton, Nat.add_comm] at chained
    exact chained

/-! ### The infos of the ranks -/

/-- The entry of rank `i`, if it is placed. -/
def procInfoEntries (key : CString) (map : TaskMap) (i : Nat) : Option (List InfovecEntry) :=
  if within : i < map.nodeids.length then some [procInfoAt key map ⟨i, within⟩] else none

theorem infovecSetInfovecNew_stored {one val other : FluxPmix.Infovec}
    (set : FluxPmix.infovecSetInfovecNew fault (some one) (some key) (some val) = .ok (0, some other)) :
    other.info = one.info ++ [(strlcpy pmixMaxKeylen key.bytes, .dataArray (some val.info))] := by
  rcases infovecSetInfovecNew_cases fault one key val with
    ⟨undefined, _⟩ | ⟨_, ⟨after, refused, _⟩ | ⟨after, stored, info⟩⟩
  · cases undefined.symm.trans set
  · cases refused.symm.trans set
  · cases stored.symm.trans set
    exact info

/-- The array of a rank is stolen or is destroyed. -/
theorem putProcInfo_adds (key : CString) (i nodeid localRank : Int32) :
    Adds lack (putProcInfo key i nodeid localRank) 1 {some [procInfoEntry key i.toUInt32 nodeid.toUInt32
      localRank.toUInt32.toUInt16 localRank.toUInt32.toUInt16]} := by
  have sets := (@infovecSetRank_adds lack pmixRank i.toUInt32).cons
    ((infovecSetU32_adds pmixNodeid nodeid.toUInt32).cons
      ((infovecSetU16_adds pmixLocalRank localRank.toUInt32.toUInt16).cons
        ((infovecSetU16_adds pmixNodeRank localRank.toUInt32.toUInt16).cons orElse_nil)))
  simp only [Set.image2_singleton] at sets
  refine ⟨Set.singleton_nonempty _, fun iv room => ?_⟩
  refine infovecCreate_spec.step (zero_add _).symm ?_
  rintro ri _ ⟨rfl, _, failed, empty⟩
  cases ri with
  | none => exact Triple.pure ⟨zero_add _, .inl ⟨rfl, .inr (failed rfl)⟩⟩
  | some ri =>
    have nothing : ri.info = [] := empty ri rfl
    refine (sets.adds ri (by rw [nothing]; decide)).step rfl ?_
    rintro ⟨rc, filled⟩ _ ⟨rfl, ⟨refused, why⟩ | ⟨stored, added, found, short, info⟩⟩
    · obtain rfl : rc = -1 := refused
      have failed := why.resolve_left fun none => by cases none
      exact (infovecDestroy_owned (some filled)).release (Triple.pure ⟨rfl, .inl ⟨rfl, .inr failed⟩⟩)
    · obtain rfl : rc = 0 := stored
      cases found
      rw [nothing] at info
      have order : filled.owned + iv.owned = iv.owned + filled.owned + 0 := by rw [add_zero, add_comm]
      refine (infovecSetInfovecNew_spec room key filled).step order ?_
      rintro ⟨rc, after⟩ own ⟨⟨fault, set⟩, _, ⟨kept, rfl⟩ | ⟨refused, rfl, why⟩⟩
      · obtain rfl : rc = 0 := kept
        have contents : after.content.info = _ := infovecSetInfovecNew_stored set
        have inside : filled.content.info = _ := info
        rw [inside] at contents
        exact Triple.pure ⟨add_zero _, .inr ⟨rfl, _, rfl, le_rfl, contents⟩⟩
      · obtain rfl : rc = -1 := refused
        rw [add_zero, add_comm]
        exact (infovecDestroy_owned (some filled)).release (Triple.pure ⟨rfl, .inl ⟨rfl, .inr why⟩⟩)

variable {map : TaskMap} {i : Nat}

theorem taskmapNodeid_none (counted : i ≤ intMax) (missing : map.nodeids.length ≤ i) :
    taskmapNodeid map (.ofNat i) = -1 := by
  have nonneg : ¬ Int32.ofNat i < 0 := Int32.not_lt.mpr (ofNat_nonneg_counted counted)
  simp only [taskmapNodeid, nonneg, if_false, toNat_ofNat_counted counted, List.getElem?_eq_none missing]

theorem setProcInfo_adds (key : CString) (map : TaskMap) (counted : i ≤ intMax) :
    Adds lack (setProcInfo key map (.ofNat i)) 1 {procInfoEntries key map i} := by
  refine ⟨Set.singleton_nonempty _, fun iv room => ?_⟩
  by_cases within : i < map.nodeids.length
  · have placed : taskmapNodeid map (.ofNat i) = .ofNat map.nodeids[i] := taskmapNodeid_ofNat map within
    have ranked : getLocalRank map (.ofNat map.nodeids[i]) (.ofNat i) =
        .ofNat (Placement.localRank map.nodeids ⟨i, within⟩) := getLocalRank_spec ⟨i, within⟩
    have rankCounted : Placement.localRank map.nodeids ⟨i, within⟩ ≤ intMax :=
      Nat.le_of_lt (Nat.lt_of_lt_of_le (Placement.localRank_lt ⟨i, within⟩) (map.count_le _))
    have nodeNonneg : ¬ Int32.ofNat map.nodeids[i] < 0 :=
      Int32.not_lt.mpr (ofNat_nonneg_counted (map.node_counted within))
    have rankNonneg : ¬ Int32.ofNat (Placement.localRank map.nodeids ⟨i, within⟩) < 0 :=
      Int32.not_lt.mpr (ofNat_nonneg_counted rankCounted)
    simp only [setProcInfo, placed, ranked, nodeNonneg, rankNonneg, if_false]
    rw [procInfoEntries, dif_pos within]
    exact (putProcInfo_adds key _ _ _).adds iv room
  · rw [procInfoEntries, dif_neg within]
    simp only [setProcInfo, taskmapNodeid_none counted (Nat.le_of_not_lt within)]
    exact Triple.pure ⟨rfl, .inl ⟨rfl, .inl rfl⟩⟩

theorem both_assoc (one other third : Option (List InfovecEntry)) :
    both (both one other) third = both one (both other third) := by
  cases one <;> cases other <;> cases third <;> simp [both]

theorem both_nil (part : Option (List InfovecEntry)) : both part (some []) = part := by
  cases part <;> simp [both]

theorem allOf_append (one other : List (Option (List InfovecEntry))) :
    allOf (one ++ other) = both (allOf one) (allOf other) := by
  induction one with
  | nil =>
    have nothing (part : Option (List InfovecEntry)) : both (some []) part = part := by cases part <;> rfl
    exact (nothing _).symm
  | cons part rest ih =>
    change both part (allOf (rest ++ other)) = both (both part (allOf rest)) (allOf other)
    rw [ih, both_assoc]

/-- There is an entry for every rank exactly if every rank is placed. -/
theorem procInfoEntries_all (key : CString) (map : TaskMap) (n : Nat) :
    allOf ((List.range n).map (procInfoEntries key map)) =
      if n ≤ map.nodeids.length then some ((procInfosFrom key map 0).take n) else none := by
  induction n with
  | zero => rfl
  | succ n ih =>
    rw [List.range_succ, List.map_append, allOf_append, ih]
    change both _ (both (procInfoEntries key map n) (some [])) = _
    rw [both_nil]
    by_cases within : n + 1 ≤ map.nodeids.length
    · have entry : (procInfosFrom key map 0)[n]? = some (procInfoAt key map ⟨n, within⟩) := by
        rw [procInfosFrom_zero, List.getElem?_map, List.getElem?_eq_getElem (by rwa [List.length_finRange]),
          List.getElem_finRange]
        rfl
      have placed : procInfoEntries key map n = some [procInfoAt key map ⟨n, within⟩] := dif_pos within
      rw [if_pos (Nat.le_of_succ_le within), if_pos within, List.take_add_one, entry, placed]
      rfl
    · have missing : procInfoEntries key map n = none := dif_neg within
      rw [if_neg within, missing]
      split <;> rfl

theorem setProcInfos_adds (key : CString) (map : TaskMap) (totalNprocs : Int32) :
    Adds lack (setProcInfos key map totalNprocs) totalNprocs.toNatClampNeg
      {allOf ((List.range totalNprocs.toNatClampNeg).map (procInfoEntries key map))} := by
  have placed : ∀ i ∈ List.range totalNprocs.toNatClampNeg,
      Adds lack (setProcInfo key map (.ofNat i)) 1 {procInfoEntries key map i} := by
    intro i member
    have below := List.mem_range.mp member
    have bound := totalNprocs.toNatClampNeg_lt
    exact setProcInfo_adds key map (by rw [intMax]; omega)
  have adds := orElse_adds _ _ _ placed
  rw [List.length_range] at adds
  exact adds

/-! ### The namespace -/

/-- The infos that are published, if the libraries make the texts among them and every rank is placed. -/
def namespaceEntries (lib : Libraries) (job : Job) (nodeMap : Option CString) : Option (List InfovecEntry) := do
  let lpeers ← (taskmapTaskids job.taskmap job.shellRank).bind lib.idsetEncode
  let nodeMap ← nodeMap.bind lib.generateRegex
  let procMap ← (lib.taskmapEncode job.taskmap).bind lib.generatePpn
  let nprocs := job.totalNprocs.toNatClampNeg
  let named (key : CString) (value : InfovecValue) : InfovecEntry := (strlcpy pmixMaxKeylen key.bytes, value)
  if nprocs ≤ job.taskmap.nodeids.length then
    return [named pmixJobid (.string job.nspace), named pmixLocalPeers (.string lpeers),
      named pmixNodeMap (.string nodeMap), named pmixProcMap (.string procMap), named pmixTdirRmclean (.bool true),
      named pmixJobNumApps (.uint32 1), named pmixTmpdir (.string job.jobTmpdir),
      named pmixLocalSize (.uint32 job.localNprocs.toUInt32), named pmixUnivSize (.uint32 job.totalNprocs.toUInt32),
      named pmixJobSize (.uint32 job.totalNprocs.toUInt32), named pmixAppnum (.uint32 0)] ++
      (procInfosFrom pmixProcInfoArray job.taskmap 0).take nprocs
  else none

theorem namespaceInfos_adds [Hostlist] (lib : Libraries) (job : Job) :
    Adds lack (orElse (namespaceInfos lib job)) (11 + job.totalNprocs.toNatClampNeg)
      (namespaceEntries lib job '' nodeMaps lack job.info) := by
  have adds := (@infovecSetStr_adds lack pmixJobid job.nspace).cons
    ((setLpeers_adds lib pmixLocalPeers job.taskmap job.shellRank).cons
    ((setMap_adds pmixNodeMap (mapsNodeCreate_makes job.info) lib.generateRegex).cons
    ((setMap_adds pmixProcMap (allocated_makes (lib.taskmapEncode job.taskmap)) lib.generatePpn).cons
    ((infovecSetBool_adds pmixTdirRmclean true).cons ((infovecSetU32_adds pmixJobNumApps 1).cons
    ((infovecSetStr_adds pmixTmpdir job.jobTmpdir).cons
    ((infovecSetU32_adds pmixLocalSize job.localNprocs.toUInt32).cons
    ((infovecSetU32_adds pmixUnivSize job.totalNprocs.toUInt32).cons
    ((infovecSetU32_adds pmixJobSize job.totalNprocs.toUInt32).cons ((infovecSetU32_adds pmixAppnum 0).cons
    ((setProcInfos_adds pmixProcInfoArray job.taskmap job.totalNprocs).cons orElse_nil)))))))))))
  have count : 1 + (1 + (1 + (1 + (1 + (1 + (1 + (1 + (1 + (1 + (1 + (job.totalNprocs.toNatClampNeg + 0))))))))))) =
      11 + job.totalNprocs.toNatClampNeg := by omega
  simp only [count, procInfoEntries_all, Set.image_singleton, Set.image2_singleton_left, Set.image2_singleton_right,
    Set.image_image, both_nil] at adds
  refine cast (congrArg (Adds lack _ _) (Set.image_congr fun raw _ => ?_)) adds
  rw [namespaceEntries]
  cases (taskmapTaskids job.taskmap job.shellRank).bind lib.idsetEncode with
  | none => rfl
  | some lpeers =>
    cases raw.bind lib.generateRegex with
    | none => rfl
    | some nodeMap =>
      cases (lib.taskmapEncode job.taskmap).bind lib.generatePpn with
      | none => rfl
      | some procMap =>
        by_cases placed : job.totalNprocs.toNatClampNeg ≤ job.taskmap.nodeids.length
        · rw [if_pos placed]
          exact (if_pos placed).symm
        · rw [if_neg placed]
          exact (if_neg placed).symm

/-- With a task for each rank the ranks come last. -/
theorem namespaceEntries_ranks {lib : Libraries} {job : Job} {infos : List InfovecEntry}
    (made : namespaceEntries lib job nodeMap = some infos)
    (complete : job.totalNprocs.toNatClampNeg = job.taskmap.nodeids.length) :
    infos.drop 11 = procInfosFrom pmixProcInfoArray job.taskmap 0 := by
  simp only [namespaceEntries, Option.bind_eq_bind, Option.bind_eq_some_iff] at made
  obtain ⟨lpeers, _, nodeMap, _, procMap, _, made⟩ := made
  rw [if_pos (Nat.le_of_eq complete)] at made
  cases made
  have all : (procInfosFrom pmixProcInfoArray job.taskmap 0).take job.totalNprocs.toNatClampNeg =
      procInfosFrom pmixProcInfoArray job.taskmap 0 :=
    List.take_of_length_le (by rw [procInfosFrom_length, complete])
  exact all

/-- What the call leaves, for one of the node maps that may come of it. -/
def Registered [Hostlist] (lib : Libraries) (job : Job) (registers : Bool) (lack : Prop)
    (out : Int32 × Option (List InfovecEntry)) : Prop :=
  ∃ nodeMap ∈ nodeMaps lack job.info,
    out = (-1, none) ∧ (namespaceEntries lib job nodeMap = none ∨ lack) ∨
    ∃ infos, namespaceEntries lib job nodeMap = some infos ∧ out = (if registers then 0 else -1, some infos) ∧
      ((∀ nodeid, job.taskmap.nodeids.count nodeid ≤ 65536) →
        job.totalNprocs.toNatClampNeg = job.taskmap.nodeids.length →
        Publishes pmixProcInfoArray job.taskmap (infos.drop 11))

theorem registerNspace_spec [Hostlist] (lib : Libraries) (job : Job) (registers : Bool)
    (room : 11 + job.totalNprocs.toNatClampNeg ≤ infovecMax) : Triple lack 0 (registerNspace lib job registers)
      fun out own => own = 0 ∧ Registered lib job registers lack out := by
  obtain ⟨_, text, possible, _⟩ := (@namespaceInfos_adds lack _ lib job).possible
  refine infovecCreate_spec.bind ?_
  rintro iv _ ⟨rfl, _, failed, empty⟩
  cases iv with
  | none => exact Triple.pure ⟨rfl, text, possible, .inl ⟨rfl, .inr (failed rfl)⟩⟩
  | some iv =>
    have nothing : iv.info = [] := empty iv rfl
    refine ((namespaceInfos_adds lib job).adds iv (by rw [nothing]; simpa using room)).bind ?_
    rintro ⟨rc, filled⟩ _ ⟨rfl, ⟨refused, why⟩ | ⟨stored, added, ⟨text, possible, found⟩, _, info⟩⟩
    · obtain rfl : rc = -1 := refused
      refine (infovecDestroy_owned (some filled)).bind ?_
      rintro _ _ rfl
      rcases why with ⟨text, possible, none⟩ | failed
      · exact Triple.pure ⟨rfl, text, possible, .inl ⟨rfl, .inl none⟩⟩
      · exact Triple.pure ⟨rfl, text, possible, .inl ⟨rfl, .inr failed⟩⟩
    · obtain rfl : rc = 0 := stored
      rw [nothing] at info
      refine (infovecDestroy_owned (some filled)).bind ?_
      rintro _ _ rfl
      refine Triple.pure ⟨rfl, text, possible, .inr ⟨added, found, ?_, fun narrow complete => ?_⟩⟩
      · rw [info]
        rfl
      · rw [namespaceEntries_ranks found complete]
        exact procInfos_published narrow _

/-- Whichever allocations fail, what is allocated in the end is what was. The server is given the whole namespace
or, where an allocation failed or a text cannot be made, nothing. -/
theorem namespace_registered [Hostlist] (lib : Libraries) (job : Job) (registers : Bool) (heap : Heap)
    (room : 11 + job.totalNprocs.toNatClampNeg ≤ infovecMax) : ∃ out after,
      registerNspace lib job registers heap = some (out, after) ∧ after.live = heap.live ∧
      Registered lib job registers (heap.Refused after) out :=
  Triple.balanced (fun _ => registerNspace_spec lib job registers room) heap

/-- Of a job of four tasks, two on each of two nodes in turn. -/
def cyclicLibraries : Libraries where
  idsetEncode ids := if ids = [0, 2] then some (cString (literal "0,2")) else none
  taskmapEncode map := if map.nodeids = [0, 1, 0, 1] then some (cString (literal "cyclic")) else none
  generateRegex raw := some (cString (literal "raw:" ++ raw.bytes))
  generatePpn raw := some (cString (literal "raw:" ++ raw.bytes))

def cyclicJob : Job where
  nspace := cString (literal "f1")
  shellRank := 0
  localNprocs := 2
  totalNprocs := 4
  taskmap := cyclicMap
  jobTmpdir := cString (literal "tmp")
  info := nodelistInfo (.array [.string (literal "a"), .string (literal "b")])

theorem cyclicEntries_made (copyFails : Bool) : (namespaceEntries cyclicLibraries cyclicJob
    ((@FluxPmix.mapsNodeCreate singleHosts { copy := copyFails } cyclicJob.info).map cString)).isSome := by
  cases copyFails <;> rfl

/-- Once with the memory it needs, and once without that of the last task's infos. -/
theorem namespace_registered_sample :
    (∃ infos after, @registerNspace singleHosts cyclicLibraries cyclicJob true (.empty fun _ => false) =
      some ((0, some infos), after) ∧ after.live = 0 ∧ Publishes pmixProcInfoArray cyclicMap (infos.drop 11)) ∧
    ∃ after, @registerNspace singleHosts cyclicLibraries cyclicJob true (.empty fun b => b == 24) =
      some ((-1, none), after) ∧ after.live = 0 := by
  constructor
  · obtain ⟨_, after, ran, live, _, ⟨copyFails, _, rfl⟩,
        ⟨rfl, unmade | ⟨_, _, _, failed⟩⟩ | ⟨infos, _, rfl, published⟩⟩ :=
      @namespace_registered singleHosts cyclicLibraries cyclicJob true (.empty fun _ => false) (by decide)
    · have made := cyclicEntries_made copyFails
      rw [unmade] at made
      cases made
    · cases failed
    · refine ⟨infos, after, ran, live, published (fun nodeid => ?_) rfl⟩
      exact (List.count_le_length (l := [0, 1, 0, 1])).trans (by decide)
  · have refused : (@registerNspace singleHosts cyclicLibraries cyclicJob true (.empty fun b => b == 24)).map
        (fun result => result.1.1) = some (-1) := by decide +kernel
    obtain ⟨_, after, ran, live, _, _, ⟨rfl, _⟩ | ⟨infos, _, rfl, _⟩⟩ :=
      @namespace_registered singleHosts cyclicLibraries cyclicJob true (.empty fun b => b == 24) (by decide)
    · exact ⟨after, ran, live⟩
    · rw [ran] at refused
      cases refused

end FluxPmix.Owned

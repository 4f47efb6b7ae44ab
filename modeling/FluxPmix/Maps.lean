import FluxPmix.Codec
import Mathlib.Data.List.Dedup

/-! The node map: the hosts of a job as a comma separated string. Where a host is repeated every name
gets its index, in a buffer for host names, so that the names may be told apart. -/
namespace FluxPmix

/-- A name that a hostlist holds. Commas separate the hosts of a list. -/
structure HostName where
  bytes : List UInt8
  plain : ∀ b ∈ bytes, b ≠ 0 ∧ b ≠ 44

theorem HostName.ext {one other : HostName} (same : one.bytes = other.bytes) : one = other := by
  cases one
  cases other
  cases same
  rfl

instance : DecidableEq HostName := fun one other =>
  decidable_of_iff (one.bytes = other.bytes) ⟨HostName.ext, congrArg HostName.bytes⟩

/-- What is relied on of hostlists: a string expands to hosts or is refused, and `uniq` keeps one of each. -/
class Hostlist where
  expand : CString → Option (List HostName)
  uniq : List HostName → List HostName
  uniq_nodup : ∀ hl, (uniq hl).Nodup
  mem_uniq : ∀ {hl host}, host ∈ uniq hl ↔ host ∈ hl

/-- Which of the calls fail for lack of memory. -/
structure MapsFaults where
  create : Bool := false
  copy : Bool := false
  argzAdd : Nat → Bool := fun _ => false

def hostNameMax : Nat := 64

/-- `%zu`. -/
def decimal (n : Nat) : List UInt8 := (Nat.toDigits 10 n).map (fun c => UInt8.ofNat c.toNat)

/-- `snprintf` of `"%s%zu"` into `newnode`. -/
def newNode (node : List UInt8) (index : Nat) : List UInt8 := (node ++ decimal index).take hostNameMax

/-- `R.execution.nodelist`. -/
def infoNodelist (info : Json) : Option Json := do
  let r ← info.objectGet "R"
  let execution ← r.objectGet "execution"
  execution.objectGet "nodelist"

/-- `argz_add` of each node from `index` on. -/
def addNodes (argzAdd : Nat → Bool) (uniqify : Bool) :
    (index : Nat) → List HostName → Option (List (List UInt8))
  | _, [] => some []
  | index, node :: rest => do
    if argzAdd index then none
    let argz ← addNodes argzAdd uniqify (index + 1) rest
    return (if uniqify then newNode node.bytes index else node.bytes) :: argz

/-- Without an entry `argz` is NULL. -/
def argzStringify : List (List UInt8) → Option (List UInt8)
  | [] => none
  | argz => some ([44].intercalate argz)

section
variable [Hostlist]

def appendHosts : List Json → List HostName → Option (List HostName)
  | [], hl => some hl
  | value :: rest, hl => do
    let s ← value.stringValue
    let hosts ← Hostlist.expand (cString s)
    appendHosts rest (hl ++ hosts)

def containsDuplicates (copyFails : Bool) (hl : List HostName) : Bool :=
  if copyFails then false else (Hostlist.uniq hl).length < hl.length

def mapsNodeCreate (fault : MapsFaults) (info : Json) : Option (List UInt8) := do
  let nodelist ← infoNodelist info
  if fault.create then none
  let hl ← appendHosts nodelist.arrayElements []
  let argz ← addNodes fault.argzAdd (containsDuplicates fault.copy hl) 0 hl
  argzStringify argz

/-- The hosts of the elements, one after the other. -/
def Expands (nodelist : Json) (hosts : List HostName) : Prop :=
  ∃ parts : List (List HostName), hosts = parts.flatten ∧
    nodelist.arrayElements.map (fun value => value.stringValue.bind (fun s => Hostlist.expand (cString s))) =
      parts.map some

end

/-- As many names as hosts, in order, that begin with the hosts and differ, and are the hosts where
these differ already. -/
structure NodeNames (hosts : List HostName) (text : List UInt8) : Prop where
  counted : (text.splitOn 44).length = hosts.length
  named : ∀ i (h : i < hosts.length), ∃ name, (text.splitOn 44)[i]? = some name ∧ hosts[i].bytes <+: name
  distinct : (text.splitOn 44).Nodup
  plain : hosts.Nodup → text.splitOn 44 = hosts.map HostName.bytes

/-- Host `i` is host `j` and something more, which continues with index `i` as index `j` reads, as far
as the buffer goes. -/
def Clash (hosts : List HostName) (i j : Fin hosts.length) : Prop :=
  ∃ more, hosts[i].bytes = hosts[j].bytes ++ more ∧
    (more ++ decimal i).take (hostNameMax - hosts[j].bytes.length) =
      (decimal j).take (hostNameMax - hosts[j].bytes.length)

/-! ### Names with an index -/

theorem decimal_plain (n : Nat) : ∀ b ∈ decimal n, b ≠ 0 ∧ b ≠ 44 := by
  intro b member
  obtain ⟨c, digit, rfl⟩ := List.mem_map.mp member
  have range := Nat.isDigit_of_mem_toDigits (by decide) (by decide) digit
  simp only [Char.isDigit, Bool.and_eq_true, decide_eq_true_eq, ge_iff_le, UInt32.le_iff_toNat_le] at range
  have low : 48 ≤ c.toNat := range.1
  have high : c.toNat ≤ 57 := range.2
  have value : (UInt8.ofNat c.toNat).toNat = c.toNat := UInt8.toNat_ofNat_of_lt' (Nat.lt_of_le_of_lt high (by decide))
  constructor
  · intro same
    rw [same] at value
    exact absurd (value ▸ low) (by decide)
  · intro same
    rw [same] at value
    exact absurd (value ▸ low) (by decide)

/-- Two texts that are cut off agree exactly when one starts the other and the rest agrees. -/
theorem take_append_eq {α : Type} {n : Nat} {a b u v : List α} (short : a.length ≤ n)
    (shortOther : b.length ≤ n) :
    (a ++ u).take n = (b ++ v).take n ↔
      (∃ more, a = b ++ more ∧ (more ++ u).take (n - b.length) = v.take (n - b.length)) ∨
      ∃ more, b = a ++ more ∧ (more ++ v).take (n - a.length) = u.take (n - a.length) := by
  have whole : (a ++ u).take n = a ++ u.take (n - a.length) := by
    rw [List.take_append, List.take_of_length_le short]
  have wholeOther : (b ++ v).take n = b ++ v.take (n - b.length) := by
    rw [List.take_append, List.take_of_length_le shortOther]
  have inside {front more rest : List α} (fits : (front ++ more).length ≤ n) :
      (more ++ rest).take (n - front.length) = more ++ rest.take (n - (front ++ more).length) := by
    rw [List.length_append] at fits ⊢
    rw [List.take_append, List.take_of_length_le (by omega), Nat.sub_sub]
  rw [whole, wholeOther, List.append_eq_append_iff]
  constructor
  · rintro (⟨more, rfl, same⟩ | ⟨more, rfl, same⟩)
    · exact .inr ⟨more, rfl, (inside shortOther).trans same.symm⟩
    · exact .inl ⟨more, rfl, (inside short).trans same.symm⟩
  · rintro (⟨more, rfl, same⟩ | ⟨more, rfl, same⟩)
    · exact .inr ⟨more, rfl, (inside short).symm.trans same |>.symm⟩
    · exact .inl ⟨more, rfl, (inside shortOther).symm.trans same |>.symm⟩

theorem newNode_eq_iff {hosts : List HostName} (short : ∀ host ∈ hosts, host.bytes.length ≤ hostNameMax)
    (i j : Fin hosts.length) : newNode hosts[i].bytes i = newNode hosts[j].bytes j ↔
      Clash hosts i j ∨ Clash hosts j i :=
  take_append_eq (short _ (List.getElem_mem i.isLt)) (short _ (List.getElem_mem j.isLt))

theorem prefix_newNode (node : List UInt8) (index : Nat) :
    node <+: newNode node index ↔ node.length ≤ hostNameMax := by
  constructor
  · intro front
    have bound := front.length_le
    rw [newNode, List.length_take] at bound
    omega
  · intro short
    rw [newNode, List.take_append, List.take_of_length_le short]
    exact List.prefix_append _ _

/-! ### The steps of the function -/

def nodeNames (uniqify : Bool) (index : Nat) (hosts : List HostName) : List (List UInt8) :=
  (hosts.zipIdx index).map (fun node => if uniqify then newNode node.1.bytes node.2 else node.1.bytes)

theorem addNodes_names (added : addNodes argzAdd uniqify index hosts = some argz) :
    argz = nodeNames uniqify index hosts := by
  induction hosts generalizing index argz with
  | nil =>
    cases added
    rfl
  | cons node rest ih =>
    simp only [addNodes] at added
    split at added
    · contradiction
    · obtain ⟨others, remaining, collected⟩ := Option.bind_eq_some_iff.mp added
      cases collected
      rw [ih remaining]
      rfl

theorem addNodes_faultless (uniqify : Bool) (index : Nat) (hosts : List HostName) :
    ∃ argz, addNodes (fun _ => false) uniqify index hosts = some argz := by
  induction hosts generalizing index with
  | nil => exact ⟨[], rfl⟩
  | cons node rest ih =>
    obtain ⟨argz, remaining⟩ := ih (index + 1)
    exact ⟨_, by simp only [addNodes, remaining]; rfl⟩

theorem nodeNames_plain (hosts : List HostName) : nodeNames false 0 hosts = hosts.map HostName.bytes := by
  have unused : (fun node : HostName × Nat => if false = true then newNode node.1.bytes node.2 else node.1.bytes) =
      HostName.bytes ∘ Prod.fst := rfl
  rw [nodeNames, unused, ← List.map_map, List.zipIdx_map_fst]

theorem nodeNames_length (uniqify : Bool) (hosts : List HostName) :
    (nodeNames uniqify 0 hosts).length = hosts.length := by
  rw [nodeNames, List.length_map, List.length_zipIdx]

theorem getElem_nodeNames (i : Fin hosts.length) :
    (nodeNames true 0 hosts)[i.val]? = some (newNode hosts[i].bytes i) := by
  simp [nodeNames]

/-- No name has a comma. -/
theorem nodeNames_commaless (uniqify : Bool) (index : Nat) (hosts : List HostName) :
    ∀ name ∈ nodeNames uniqify index hosts, 44 ∉ name := by
  rintro name member comma
  obtain ⟨⟨host, i⟩, _, rfl⟩ := List.mem_map.mp member
  cases uniqify with
  | false => exact (host.plain 44 comma).2 rfl
  | true =>
    rcases List.mem_append.mp (List.mem_of_mem_take comma) with inHost | inIndex
    · exact (host.plain 44 inHost).2 rfl
    · exact (decimal_plain i 44 inIndex).2 rfl

section
variable [Hostlist]

theorem appendHosts_parts {values : List Json} {parts : List (List HostName)}
    (expands : values.map (fun value => value.stringValue.bind (fun s => Hostlist.expand (cString s))) =
      parts.map some) (hl : List HostName) : appendHosts values hl = some (hl ++ parts.flatten) := by
  induction values generalizing hl parts with
  | nil =>
    cases parts with
    | nil => simp [appendHosts]
    | cons => contradiction
  | cons value rest ih =>
    cases parts with
    | nil => contradiction
    | cons part parts =>
      obtain ⟨first, others⟩ := List.cons.inj expands
      obtain ⟨s, isString, expanded⟩ := Option.bind_eq_some_iff.mp first
      have next := ih others (hl ++ part)
      rw [List.flatten_cons, ← List.append_assoc, ← next, appendHosts, isString]
      simp [expanded]

theorem containsDuplicates_iff (copyFails : Bool) (hl : List HostName) :
    containsDuplicates copyFails hl = true ↔ copyFails = false ∧ ¬ hl.Nodup := by
  have same : (Hostlist.uniq hl).length = hl.dedup.length := by
    apply List.Perm.length_eq
    rw [List.perm_ext_iff_of_nodup (Hostlist.uniq_nodup hl) (List.nodup_dedup hl)]
    exact fun host => Hostlist.mem_uniq.trans List.mem_dedup.symm
  have fewer : hl.dedup.length < hl.length ↔ ¬ hl.Nodup := by
    rw [← List.dedup_eq_self, ← (List.dedup_sublist hl).length_eq]
    have bound := (List.dedup_sublist hl).length_le
    omega
  cases copyFails with
  | true => simp [containsDuplicates]
  | false => simp [containsDuplicates, same, fewer]

variable {fault : MapsFaults} {info nodelist : Json} {hosts : List HostName} {text : List UInt8}

theorem Expands.appended (expands : Expands nodelist hosts) :
    appendHosts nodelist.arrayElements [] = some hosts := by
  obtain ⟨parts, rfl, expanded⟩ := expands
  exact appendHosts_parts expanded []

/-- What comes between the commas of the string. -/
theorem mapsNodeCreate_splitOn (found : infoNodelist info = some nodelist) (expands : Expands nodelist hosts)
    (returned : mapsNodeCreate fault info = some text) :
    text.splitOn 44 = nodeNames (containsDuplicates fault.copy hosts) 0 hosts := by
  simp only [mapsNodeCreate, found, Option.bind_eq_bind, Option.bind_some] at returned
  split at returned
  · contradiction
  · simp only [expands.appended, Option.bind_some] at returned
    obtain ⟨argz, added, stringified⟩ := Option.bind_eq_some_iff.mp returned
    cases argz with
    | nil => contradiction
    | cons first rest =>
      have commaless := nodeNames_commaless (containsDuplicates fault.copy hosts) 0 hosts
      rw [← addNodes_names added] at commaless ⊢
      cases stringified
      exact List.splitOn_intercalate 44 commaless (List.cons_ne_nil first rest)

/-- Where no allocation fails there is a string for every list of hosts but the empty one. -/
theorem mapsNodeCreate_faultless (found : infoNodelist info = some nodelist) (expands : Expands nodelist hosts)
    (nonempty : hosts ≠ []) : ∃ text, mapsNodeCreate {} info = some text := by
  obtain ⟨argz, added⟩ := addNodes_faultless (containsDuplicates false hosts) 0 hosts
  have length : argz.length = hosts.length := by rw [addNodes_names added, nodeNames_length]
  simp only [mapsNodeCreate, found, Option.bind_eq_bind, Option.bind_some, expands.appended, added,
    Bool.false_eq_true, if_false]
  cases argz with
  | nil => exact absurd (List.eq_nil_of_length_eq_zero length.symm) nonempty
  | cons first rest => exact ⟨_, rfl⟩

omit [Hostlist] in
/-- The names with an index are right exactly where they all fit and no two of them clash. -/
theorem indexed_names (indexed : text.splitOn 44 = nodeNames true 0 hosts) (repeated : ¬ hosts.Nodup) :
    NodeNames hosts text ↔ (∀ host ∈ hosts, host.bytes.length ≤ hostNameMax) ∧
      ∀ i j : Fin hosts.length, i ≠ j → ¬ Clash hosts i j := by
  constructor
  · rintro ⟨_, named, distinct, _⟩
    rw [indexed] at named distinct
    have short : ∀ host ∈ hosts, host.bytes.length ≤ hostNameMax := by
      intro host member
      obtain ⟨i, within, rfl⟩ := List.getElem_of_mem member
      obtain ⟨name, at_i, front⟩ := named i within
      rw [getElem_nodeNames ⟨i, within⟩] at at_i
      cases at_i
      exact (prefix_newNode _ _).mp front
    refine ⟨short, fun i j different clash => different ?_⟩
    have same := (newNode_eq_iff short i j).mpr (.inl clash)
    have entries : (nodeNames true 0 hosts)[i.val]? = (nodeNames true 0 hosts)[j.val]? := by
      rw [getElem_nodeNames, getElem_nodeNames, same]
    have within : i.val < (nodeNames true 0 hosts).length := by
      rw [nodeNames_length]
      exact i.isLt
    exact Fin.ext ((List.getElem?_inj within distinct).mp entries)
  · rintro ⟨short, apart⟩
    constructor
    · rw [indexed, nodeNames_length]
    · intro i within
      rw [indexed]
      exact ⟨_, getElem_nodeNames ⟨i, within⟩, (prefix_newNode _ _).mpr (short _ (List.getElem_mem within))⟩
    · rw [indexed, List.nodup_iff_getElem?_ne_getElem?]
      intro i j earlier within
      rw [nodeNames_length] at within
      intro entries
      rw [getElem_nodeNames ⟨i, Nat.lt_trans earlier within⟩, getElem_nodeNames ⟨j, within⟩] at entries
      have different : (⟨i, Nat.lt_trans earlier within⟩ : Fin hosts.length) ≠ ⟨j, within⟩ :=
        fun same => absurd (congrArg Fin.val same) (Nat.ne_of_lt earlier)
      rcases (newNode_eq_iff short _ _).mp (Option.some.inj entries) with clash | clash
      · exact apart _ _ different clash
      · exact apart _ _ different.symm clash
    · exact fun distinct => absurd distinct repeated

/-- The node map names the hosts apart exactly when they are so already, or the copy to look for
repetitions succeeds, every host fits the buffer and no two names with their indices clash. -/
theorem mapsNodeCreate_names (found : infoNodelist info = some nodelist) (expands : Expands nodelist hosts)
    (returned : mapsNodeCreate fault info = some text) : NodeNames hosts text ↔ hosts.Nodup ∨
      (fault.copy = false ∧ (∀ host ∈ hosts, host.bytes.length ≤ hostNameMax) ∧
        ∀ i j : Fin hosts.length, i ≠ j → ¬ Clash hosts i j) := by
  have names := mapsNodeCreate_splitOn found expands returned
  cases uniqify : containsDuplicates fault.copy hosts with
  | true =>
    obtain ⟨copied, repeated⟩ := (containsDuplicates_iff fault.copy hosts).mp uniqify
    rw [uniqify] at names
    rw [indexed_names names repeated, or_iff_right repeated, copied]
    exact (and_iff_right rfl).symm
  | false =>
    rw [uniqify, nodeNames_plain] at names
    have unique : NodeNames hosts text ↔ hosts.Nodup := by
      constructor
      · intro ⟨_, _, distinct, _⟩
        rw [names] at distinct
        exact distinct.of_map
      · intro distinct
        refine ⟨by rw [names, List.length_map], fun i within => ?_, ?_, fun _ => names⟩
        · rw [names, List.getElem?_map, List.getElem?_eq_getElem within]
          exact ⟨_, rfl, List.prefix_rfl⟩
        · rw [names]
          exact distinct.map fun _ _ => HostName.ext
    have blind : fault.copy = false → hosts.Nodup := by
      intro copied
      by_contra repeated
      exact absurd ((containsDuplicates_iff fault.copy hosts).mpr ⟨copied, repeated⟩) (by simp [uniqify])
    rw [unique]
    exact ⟨.inl, fun either => either.elim id fun copied => blind copied.1⟩

end

/-- Strings of one host each. -/
@[reducible] def singleHosts : Hostlist where
  expand s :=
    if plain : s.bytes.all (fun b => b != 0 && b != 44) = true then
      some [⟨s.bytes, by simpa using plain⟩]
    else none
  uniq := List.dedup
  uniq_nodup := List.nodup_dedup
  mem_uniq := List.mem_dedup

def nodelistInfo (nodelist : Json) : Json :=
  .object [("R", .object [("execution", .object [("nodelist", nodelist)])])]

/-- "a", "b" and "a" again. -/
def repeatedHosts : List HostName := [⟨[97], by simp⟩, ⟨[98], by simp⟩, ⟨[97], by simp⟩]

def repeatedNodelist : Json := .array [.string [97], .string [98], .string [97]]

/-- Their indices keep them apart. -/
theorem mapsNodeCreate_names_sample : ∃ text,
    @mapsNodeCreate singleHosts {} (nodelistInfo repeatedNodelist) = some text ∧ NodeNames repeatedHosts text := by
  have found : infoNodelist (nodelistInfo repeatedNodelist) = some repeatedNodelist := rfl
  have expands : @Expands singleHosts repeatedNodelist repeatedHosts :=
    ⟨repeatedHosts.map (fun host => [host]), rfl, rfl⟩
  obtain ⟨text, returned⟩ := @mapsNodeCreate_faultless singleHosts _ _ _ found expands (List.cons_ne_nil _ _)
  have short : ∀ host ∈ repeatedHosts, host.bytes.length ≤ hostNameMax := by decide
  have apart : ∀ i j : Fin repeatedHosts.length, i ≠ j → ¬ Clash repeatedHosts i j := by
    have single : ∀ k : Fin repeatedHosts.length, repeatedHosts[k].bytes.length = 1 := by decide
    have digits : ∀ i j : Fin repeatedHosts.length, i ≠ j →
        (decimal i).take (hostNameMax - 1) ≠ (decimal j).take (hostNameMax - 1) := by decide
    rintro i j differ ⟨more, longer, reads⟩
    have lengths := congrArg List.length longer
    rw [List.length_append, single, single] at lengths
    obtain rfl : more = [] := List.eq_nil_of_length_eq_zero (by omega)
    rw [single] at reads
    exact digits i j differ reads
  exact ⟨text, returned,
    (@mapsNodeCreate_names singleHosts _ _ _ _ _ found expands returned).mpr (.inr ⟨rfl, short, apart⟩)⟩

/-- "a11", and "a1" ten times. -/
def clashingHosts : List HostName := ⟨[97, 49, 49], by simp⟩ :: List.replicate 10 ⟨[97, 49], by simp⟩

def clashingNodelist : Json := .array (.string [97, 49, 49] :: List.replicate 10 (.string [97, 49]))

/-- The first and the last entry are both "a110". -/
theorem mapsNodeCreate_clash : @Expands singleHosts clashingNodelist clashingHosts ∧
    ∃ text, @mapsNodeCreate singleHosts {} (nodelistInfo clashingNodelist) = some text ∧
      ¬ NodeNames clashingHosts text := by
  have found : infoNodelist (nodelistInfo clashingNodelist) = some clashingNodelist := rfl
  have expands : @Expands singleHosts clashingNodelist clashingHosts :=
    ⟨clashingHosts.map (fun host => [host]), rfl, rfl⟩
  obtain ⟨text, returned⟩ := @mapsNodeCreate_faultless singleHosts _ _ _ found expands (List.cons_ne_nil _ _)
  refine ⟨expands, text, returned, fun names => ?_⟩
  have repeated : ¬ clashingHosts.Nodup := by simp [clashingHosts]
  have indexed := @mapsNodeCreate_splitOn singleHosts _ _ _ _ _ found expands returned
  rw [(@containsDuplicates_iff singleHosts false clashingHosts).mpr ⟨rfl, repeated⟩] at indexed
  have distinct := indexed ▸ names.distinct
  have within : 0 < (nodeNames true 0 clashingHosts).length := by
    rw [nodeNames_length]
    exact Nat.succ_pos 10
  cases (List.getElem?_inj within distinct (j := 10)).mp rfl

end FluxPmix

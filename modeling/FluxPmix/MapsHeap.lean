import FluxPmix.Blocks
import FluxPmix.Maps
import Mathlib.Data.Set.Lattice.Image

/-! The node map, with the blocks that making it takes: the list of hosts, its copy to look for repetitions and
the vector of names. The string is all that is left of them. -/
namespace FluxPmix.Owned
open Blocks

/-- The vector is NULL until an entry is added. -/
structure Argz where
  block : Option Block
  entries : List (List UInt8)
  placed : block = none ↔ entries = []

def Argz.empty : Argz := ⟨none, [], iff_of_true rfl rfl⟩

/-- A call that makes one of these strings. It fails for want of memory, or where there may be none. -/
structure Makes (lack : Prop) (make : Prog (Option (Block × CString))) (texts : Set (Option CString)) :
    Prop where
  possible : texts.Nonempty
  makes : Triple lack 0 make fun made own =>
    (made = none ∧ own = 0 ∧ (none ∈ texts ∨ lack)) ∨
      ∃ block s, made = some (block, s) ∧ own = {block} ∧ some s ∈ texts

section

def argzAdd (argz : Argz) (name : List UInt8) : Prog (Option Argz) := do
  let some block ← realloc argz.block | return none
  return some ⟨some block, argz.entries ++ [name], by simp⟩

/-- The loop from `index` on: whether every node is added. -/
def addNodes (uniqify : Bool) : (index : Nat) → List HostName → Argz → Prog (Bool × Argz)
  | _, [], argz => return (true, argz)
  | index, node :: rest, argz => do
    let name := if uniqify then newNode node.bytes index else node.bytes
    let some added ← argzAdd argz name | return (false, argz)
    addNodes uniqify (index + 1) rest added

variable [Hostlist]

def containsDuplicates (hl : List HostName) : Prog Bool := do
  let some hl2 ← Blocks.malloc | return false
  let result := decide ((Hostlist.uniq hl).length < hl.length)
  free hl2
  return result

def mapsNodeCreate (info : Json) : Prog (Option (Block × CString)) :=
  match infoNodelist info with
  | none => return none
  | some nodelist => do
    let some hl ← Blocks.malloc | return none
    match appendHosts nodelist.arrayElements [] with
    | none => do
      free hl
      return none
    | some hosts => do
      let uniqify ← containsDuplicates hosts
      let (added, argz) ← addNodes uniqify 0 hosts .empty
      if added then
        free hl
        return argz.block.map fun block => (block, cString ([44].intercalate argz.entries))
      else
        freeNullable argz.block
        free hl
        return none

/-- The strings that may come of it. Where the copy fails, repetitions are not seen. -/
def nodeMaps (lack : Prop) (info : Json) : Set (Option CString) :=
  {text | ∃ copyFails, (copyFails = true → lack) ∧
    text = (FluxPmix.mapsNodeCreate { copy := copyFails } info).map cString}

end

variable {lack : Prop}

theorem Argz.stringified (argz : Argz) :
    argzStringify argz.entries = argz.block.map fun _ => [44].intercalate argz.entries := by
  cases here : argz.block with
  | none => rw [argz.placed.mp here]; rfl
  | some block =>
    cases entries : argz.entries with
    | nil => cases here.symm.trans (argz.placed.mpr entries)
    | cons => rfl

theorem argzAdd_spec (argz : Argz) (name : List UInt8) :
    Triple lack (held argz.block) (argzAdd argz name) fun added own =>
      (added = none ∧ own = held argz.block ∧ lack) ∨
        ∃ longer, added = some longer ∧ own = held longer.block ∧ longer.entries = argz.entries ++ [name] := by
  refine (Triple.realloc argz.block).bind ?_
  rintro pointer _ (⟨rfl, rfl, failed⟩ | ⟨block, rfl, rfl⟩)
  · exact Triple.pure (.inl ⟨rfl, rfl, failed⟩)
  · exact Triple.pure (.inr ⟨_, rfl, rfl, rfl⟩)

theorem addNodes_spec (uniqify : Bool) (index : Nat) (hosts : List HostName) (argz : Argz) :
    Triple lack (held argz.block) (addNodes uniqify index hosts argz) fun out own => own = held out.2.block ∧
      (out.1 = true ∧ out.2.entries = argz.entries ++ nodeNames uniqify index hosts ∨
        out.1 = false ∧ lack) := by
  induction hosts generalizing index argz with
  | nil => exact Triple.pure ⟨rfl, .inl ⟨rfl, (List.append_nil _).symm⟩⟩
  | cons node rest ih =>
    refine (argzAdd_spec argz _).bind ?_
    rintro added _ (⟨rfl, rfl, failed⟩ | ⟨longer, rfl, rfl, entries⟩)
    · exact Triple.pure ⟨rfl, .inr ⟨rfl, failed⟩⟩
    · refine (ih (index + 1) longer).mono ?_
      rintro ⟨all, final⟩ own ⟨owned, ⟨rfl, found⟩ | refused⟩
      · refine ⟨owned, .inl ⟨rfl, ?_⟩⟩
        rw [found, entries, List.append_assoc]
        rfl
      · exact ⟨owned, .inr refused⟩

variable [Hostlist]

theorem containsDuplicates_spec (hl : List HostName) : Triple lack 0 (containsDuplicates hl) fun uniqify own =>
    own = 0 ∧ ∃ copyFails, (copyFails = true → lack) ∧
      uniqify = FluxPmix.containsDuplicates copyFails hl := by
  refine Triple.malloc.bind ?_
  rintro hl2 _ ⟨rfl, failed⟩
  cases hl2 with
  | none => exact Triple.pure ⟨rfl, true, fun _ => failed rfl, rfl⟩
  | some hl2 =>
    refine Triple.free.bind ?_
    rintro _ _ rfl
    exact Triple.pure ⟨rfl, false, (fun same => by cases same), rfl⟩

/-- What the function is without failures but that of the copy. -/
theorem mapsNodeCreate_eq (copyFails : Bool) (info : Json) :
    FluxPmix.mapsNodeCreate { copy := copyFails } info = (infoNodelist info).bind fun nodelist =>
      (appendHosts nodelist.arrayElements []).bind fun hosts =>
        argzStringify (nodeNames (FluxPmix.containsDuplicates copyFails hosts) 0 hosts) := by
  rw [FluxPmix.mapsNodeCreate]
  cases infoNodelist info with
  | none => rfl
  | some nodelist =>
    cases found : appendHosts nodelist.arrayElements [] with
    | none => simp [found]
    | some hosts =>
      obtain ⟨argz, added⟩ := addNodes_faultless (FluxPmix.containsDuplicates copyFails hosts) 0 hosts
      simp [found, added, addNodes_names added]

theorem nodeMaps_made {nodelist : Json} {hosts : List HostName} {argz : Argz} {copyFails : Bool}
    (found : infoNodelist info = some nodelist) (appended : appendHosts nodelist.arrayElements [] = some hosts)
    (seen : copyFails = true → lack)
    (names : argz.entries = nodeNames (FluxPmix.containsDuplicates copyFails hosts) 0 hosts) :
    argz.block.map (fun _ => cString ([44].intercalate argz.entries)) ∈ nodeMaps lack info := by
  refine ⟨copyFails, seen, ?_⟩
  simp only [mapsNodeCreate_eq, found, Option.bind_some, appended, ← names, argz.stringified, Option.map_map]
  rfl

theorem mapsNodeCreate_makes (info : Json) : Makes lack (mapsNodeCreate info) (nodeMaps lack info) := by
  have faultless : (FluxPmix.mapsNodeCreate { copy := false } info).map cString ∈ nodeMaps lack info :=
    ⟨false, (fun same => by cases same), rfl⟩
  refine ⟨⟨_, faultless⟩, ?_⟩
  rw [mapsNodeCreate_eq] at faultless
  rw [mapsNodeCreate]
  rcases found : infoNodelist info with _ | nodelist
  · rw [found] at faultless
    exact Triple.pure (.inl ⟨rfl, rfl, .inl faultless⟩)
  rw [found] at faultless
  refine Triple.malloc.bind ?_
  rintro (_ | hl) _ ⟨rfl, failed⟩
  · exact Triple.pure (.inl ⟨rfl, rfl, .inr (failed rfl)⟩)
  rcases appended : appendHosts nodelist.arrayElements [] with _ | hosts
  · simp only [Option.bind_some, appended] at faultless
    refine Triple.free.bind ?_
    rintro _ _ rfl
    exact Triple.pure (.inl ⟨rfl, rfl, .inl faultless⟩)
  refine (containsDuplicates_spec hosts).step (zero_add _).symm ?_
  rintro _ _ ⟨rfl, copyFails, seen, rfl⟩
  refine (addNodes_spec _ 0 hosts .empty).step rfl ?_
  rintro ⟨_, argz⟩ _ ⟨rfl, ⟨rfl, entries⟩ | ⟨rfl, failed⟩⟩
  · have text := nodeMaps_made found appended seen entries
    refine Triple.free.step (add_comm _ _) ?_
    rintro _ _ rfl
    rw [zero_add]
    rcases here : argz.block with _ | block
    · rw [here] at text
      exact Triple.pure (.inl ⟨rfl, rfl, .inl text⟩)
    · rw [here] at text
      exact Triple.pure (.inr ⟨block, _, rfl, rfl, text⟩)
  · refine (Triple.freeNullable argz.block).release (Triple.free.bind ?_)
    rintro _ _ rfl
    exact Triple.pure (.inl ⟨rfl, rfl, .inr failed⟩)

end FluxPmix.Owned

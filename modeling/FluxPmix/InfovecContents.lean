import FluxPmix.CInt
import FluxPmix.Infovec
import FluxPmix.Mealy

/-! What an infovec holds after any calls of its setters: the infos of the calls that returned 0. The
setter of a nested array may take a slot and fail after that, which leaves a half-filled one. -/
namespace FluxPmix
open Mealy

/-- The setters, with their arguments after the infovec. -/
inductive InfovecSetter where
  | strNew (key val : Option CString)
  | str (key val : Option CString)
  | u32 (key : Option CString) (value : UInt32)
  | u16 (key : Option CString) (value : UInt16)
  | bool (key : Option CString) (value : Bool)
  | rank (key : Option CString) (value : UInt32)
  | infovecNew (key : Option CString) (val : Option Infovec)
  | byteObjectNew (key : Option CString) (value : Option (List UInt8)) (size : UInt64)

namespace InfovecSetter

def apply (fault : InfovecFaults) (iv : Option Infovec) : InfovecSetter → Except Fault (Int32 × Option Infovec)
  | strNew key val => infovecSetStrNew fault iv key val
  | str key val => infovecSetStr fault iv key val
  | u32 key value => infovecSetU32 fault iv key value
  | u16 key value => infovecSetU16 fault iv key value
  | bool key value => infovecSetBool fault iv key value
  | rank key value => infovecSetRank fault iv key value
  | infovecNew key val => infovecSetInfovecNew fault iv key val
  | byteObjectNew key value size => infovecSetByteObjectNew fault iv key value size

def key : InfovecSetter → Option CString
  | strNew key _ => key
  | str key _ => key
  | u32 key _ => key
  | u16 key _ => key
  | bool key _ => key
  | rank key _ => key
  | infovecNew key _ => key
  | byteObjectNew key _ _ => key

/-- The value to be stored. A nested array is that of the nested infovec. -/
def value : InfovecSetter → Option InfovecValue
  | strNew _ val => val.map .string
  | str _ val => val.map .string
  | u32 _ value => some (.uint32 value)
  | u16 _ value => some (.uint16 value)
  | bool _ value => some (.bool value)
  | rank _ value => some (.procRank value)
  | infovecNew _ val => val.map (fun val => .dataArray (some (infovecInfo val)))
  | byteObjectNew _ value size => some (.byteObject value size)

/-- The key, cut to its array, and the value. There is none where an argument is NULL. -/
def entry (set : InfovecSetter) : Option InfovecEntry := do
  let key ← set.key
  let value ← set.value
  return (strlcpy pmixMaxKeylen key.bytes, value)

/-- The entry a slot is asked for. A copy of the string comes first. -/
def asks (fault : InfovecFaults) : InfovecSetter → Option InfovecEntry
  | str key val => if fault.strdup then none else entry (str key val)
  | set => set.entry

/-- What is allocated once the slot is taken fails. -/
def loses (fault : InfovecFaults) : InfovecSetter → Bool
  | infovecNew _ _ => fault.calloc
  | _ => false

end InfovecSetter

/-- A call of a setter, for the infovec or for NULL. -/
structure InfovecCall where
  set : InfovecSetter
  ivNull : Bool := false
  fault : InfovecFaults := {}

def InfovecCall.run (call : InfovecCall) (iv : Option Infovec) : Except Fault (Int32 × Option Infovec) :=
  if call.ivNull then do
    let (rc, _) ← call.set.apply call.fault none
    return (rc, iv)
  else
    call.set.apply call.fault iv

namespace Infovec

/-- The infovec after a call, and the return code. -/
def next : Except Fault (Option Infovec) → InfovecCall →
    Except Fault (Option Infovec) × List (InfovecCall × Int32)
  | .ok iv, call =>
    match call.run iv with
    | .ok (rc, after) => (.ok after, [(call, rc)])
    | .error fault => (.error fault, [])
  | .error fault, _ => (.error fault, [])

def fresh : Except Fault (Option Infovec) := .ok (infovecCreate false)

/-- The calls that returned 0. -/
def accepted (trace : List (InfovecCall × Int32)) : List InfovecCall :=
  (trace.filter (fun call => call.2 = 0)).map Prod.fst

/-- A call with another return code leaves the count and the entries as they were. -/
def Refuses (state : Except Fault (Option Infovec)) (call : InfovecCall) : Prop :=
  ∀ iv rc after, state = .ok (some iv) → call.run (some iv) = .ok (rc, after) → rc ≠ 0 →
    ∃ same, after = some same ∧ infovecCount same = infovecCount iv ∧ infovecInfo same = infovecInfo iv

/-- The infovec is the calls that returned 0, in order. -/
structure Exact (calls : List InfovecCall) : Prop where
  contents : ∃ iv, (exec next fresh calls).1 = .ok (some iv) ∧
    (infovecCount iv).toInt = (accepted (exec next fresh calls).2).length ∧
    (infovecInfo iv).map some = (accepted (exec next fresh calls).2).map (fun call => call.set.entry)
  refused : Along next Refuses fresh calls

/-- The call asks for no slot, or there is room for one and nothing fails after it is taken. -/
def Harmless (iv : Infovec) (call : InfovecCall) : Prop :=
  call.ivNull = true ∨ call.set.asks call.fault = none ∨
    (iv.info.length ≠ infovecMax ∧
      (call.set.loses call.fault = true → iv.info.length = iv.length ∧ call.fault.realloc = true))

/-- The state before a call is an infovec that the call is harmless for. -/
def Unharmed (state : Except Fault (Option Infovec)) (call : InfovecCall) : Prop :=
  ∀ iv, state = .ok (some iv) → iv.Harmless call

/-! ### One call -/

theorem infovecCount_toInt (iv : Infovec) : (infovecCount iv).toInt = iv.info.length :=
  toInt_ofNat_counted (iv.count_le.trans (by decide))

end Infovec

namespace InfovecSetter

theorem apply_null (fault : InfovecFaults) (set : InfovecSetter) : set.apply fault none = .ok (-1, none) := by
  cases set with
  | strNew _ val => cases val <;> rfl
  | str _ val =>
    simp only [apply, infovecSetStr]
    split
    · rfl
    · cases val <;> rfl
  | _ => rfl

/-- All setters are one: they ask for a slot, and fill it with the entry or leave it without its array. -/
theorem apply_eq (fault : InfovecFaults) (iv : Infovec) (set : InfovecSetter) : set.apply fault (some iv) =
    match set.asks fault with
    | none => .ok (-1, some iv)
    | some entry => do
      match ← allocSlot fault iv with
      | none => return (-1, some iv)
      | some slot =>
        if set.loses fault then return (-1, some (slot.fill (entry.1, .dataArray none)))
        else return (0, some (slot.fill entry)) := by
  cases set with
  | strNew key val => cases key <;> cases val <;> rfl
  | str key val =>
    simp only [apply, infovecSetStr, asks]
    cases fault.strdup with
    | true => rfl
    | false => cases key <;> cases val <;> rfl
  | infovecNew key val => cases key <;> cases val <;> rfl
  | u32 key value => cases key <;> rfl
  | u16 key value => cases key <;> rfl
  | bool key value => cases key <;> rfl
  | rank key value => cases key <;> rfl
  | byteObjectNew key value size => cases key <;> rfl

theorem asks_entry {set : InfovecSetter} (asked : set.asks fault = some info) : set.entry = some info := by
  cases set with
  | str key val =>
    simp only [asks] at asked
    split at asked
    · contradiction
    · exact asked
  | _ => exact asked

end InfovecSetter

section
variable {call : InfovecCall} {iv : Infovec}

theorem Infovec.harmless_asked (given : call.ivNull = false) (asked : call.set.asks call.fault = some entry) :
    iv.Harmless call ↔ iv.info.length ≠ infovecMax ∧
      (call.set.loses call.fault = true → iv.info.length = iv.length ∧ call.fault.realloc = true) := by
  simp [Infovec.Harmless, given, asked]

/-- What a call for an infovec comes to. -/
theorem InfovecCall.run_cases (call : InfovecCall) (iv : Infovec) :
    (iv.Harmless call ∧ ∃ after, call.run (some iv) = .ok (-1, some after) ∧ after.info = iv.info) ∨
    (iv.Harmless call ∧ ∃ entry after, call.set.entry = some entry ∧
      call.run (some iv) = .ok (0, some after) ∧ after.info = iv.info ++ [entry]) ∨
    (¬ iv.Harmless call ∧ call.run (some iv) = .error .undefined) ∨
    (¬ iv.Harmless call ∧ ∃ entry after, call.run (some iv) = .ok (-1, some after) ∧
      after.info = iv.info ++ [entry]) := by
  rw [InfovecCall.run]
  cases given : call.ivNull with
  | true =>
    refine .inl ⟨.inl given, iv, ?_, rfl⟩
    rw [if_pos rfl, call.set.apply_null]
    rfl
  | false =>
    rw [if_neg Bool.false_ne_true, call.set.apply_eq]
    cases asked : call.set.asks call.fault with
    | none => exact .inl ⟨.inr (.inl asked), iv, rfl, rfl⟩
    | some entry =>
      rw [Infovec.harmless_asked given asked]
      rcases allocSlot_cases call.fault iv with
        ⟨undefined, last⟩ | ⟨below, ⟨refused, _⟩ | ⟨slot, allocated, filled⟩⟩
      · refine .inr (.inr (.inl ⟨fun room => room.1 last, ?_⟩))
        simp only [undefined]
        rfl
      · obtain ⟨room, full, failed⟩ := (allocSlot_null call.fault iv).mp refused
        refine .inl ⟨⟨room, fun _ => ⟨full, failed⟩⟩, iv, ?_, rfl⟩
        simp only [refused]
        rfl
      · have room : iv.info.length ≠ infovecMax := Nat.ne_of_lt below
        simp only [allocated, ok_bind]
        cases lost : call.set.loses call.fault with
        | true =>
          refine .inr (.inr (.inr ⟨?_, _, _, rfl, filled _⟩))
          rintro ⟨_, full⟩
          have refused := (allocSlot_null call.fault iv).mpr ⟨room, full rfl⟩
          cases allocated.symm.trans refused
        | false =>
          refine .inr (.inl ⟨⟨room, nofun⟩, entry, _, InfovecSetter.asks_entry asked, rfl, filled entry⟩)

/-! ### Runs -/

namespace Infovec

theorem next_ok {rc : Int32} {after : Option Infovec} (ended : call.run (some iv) = .ok (rc, after)) :
    next (.ok (some iv)) call = (.ok after, [(call, rc)]) := by
  simp only [next, ended]

theorem accepted_append (trace more : List (InfovecCall × Int32)) :
    accepted (trace ++ more) = accepted trace ++ accepted more := by
  simp [accepted]

/-- After undefined behaviour. -/
def Broken (state : Except Fault (Option Infovec)) : Prop := ∃ fault, state = .error fault

/-- What the calls so far have made of an infovec. -/
def Holds (trace : List (InfovecCall × Int32)) (state : Except Fault (Option Infovec)) : Prop :=
  ∃ iv, state = .ok (some iv) ∧
    (infovecInfo iv).map some = (accepted trace).map (fun call => call.set.entry)

theorem Holds.next {state : Except Fault (Option Infovec)} (holds : Holds trace state)
    (unharmed : Unharmed state call) : Holds (trace ++ (next state call).2) (next state call).1 := by
  obtain ⟨iv, rfl, contents⟩ := holds
  have harmless := unharmed iv rfl
  rcases call.run_cases iv with ⟨_, after, ended, kept⟩ | ⟨_, entry, after, stored, ended, grown⟩ |
    ⟨harmful, _⟩ | ⟨harmful, _⟩
  · rw [next_ok ended]
    refine ⟨after, rfl, ?_⟩
    have unchanged : infovecInfo after = infovecInfo iv := kept
    rw [accepted_append, unchanged]
    simpa [accepted] using contents
  · rw [next_ok ended]
    refine ⟨after, rfl, ?_⟩
    rw [accepted_append, infovecInfo, grown, List.map_append, List.map_append]
    exact congrArg₂ (· ++ ·) contents (congrArg (fun e => [e]) stored.symm)
  · exact absurd harmless harmful
  · exact absurd harmless harmful

theorem Unharmed.refuses {state : Except Fault (Option Infovec)} (unharmed : Unharmed state call) :
    Refuses state call := by
  rintro iv rc after rfl ended failed
  have harmless := unharmed iv rfl
  rcases call.run_cases iv with ⟨_, same, returned, kept⟩ | ⟨_, _, _, _, returned, _⟩ |
    ⟨harmful, _⟩ | ⟨harmful, _⟩
  · cases ended.symm.trans returned
    exact ⟨same, rfl, by rw [infovecCount, infovecCount, kept], kept⟩
  · cases ended.symm.trans returned
    exact absurd rfl failed
  · exact absurd harmless harmful
  · exact absurd harmless harmful

/-- A call that is defined, and that leaves the infovec alone when it fails, was harmless. -/
theorem Refuses.unharmed {state : Except Fault (Option Infovec)} (refuses : Refuses state call)
    (defined : ¬ Broken (Infovec.next state call).1) : Unharmed state call := by
  rintro iv rfl
  rcases call.run_cases iv with ⟨harmless, _⟩ | ⟨harmless, _⟩ | ⟨_, undefined⟩ |
    ⟨_, entry, after, ended, grown⟩
  · exact harmless
  · exact harmless
  · exact absurd ⟨.undefined, by simp only [Infovec.next, undefined]⟩ defined
  · obtain ⟨same, unchanged, _, kept⟩ := refuses iv _ _ rfl ended (by decide)
    cases unchanged
    have lengths := congrArg List.length (grown.symm.trans kept)
    simp [infovecInfo] at lengths

theorem run_exact {calls : List InfovecCall} (unharmed : Along next Unharmed fresh calls) : Exact calls := by
  constructor
  · have empty : Holds [] fresh := ⟨_, rfl, rfl⟩
    obtain ⟨iv, ended, contents⟩ := exec_invariant_nil (fun _ _ _ => Holds.next) empty unharmed
    refine ⟨iv, ended, ?_, contents⟩
    have lengths := congrArg List.length contents
    rw [List.length_map, List.length_map] at lengths
    rw [infovecCount_toInt, ← lengths]
    rfl
  · exact unharmed.mono fun _ _ => Unharmed.refuses

/-- An infovec holds what the calls that returned 0 have set, and the others have left no trace, exactly
when no call meets an array that is full at its last length or loses the array it nests. -/
theorem infovec_contents (calls : List InfovecCall) : Exact calls ↔ Along next Unharmed fresh calls := by
  constructor
  · rintro ⟨⟨iv, ended, _⟩, refused⟩
    have defined : Along next (fun state call => ¬ Broken (next state call).1) fresh calls := by
      apply along_avoids
      · rintro _ call ⟨fault, rfl⟩
        exact ⟨fault, rfl⟩
      · rw [ended]
        rintro ⟨_, failed⟩
        contradiction
    exact (refused.and defined).mono fun _ _ both => both.1.unharmed both.2
  · exact run_exact

/-- "foo", for an empty infovec that there is no memory to nest. -/
def unnested : InfovecCall where
  set := .infovecNew (some (cString (literal "foo"))) (infovecCreate false)
  fault := { calloc := true }

/-- The call returns -1, and the infovec has one entry more. -/
theorem infovec_contents_unnested : ¬ Exact [unnested] ∧
    ∃ after, unnested.run (infovecCreate false) = .ok (-1, some after) ∧ infovecCount after = 1 := by
  refine ⟨fun exact => ?_, _, rfl, rfl⟩
  obtain ⟨refuses, _⟩ := exact.refused
  obtain ⟨same, after, counted, _⟩ := refuses _ _ _ rfl rfl (by decide)
  cases after
  cases counted

end Infovec

end

end FluxPmix

import FluxPmix.Codec

/-! A growable array of infos. It grows by a chunk whenever it is full, with an `int` for its length. -/
namespace FluxPmix

/-- The values the setters store, `undef` being that of a cleared slot. -/
inductive InfovecValue where
  | undef
  | string (string : CString)
  | uint32 (uint32 : UInt32)
  | uint16 (uint16 : UInt16)
  | bool (flag : Bool)
  | procRank (rank : UInt32)
  | dataArray (darray : Option (List (CharArray (pmixMaxKeylen + 1) × InfovecValue)))
  | byteObject (bytes : Option (List UInt8)) (size : UInt64)

/-- A key and a value. -/
abbrev InfovecEntry := CharArray (pmixMaxKeylen + 1) × InfovecValue

def infovecChunk : Nat := 8

/-- The last length an `int` can hold that is a number of chunks. -/
def infovecMax : Nat := 0x7ffffff8

/-- `info` lists the slots in use, so that their number is `count`. -/
structure Infovec where
  length : Nat
  info : List InfovecEntry
  fits : info.length ≤ length
  chunked : infovecChunk ∣ length
  counted : length ≤ intMax

/-- Which of the allocations of a call fail. -/
structure InfovecFaults where
  realloc : Bool := false
  strdup : Bool := false
  calloc : Bool := false

namespace Infovec

def grow (iv : Infovec) (room : iv.length + infovecChunk ≤ intMax) : Infovec where
  length := iv.length + infovecChunk
  info := iv.info
  fits := Nat.le_add_right_of_le iv.fits
  chunked := Nat.dvd_add iv.chunked (Nat.dvd_refl infovecChunk)
  counted := room

def push (iv : Infovec) (entry : InfovecEntry) (room : iv.info.length < iv.length) : Infovec where
  length := iv.length
  info := iv.info ++ [entry]
  fits := by
    rw [List.length_append]
    exact room
  chunked := iv.chunked
  counted := iv.counted

/-- Store into the last slot. -/
def fill (iv : Infovec) (entry : InfovecEntry) : Infovec where
  length := iv.length
  info := iv.info.set (iv.info.length - 1) entry
  fits := by simpa using iv.fits
  chunked := iv.chunked
  counted := iv.counted

end Infovec

def infovecCreate (callocFails : Bool) : Option Infovec :=
  if callocFails then none else some ⟨0, [], Nat.le_refl 0, Nat.dvd_zero _, Nat.zero_le _⟩

def infovecCount (iv : Infovec) : Int32 := .ofNat iv.info.length

def infovecInfo (iv : Infovec) : List InfovecEntry := iv.info

def clearedSlot : InfovecEntry := (strlcpy pmixMaxKeylen [], .undef)

/-- The array with one more slot in use, or NULL. -/
def allocSlot (fault : InfovecFaults) (iv : Infovec) : Except Fault (Option Infovec) :=
  if full : iv.info.length = iv.length then
    if room : iv.length + infovecChunk ≤ intMax then
      if fault.realloc then
        .ok none
      else
        .ok (some ((iv.grow room).push clearedSlot (full ▸ Nat.lt_add_of_pos_right (by decide))))
    else .error .undefined
  else .ok (some (iv.push clearedSlot (Nat.lt_of_le_of_ne iv.fits full)))

/-- What the setters of plain values share: the return code, and what has become of the array. -/
def infovecSet (fault : InfovecFaults) (iv : Option Infovec) (key : Option CString) (value : InfovecValue) :
    Except Fault (Int32 × Option Infovec) :=
  match iv, key with
  | some iv, some key => do
    match ← allocSlot fault iv with
    | none => return (-1, some iv)
    | some slot => return (0, some (slot.fill (strlcpy pmixMaxKeylen key.bytes, value)))
  | iv, _ => .ok (-1, iv)

def infovecSetStrNew (fault : InfovecFaults) (iv : Option Infovec) (key val : Option CString) :
    Except Fault (Int32 × Option Infovec) :=
  match val with
  | some val => infovecSet fault iv key (.string val)
  | none => .ok (-1, iv)

def infovecSetStr (fault : InfovecFaults) (iv : Option Infovec) (key val : Option CString) :
    Except Fault (Int32 × Option Infovec) :=
  if fault.strdup then .ok (-1, iv) else infovecSetStrNew fault iv key val

def infovecSetU32 (fault : InfovecFaults) (iv : Option Infovec) (key : Option CString) (value : UInt32) :
    Except Fault (Int32 × Option Infovec) :=
  infovecSet fault iv key (.uint32 value)

def infovecSetU16 (fault : InfovecFaults) (iv : Option Infovec) (key : Option CString) (value : UInt16) :
    Except Fault (Int32 × Option Infovec) :=
  infovecSet fault iv key (.uint16 value)

def infovecSetBool (fault : InfovecFaults) (iv : Option Infovec) (key : Option CString) (value : Bool) :
    Except Fault (Int32 × Option Infovec) :=
  infovecSet fault iv key (.bool value)

def infovecSetRank (fault : InfovecFaults) (iv : Option Infovec) (key : Option CString) (value : UInt32) :
    Except Fault (Int32 × Option Infovec) :=
  infovecSet fault iv key (.procRank value)

def infovecSetByteObjectNew (fault : InfovecFaults) (iv : Option Infovec) (key : Option CString)
    (value : Option (List UInt8)) (size : UInt64) : Except Fault (Int32 × Option Infovec) :=
  infovecSet fault iv key (.byteObject value size)

/-- The slot is in use before its array is allocated, also when that fails. -/
def infovecSetInfovecNew (fault : InfovecFaults) (iv : Option Infovec) (key : Option CString)
    (val : Option Infovec) : Except Fault (Int32 × Option Infovec) :=
  match iv, key, val with
  | some iv, some key, some val => do
    match ← allocSlot fault iv with
    | none => return (-1, some iv)
    | some slot =>
      let name := strlcpy pmixMaxKeylen key.bytes
      if fault.calloc then
        return (-1, some (slot.fill (name, .dataArray none)))
      else
        return (0, some (slot.fill (name, .dataArray (some val.info))))
  | iv, _, _ => .ok (-1, iv)

namespace Infovec
variable (iv : Infovec)

theorem count_le : iv.info.length ≤ infovecMax := by
  obtain ⟨chunks, length⟩ := iv.chunked
  have fits := iv.fits
  have counted := iv.counted
  rw [infovecChunk] at length
  rw [intMax] at counted
  rw [infovecMax]
  omega

/-- It cannot grow exactly when it is full at its last length. -/
theorem full_iff : (iv.info.length = iv.length ∧ ¬ iv.length + infovecChunk ≤ intMax) ↔
    iv.info.length = infovecMax := by
  obtain ⟨chunks, length⟩ := iv.chunked
  have fits := iv.fits
  have counted := iv.counted
  rw [infovecChunk] at length ⊢
  rw [intMax] at counted ⊢
  rw [infovecMax]
  omega

@[simp] theorem fill_push (first entry : InfovecEntry) (room : iv.info.length < iv.length) :
    ((iv.push first room).fill entry).info = iv.info ++ [entry] := by
  simp [fill, push]

end Infovec

/-- What `alloc_slot` can do. -/
theorem allocSlot_cases (fault : InfovecFaults) (iv : Infovec) :
    (allocSlot fault iv = .error .undefined ∧ iv.info.length = infovecMax) ∨
    (iv.info.length < infovecMax ∧
      ((allocSlot fault iv = .ok none ∧ fault.realloc = true) ∨
        ∃ slot, allocSlot fault iv = .ok (some slot) ∧
          ∀ entry, (slot.fill entry).info = iv.info ++ [entry])) := by
  have bound := iv.count_le
  by_cases full : iv.info.length = iv.length
  · by_cases room : iv.length + infovecChunk ≤ intMax
    · have below : iv.info.length < infovecMax :=
        Nat.lt_of_le_of_ne bound fun last => (iv.full_iff.mpr last).2 room
      refine .inr ⟨below, ?_⟩
      cases failed : fault.realloc with
      | true => exact .inl ⟨by simp [allocSlot, full, room, failed], rfl⟩
      | false =>
        have grown : (iv.grow room).info.length < (iv.grow room).length :=
          full ▸ Nat.lt_add_of_pos_right (by decide)
        refine .inr ⟨(iv.grow room).push clearedSlot grown, ?_, fun entry => (iv.grow room).fill_push _ entry _⟩
        simp [allocSlot, full, room, failed]
    · exact .inl ⟨by simp [allocSlot, full, room], iv.full_iff.mp ⟨full, room⟩⟩
  · have below : iv.info.length < infovecMax :=
      Nat.lt_of_le_of_ne bound fun last => full (iv.full_iff.mpr last).1
    exact .inr ⟨below, .inr ⟨_, dif_neg full, fun entry => iv.fill_push _ entry _⟩⟩

/-- NULL comes of a full array that `realloc` does not extend. -/
theorem allocSlot_null (fault : InfovecFaults) (iv : Infovec) : allocSlot fault iv = .ok none ↔
    iv.info.length ≠ infovecMax ∧ iv.info.length = iv.length ∧ fault.realloc = true := by
  by_cases full : iv.info.length = iv.length
  · have last : iv.info.length ≠ infovecMax ↔ iv.length + infovecChunk ≤ intMax := by
      rw [← not_iff_not, not_not, ← iv.full_iff]
      exact and_iff_right full
    rw [last]
    by_cases room : iv.length + infovecChunk ≤ intMax
    · cases failed : fault.realloc <;> simp [allocSlot, full, room, failed]
    · simp [allocSlot, full, room]
  · simp [allocSlot, full]

theorem infovecSet_cases (fault : InfovecFaults) (iv : Infovec) (key : CString) (value : InfovecValue) :
    (infovecSet fault (some iv) (some key) value = .error .undefined ∧ iv.info.length = infovecMax) ∨
    (iv.info.length < infovecMax ∧
      ((infovecSet fault (some iv) (some key) value = .ok (-1, some iv) ∧ fault.realloc = true) ∨
        ∃ after, infovecSet fault (some iv) (some key) value = .ok (0, some after) ∧
          after.info = iv.info ++ [(strlcpy pmixMaxKeylen key.bytes, value)])) := by
  rcases allocSlot_cases fault iv with
    ⟨undefined, last⟩ | ⟨below, ⟨refused, failed⟩ | ⟨slot, allocated, filled⟩⟩
  · exact .inl ⟨by simp only [infovecSet, undefined]; rfl, last⟩
  · exact .inr ⟨below, .inl ⟨by simp only [infovecSet, refused]; rfl, failed⟩⟩
  · exact .inr ⟨below, .inr ⟨_, by simp only [infovecSet, allocated]; rfl, filled _⟩⟩

theorem infovecSetInfovecNew_cases (fault : InfovecFaults) (iv : Infovec) (key : CString) (val : Infovec) :
    (infovecSetInfovecNew fault (some iv) (some key) (some val) = .error .undefined ∧
      iv.info.length = infovecMax) ∨
    (iv.info.length < infovecMax ∧
      ((∃ after, infovecSetInfovecNew fault (some iv) (some key) (some val) = .ok (-1, some after) ∧
          (fault.realloc = true ∨ fault.calloc = true)) ∨
        ∃ after, infovecSetInfovecNew fault (some iv) (some key) (some val) = .ok (0, some after) ∧
          after.info = iv.info ++ [(strlcpy pmixMaxKeylen key.bytes, .dataArray (some val.info))])) := by
  rcases allocSlot_cases fault iv with
    ⟨undefined, last⟩ | ⟨below, ⟨refused, failed⟩ | ⟨slot, allocated, filled⟩⟩
  · exact .inl ⟨by simp only [infovecSetInfovecNew, undefined]; rfl, last⟩
  · exact .inr ⟨below, .inl ⟨iv, by simp only [infovecSetInfovecNew, refused]; rfl, .inl failed⟩⟩
  · refine .inr ⟨below, ?_⟩
    cases failed : fault.calloc with
    | true => exact .inl ⟨_, by simp only [infovecSetInfovecNew, allocated, failed]; rfl, .inr rfl⟩
    | false => exact .inr ⟨_, by simp only [infovecSetInfovecNew, allocated, failed]; rfl, filled _⟩

end FluxPmix

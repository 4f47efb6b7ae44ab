import FluxPmix.Blocks
import FluxPmix.Infovec

/-! Who frees what an array of infos holds. A setter that succeeds takes over what it was given and one that
fails does not, and destroying the array frees whatever it took over, arrays in arrays included. -/
namespace FluxPmix.Owned
open Blocks

/-- A value with the blocks its pointers point to. -/
inductive Value where
  | undef
  | string (block : Block) (string : CString)
  | uint32 (uint32 : UInt32)
  | uint16 (uint16 : UInt16)
  | bool (flag : Bool)
  | procRank (rank : UInt32)
  | dataArray (darray : Option Block) (array : Option Block) (info : List (CharArray (pmixMaxKeylen + 1) × Value))
  | byteObject (block : Option Block) (bytes : Option (List UInt8)) (size : UInt64)

abbrev Entry := CharArray (pmixMaxKeylen + 1) × Value

/-- `array` is NULL until the first slot is allocated. -/
structure Infovec where
  block : Block
  length : Nat
  array : Option Block
  info : List Entry
  fits : info.length ≤ length
  chunked : infovecChunk ∣ length
  counted : length ≤ intMax
  placed : array = none → length = 0

/-! ### What is held, and what it says -/

mutual

def Value.owned : Value → Multiset Block
  | .string block _ => {block}
  | .dataArray (some darray) array info => ownedArray array info + {darray}
  | .byteObject block _ _ => held block
  | _ => 0

/-- The blocks of an array of infos. -/
def ownedArray : (info : Option Block) → List Entry → Multiset Block
  | none, _ => 0
  | some info, [] => {info}
  | some info, (_, value) :: rest => value.owned + ownedArray (some info) rest

end

mutual

def Value.content : Value → InfovecValue
  | .undef => .undef
  | .string _ string => .string string
  | .uint32 uint32 => .uint32 uint32
  | .uint16 uint16 => .uint16 uint16
  | .bool flag => .bool flag
  | .procRank rank => .procRank rank
  | .dataArray none _ _ => .dataArray none
  | .dataArray (some _) _ info => .dataArray (some (contents info))
  | .byteObject _ bytes size => .byteObject bytes size

def contents : List Entry → List InfovecEntry
  | [] => []
  | (key, value) :: rest => (key, value.content) :: contents rest

end

section
variable {array : Block} {entry : Entry} {info : List Entry}

theorem ownedArray_some (array : Block) (info : List Entry) :
    ownedArray (some array) info = (info.map fun e => e.2.owned).sum + {array} := by
  induction info with
  | nil => rw [ownedArray, List.map_nil, List.sum_nil, zero_add]
  | cons e rest ih => rw [ownedArray, ih, List.map_cons, List.sum_cons, add_assoc]

theorem contents_eq (info : List Entry) : contents info = info.map fun e => (e.1, e.2.content) := by
  induction info with
  | nil => rfl
  | cons e rest ih => rw [contents, ih, List.map_cons]

end

namespace Infovec

def owned (iv : Infovec) : Multiset Block := ownedArray iv.array iv.info + {iv.block}

/-- The array as one of infos only. -/
def content (iv : Infovec) : FluxPmix.Infovec where
  length := iv.length
  info := contents iv.info
  fits := by
    rw [contents_eq, List.length_map]
    exact iv.fits
  chunked := iv.chunked
  counted := iv.counted

def grow (iv : Infovec) (array : Block) (room : iv.length + infovecChunk ≤ intMax) : Infovec where
  block := iv.block
  length := iv.length + infovecChunk
  array := some array
  info := iv.info
  fits := Nat.le_add_right_of_le iv.fits
  chunked := Nat.dvd_add iv.chunked (Nat.dvd_refl infovecChunk)
  counted := room
  placed := nofun

def push (iv : Infovec) (entry : Entry) (room : iv.info.length < iv.length) : Infovec where
  block := iv.block
  length := iv.length
  array := iv.array
  info := iv.info ++ [entry]
  fits := by
    rw [List.length_append]
    exact room
  chunked := iv.chunked
  counted := iv.counted
  placed := iv.placed

/-- Store into the last slot. -/
def fill (iv : Infovec) (entry : Entry) : Infovec where
  block := iv.block
  length := iv.length
  array := iv.array
  info := iv.info.set (iv.info.length - 1) entry
  fits := by simpa using iv.fits
  chunked := iv.chunked
  counted := iv.counted
  placed := iv.placed

end Infovec

/-! ### The functions -/

theorem nil_fits : ([] : List Entry).length ≤ 0 := Nat.le_refl 0

theorem zero_chunked : infovecChunk ∣ 0 := Nat.dvd_zero _

theorem zero_counted : 0 ≤ intMax := Nat.zero_le _


def infovecCreate : Prog (Option Infovec) := do
  let block ← Blocks.malloc
  return block.map fun block => ⟨block, 0, none, [], nil_fits, zero_chunked, zero_counted, fun _ => rfl⟩

def clearedSlot : Entry := (strlcpy pmixMaxKeylen [], .undef)

/-- The array with one more slot in use, or NULL. -/
def allocSlot (iv : Infovec) : Prog (Option Infovec) :=
  if full : iv.info.length = iv.length then
    if room : iv.length + infovecChunk ≤ intMax then do
      let some array ← realloc iv.array | return none
      return some ((iv.grow array room).push clearedSlot (full ▸ Nat.lt_add_of_pos_right (by decide)))
    else undefined
  else pure (some (iv.push clearedSlot (Nat.lt_of_le_of_ne iv.fits full)))

/-- What the setters of plain values share. -/
def infovecSet (iv : Infovec) (key : CString) (value : Value) : Prog (Int32 × Infovec) := do
  let some slot ← allocSlot iv | return (-1, iv)
  return (0, slot.fill (strlcpy pmixMaxKeylen key.bytes, value))

def infovecSetStrNew (iv : Infovec) (key : CString) (block : Block) (val : CString) : Prog (Int32 × Infovec) :=
  infovecSet iv key (.string block val)

def infovecSetStr (iv : Infovec) (key val : CString) : Prog (Int32 × Infovec) := do
  let some cpy ← Blocks.malloc | return (-1, iv)
  let (rc, iv) ← infovecSetStrNew iv key cpy val
  if rc < 0 then
    free cpy
    return (-1, iv)
  return (0, iv)

def infovecSetU32 (iv : Infovec) (key : CString) (value : UInt32) : Prog (Int32 × Infovec) :=
  infovecSet iv key (.uint32 value)

def infovecSetU16 (iv : Infovec) (key : CString) (value : UInt16) : Prog (Int32 × Infovec) :=
  infovecSet iv key (.uint16 value)

def infovecSetBool (iv : Infovec) (key : CString) (value : Bool) : Prog (Int32 × Infovec) :=
  infovecSet iv key (.bool value)

def infovecSetRank (iv : Infovec) (key : CString) (value : UInt32) : Prog (Int32 × Infovec) :=
  infovecSet iv key (.procRank value)

def infovecSetByteObjectNew (iv : Infovec) (key : CString) (block : Option Block) (value : Option (List UInt8))
    (size : UInt64) : Prog (Int32 × Infovec) :=
  infovecSet iv key (.byteObject block value size)

/-- The slot is in use before its array is allocated, also when that fails. The array is stolen and what
held it is freed. -/
def infovecSetInfovecNew (iv : Infovec) (key : CString) (val : Infovec) : Prog (Int32 × Infovec) := do
  let some slot ← allocSlot iv | return (-1, iv)
  let name := strlcpy pmixMaxKeylen key.bytes
  let some darray ← Blocks.malloc | return (-1, slot.fill (name, .dataArray none none []))
  free val.block
  return (0, slot.fill (name, .dataArray (some darray) val.array val.info))

mutual

/-- The cases of the switch. -/
def Value.destroy : Value → Prog Unit
  | .string block _ => free block
  | .dataArray (some darray) array info => do
    destroyInfoArray array info
    free darray
  | .byteObject block _ _ => freeNullable block
  | _ => pure ()

def destroyInfoArray : (info : Option Block) → List Entry → Prog Unit
  | none, _ => pure ()
  | some info, [] => free info
  | some info, (_, value) :: rest => do
    value.destroy
    destroyInfoArray (some info) rest

end

def infovecDestroy : Option Infovec → Prog Unit
  | none => pure ()
  | some iv => do
    destroyInfoArray iv.array iv.info
    free iv.block

/-! ### Destruction frees what is held -/

mutual

theorem Value.destroy_owned (value : Value) : Triple lack value.owned value.destroy fun _ own => own = 0 := by
  cases value with
  | string block =>
    rw [Value.owned, Value.destroy]
    exact Triple.free
  | byteObject block =>
    rw [Value.owned, Value.destroy]
    exact Triple.freeNullable block
  | dataArray darray array info =>
    cases darray with
    | none => exact Triple.pure rfl
    | some darray =>
      rw [Value.owned, Value.destroy]
      exact (destroyInfoArray_owned array info).release Triple.free
  | _ => exact Triple.pure rfl

theorem destroyInfoArray_owned (array : Option Block) (info : List Entry) :
    Triple lack (ownedArray array info) (destroyInfoArray array info) fun _ own => own = 0 := by
  cases array with
  | none =>
    rw [ownedArray, destroyInfoArray]
    exact Triple.pure rfl
  | some array =>
    cases info with
    | nil =>
      rw [ownedArray, destroyInfoArray]
      exact Triple.free
    | cons e rest =>
      rw [ownedArray, destroyInfoArray]
      exact (Value.destroy_owned e.2).release (destroyInfoArray_owned (some array) rest)

end

theorem infovecDestroy_owned (iv : Option Infovec) :
    Triple lack (iv.elim 0 Infovec.owned) (infovecDestroy iv) fun _ own => own = 0 := by
  cases iv with
  | none => exact Triple.pure rfl
  | some iv => exact (destroyInfoArray_owned iv.array iv.info).release Triple.free

/-! ### What the setters do -/

theorem content_ext {one two : FluxPmix.Infovec} (length : one.length = two.length) (info : one.info = two.info) :
    one = two := by
  cases one
  cases two
  cases length
  cases info
  rfl

namespace Infovec
variable (iv : Infovec) (entry : Entry)

theorem content_fill : (iv.fill entry).content = iv.content.fill (entry.1, entry.2.content) := by
  refine content_ext rfl ?_
  simp only [content, fill, FluxPmix.Infovec.fill, contents_eq, List.map_set, List.length_map]

theorem content_push (room : iv.info.length < iv.length) (room' : iv.content.info.length < iv.content.length) :
    (iv.push entry room).content = iv.content.push (entry.1, entry.2.content) room' := by
  refine content_ext rfl ?_
  simp only [content, push, FluxPmix.Infovec.push, contents_eq, List.map_append, List.map_cons, List.map_nil]

theorem content_count : iv.content.info.length = iv.info.length := by
  exact (congrArg List.length (contents_eq iv.info)).trans (List.length_map _)

theorem owned_split : iv.owned = held iv.array + ((iv.info.map fun e => e.2.owned).sum + {iv.block}) := by
  cases here : iv.array with
  | none =>
    have nothing : iv.info = [] := by
      have none := iv.placed here
      have fits := iv.fits
      exact List.eq_nil_of_length_eq_zero (by omega)
    rw [owned, here, nothing]
    rfl
  | some array =>
    rw [owned, here, ownedArray_some]
    change _ = {array} + _
    ac_rfl

/-- What is stored over a cleared slot is held in its place. -/
theorem fill_push (room : iv.info.length < iv.length) :
    ((iv.push clearedSlot room).fill entry).info = iv.info ++ [entry] ∧
    ((iv.push clearedSlot room).fill entry).owned = iv.owned + entry.2.owned := by
  have info : ((iv.push clearedSlot room).fill entry).info = iv.info ++ [entry] := by simp [fill, push]
  refine ⟨info, ?_⟩
  obtain ⟨array, allocated⟩ : ∃ array, iv.array = some array := by
    cases here : iv.array with
    | none =>
      have nothing := iv.placed here
      omega
    | some array => exact ⟨array, rfl⟩
  have same : ((iv.push clearedSlot room).fill entry).array = iv.array := rfl
  have block : ((iv.push clearedSlot room).fill entry).block = iv.block := rfl
  rw [owned, owned, same, block, info, allocated, ownedArray_some, ownedArray_some, List.map_append, List.sum_append,
    List.map_cons, List.map_nil, List.sum_singleton]
  ac_rfl

end Infovec

variable {lack : Prop} {iv : Infovec} {key : CString} {value : Value}

theorem allocSlot_spec (room : iv.info.length < infovecMax) : Triple lack iv.owned (allocSlot iv) fun slot own =>
    (∃ fault, FluxPmix.allocSlot fault iv.content = .ok (slot.map Infovec.content)) ∧
    ((slot = none ∧ own = iv.owned ∧ lack) ∨ ∃ s, slot = some s ∧
      ∀ entry, (s.fill entry).info = iv.info ++ [entry] ∧ (s.fill entry).owned = own + entry.2.owned) := by
  have count := iv.content_count
  by_cases full : iv.info.length = iv.length
  · have fullContent : iv.content.info.length = iv.content.length := count.trans full
    have grows : iv.length + infovecChunk ≤ intMax := by
      by_contra last
      have most := iv.content.full_iff.mp ⟨fullContent, last⟩
      omega
    rw [allocSlot, dif_pos full, dif_pos grows]
    refine (Triple.realloc iv.array).step iv.owned_split ?_
    rintro pointer _ (⟨rfl, rfl, failed⟩ | ⟨array, rfl, rfl⟩)
    · refine Triple.pure ⟨⟨{ realloc := true }, ?_⟩, .inl ⟨rfl, iv.owned_split.symm, failed⟩⟩
      exact (allocSlot_null _ _).mpr ⟨by omega, fullContent, rfl⟩
    · have free : (iv.grow array grows).info.length < (iv.grow array grows).length :=
        full ▸ Nat.lt_add_of_pos_right (by decide)
      refine Triple.pure ⟨⟨{}, ?_⟩, .inr ⟨_, rfl, fun entry => ?_⟩⟩
      · have room' : iv.content.length + infovecChunk ≤ intMax := grows
        have free' : (iv.content.grow room').info.length < (iv.content.grow room').length :=
          fullContent ▸ Nat.lt_add_of_pos_right (by decide)
        have allocated : FluxPmix.allocSlot {} iv.content =
            .ok (some ((iv.content.grow room').push FluxPmix.clearedSlot free')) := by
          simp [FluxPmix.allocSlot, fullContent, room']
        rw [allocated, Option.map_some, (iv.grow array grows).content_push clearedSlot free free']
        rfl
      · obtain ⟨info, owned⟩ := (iv.grow array grows).fill_push entry free
        refine ⟨info, owned.trans ?_⟩
        rw [(iv.grow array grows).owned_split]
        rfl
  · have unfull : ¬ iv.content.info.length = iv.content.length := fun same => full (count.symm.trans same)
    have free := Nat.lt_of_le_of_ne iv.fits full
    have free' := Nat.lt_of_le_of_ne iv.content.fits unfull
    rw [allocSlot, dif_neg full]
    refine Triple.pure ⟨⟨{}, ?_⟩, .inr ⟨_, rfl, fun entry => iv.fill_push entry free⟩⟩
    rw [FluxPmix.allocSlot, dif_neg unfull, Option.map_some, iv.content_push clearedSlot free free']
    rfl

/-- A setter stores what the one of infos only stores, under some failures of its own. It takes over the blocks
it was given exactly if it succeeds, as it does where no allocation fails. -/
def Sets (lack : Prop) (iv : Infovec) (given : Multiset Block)
    (set : InfovecFaults → Except Fault (Int32 × Option FluxPmix.Infovec)) (out : Int32 × Infovec)
    (own : Multiset Block) : Prop :=
  (∃ fault, set fault = .ok (out.1, some out.2.content)) ∧ out.2.info.length ≤ iv.info.length + 1 ∧
    (out.1 = 0 ∧ own = out.2.owned ∨ out.1 = -1 ∧ own = out.2.owned + given ∧ lack)

theorem infovecSet_spec (room : iv.info.length < infovecMax) (key : CString) (value : Value) :
    Triple lack (iv.owned + value.owned) (infovecSet iv key value)
      (Sets lack iv value.owned fun fault => FluxPmix.infovecSet fault (some iv.content) (some key) value.content) := by
  refine (allocSlot_spec room).step rfl ?_
  rintro _ own ⟨⟨fault, allocated⟩, ⟨rfl, rfl, failed⟩ | ⟨slot, rfl, filled⟩⟩
  · refine Triple.pure ⟨⟨fault, ?_⟩, Nat.le_succ _, .inr ⟨rfl, rfl, failed⟩⟩
    simp only [FluxPmix.infovecSet, allocated]
    rfl
  · obtain ⟨info, owned⟩ := filled (strlcpy pmixMaxKeylen key.bytes, value)
    refine Triple.pure ⟨⟨fault, ?_⟩, ?_, .inl ⟨rfl, owned.symm⟩⟩
    · simp only [FluxPmix.infovecSet, allocated, slot.content_fill]
      rfl
    · simp only [info, List.length_append, List.length_singleton]
      exact le_rfl

/-- The copy is the array's or is freed. -/
theorem infovecSetStr_spec (room : iv.info.length < infovecMax) (key val : CString) :
    Triple lack iv.owned (infovecSetStr iv key val)
      (Sets lack iv 0 fun fault => FluxPmix.infovecSetStr fault (some iv.content) (some key) (some val)) := by
  refine Triple.malloc.step (zero_add _).symm ?_
  rintro cpy _ ⟨rfl, failed⟩
  cases cpy with
  | none =>
    refine Triple.pure ⟨⟨{ strdup := true }, rfl⟩, Nat.le_succ _, .inr ⟨rfl, ?_, failed rfl⟩⟩
    rw [add_zero]
    exact zero_add _
  | some cpy =>
    rw [add_comm]
    refine (infovecSet_spec room key (.string cpy val)).bind ?_
    rintro ⟨rc, after⟩ own ⟨⟨fault, set⟩, count, ⟨stored, rfl⟩ | ⟨refused, rfl, failed⟩⟩
    · obtain rfl : rc = 0 := stored
      exact Triple.pure ⟨⟨{ fault with strdup := false }, set⟩, count, .inl ⟨rfl, rfl⟩⟩
    · obtain rfl : rc = -1 := refused
      rw [add_comm]
      exact Triple.free.release
        (Triple.pure ⟨⟨{ fault with strdup := false }, set⟩, count, .inr ⟨rfl, (add_zero _).symm, failed⟩⟩)

/-- The array that is stolen stays with the caller where the call fails. -/
theorem infovecSetInfovecNew_spec (room : iv.info.length < infovecMax) (key : CString) (val : Infovec) :
    Triple lack (iv.owned + val.owned) (infovecSetInfovecNew iv key val)
      (Sets lack iv val.owned fun fault =>
        FluxPmix.infovecSetInfovecNew fault (some iv.content) (some key) (some val.content)) := by
  refine (allocSlot_spec room).step rfl ?_
  rintro _ own ⟨⟨fault, allocated⟩, ⟨rfl, rfl, failed⟩ | ⟨slot, rfl, filled⟩⟩
  · refine Triple.pure ⟨⟨fault, ?_⟩, Nat.le_succ _, .inr ⟨rfl, rfl, failed⟩⟩
    simp only [FluxPmix.infovecSetInfovecNew, allocated]
    rfl
  · have allocated' (calloc : Bool) :
        FluxPmix.allocSlot { fault with calloc := calloc } iv.content = .ok (some slot.content) := allocated
    refine Triple.malloc.step (zero_add _).symm ?_
    rintro darray _ ⟨rfl, failed⟩
    cases darray with
    | none =>
      obtain ⟨info, owned⟩ := filled (strlcpy pmixMaxKeylen key.bytes, .dataArray none none [])
      refine Triple.pure ⟨⟨{ fault with calloc := true }, ?_⟩, ?_, .inr ⟨rfl, ?_, failed rfl⟩⟩
      · simp only [FluxPmix.infovecSetInfovecNew, allocated', slot.content_fill]
        rfl
      · simp only [info, List.length_append, List.length_singleton]
        exact le_rfl
      · rw [owned]
        change 0 + (own + val.owned) = own + 0 + val.owned
        rw [zero_add, add_zero]
    | some darray =>
      obtain ⟨info, owned⟩ := filled (strlcpy pmixMaxKeylen key.bytes, .dataArray (some darray) val.array val.info)
      have split : held (some darray) + (own + val.owned) =
          {val.block} + (own + (ownedArray val.array val.info + {darray})) := by
        rw [Infovec.owned]
        change {darray} + _ = _
        ac_rfl
      refine Triple.free.step split ?_
      rintro _ _ rfl
      refine Triple.pure ⟨⟨{ fault with calloc := false }, ?_⟩, ?_, .inl ⟨rfl, ?_⟩⟩
      · simp only [FluxPmix.infovecSetInfovecNew, allocated', slot.content_fill]
        rfl
      · simp only [info, List.length_append, List.length_singleton]
        exact le_rfl
      · rw [owned, zero_add]
        rfl

theorem infovecCreate_spec : Triple lack 0 infovecCreate fun iv own =>
    own = iv.elim 0 Infovec.owned ∧ (∃ callocFails, FluxPmix.infovecCreate callocFails = iv.map Infovec.content) ∧
      (iv = none → lack) ∧ ∀ created, iv = some created → created.info = [] := by
  refine Triple.malloc.bind ?_
  rintro block _ ⟨rfl, failed⟩
  cases block with
  | none => exact Triple.pure ⟨rfl, ⟨true, rfl⟩, fun _ => failed rfl, fun _ same => by cases same⟩
  | some block =>
    refine Triple.pure ⟨(zero_add _).symm, ⟨false, rfl⟩, ?_, fun created same => ?_⟩
    · intro none
      cases none
    · cases same
      rfl

end FluxPmix.Owned

import FluxPmix.Blocks
import FluxPmix.CodecFormat

/-! Decoded infos with the blocks their strings and procs are in. An array that was decoded is given back whole
when it is destroyed. Where an entry cannot be decoded the array is freed, and what the entries before it hold is
not. -/
namespace FluxPmix.Owned
open Blocks

/-- The types whose data is a pointer to a block of its own. -/
def allocates : PmixValue → Bool
  | .string _ => true
  | .proc _ => true
  | _ => false

inductive DecodedValue where
  | string (block : Block) (text : CString)
  | proc (block : Block) (proc : PmixProc)
  | plain (value : PmixValue) (unallocated : allocates value = false)

structure DecodedInfo where
  key : CharArray (pmixMaxKeylen + 1)
  flags : UInt32
  value : DecodedValue

namespace DecodedValue

def content : DecodedValue → PmixValue
  | .string _ text => .string (some text)
  | .proc _ decoded => .proc (some decoded)
  | .plain value _ => value

def owned : DecodedValue → Multiset Block
  | .string block _ => {block}
  | .proc block _ => {block}
  | .plain _ _ => 0

end DecodedValue

namespace DecodedInfo

def content (info : DecodedInfo) : PmixInfo := ⟨info.key, info.flags, info.value.content⟩

end DecodedInfo

def ownedInfos (infos : List DecodedInfo) : Multiset Block := (infos.map fun info => info.value.owned).sum

/-- What a function that allocates nothing returns. -/
def defined {A : Type} : Except Fault A → Prog (Option A)
  | .ok a => pure (some a)
  | .error .error => pure none
  | .error .undefined => undefined

def codecValueRelease : DecodedValue → Prog Unit
  | .string block _ => free block
  | .proc block _ => free block
  | .plain _ _ => return ()

/-- The loop of the destruction. -/
def releaseInfos : List DecodedInfo → Prog Unit
  | [] => return ()
  | info :: rest => do
    codecValueRelease info.value
    releaseInfos rest

def codecInfoArrayDestroy : Option (Block × List DecodedInfo) → Prog Unit
  | none => return ()
  | some (info, infos) => do
    releaseInfos infos
    free info

/-! ### What is held -/

theorem codecValueRelease_owned (value : DecodedValue) :
    Triple lack value.owned (codecValueRelease value) fun _ own => own = 0 := by
  cases value with
  | string block => exact Triple.free
  | proc block => exact Triple.free
  | plain => exact Triple.pure rfl

theorem releaseInfos_owned (infos : List DecodedInfo) :
    Triple lack (ownedInfos infos) (releaseInfos infos) fun _ own => own = 0 := by
  induction infos with
  | nil => exact Triple.pure rfl
  | cons info rest ih =>
    rw [ownedInfos, List.map_cons, List.sum_cons, ← ownedInfos]
    exact (codecValueRelease_owned info.value).release ih

theorem codecInfoArrayDestroy_owned (block : Block) (infos : List DecodedInfo) :
    Triple lack (ownedInfos infos + {block}) (codecInfoArrayDestroy (some (block, infos))) fun _ own => own = 0 :=
  (releaseInfos_owned infos).release Triple.free

/-- A value holds a block exactly if its type has one. -/
theorem DecodedValue.owned_zero (value : DecodedValue) : value.owned = 0 ↔ allocates value.content = false := by
  cases value with
  | string block text => simp [DecodedValue.owned, DecodedValue.content, allocates]
  | proc block proc => simp [DecodedValue.owned, DecodedValue.content, allocates]
  | plain value plain => simp [DecodedValue.owned, DecodedValue.content, plain]

theorem ownedInfos_zero (infos : List DecodedInfo) :
    ownedInfos infos = 0 ↔ ∀ info ∈ infos, allocates info.value.content = false := by
  induction infos with
  | nil => simp [ownedInfos]
  | cons info rest ih =>
    rw [ownedInfos, List.map_cons, List.sum_cons, ← ownedInfos,
      add_eq_zero_iff_of_nonneg (Multiset.zero_le _) (Multiset.zero_le _), info.value.owned_zero, ih,
      List.forall_mem_cons]

/-! ### Decoding -/

section
variable {lack : Prop} {A C : Type}

/-- What is decoded is what the decoder without blocks decodes, and its blocks are held. Where that fails, or an
allocation does, there is nothing. -/
def Decodes (lack : Prop) (decoded : Except Fault C) (content : A → C) (owned : A → Multiset Block)
    (out : Option A) (own : Multiset Block) : Prop :=
  (out = none ∧ own = 0 ∧ (lack ∨ decoded = .error .error)) ∨
    ∃ a, out = some a ∧ own = owned a ∧ decoded = .ok (content a)

theorem defined_spec {decoded : Except Fault A} (safe : decoded ≠ .error .undefined) :
    Triple lack 0 (defined decoded) fun out own => own = 0 ∧
      (out = none ∧ decoded = .error .error ∨ ∃ a, out = some a ∧ decoded = .ok a) := by
  cases decoded with
  | ok a => exact Triple.pure ⟨rfl, .inr ⟨a, rfl, rfl⟩⟩
  | error fault =>
    cases fault with
    | error => exact Triple.pure ⟨rfl, .inl ⟨rfl, rfl⟩⟩
    | undefined => contradiction

/-- A decoder that starts with what allocates nothing. -/
theorem defined_decodes {U : Type} {unpacked : Except Fault U} {next : Option U → Prog (Option A)}
    {decode : U → Except Fault C} {content : A → C} {owned : A → Multiset Block} (failed : next none = pure none)
    (safe : unpacked >>= decode ≠ .error .undefined)
    (later : ∀ u, decode u ≠ .error .undefined →
      Triple lack 0 (next (some u)) (Decodes lack (decode u) content owned)) :
    Triple lack 0 (defined unpacked >>= next) (Decodes lack (unpacked >>= decode) content owned) := by
  cases unpacked with
  | ok u => exact later u safe
  | error fault =>
    cases fault with
    | error =>
      change Triple lack 0 (next none) _
      rw [failed]
      exact Triple.pure (.inl ⟨rfl, rfl, .inr rfl⟩)
    | undefined => exact absurd rfl safe

end

section Floats
variable [CFloat]

theorem codecDataValue_plain {data : Json} {label : PmixType} {value : PmixValue} (string : label ≠ .string)
    (proc : label ≠ .proc) (made : codecDataValue data label = .ok value) : allocates value = false := by
  cases label with
  | string => contradiction
  | proc => contradiction
  | timeval =>
    obtain ⟨_, _, ended⟩ := bind_ok.mp made
    cases ended
    rfl
  | _ =>
    cases made
    rfl

section

/-- The decoder's switch. -/
def decodeData (data : Json) (label : PmixType) : Prog (Option DecodedValue) :=
  if string : label = .string then do
    let some text := data.stringValue | undefined
    let some cpy ← Blocks.malloc | return none
    return some (.string cpy (cString text))
  else if proc : label = .proc then do
    let some block ← Blocks.malloc | return none
    let some decoded ← defined (codecProcDecode data) | do
      free block
      return none
    return some (.proc block decoded)
  else
    match made : codecDataValue data label with
    | .ok value => return some (.plain value (codecDataValue_plain string proc made))
    | .error .error => return none
    | .error .undefined => undefined

def codecValueDecode (o : Json) : Prog (Option DecodedValue) := do
  let some (type, data, ()) ← defined (jsonUnpack o [.i, .o] (keyed ["type", "data"])) | return none
  match PmixType.ofCode type with
  | some label => decodeData data label
  | none => return none

def codecInfoDecode (o : Json) : Prog (Option DecodedInfo) := do
  let some (key, flags, xvalue, ()) ← defined (jsonUnpack o [.s, .i, .o] (keyed ["key", "flags", "value"]))
    | return none
  let some value ← codecValueDecode xvalue | return none
  return some ⟨strlcpy pmixMaxKeylen key, flags.toUInt32, value⟩

/-- The loop: whether all entries are decoded, and those that are. -/
def decodeInfos : List Json → Prog (Bool × List DecodedInfo)
  | [] => return (true, [])
  | entry :: rest => do
    let some info ← codecInfoDecode entry | return (false, [])
    let (all, infos) ← decodeInfos rest
    return (all, info :: infos)

def codecInfoArrayDecode : Json → Prog (Option (Block × List DecodedInfo))
  | .array entries => do
    let some info ← Blocks.malloc | return none
    let (all, infos) ← decodeInfos entries
    if all then
      return some (info, infos)
    else
      free info
      return none
  | _ => return none

end

section
variable {lack : Prop}

theorem decodeData_spec (data : Json) (label : PmixType) (safe : codecDataValue data label ≠ .error .undefined) :
    Triple lack 0 (decodeData data label)
      (Decodes lack (codecDataValue data label) DecodedValue.content DecodedValue.owned) := by
  rw [decodeData]
  by_cases string : label = .string
  · subst string
    rw [dif_pos rfl]
    simp only [codecDataValue] at safe ⊢
    rcases text : data.stringValue with _ | text
    · rw [text] at safe
      exact absurd rfl safe
    refine Triple.malloc.bind ?_
    rintro (_ | cpy) _ ⟨rfl, failed⟩
    · exact Triple.pure (.inl ⟨rfl, rfl, .inl (failed rfl)⟩)
    · exact Triple.pure (.inr ⟨_, rfl, rfl, rfl⟩)
  rw [dif_neg string]
  by_cases proc : label = .proc
  · subst proc
    rw [dif_pos rfl]
    simp only [codecDataValue] at safe ⊢
    refine Triple.malloc.bind ?_
    rintro (_ | block) _ ⟨rfl, failed⟩
    · exact Triple.pure (.inl ⟨rfl, rfl, .inl (failed rfl)⟩)
    have decodable : codecProcDecode data ≠ .error .undefined := fun undefined => safe (by rw [undefined]; rfl)
    refine (defined_spec decodable).step (zero_add _).symm ?_
    rintro decoded _ ⟨rfl, ⟨rfl, refused⟩ | ⟨decoded, rfl, made⟩⟩
    · rw [zero_add]
      refine Triple.free.bind ?_
      rintro _ _ rfl
      exact Triple.pure (.inl ⟨rfl, rfl, .inr (by rw [refused]; rfl)⟩)
    · exact Triple.pure (.inr ⟨_, rfl, zero_add _, by rw [made]; rfl⟩)
  rw [dif_neg proc]
  split
  next value made => exact Triple.pure (.inr ⟨_, rfl, rfl, made⟩)
  next made => exact Triple.pure (.inl ⟨rfl, rfl, .inr made⟩)
  next made => exact absurd made safe

theorem codecValueDecode_spec {o : Json} (safe : FluxPmix.codecValueDecode o ≠ .error .undefined) :
    Triple lack 0 (codecValueDecode o)
      (Decodes lack (FluxPmix.codecValueDecode o) DecodedValue.content DecodedValue.owned) := by
  rw [FluxPmix.codecValueDecode] at safe ⊢
  rw [codecValueDecode]
  refine defined_decodes rfl safe ?_
  rintro ⟨type, data, ⟨⟩⟩ safe
  dsimp only at safe ⊢
  rcases labelled : PmixType.ofCode type with _ | label
  · exact Triple.pure (.inl ⟨rfl, rfl, .inr rfl⟩)
  · rw [labelled] at safe
    exact decodeData_spec data label safe

theorem codecInfoDecode_spec {o : Json} (safe : FluxPmix.codecInfoDecode o ≠ .error .undefined) :
    Triple lack 0 (codecInfoDecode o)
      (Decodes lack (FluxPmix.codecInfoDecode o) DecodedInfo.content fun info => info.value.owned) := by
  rw [FluxPmix.codecInfoDecode] at safe ⊢
  rw [codecInfoDecode]
  refine defined_decodes rfl safe ?_
  rintro ⟨key, flags, xvalue, ⟨⟩⟩ safe
  dsimp only at safe ⊢
  have decodable : FluxPmix.codecValueDecode xvalue ≠ .error .undefined :=
    fun undefined => safe (by rw [undefined]; rfl)
  refine (codecValueDecode_spec decodable).bind ?_
  rintro _ _ (⟨rfl, rfl, failed⟩ | ⟨value, rfl, rfl, made⟩)
  · exact Triple.pure (.inl ⟨rfl, rfl, failed.imp_right fun refused => by rw [refused]; rfl⟩)
  · exact Triple.pure (.inr ⟨_, rfl, rfl, by rw [made]; rfl⟩)

/-- The entries before the one that fails are decoded. -/
theorem decodeInfos_spec {entries : List Json}
    (safe : decodeEntries FluxPmix.codecInfoDecode entries ≠ .error .undefined) :
    Triple lack 0 (decodeInfos entries) fun out own => own = ownedInfos out.2 ∧
      decodeEntries FluxPmix.codecInfoDecode (entries.take out.2.length) = .ok (out.2.map DecodedInfo.content) ∧
      (out.1 = true ∧ out.2.length = entries.length ∨ out.1 = false ∧ (lack ∨
        decodeEntries FluxPmix.codecInfoDecode entries = .error .error ∧
        ∀ entry, entries[out.2.length]? = some entry → FluxPmix.codecInfoDecode entry = .error .error)) := by
  induction entries with
  | nil => exact Triple.pure ⟨rfl, rfl, .inl ⟨rfl, rfl⟩⟩
  | cons entry rest ih =>
    rw [decodeEntries] at safe
    have decodable : FluxPmix.codecInfoDecode entry ≠ .error .undefined :=
      fun undefined => safe (by rw [undefined]; rfl)
    refine (codecInfoDecode_spec decodable).bind ?_
    rintro _ _ (⟨rfl, rfl, failed⟩ | ⟨info, rfl, rfl, made⟩)
    · refine Triple.pure ⟨rfl, rfl, .inr ⟨rfl, failed.imp_right fun refused => ?_⟩⟩
      refine ⟨?_, fun other first => ?_⟩
      · rw [decodeEntries, refused]
        rfl
      · cases first
        exact refused
    · have others : decodeEntries FluxPmix.codecInfoDecode rest ≠ .error .undefined :=
        fun undefined => safe (by rw [made, undefined]; rfl)
      refine (ih others).step (zero_add _).symm ?_
      rintro ⟨all, infos⟩ _ ⟨rfl, decoded, result⟩
      refine Triple.pure ⟨?_, ?_, ?_⟩
      · exact add_comm _ _
      · rw [List.length_cons, List.take_succ_cons, decodeEntries, made, decoded]
        rfl
      · rcases result with ⟨rfl, whole⟩ | ⟨rfl, failed⟩
        · exact .inl ⟨rfl, congrArg Nat.succ whole⟩
        · refine .inr ⟨rfl, failed.imp_right fun refused => ⟨?_, refused.2⟩⟩
          rw [decodeEntries, made, refused.1]
          rfl

/-- What a decode that failed leaves behind: the entries before, decoded and out of reach. -/
structure Lost (lack : Prop) (o : Json) (lost : List DecodedInfo) : Prop where
  decoded : decodeEntries FluxPmix.codecInfoDecode (o.arrayElements.take lost.length) =
    .ok (lost.map DecodedInfo.content)
  stopped : lack ∨ FluxPmix.codecInfoArrayDecode o = .error .error ∧
    ∀ entry, o.arrayElements[lost.length]? = some entry → FluxPmix.codecInfoDecode entry = .error .error

theorem codecInfoArrayDecode_spec {o : Json} (safe : FluxPmix.codecInfoArrayDecode o ≠ .error .undefined) :
    Triple lack 0 (codecInfoArrayDecode o) fun out own =>
      (∃ block infos, out = some (block, infos) ∧ own = ownedInfos infos + {block} ∧
        FluxPmix.codecInfoArrayDecode o = .ok (infos.map DecodedInfo.content)) ∨
      out = none ∧ ∃ lost, own = ownedInfos lost ∧ Lost lack o lost := by
  cases o with
  | array entries =>
    have decodable : decodeEntries FluxPmix.codecInfoDecode entries ≠ .error .undefined := safe
    refine Triple.malloc.bind ?_
    rintro (_ | block) _ ⟨rfl, failed⟩
    · exact Triple.pure (.inr ⟨rfl, [], rfl, rfl, .inl (failed rfl)⟩)
    refine (decodeInfos_spec decodable).step (zero_add _).symm ?_
    rintro ⟨_, infos⟩ _ ⟨rfl, decoded, ⟨rfl, whole⟩ | ⟨rfl, failed⟩⟩
    · refine Triple.pure (.inl ⟨block, infos, rfl, rfl, ?_⟩)
      rw [whole, List.take_length] at decoded
      exact decoded
    · refine Triple.free.step (add_comm _ _) ?_
      rintro _ _ rfl
      exact Triple.pure (.inr ⟨rfl, infos, zero_add _, decoded, failed⟩)
  | _ => exact Triple.pure (.inr ⟨rfl, [], rfl, rfl, .inr ⟨rfl, fun _ first => by cases first⟩⟩)

end

/-- Whichever allocations fail, a decode of infos succeeds with what destroying the array gives back whole, or it
leaves exactly what the entries before the failing one hold; that is nothing only if none of them is a string or a
proc. -/
theorem codec_infos_owned (o : Json) (heap : Heap)
    (safe : FluxPmix.codecInfoArrayDecode o ≠ .error .undefined) :
    ∃ out after, codecInfoArrayDecode o heap = some (out, after) ∧
      ((∃ block infos, out = some (block, infos) ∧
        FluxPmix.codecInfoArrayDecode o = .ok (infos.map DecodedInfo.content) ∧
        ∃ final, codecInfoArrayDestroy out after = some ((), final) ∧ final.live = heap.live) ∨
      out = none ∧ ∃ lost, Lost (heap.Refused after) o lost ∧ after.live = heap.live + ownedInfos lost ∧
        (after.live = heap.live ↔ ∀ info ∈ lost, allocates info.value.content = false)) := by
  obtain ⟨out, after, own, ran, live, result⟩ :=
    Triple.attempted (fun _ => codecInfoArrayDecode_spec safe) (add_zero heap.live).symm
  refine ⟨out, after, ran, ?_⟩
  rcases result with ⟨block, infos, rfl, rfl, decoded⟩ | ⟨rfl, lost, rfl, left⟩
  · obtain ⟨_, final, _, ended, given, rfl⟩ := (codecInfoArrayDestroy_owned block infos).run live
    exact .inl ⟨block, infos, rfl, decoded, final, ended, given.trans (add_zero _)⟩
  · refine .inr ⟨rfl, lost, left, live, ?_⟩
    rw [live, ← ownedInfos_zero, add_eq_left]

end Floats

/-- The block of a string before an info without a type is lost. -/
theorem codec_infos_owned_sample : ∃ after,
    @codecInfoArrayDecode .verbatim (.array [infoEntry 3 (.string [97]), infoEntry 0 (.integer 0)])
      (.empty fun _ => false) = some (none, after) ∧
    after.live ≠ 0 := by
  obtain ⟨out, after, ran, ⟨_, _, _, decoded, _⟩ | ⟨rfl, lost, ⟨decoded, stopped⟩, _, kept⟩⟩ :=
    @codec_infos_owned .verbatim (.array [infoEntry 3 (.string [97]), infoEntry 0 (.integer 0)])
      (.empty fun _ => false) (fun undefined => by cases undefined)
  · cases decoded
  refine ⟨after, ran, fun none => ?_⟩
  cases lost with
  | nil =>
    rcases stopped with ⟨_, _, _, failed⟩ | ⟨_, first⟩
    · cases failed
    · cases first _ rfl
  | cons info rest =>
    have plain := kept.mp none info List.mem_cons_self
    cases rest with
    | nil =>
      have string : PmixValue.string (some (cString [97])) = info.value.content :=
        congrArg PmixInfo.value (List.cons.inj (Except.ok.inj decoded)).1
      rw [← string] at plain
      cases plain
    | cons => cases decoded

end FluxPmix.Owned

import FluxPmix.CodecDataProofs
import Mathlib.Data.List.GetD
import Mathlib.Data.List.Nodup

/-! The tables are built from an alphabet. Which alphabets do: their characters are distinct, padding is none of
them, and the filler of a short quartet is one. -/
namespace FluxPmix

def base64CharInAlphabet (maps : Base64Maps) (char : UInt8) : Bool := maps.decodeMap.getD char.toNat 0xff != 0xff

/-- The loop over the alphabet from the position `i` on. -/
def storeLetters : (letters : List UInt8) → (i : UInt8) → (decodeMap : List UInt8) → List UInt8
  | [], _, decodeMap => decodeMap
  | letter :: rest, i, decodeMap => storeLetters rest (i + 1) (decodeMap.set letter.toNat i)

def base64InitMaps (src : Vector UInt8 64) : Base64Maps where
  encodeMap := src.toList
  decodeMap := storeLetters src.toList 0 (List.replicate 256 0xff)

/-- The given tables are those of their alphabet. -/
theorem Base64Maps.rfc4648_init : base64InitMaps ⟨Base64Maps.rfc4648.encodeMap.toArray, rfl⟩ = .rfc4648 :=
  congrArg (Base64Maps.mk _) (by decide +kernel)

/-- Whatever is encoded into a buffer is decoded from it again. A buffer's size is below 2^63. -/
def Base64Maps.RoundTrips (maps : Base64Maps) : Prop :=
  ∀ (src dest : List UInt8) (destlen avail : UInt64), src.length < 2 ^ 63 → destlen.toNat < 2 ^ 63 →
    base64Encode maps destlen src = .ok dest →
    base64DecodedLength (base64EncodedLength (.ofNat src.length)) ≤ avail →
    base64Decode maps avail dest (base64EncodedLength (.ofNat src.length)) =
      .ok (src.length, src ++ List.replicate (avail.toNat - src.length) 0)

variable {maps : Base64Maps} {src : List UInt8}

/-! ### Buffers -/

/-- A buffer that was encoded into is decoded to what its text means. -/
theorem base64Decode_encode {dest : List UInt8} {destlen avail : UInt64} (bounded : src.length < 2 ^ 63)
    (small : destlen.toNat < 2 ^ 63) (encoded : base64Encode maps destlen src = .ok dest)
    (room : base64DecodedLength (base64EncodedLength (.ofNat src.length)) ≤ avail) :
    base64Decode maps avail dest (base64EncodedLength (.ofNat src.length)) =
      orError ((base64Meaning maps (base64EncodeText maps src)).map fun bytes =>
        (bytes.length, bytes ++ List.replicate (avail.toNat - bytes.length) 0)) := by
  have length := base64EncodedLength_toNat bounded
  have textLength := base64EncodeText_length maps src
  rw [base64Encode] at encoded
  split at encoded
  · cases encoded
  next enough =>
  cases encoded
  rw [UInt64.lt_iff_toNat_lt, length] at enough
  have wide : (base64DecodedLength (base64EncodedLength (.ofNat src.length))).toNat =
      ((base64EncodeText maps src).length + 3) / 4 * 3 := by
    rw [← UInt64.ofNat_toNat (x := base64EncodedLength _), length, base64DecodedLength_toNat (by omega), textLength]
  have fits : ((base64EncodeText maps src).length + 3) / 4 * 3 ≤ avail.toNat := by
    rw [← wide]
    exact UInt64.le_iff_toNat_le.mp room
  rw [base64Decode, if_neg (UInt64.not_lt.mpr room), length, ← textLength, base64DecodeText_meaning maps _ _ fits]
  cases base64Meaning maps (base64EncodeText maps src) <;> rfl

theorem Base64Maps.Inverts.roundTrips (inverts : maps.Inverts) : maps.RoundTrips := by
  intro src dest destlen avail bounded small encoded room
  rw [base64Decode_encode bounded small encoded room, base64Meaning_encode inverts]
  rfl

namespace Base64Maps.RoundTrips

theorem meaning (roundTrips : maps.RoundTrips) (short : src.length ≤ 3) :
    base64Meaning maps (base64EncodeText maps src) = some src := by
  have length := base64EncodedLength_toNat (show src.length < 2 ^ 63 by omega)
  have bounded : src.length < 2 ^ 63 := by omega
  have small : (base64EncodedLength (.ofNat src.length)).toNat < 2 ^ 63 := by omega
  have encoded : base64Encode maps (base64EncodedLength (.ofNat src.length)) src = .ok _ :=
    if_neg (UInt64.lt_irrefl _)
  have decoded := roundTrips src _ _ _ bounded small encoded (UInt64.le_refl _)
  rw [base64Decode_encode bounded small encoded (UInt64.le_refl _)] at decoded
  cases meant : base64Meaning maps (base64EncodeText maps src) with
  | none =>
    rw [meant] at decoded
    cases decoded
  | some bytes =>
    rw [meant] at decoded
    obtain ⟨sized, contents⟩ := Prod.mk.inj (Except.ok.inj decoded)
    rw [(List.append_inj contents sized).1]

/-- Texts of different data differ. -/
theorem injective (roundTrips : maps.RoundTrips) {other : List UInt8} (short : src.length ≤ 3)
    (otherShort : other.length ≤ 3) (same : base64EncodeText maps src = base64EncodeText maps other) :
    src = other := by
  have meant := roundTrips.meaning short
  rw [same, roundTrips.meaning otherShort] at meant
  exact (Option.some.inj meant).symm

end Base64Maps.RoundTrips

/-! ### Tables -/

theorem storeLetters_other {letters : List UInt8} {char : UInt8} (other : char ∉ letters) (i : UInt8)
    (decodeMap : List UInt8) :
    (storeLetters letters i decodeMap).getD char.toNat 0xff = decodeMap.getD char.toNat 0xff := by
  induction letters generalizing i decodeMap with
  | nil => rfl
  | cons letter rest ih =>
    obtain ⟨differs, later⟩ := List.ne_and_not_mem_of_not_mem_cons other
    have apart : letter.toNat ≠ char.toNat := fun same => differs (UInt8.toNat_inj.mp same).symm
    rw [storeLetters, ih later, List.getD_eq_getElem?_getD, List.getElem?_set_ne apart, List.getD_eq_getElem?_getD]

/-- The last position of a character is stored. -/
theorem storeLetters_letter {letters : List UInt8} {char : UInt8} (member : char ∈ letters) (i : UInt8)
    (decodeMap : List UInt8) (sized : decodeMap.length = 256) :
    ∃ k, letters[k]? = some char ∧
      (storeLetters letters i decodeMap).getD char.toNat 0xff = i + .ofNat k := by
  induction letters generalizing i decodeMap with
  | nil => cases member
  | cons letter rest ih =>
    by_cases later : char ∈ rest
    · obtain ⟨k, found, stored⟩ := ih later (i + 1) (decodeMap.set letter.toNat i) (by rw [List.length_set, sized])
      refine ⟨k + 1, found, ?_⟩
      rw [storeLetters, stored, UInt8.ofNat_add, UInt8.add_assoc, UInt8.add_comm 1]
      rfl
    · have same : char = letter := (List.mem_cons.mp member).resolve_right later
      subst same
      have inside : char.toNat < decodeMap.length := by
        rw [sized]
        exact char.toNat_lt
      refine ⟨0, rfl, ?_⟩
      rw [storeLetters, storeLetters_other later, List.getD_eq_getElem?_getD, List.getElem?_set_self inside]
      exact (UInt8.add_zero i).symm

section
variable (src : Vector UInt8 64)

theorem base64InitMaps_other {char : UInt8} (other : char ∉ src.toList) :
    (base64InitMaps src).decodeMap.getD char.toNat 0xff = 0xff := by
  rw [base64InitMaps, storeLetters_other other]
  exact List.getD_replicate _ char.toNat_lt

theorem base64InitMaps_letter {char : UInt8} (member : char ∈ src.toList) : ∃ k < 64, src.toList[k]? = some char ∧
    (base64InitMaps src).decodeMap.getD char.toNat 0xff = .ofNat k := by
  obtain ⟨k, found, stored⟩ := storeLetters_letter member 0 (List.replicate 256 0xff) List.length_replicate
  refine ⟨k, ?_, found, stored.trans (UInt8.zero_add _)⟩
  have := (List.getElem?_eq_some_iff.mp found).1
  simpa using this

theorem ofNat_stored {k : Nat} (small : k < 64) : UInt8.ofNat k ≠ 0xff := by
  intro same
  have := congrArg UInt8.toNat same
  rw [UInt8.toNat_ofNat'] at this
  simp at this
  omega

theorem base64CharInAlphabet_init (char : UInt8) :
    base64CharInAlphabet (base64InitMaps src) char = true ↔ char ∈ src.toList := by
  rw [base64CharInAlphabet, bne_iff_ne]
  by_cases member : char ∈ src.toList
  · obtain ⟨k, small, _, stored⟩ := base64InitMaps_letter src member
    rw [stored]
    exact iff_of_true (ofNat_stored small) member
  · exact iff_of_false (fun stored => stored (base64InitMaps_other src member)) member

theorem base64InitMaps_sixbit {k : Nat} (small : k < 64) :
    src.toList[k]? = some (sixbitToB64 (base64InitMaps src) (.ofNat k)) := by
  have inside : k < src.toList.length := by simpa using small
  have position : (UInt8.ofNat k).toNat = k := by
    rw [UInt8.toNat_ofNat']
    omega
  rw [sixbitToB64, position, base64InitMaps, List.getD_eq_getElem?_getD, List.getElem?_eq_getElem inside]
  rfl

theorem base64InitMaps_inverts (distinct : src.toList.Nodup) (filler : letterA ∈ src.toList)
    (unpadded : padding ∉ src.toList) : (base64InitMaps src).Inverts where
  inverse n small := by
    have found := base64InitMaps_sixbit src small
    obtain ⟨k, bound, same, stored⟩ := base64InitMaps_letter src (List.mem_of_getElem? found)
    have position : k = n := by
      refine (List.getElem?_inj ?_ distinct).mp (same.trans found.symm)
      simpa using bound
    rw [sixbitFromB64, stored, if_neg (ofNat_stored bound), position]
  filler := by
    obtain ⟨k, bound, _, stored⟩ := base64InitMaps_letter src filler
    refine ⟨.ofNat k, ?_⟩
    rw [sixbitFromB64, stored, if_neg (ofNat_stored bound)]
  unpadded n small same := by
    have found := base64InitMaps_sixbit src small
    rw [same] at found
    exact unpadded (List.mem_of_getElem? found)

end

/-! ### Alphabets that do not -/

theorem base64EncodeText_last (maps : Base64Maps) : ∀ k < 64, base64EncodeText maps [0, 0, .ofNat k] =
    [sixbitToB64 maps 0, sixbitToB64 maps 0, sixbitToB64 maps 0, sixbitToB64 maps (.ofNat k)] := by
  intro k small
  have bits : ∀ k < 64, (UInt8.ofNat k &&& 0xc0) >>> 6 = 0 ∧ UInt8.ofNat k &&& 0x3f = .ofNat k := by decide
  obtain ⟨high, low⟩ := bits k small
  rw [base64EncodeText, base64EncodeTriplet, high, low]
  rfl

section
variable {src : Vector UInt8 64} (roundTrips : (base64InitMaps src).RoundTrips)
include roundTrips

theorem Base64Maps.RoundTrips.distinct : src.toList.Nodup := by
  rw [List.nodup_iff_injective_get]
  rintro ⟨i, first⟩ ⟨j, second⟩ same
  have letters : src.toList[i]? = src.toList[j]? := by
    rw [List.getElem?_eq_getElem first, List.getElem?_eq_getElem second]
    exact congrArg some same
  have iSmall : i < 64 := by simpa using first
  have jSmall : j < 64 := by simpa using second
  rw [base64InitMaps_sixbit src iSmall, base64InitMaps_sixbit src jSmall] at letters
  have texts : base64EncodeText (base64InitMaps src) [0, 0, .ofNat i] =
      base64EncodeText (base64InitMaps src) [0, 0, .ofNat j] := by
    rw [base64EncodeText_last _ i iSmall, base64EncodeText_last _ j jSmall, Option.some.inj letters]
  have data := roundTrips.injective (by simp) (by simp) texts
  have bytes : UInt8.ofNat i = .ofNat j := by simpa only [List.cons.injEq, true_and, and_true] using data
  have positions := congrArg UInt8.toNat bytes
  rw [UInt8.toNat_ofNat', UInt8.toNat_ofNat'] at positions
  rw [Fin.mk.injEq]
  omega

/-- A text that ends in padding would be that of less data as well. -/
theorem Base64Maps.RoundTrips.unpadded : padding ∉ src.toList := by
  intro member
  obtain ⟨k, small, found, _⟩ := base64InitMaps_letter src member
  rw [base64InitMaps_sixbit src small] at found
  have texts : base64EncodeText (base64InitMaps src) [0, 0, .ofNat k] =
      base64EncodeText (base64InitMaps src) [0, 0] := by
    rw [base64EncodeText_last _ k small, Option.some.inj found]
    rfl
  have data := roundTrips.injective (by simp) (by simp) texts
  simp at data

theorem Base64Maps.RoundTrips.filler : letterA ∈ src.toList := by
  by_contra missing
  let zero := sixbitToB64 (base64InitMaps src) 0
  have letter : zero ≠ padding := fun same =>
    roundTrips.unpadded (same ▸ List.mem_of_getElem? (base64InitMaps_sixbit src (show 0 < 64 by decide)))
  have refused : sixbitFromB64 (base64InitMaps src) letterA = none := by
    rw [sixbitFromB64, base64InitMaps_other src missing]
    rfl
  have kept := rdropWhile_padding [zero, zero] (by simpa using letter) 2
  have text : base64EncodeText (base64InitMaps src) [0] = [zero, zero] ++ List.replicate 2 padding := rfl
  have meant := roundTrips.meaning (show [(0 : UInt8)].length ≤ 3 by simp)
  rw [text] at meant
  simp only [List.replicate, List.cons_append, List.nil_append] at kept meant
  simp [base64Meaning, base64TailMeaning, kept, base64DecodeQuartet, refused] at meant

end

/-- The tables of an alphabet know its characters. They take data through the encoder and the decoder exactly if
the alphabet's characters are distinct, padding is not among them, and the decoder's filler is. -/
theorem base64_alphabets (src : Vector UInt8 64) :
    (∀ char, base64CharInAlphabet (base64InitMaps src) char = true ↔ char ∈ src.toList) ∧
    ((base64InitMaps src).RoundTrips ↔
      src.toList.Nodup ∧ letterA ∈ src.toList ∧ padding ∉ src.toList) := by
  refine ⟨base64CharInAlphabet_init src, fun roundTrips => ?_, ?_⟩
  · exact ⟨roundTrips.distinct, roundTrips.filler, roundTrips.unpadded⟩
  · rintro ⟨distinct, filler, unpadded⟩
    exact (base64InitMaps_inverts src distinct filler unpadded).roundTrips

end FluxPmix

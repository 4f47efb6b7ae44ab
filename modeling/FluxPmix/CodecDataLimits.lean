import FluxPmix.CodecDataProofs

/-! Decoding strings of any length. The `int` that holds a string's length keeps its low 32 bits,
sign extended, so that a long string is taken for a shorter one, for one of negative size, or
for one that needs no buffer at all. -/
namespace FluxPmix
variable {text : List UInt8}

/-- The length that survives in 32 bits. -/
def lowLength (text : List UInt8) : Nat := text.length % 0x100000000

theorem lowLength_le (text : List UInt8) : lowLength text ≤ text.length := Nat.mod_le _ _

theorem sizeToInt_low (text : List UInt8) :
    sizeToInt (.ofNat text.length) = sizeToInt (.ofNat (lowLength text)) := by
  apply Int32.toBitVec_inj.mp
  apply BitVec.eq_of_toNat_eq
  simp [sizeToInt, lowLength]

theorem intToSize_low (text : List UInt8) : (intToSize (sizeToInt (.ofNat text.length))).toNat =
    if lowLength text < 2 ^ 31 then lowLength text else lowLength text + (2 ^ 64 - 2 ^ 32) := by
  have low : text.length % 2 ^ 64 % 2 ^ 32 = lowLength text := by
    rw [lowLength]
    omega
  rw [intToSize_sizeToInt, UInt64.toNat_ofNat', low]

/-! ### Lengths that come out smaller -/

/-- The part of a string the decoder sees. -/
def seenPart (text : List UInt8) : List UInt8 := text.take (lowLength text)

theorem seenPart_length (text : List UInt8) : (seenPart text).length = lowLength text := by
  rw [seenPart, List.length_take]
  exact Nat.min_eq_left (lowLength_le text)

theorem codecDataDecodeBufsize_seen (text : List UInt8) :
    codecDataDecodeBufsize (.string text) = codecDataDecodeBufsize (.string (seenPart text)) := by
  simp only [codecDataDecodeBufsize]
  rw [sizeToInt_low text, seenPart_length]

theorem codecDataDecodeTobuf_seen (low : lowLength text < 2 ^ 31) (length : UInt64) :
    codecDataDecodeTobuf (.string text) length = codecDataDecodeTobuf (.string (seenPart text)) length := by
  have short : (seenPart text).length < 2 ^ 31 := by rwa [seenPart_length]
  have size : (UInt64.ofNat (seenPart text).length).toNat = (seenPart text).length := by
    rw [UInt64.toNat_ofNat']
    omega
  have same : intToSize (sizeToInt (.ofNat text.length)) = .ofNat (seenPart text).length := by
    rw [sizeToInt_low, ← seenPart_length, sizeToInt_length short]
  have split : text ++ [0] = seenPart text ++ (text.drop (lowLength text) ++ [0]) := by
    rw [seenPart, ← List.append_assoc, List.take_append_drop]
  simp only [codecDataDecodeTobuf, same, sizeToInt_length short, base64Decode, UInt64.lt_iff_toNat_lt,
    base64DecodedLength_toNat (show (seenPart text).length < 2 ^ 63 by omega), size]
  split
  · rfl
  · rename_i enough
    have fits : ((seenPart text).length + 3) / 4 * 3 ≤ length.toNat := Nat.le_of_not_lt enough
    rw [split, base64DecodeText_meaning .rfc4648 _ _ fits, base64DecodeText_meaning .rfc4648 _ _ fits]

/-- With a small remainder the string is cut off there. -/
theorem codecDataDecode_seen (low : lowLength text < 2 ^ 31) :
    codecDataDecode (.string text) = codecDataDecode (.string (seenPart text)) := by
  simp only [codecDataDecode, ← codecDataDecodeBufsize_seen, codecDataDecodeTobuf_seen low]

/-! ### Lengths that come out negative -/

/-- A negative length is an enormous `size_t`, and the size computed from it is negative too. -/
theorem codecDataDecodeBufsize_negative (high : 2 ^ 31 ≤ lowLength text) (below : lowLength text < 2 ^ 32 - 3) :
    codecDataDecodeBufsize (.string text) < 0 := by
  have length := intToSize_low text
  rw [if_neg (by omega)] at length
  have size : (base64DecodedLength (intToSize (sizeToInt (.ofNat text.length)))).toNat =
      (lowLength text + (2 ^ 64 - 2 ^ 32) + 3) / 4 * 3 := by
    simp only [base64DecodedLength, UInt64.toNat_mul, UInt64.toNat_div, UInt64.toNat_add, length,
      UInt64.reduceToNat]
    omega
  rw [codecDataDecodeBufsize, Int64.lt_iff_toInt_lt]
  change (base64DecodedLength (intToSize (sizeToInt (.ofNat text.length)))).toBitVec.toInt < 0
  rw [BitVec.toInt_eq_toNat_cond, UInt64.toNat_toBitVec, size]
  split <;> omega

/-- The last three lengths wrap when they are rounded up. -/
theorem base64DecodedLength_wrapped (high : 2 ^ 32 - 3 ≤ lowLength text) :
    base64DecodedLength (intToSize (sizeToInt (.ofNat text.length))) = 0 := by
  have bound : lowLength text < 2 ^ 32 := Nat.mod_lt _ (by decide)
  have length := intToSize_low text
  rw [if_neg (by omega)] at length
  apply UInt64.toNat_inj.mp
  simp only [base64DecodedLength, UInt64.toNat_mul, UInt64.toNat_div, UInt64.toNat_add, length,
    UInt64.reduceToNat]
  omega

theorem codecDataDecodeBufsize_wrapped (high : 2 ^ 32 - 3 ≤ lowLength text) :
    codecDataDecodeBufsize (.string text) = 0 := by
  rw [codecDataDecodeBufsize, base64DecodedLength_wrapped high]
  rfl

/-- The first four characters, as far as there are four, are letters. -/
def startsDecodable : List UInt8 → Bool
  | a :: b :: c :: d :: _ => (base64DecodeQuartet .rfc4648 a b c d).isSome
  | _ => false

/-- A first quartet for which there is no buffer. -/
def overruns (text : List UInt8) : Bool := 0xfffffffd ≤ lowLength text && startsDecodable text

theorem four_first (long : 4 ≤ text.length) : ∃ a b c d rest, text = a :: b :: c :: d :: rest := by
  match text with
  | a :: b :: c :: d :: rest => exact ⟨a, b, c, d, rest, rfl⟩
  | [] | [_] | [_, _] | [_, _, _] => simp at long

/-- Without a buffer the first quartet either is refused or is written out of bounds. -/
theorem codecDataDecodeTobuf_wrapped (high : 2 ^ 32 - 3 ≤ lowLength text) :
    codecDataDecodeTobuf (.string text) 0 =
      .error (if startsDecodable text then .undefined else .error) := by
  have within := lowLength_le text
  have long : 4 ≤ text.length := by omega
  obtain ⟨a, b, c, d, rest, rfl⟩ := four_first long
  have length := intToSize_low (a :: b :: c :: d :: rest)
  rw [if_neg (by omega)] at length
  have counted : 4 < (intToSize (sizeToInt (.ofNat (a :: b :: c :: d :: rest).length))).toNat := by omega
  have decoding : codecDataDecodeTobuf (.string (a :: b :: c :: d :: rest)) 0 = (do
      let bytes ← base64DecodeText .rfc4648 0 (intToSize (sizeToInt (.ofNat (a :: b :: c :: d :: rest).length))).toNat
        (a :: b :: c :: d :: (rest ++ [0]))
      return (bytes.length, bytes ++ List.replicate (0 - bytes.length) 0)) := by
    simp only [codecDataDecodeTobuf, base64Decode, base64DecodedLength_wrapped high, UInt64.lt_irrefl, if_false,
      List.cons_append, UInt64.toNat_zero]
  rw [decoding, base64DecodeText, if_pos counted]
  cases decoded : base64DecodeQuartet .rfc4648 a b c d with
  | none => simp [storeQuartet, startsDecodable, decoded, bind, Except.bind]
  | some quartet => simp [storeQuartet, startsDecodable, decoded, bind, Except.bind]

/-- Every string whose length comes out negative is refused, unless it is written out of bounds. -/
theorem codecDataDecode_negative (high : 2 ^ 31 ≤ lowLength text) :
    codecDataDecode (.string text) = .error (if overruns text then .undefined else .error) := by
  rcases Nat.lt_or_ge (lowLength text) (2 ^ 32 - 3) with below | wrapped
  · have negative := codecDataDecodeBufsize_negative high below
    have within : overruns text = false := by
      rw [overruns, decide_eq_false (by omega), Bool.false_and]
    rw [codecDataDecode, if_pos negative, within]
    rfl
  · have size := codecDataDecodeBufsize_wrapped wrapped
    have allocated : malloc 0 = .ok () := rfl
    have nonneg : ¬ (0 : Int64) < 0 := by decide
    have empty : (0 : Int64).toUInt64 = 0 := rfl
    have starts : overruns text = startsDecodable text := by
      rw [overruns, decide_eq_true (by omega), Bool.true_and]
    simp only [codecDataDecode, size, nonneg, if_false, empty, allocated, ok_bind,
      codecDataDecodeTobuf_wrapped wrapped, starts]

/-- Only a string that overruns its buffer is worse than refused. -/
theorem codecDataDecode_undefined : codecDataDecode (.string text) = .error .undefined ↔ overruns text = true := by
  rcases Nat.lt_or_ge (lowLength text) (2 ^ 31) with low | high
  · have short : (seenPart text).length < 2 ^ 31 := by rwa [seenPart_length]
    have within : overruns text = false := by
      rw [overruns, decide_eq_false (by omega), Bool.false_and]
    rw [codecDataDecode_seen low, codecDataDecode_string short, within]
    cases base64Meaning .rfc4648 (seenPart text) <;> simp [orError]
  · rw [codecDataDecode_negative high]
    cases overruns text <;> simp

/-! ### What is decoded is the whole string -/

/-- The decoder returns -1, or the bytes the whole string stands for. -/
def DecodesWhole (text : List UInt8) : Prop :=
  codecDataDecode (.string text) = .error .error ∨ ∃ bytes rest,
    base64Meaning .rfc4648 text = some bytes ∧ codecDataDecode (.string text) = .ok (bytes.length, bytes ++ rest)

/-- Decoding into a buffer of the size reported for it stays inside the buffer. -/
def BufferSuffices (text : List UInt8) : Prop :=
  0 ≤ codecDataDecodeBufsize (.string text) →
    let result := codecDataDecodeTobuf (.string text) (codecDataDecodeBufsize (.string text)).toUInt64
    result ≠ .error .undefined ∧
      ∀ count buffer, result = .ok (count, buffer) → (count : Int) ≤ (codecDataDecodeBufsize (.string text)).toInt

/-- What keeps a string from being taken for another one: it is short; or its length wraps to that of
a part which stands for nothing; or it comes out negative without overrunning the buffer. -/
def lengthHarmless (text : List UInt8) : Bool :=
  if lowLength text ≤ intMax then text.length ≤ intMax || (base64Meaning .rfc4648 (seenPart text)).isNone
  else !overruns text

theorem bufferSuffices_seen (low : lowLength text < 2 ^ 31) : BufferSuffices text := by
  have short : (seenPart text).length < 2 ^ 31 := by rwa [seenPart_length]
  obtain ⟨_, size⟩ := codecDataDecodeBufsize_string short
  have room : (UInt64.ofNat (decodeBound (seenPart text))).toNat = decodeBound (seenPart text) := by
    rw [UInt64.toNat_ofNat']
    simp only [decodeBound]
    omega
  intro nonneg
  rw [codecDataDecodeBufsize_seen] at nonneg ⊢
  have reported : (codecDataDecodeBufsize (.string (seenPart text))).toInt = decodeBound (seenPart text) := by
    have unsigned := congrArg UInt64.toNat size
    rw [room, Int64.toNat_toUInt64_of_le nonneg] at unsigned
    rw [← unsigned]
    exact (Int.toNat_of_nonneg (Int64.le_iff_toInt_le.mp nonneg)).symm
  simp only [codecDataDecodeTobuf_seen low, size, codecDataDecodeTobuf_string short, room, lt_irrefl, if_false,
    reported]
  cases meant : base64Meaning .rfc4648 (seenPart text) with
  | none => simp [orError]
  | some bytes =>
    simp only [orError, Option.map_some]
    refine ⟨by simp, fun count buffer decoded => ?_⟩
    cases decoded
    exact_mod_cast base64Meaning_length meant

theorem decodesWhole_short (short : text.length < 2 ^ 31) : DecodesWhole text := by
  rw [DecodesWhole, codecDataDecode_string short]
  cases meant : base64Meaning .rfc4648 text with
  | none => exact .inl rfl
  | some bytes => exact .inr ⟨bytes, _, rfl, rfl⟩

/-- The whole of a longer string stands for more bytes than the part that is seen. -/
theorem decodesWhole_seen (low : lowLength text < 2 ^ 31) (long : 2 ^ 31 ≤ text.length) :
    DecodesWhole text ↔ base64Meaning .rfc4648 (seenPart text) = none := by
  have short : (seenPart text).length < 2 ^ 31 := by rwa [seenPart_length]
  rw [DecodesWhole, codecDataDecode_seen low, codecDataDecode_string short]
  cases seen : base64Meaning .rfc4648 (seenPart text) with
  | none => exact iff_of_true (.inl rfl) rfl
  | some bytes =>
    refine iff_of_false ?_ (Option.some_ne_none bytes)
    rintro (refused | ⟨whole, rest, meant, decoded⟩)
    · cases refused
    · have counts : bytes.length = whole.length := congrArg Prod.fst (Except.ok.inj decoded)
      have fewer := base64Meaning_length seen
      have more := base64Meaning_long meant
      rw [seenPart_length] at fewer
      simp only [lowLength] at low fewer
      omega

theorem decodesWhole_negative (high : 2 ^ 31 ≤ lowLength text) : DecodesWhole text ↔ overruns text = false := by
  rw [DecodesWhole, codecDataDecode_negative high]
  cases overruns text <;> simp

theorem bufferSuffices_negative (high : 2 ^ 31 ≤ lowLength text) (within : overruns text = false) :
    BufferSuffices text := by
  intro nonneg
  rcases Nat.lt_or_ge (lowLength text) (2 ^ 32 - 3) with below | wrapped
  · exact absurd (codecDataDecodeBufsize_negative high below) (Int64.not_lt.mpr nonneg)
  · have letters : startsDecodable text = false := by
      rwa [overruns, decide_eq_true (by omega), Bool.true_and] at within
    have empty : (0 : Int64).toUInt64 = 0 := rfl
    simp only [codecDataDecodeBufsize_wrapped wrapped, empty, codecDataDecodeTobuf_wrapped wrapped, letters]
    exact ⟨nofun, nofun⟩

/-- A string decodes as a whole, in the room that is made for it, exactly when its length is harmless. -/
theorem codecDataDecode_whole (text : List UInt8) :
    DecodesWhole text ∧ BufferSuffices text ↔ lengthHarmless text = true := by
  rw [lengthHarmless]
  split <;> rename_i low
  · have low : lowLength text < 2 ^ 31 := Nat.lt_succ_of_le low
    rw [and_iff_left (bufferSuffices_seen low), Bool.or_eq_true, decide_eq_true_eq, Option.isNone_iff_eq_none]
    rcases Nat.lt_or_ge text.length (2 ^ 31) with short | long
    · exact iff_of_true (decodesWhole_short short) (.inl (Nat.le_of_lt_succ short))
    · have notShort : ¬ text.length ≤ intMax := Nat.not_le.mpr long
      rw [decodesWhole_seen low long, or_iff_right notShort]
  · have high : 2 ^ 31 ≤ lowLength text := Nat.lt_of_not_le low
    rw [Bool.not_eq_true', decodesWhole_negative high]
    exact and_iff_left_of_imp (bufferSuffices_negative high)

/-- Four letters more than 2^32 decode to three bytes. -/
theorem codecDataDecode_truncated :
    ¬ (DecodesWhole (List.replicate 0x100000004 65) ∧ BufferSuffices (List.replicate 0x100000004 65)) := by
  rintro ⟨whole, _⟩
  have low : lowLength (List.replicate 0x100000004 65) = 4 := by
    rw [lowLength, List.length_replicate]
  have seen : seenPart (List.replicate 0x100000004 65) = [65, 65, 65, 65] := by
    rw [seenPart, low, List.take_replicate]
    rfl
  have long : 2 ^ 31 ≤ (List.replicate 0x100000004 (65 : UInt8)).length := by
    rw [List.length_replicate]
    decide
  have refused := (decodesWhole_seen (by rw [low]; decide) long).mp whole
  rw [seen] at refused
  cases refused

end FluxPmix

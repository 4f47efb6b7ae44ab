import FluxPmix.CodecProofs

/-! The data codec between `size_t` lengths and the `int` variables that hold them. -/
namespace FluxPmix

/-- A length stored in an `int` and passed on as `size_t`: its low 32 bits, sign extended. -/
theorem intToSize_sizeToInt (n : UInt64) : (intToSize (sizeToInt n)).toNat =
    if n.toNat % 2 ^ 32 < 2 ^ 31 then n.toNat % 2 ^ 32 else n.toNat % 2 ^ 32 + (2 ^ 64 - 2 ^ 32) := by
  have bits : (intToSize (sizeToInt n)).toBitVec = (n.toBitVec.setWidth 32).signExtend 64 := by
    simp only [intToSize, sizeToInt, Int64.toBitVec_toUInt64, Int32.toBitVec_toInt64,
      Int64.toBitVec_toInt32, UInt64.toBitVec_toInt64]
    rw [BitVec.signExtend_eq_setWidth_of_le n.toBitVec (show 32 ≤ 64 by decide)]
  rw [← UInt64.toNat_toBitVec, bits, BitVec.toNat_signExtend]
  simp only [BitVec.msb_eq_decide, BitVec.toNat_setWidth, UInt64.toNat_toBitVec]
  split <;> split <;> simp_all <;> omega

theorem intToSize_sizeToInt_small (small : n.toNat < 2 ^ 31) : intToSize (sizeToInt n) = n := by
  apply UInt64.toNat_inj.mp
  rw [intToSize_sizeToInt]
  have : n.toNat % 2 ^ 32 = n.toNat := Nat.mod_eq_of_lt (by omega)
  rw [this, if_pos small]

theorem base64EncodedLength_toNat (bounded : n < 2 ^ 63) :
    (base64EncodedLength (.ofNat n)).toNat = (n + 2) / 3 * 4 := by
  simp only [base64EncodedLength, UInt64.toNat_mul, UInt64.toNat_div, UInt64.toNat_add,
    UInt64.toNat_ofNat', UInt64.reduceToNat]
  omega

theorem base64DecodedLength_toNat (bounded : n < 2 ^ 63) :
    (base64DecodedLength (.ofNat n)).toNat = (n + 3) / 4 * 3 := by
  simp only [base64DecodedLength, UInt64.toNat_mul, UInt64.toNat_div, UInt64.toNat_add,
    UInt64.toNat_ofNat', UInt64.reduceToNat]
  omega

theorem malloc_ok (size : UInt64) : malloc size = .ok () ↔ size.toNat < 2 ^ 63 := by
  have : ptrdiffMax.toNat = 2 ^ 63 - 1 := by decide
  simp only [malloc, UInt64.lt_iff_toNat_lt, this]
  split <;> simp <;> omega

theorem malloc_cases (size : UInt64) : malloc size = .ok () ∨ malloc size = .error .error := by
  by_cases large : ptrdiffMax < size
  · exact .inr (if_pos large)
  · exact .inl (if_neg large)

theorem cString_text {text : List UInt8} (nonzero : ∀ b ∈ text, b ≠ 0) (count : Nat) :
    (cString (text ++ List.replicate count 0)).bytes = text := by
  change (text ++ List.replicate count 0).takeWhile (· ≠ 0) = text
  have kept : text.takeWhile (· ≠ 0) = text := by
    rw [List.takeWhile_eq_self_iff]
    intro b member
    simpa using nonzero b member
  cases count with
  | zero => rw [List.replicate_zero, List.append_nil, kept]
  | succ count =>
    rw [List.takeWhile_append, kept, if_pos rfl, List.replicate_succ,
      List.takeWhile_cons_of_neg (by simp), List.append_nil]

/-- Encoding succeeds exactly when the encoded length and its NUL fit an `int`. A length that
wraps to a smaller one is caught by the encoder's own check. -/
theorem codecDataEncode_ok (bounded : data.length < 2 ^ 63) : codecDataEncode data = .ok o ↔
    (data.length + 2) / 3 * 4 + 1 < 2 ^ 31 ∧ o = .string (base64EncodeText .rfc4648 data) := by
  let encoded := base64EncodedLength (.ofNat data.length)
  have encodedNat : encoded.toNat = (data.length + 2) / 3 * 4 := base64EncodedLength_toNat bounded
  have sized : (encoded + 1).toNat = (data.length + 2) / 3 * 4 + 1 := by
    rw [UInt64.toNat_add, encodedNat]
    simp only [UInt64.reduceToNat]
    omega
  have textLength := base64EncodeText_length .rfc4648 data
  simp only [codecDataEncode, bind_ok, pure_ok]
  by_cases small : (data.length + 2) / 3 * 4 + 1 < 2 ^ 31
  · have kept : intToSize (sizeToInt (encoded + 1)) = encoded + 1 :=
      intToSize_sizeToInt_small (by omega)
    have room : ¬ encoded + 1 < encoded := by
      rw [UInt64.lt_iff_toNat_lt]
      omega
    have allocated : malloc (encoded + 1) = .ok () := (malloc_ok _).mpr (by omega)
    have nonzero : ∀ b ∈ base64EncodeText .rfc4648 data, b ≠ 0 :=
      fun b member => (base64EncodeText_printable Base64Maps.rfc4648_lawful data b member).1
    change (∃ a, malloc (intToSize (sizeToInt (encoded + 1))) = .ok a ∧ ∃ xdata,
      base64Encode .rfc4648 (intToSize (sizeToInt (encoded + 1))) data = .ok xdata ∧
        o = .string (cString xdata).bytes) ↔ _
    simp only [kept, allocated, base64Encode, if_neg room, small, Except.ok.injEq, exists_const,
      true_and, exists_eq_left', encoded]
    rw [cString_text nonzero]
  · simp only [small, false_and, iff_false]
    rintro ⟨_, allocated, xdata, stored, _⟩
    have bound := (malloc_ok _).mp allocated
    have overflow : intToSize (sizeToInt (encoded + 1)) < encoded := by
      have wrapped := intToSize_sizeToInt (encoded + 1)
      change (intToSize (sizeToInt (encoded + 1))).toNat < 2 ^ 63 at bound
      rw [UInt64.lt_iff_toNat_lt]
      split at wrapped <;> omega
    change base64Encode .rfc4648 (intToSize (sizeToInt (encoded + 1))) data = .ok xdata at stored
    rw [base64Encode, if_pos overflow] at stored
    contradiction

/-! ### Decoding strings whose length fits an `int` -/

/-- The buffer a text of this length is given. -/
def decodeBound (text : List UInt8) : Nat := (text.length + 3) / 4 * 3

theorem sizeToInt_length {text : List UInt8} (short : text.length < 2 ^ 31) :
    intToSize (sizeToInt (.ofNat text.length)) = .ofNat text.length := by
  apply intToSize_sizeToInt_small
  rw [UInt64.toNat_ofNat']
  omega

theorem codecDataDecodeBufsize_string (short : text.length < 2 ^ 31) :
    ¬ codecDataDecodeBufsize (.string text) < 0 ∧
      (codecDataDecodeBufsize (.string text)).toUInt64 = .ofNat (decodeBound text) := by
  have length : base64DecodedLength (.ofNat text.length) = .ofNat (decodeBound text) := by
    apply UInt64.toNat_inj.mp
    rw [base64DecodedLength_toNat (by omega), UInt64.toNat_ofNat', decodeBound]
    omega
  simp only [codecDataDecodeBufsize, sizeToInt_length short, length, UInt64.toUInt64_toInt64, and_true]
  have nonneg : (UInt64.ofNat (decodeBound text)).toInt64.toInt = decodeBound text := by
    have bits : (UInt64.ofNat (decodeBound text)).toNat = decodeBound text := by
      rw [UInt64.toNat_ofNat']
      simp only [decodeBound]
      omega
    change (UInt64.ofNat (decodeBound text)).toBitVec.toInt = _
    rw [BitVec.toInt_eq_toNat_of_lt, UInt64.toNat_toBitVec, bits]
    rw [UInt64.toNat_toBitVec, bits]
    simp only [decodeBound]
    omega
  rw [Int64.lt_iff_toInt_lt, nonneg]
  simp

theorem codecDataDecodeTobuf_string (short : text.length < 2 ^ 31) (length : UInt64) :
    codecDataDecodeTobuf (.string text) length =
      if length.toNat < decodeBound text then .error .error
      else orError ((base64Meaning .rfc4648 text).map (fun bytes =>
        (bytes.length, bytes ++ List.replicate (length.toNat - bytes.length) 0))) := by
  have size : (UInt64.ofNat text.length).toNat = text.length := by
    rw [UInt64.toNat_ofNat']
    omega
  simp only [codecDataDecodeTobuf, sizeToInt_length short, base64Decode, UInt64.lt_iff_toNat_lt,
    base64DecodedLength_toNat (show text.length < 2 ^ 63 by omega), size]
  change (if length.toNat < decodeBound text then _ else _) = _
  split
  · rfl
  · rename_i enough
    rw [base64DecodeText_meaning .rfc4648 text [0] (by
      simp only [decodeBound] at enough
      omega)]
    cases base64Meaning .rfc4648 text <;> rfl

/-- A string of admissible length is decoded or refused, and nothing is accessed out of bounds. -/
theorem codecDataDecode_string (short : text.length < 2 ^ 31) :
    codecDataDecode (.string text) = orError ((base64Meaning .rfc4648 text).map (fun bytes =>
      (bytes.length, bytes ++ List.replicate (decodeBound text - bytes.length) 0))) := by
  obtain ⟨nonneg, size⟩ := codecDataDecodeBufsize_string short
  have exact : (UInt64.ofNat (decodeBound text)).toNat = decodeBound text := by
    rw [UInt64.toNat_ofNat']
    simp only [decodeBound]
    omega
  have allocated : malloc (.ofNat (decodeBound text)) = .ok () := by
    rw [malloc_ok, exact]
    simp only [decodeBound]
    omega
  simp only [codecDataDecode, if_neg nonneg, size, allocated, bind, Except.bind,
    codecDataDecodeTobuf_string short, exact, lt_irrefl, if_false]

end FluxPmix

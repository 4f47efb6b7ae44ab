import FluxPmix.Base64
import Mathlib.Tactic.IntervalCases
import Mathlib.Tactic.Tauto

/-! The pointer-level decoder computes a text's meaning when its length is the text's own, and
the meaning of an encoded text is the data it encodes. -/
namespace FluxPmix

/-- What the codec needs of its tables. -/
structure Base64Maps.Lawful (maps : Base64Maps) : Prop where
  inverse : ∀ n < 64, sixbitFromB64 maps (sixbitToB64 maps (.ofNat n)) = some (.ofNat n)
  zero : sixbitToB64 maps 0 = letterA
  printable : ∀ n < 64, sixbitToB64 maps (.ofNat n) ≠ padding ∧ sixbitToB64 maps (.ofNat n) ≠ 0 ∧
    sixbitToB64 maps (.ofNat n) < 0x80

theorem Base64Maps.rfc4648_lawful : Base64Maps.rfc4648.Lawful where
  inverse := by decide
  zero := by decide
  printable := by decide

/-- What is enough for decoding to invert encoding: the decoder fills a short quartet up with `A`, whatever that
stands for. -/
structure Base64Maps.Inverts (maps : Base64Maps) : Prop where
  inverse : ∀ n < 64, sixbitFromB64 maps (sixbitToB64 maps (.ofNat n)) = some (.ofNat n)
  filler : ∃ s, sixbitFromB64 maps letterA = some s
  unpadded : ∀ n < 64, sixbitToB64 maps (.ofNat n) ≠ padding

variable {maps : Base64Maps}

theorem sixbit_bound {s : UInt8} (small : s < 64) : s.toNat < 64 := by
  simpa [UInt8.lt_iff_toNat_lt] using small

namespace Base64Maps.Lawful

theorem inverts (lawful : maps.Lawful) : maps.Inverts where
  inverse := lawful.inverse
  filler := ⟨0, by
    rw [← lawful.zero]
    exact lawful.inverse 0 (by decide)⟩
  unpadded n small := (lawful.printable n small).1

theorem letter (lawful : maps.Lawful) (small : s < 64) :
    sixbitToB64 maps s ≠ 0 ∧ sixbitToB64 maps s < 0x80 := by
  simpa using (lawful.printable s.toNat (sixbit_bound small)).2

end Base64Maps.Lawful

namespace Base64Maps.Inverts

theorem sixbit (inverts : maps.Inverts) (small : s < 64) :
    sixbitFromB64 maps (sixbitToB64 maps s) = some s := by
  simpa using inverts.inverse s.toNat (sixbit_bound small)

theorem letter (inverts : maps.Inverts) (small : s < 64) : sixbitToB64 maps s ≠ padding := by
  simpa using inverts.unpadded s.toNat (sixbit_bound small)

end Base64Maps.Inverts

/-! ### Six bits at a time -/

theorem sixbit_first (a : UInt8) : (a &&& 0xfc) >>> 2 < 64 := by
  have := Nat.and_le_right (n := a.toNat) (m := 252)
  rw [UInt8.lt_iff_toNat_lt]
  simp
  omega

theorem sixbit_second (a b : UInt8) : ((a &&& 0x3) <<< 4) ||| ((b &&& 0xf0) >>> 4) < 64 := by
  have := Nat.and_le_right (n := a.toNat) (m := 3)
  have := Nat.and_le_right (n := b.toNat) (m := 240)
  rw [UInt8.lt_iff_toNat_lt]
  refine Nat.or_lt_two_pow (n := 6) ?_ ?_
  · simp [Nat.shiftLeft_eq]
    omega
  · simp
    omega

theorem sixbit_third (b c : UInt8) : ((c &&& 0xc0) >>> 6) ||| ((b &&& 0xf) <<< 2) < 64 := by
  have := Nat.and_le_right (n := c.toNat) (m := 192)
  have := Nat.and_le_right (n := b.toNat) (m := 15)
  rw [UInt8.lt_iff_toNat_lt]
  refine Nat.or_lt_two_pow (n := 6) ?_ ?_
  · simp
    omega
  · simp [Nat.shiftLeft_eq]
    omega

theorem sixbit_fourth (c : UInt8) : c &&& 0x3f < 64 := by
  have := Nat.and_le_right (n := c.toNat) (m := 63)
  rw [UInt8.lt_iff_toNat_lt]
  simp
  omega

theorem join_first (a b : UInt8) :
    (((a &&& 0xfc) >>> 2) <<< 2) ||| ((((a &&& 0x3) <<< 4) ||| ((b &&& 0xf0) >>> 4)) >>> 4) = a := by
  apply UInt8.eq_of_toBitVec_eq
  apply BitVec.eq_of_getLsbD_eq
  intro i hi
  simp
  interval_cases i <;> simp

theorem join_second (a b c : UInt8) :
    (((((a &&& 0x3) <<< 4) ||| ((b &&& 0xf0) >>> 4)) &&& 0xf) <<< 4) |||
      ((((c &&& 0xc0) >>> 6) ||| ((b &&& 0xf) <<< 2)) >>> 2) = b := by
  apply UInt8.eq_of_toBitVec_eq
  apply BitVec.eq_of_getLsbD_eq
  intro i hi
  simp
  interval_cases i <;> simp

theorem join_third (b c : UInt8) :
    (((((c &&& 0xc0) >>> 6) ||| ((b &&& 0xf) <<< 2)) &&& 0x3) <<< 6) ||| (c &&& 0x3f) = c := by
  apply UInt8.eq_of_toBitVec_eq
  apply BitVec.eq_of_getLsbD_eq
  intro i hi
  simp
  interval_cases i <;> simp

/-- The characters of a triplet stand for it, and the first of them for its first bytes. -/
theorem encodeTriplet_quartet (inverts : maps.Inverts) (a b c : UInt8) :
    ∃ w x y z, base64EncodeTriplet maps a b c = [w, x, y, z] ∧
      base64DecodeQuartet maps w x y z = some [a, b, c] ∧
      (List.take 2 <$> base64DecodeQuartet maps w x y letterA) = some [a, b] ∧
      (List.take 1 <$> base64DecodeQuartet maps w x letterA letterA) = some [a] ∧
      ∀ letter ∈ [w, x, y, z], letter ≠ padding := by
  obtain ⟨fill, filled⟩ := inverts.filler
  refine ⟨_, _, _, _, rfl, ?_, ?_, ?_, ?_⟩
  · simp only [base64DecodeQuartet, inverts.sixbit (sixbit_first a), inverts.sixbit (sixbit_second a b),
      inverts.sixbit (sixbit_third b c), inverts.sixbit (sixbit_fourth c), Option.pure_def,
      Option.bind_eq_bind, Option.bind_some, join_first, join_second, join_third]
  · simp only [base64DecodeQuartet, inverts.sixbit (sixbit_first a), inverts.sixbit (sixbit_second a b),
      inverts.sixbit (sixbit_third b c), filled, Option.pure_def, Option.bind_eq_bind, Option.bind_some,
      join_first, join_second]
    rfl
  · simp only [base64DecodeQuartet, inverts.sixbit (sixbit_first a), inverts.sixbit (sixbit_second a b),
      filled, Option.pure_def, Option.bind_eq_bind, Option.bind_some, join_first]
    rfl
  · simp only [List.forall_mem_cons, List.not_mem_nil, false_imp_iff, implies_true, and_true]
    exact ⟨inverts.letter (sixbit_first a), inverts.letter (sixbit_second a b),
      inverts.letter (sixbit_third b c), inverts.letter (sixbit_fourth c)⟩

theorem encodeTriplet_printable (lawful : maps.Lawful) (a b c : UInt8) :
    ∀ letter ∈ base64EncodeTriplet maps a b c, letter ≠ 0 ∧ letter < 0x80 := by
  simp only [base64EncodeTriplet, List.forall_mem_cons, List.not_mem_nil, false_imp_iff, implies_true, and_true]
  exact ⟨lawful.letter (sixbit_first a), lawful.letter (sixbit_second a b),
    lawful.letter (sixbit_third b c), lawful.letter (sixbit_fourth c)⟩

/-! ### Encoded text -/

theorem base64EncodeText_length (maps : Base64Maps) (src : List UInt8) :
    (base64EncodeText maps src).length = (src.length + 2) / 3 * 4 := by
  induction src using base64EncodeText.induct with
  | case1 a b c rest ih =>
    simp only [base64EncodeText, base64EncodeTriplet, List.length_append, List.length_cons,
      List.length_nil, ih]
    omega
  | case2 => rfl
  | case3 src notTriple notEmpty =>
    match src with
    | [a] => simp [base64EncodeText, base64EncodeTail, base64EncodeTriplet]
    | [a, b] => simp [base64EncodeText, base64EncodeTail, base64EncodeTriplet]
    | [] => exact absurd rfl notEmpty
    | a :: b :: c :: rest => exact absurd rfl (notTriple a b c rest)

theorem base64EncodeText_printable (lawful : maps.Lawful) (src : List UInt8) :
    ∀ letter ∈ base64EncodeText maps src, letter ≠ 0 ∧ letter < 0x80 := by
  have tail : ∀ src : List UInt8, ∀ letter ∈ base64EncodeTail maps src, letter ≠ 0 ∧ letter < 0x80 := by
    intro src letter member
    rw [base64EncodeTail] at member
    rcases List.mem_append.mp member with member | member
    · exact encodeTriplet_printable lawful _ _ _ letter (List.mem_of_mem_take member)
    · rw [List.eq_of_mem_replicate member]
      decide
  induction src using base64EncodeText.induct with
  | case1 a b c rest ih =>
    intro letter member
    rw [base64EncodeText] at member
    rcases List.mem_append.mp member with member | member
    · exact encodeTriplet_printable lawful a b c letter member
    · exact ih letter member
  | case2 => simp [base64EncodeText]
  | case3 src notTriple notEmpty =>
    rw [base64EncodeText]
    · exact tail src
    · exact notTriple
    · exact notEmpty

theorem rdropWhile_padding (text : List UInt8) (letters : ∀ letter ∈ text, letter ≠ padding)
    (count : Nat) :
    (text ++ List.replicate count padding).rdropWhile (· == padding) = text := by
  induction count with
  | zero =>
    rw [List.replicate_zero, List.append_nil, List.rdropWhile_eq_self_iff]
    intro nonempty
    simpa using letters _ (List.getLast_mem nonempty)
  | succ count ih =>
    rw [List.replicate_succ', ← List.append_assoc, List.rdropWhile_concat_pos _ _ _ (by simp), ih]

/-- Decoding inverts encoding at the level of texts. -/
theorem base64Meaning_encode (inverts : maps.Inverts) (src : List UInt8) :
    base64Meaning maps (base64EncodeText maps src) = some src := by
  induction src using base64EncodeText.induct with
  | case1 a b c rest ih =>
    obtain ⟨w, x, y, z, same, quartet, _, _, letters⟩ := encodeTriplet_quartet inverts a b c
    rw [base64EncodeText, same]
    cases encoded : base64EncodeText maps rest with
    | nil =>
      -- the last quartet is complete, so the tail decoder sees no padding
      rw [encoded] at ih
      have empty : rest = [] := by
        have := ih.symm
        simpa [base64Meaning, base64TailMeaning, List.rdropWhile] using this
      subst empty
      have kept := rdropWhile_padding _ letters 0
      simp only [List.replicate_zero, List.append_nil] at kept
      simp only [List.append_nil, base64Meaning, base64TailMeaning, kept, quartet]
    | cons e more =>
      rw [encoded] at ih
      simp only [List.cons_append, List.nil_append, base64Meaning, quartet, ih, Option.pure_def,
        Option.bind_eq_bind, Option.bind_some]
  | case2 => simp [base64EncodeText, base64Meaning, base64TailMeaning, List.rdropWhile]
  | case3 src notTriple notEmpty =>
    match src with
    | [a] =>
      obtain ⟨w, x, y, z, same, _, _, one, letters⟩ := encodeTriplet_quartet inverts a 0 0
      have kept := rdropWhile_padding [w, x] (fun letter member => letters letter (by
        simp only [List.mem_cons, List.not_mem_nil, or_false] at member ⊢
        tauto)) 2
      simp only [List.replicate, List.cons_append, List.nil_append] at kept
      simpa [base64EncodeText, base64EncodeTail, same, base64Meaning, base64TailMeaning, kept] using one
    | [a, b] =>
      obtain ⟨w, x, y, z, same, _, two, _, letters⟩ := encodeTriplet_quartet inverts a b 0
      have kept := rdropWhile_padding [w, x, y] (fun letter member => letters letter (by
        simp only [List.mem_cons, List.not_mem_nil, or_false] at member ⊢
        tauto)) 1
      simp only [List.replicate, List.cons_append, List.nil_append] at kept
      simpa [base64EncodeText, base64EncodeTail, same, base64Meaning, base64TailMeaning, kept] using two
    | [] => exact absurd rfl notEmpty
    | a :: b :: c :: rest => exact absurd rfl (notTriple a b c rest)

/-! ### The decoder's loop -/

theorem base64DecodeQuartet_length (decoded : base64DecodeQuartet maps a b c d = some bytes) :
    bytes.length = 3 := by
  simp only [base64DecodeQuartet, Option.pure_def, Option.bind_eq_bind, Option.bind_eq_some_iff,
    Option.some.injEq] at decoded
  obtain ⟨_, _, _, _, _, _, _, _, rfl⟩ := decoded
  rfl

/-- A call's outcome when it can only fail by its error return. -/
def orError : Option α → Except Fault α
  | some value => .ok value
  | none => .error .error

theorem storeQuartet_fits (fits : 3 ≤ avail) (quartet : Option (List UInt8)) :
    storeQuartet avail quartet = orError quartet := by
  cases quartet with
  | none => rfl
  | some bytes =>
    have : ¬ avail < 3 := by omega
    simp [storeQuartet, orError, this]

theorem orError_map (f : α → β) (value : Option α) : f <$> orError value = orError (f <$> value) := by
  cases value <;> rfl

theorem base64DecodeTail_meaning (text more : List UInt8) (fits : text ≠ [] → 3 ≤ avail) :
    base64DecodeTail maps avail text.length (text ++ more) = orError (base64TailMeaning maps text) := by
  have whole : ¬ (text ++ more).length < text.length := by simp
  rw [base64DecodeTail, if_neg whole, List.take_left, base64TailMeaning]
  have room : text.rdropWhile (· == padding) ≠ [] → 3 ≤ avail := by
    intro left
    apply fits
    rintro rfl
    exact left (by simp)
  split <;> rename_i body <;> try simp only [body]
  · rfl
  · rfl
  all_goals
    rw [storeQuartet_fits (room (by simp [body]))]
    try rw [orError_map]

theorem base64DecodeText_short (short : srclen ≤ 4) (src : List UInt8) :
    base64DecodeText maps avail srclen src = base64DecodeTail maps avail srclen src := by
  have done : ¬ 4 < srclen := by omega
  unfold base64DecodeText
  split <;> rw [if_neg done]

/-- With its own length and a large enough buffer, a text decodes to its meaning; whatever
follows the text in memory is not read. -/
theorem base64DecodeText_meaning (maps : Base64Maps) (text more : List UInt8)
    (fits : (text.length + 3) / 4 * 3 ≤ avail) :
    base64DecodeText maps avail text.length (text ++ more) = orError (base64Meaning maps text) := by
  induction text using base64Meaning.induct generalizing avail with
  | case1 a b c d e rest ih =>
    have long : 4 < (a :: b :: c :: d :: e :: rest).length := by simp
    have shorter : (a :: b :: c :: d :: e :: rest).length - 4 = (e :: rest).length := by simp
    have step : ((a :: b :: c :: d :: e :: rest).length + 3) / 4 * 3 =
        ((e :: rest).length + 3) / 4 * 3 + 3 := by
      simp only [List.length_cons]
      omega
    have tail := ih (show ((e :: rest).length + 3) / 4 * 3 ≤ avail - 3 by omega)
    simp only [List.cons_append] at tail
    simp only [List.cons_append, base64DecodeText, if_pos long, shorter, tail, base64Meaning,
      storeQuartet_fits (show 3 ≤ avail by omega)]
    cases base64DecodeQuartet maps a b c d with
    | none => rfl
    | some quartet => cases base64Meaning maps (e :: rest) <;> rfl
  | case2 text short =>
    have bound : text.length ≤ 4 := by
      match text with
      | [] | [_] | [_, _] | [_, _, _] | [_, _, _, _] => simp
      | a :: b :: c :: d :: e :: rest => exact absurd rfl (short a b c d e rest)
    have room : text ≠ [] → 3 ≤ avail := by
      intro nonempty
      have := List.length_pos_iff.mpr nonempty
      omega
    rw [base64DecodeText_short bound, base64DecodeTail_meaning text more room, base64Meaning]
    exact short

theorem base64TailMeaning_length (meant : base64TailMeaning maps text = some bytes) :
    bytes.length ≤ (text.length + 3) / 4 * 3 := by
  have kept := (List.rdropWhile_prefix (· == padding) text).length_le
  rw [base64TailMeaning] at meant
  split at meant <;> rename_i body <;> simp only [body, List.length_cons, List.length_nil] at kept
  · simp_all
  · contradiction
  · obtain ⟨quartet, _, rfl⟩ := Option.map_eq_some_iff.mp meant
    simp only [List.length_take]
    omega
  · obtain ⟨quartet, _, rfl⟩ := Option.map_eq_some_iff.mp meant
    simp only [List.length_take]
    omega
  · have := base64DecodeQuartet_length meant
    omega

/-- The quartet before others stands for three bytes. -/
theorem base64Meaning_quartet (meant : base64Meaning maps (a :: b :: c :: d :: e :: rest) = some bytes) :
    ∃ quartet tail, bytes = quartet ++ tail ∧ quartet.length = 3 ∧
      base64Meaning maps (e :: rest) = some tail := by
  simp only [base64Meaning, Option.pure_def, Option.bind_eq_bind, Option.bind_eq_some_iff,
    Option.some.injEq] at meant
  obtain ⟨quartet, first, tail, decoded, rfl⟩ := meant
  exact ⟨quartet, tail, rfl, base64DecodeQuartet_length first, decoded⟩

/-- All quartets but the last one stand for three bytes each. -/
theorem base64Meaning_long (meant : base64Meaning maps text = some bytes) :
    (text.length - 1) / 4 * 3 ≤ bytes.length := by
  induction text using base64Meaning.induct generalizing bytes with
  | case1 a b c d e rest ih =>
    obtain ⟨quartet, tail, rfl, three, decoded⟩ := base64Meaning_quartet meant
    have := ih decoded
    simp only [List.length_append, List.length_cons] at this ⊢
    omega
  | case2 text short =>
    match text with
    | [] | [_] | [_, _] | [_, _, _] | [_, _, _, _] => simp
    | a :: b :: c :: d :: e :: rest => exact absurd rfl (short a b c d e rest)

theorem base64Meaning_length (meant : base64Meaning maps text = some bytes) :
    bytes.length ≤ (text.length + 3) / 4 * 3 := by
  induction text using base64Meaning.induct generalizing bytes with
  | case1 a b c d e rest ih =>
    obtain ⟨quartet, tail, rfl, three, decoded⟩ := base64Meaning_quartet meant
    have := ih decoded
    simp only [List.length_append, List.length_cons] at this ⊢
    omega
  | case2 text short =>
    rw [base64Meaning] at meant
    · exact base64TailMeaning_length meant
    · exact short

end FluxPmix

import FluxPmix.Exchange.Data
import FluxPmix.CodecDataProofs
import Mathlib.Data.List.Forall2

/-! Encoded blobs gather to their concatenation: the first loop's bounds leave every decode the
room it asks for, although the second loop advances by actual lengths. -/
namespace FluxPmix

theorem getDataBufsize_strings {texts : List (List UInt8)}
    (short : ∀ text ∈ texts, text.length < 2 ^ 31) (bufsize : UInt64) :
    getDataBufsize (texts.map Json.string) bufsize =
      .ok (bufsize + .ofNat (texts.map decodeBound).sum) := by
  induction texts generalizing bufsize with
  | nil => simp [getDataBufsize]
  | cons text rest ih =>
    obtain ⟨nonneg, size⟩ := codecDataDecodeBufsize_string (short text List.mem_cons_self)
    have tail := ih (fun t member => short t (List.mem_cons_of_mem _ member))
      (bufsize + .ofNat (decodeBound text))
    simp only [List.map_cons, getDataBufsize, if_neg nonneg, size, tail, List.sum_cons,
      UInt64.ofNat_add, UInt64.add_assoc]

/-- An element that is not a string stops the first loop. -/
theorem getDataBufsize_other {elements : List Json}
    (short : ∀ text, .string text ∈ elements → text.length < 2 ^ 31)
    (other : ∃ e ∈ elements, e.isString = false) (bufsize : UInt64) :
    getDataBufsize elements bufsize = .error .error := by
  induction elements generalizing bufsize with
  | nil => simp at other
  | cons e rest ih =>
    cases e with
    | string text =>
      obtain ⟨nonneg, _⟩ := codecDataDecodeBufsize_string (short text List.mem_cons_self)
      have later : ∃ e ∈ rest, e.isString = false := by
        obtain ⟨e, member, unstringed⟩ := other
        rcases List.mem_cons.mp member with rfl | member
        · simp [Json.isString] at unstringed
        · exact ⟨e, member, unstringed⟩
      rw [getDataBufsize, if_neg nonneg]
      exact ih (fun t member => short t (List.mem_cons_of_mem _ member)) later _
    | _ => rfl

/-- The second loop over texts with meanings: the offset and the room left stay within the
buffer, and the bytes before the offset are the blobs so far. -/
theorem getDataDecode_strings {texts blobs : List (List UInt8)}
    (short : ∀ text ∈ texts, text.length < 2 ^ 31)
    (meant : List.Forall₂ (fun text blob => base64Meaning .rfc4648 text = some blob) texts blobs)
    (room : size.toNat + (texts.map decodeBound).sum ≤ bufsize.toNat)
    (whole : data.length = bufsize.toNat) :
    ∃ data' size', getDataDecode bufsize (texts.map Json.string) data size = .ok (data', size') ∧
      size'.toNat = size.toNat + blobs.flatten.length ∧
      size'.toNat ≤ size.toNat + (texts.map decodeBound).sum ∧ data'.length = bufsize.toNat ∧
      data'.take size'.toNat = data.take size.toNat ++ blobs.flatten := by
  induction meant generalizing data size with
  | nil => exact ⟨data, size, rfl, by simp, by simp, whole, by simp⟩
  | @cons text blob texts blobs first _ ih =>
    have bounded := base64Meaning_length first
    change blob.length ≤ decodeBound text at bounded
    simp only [List.map_cons, List.sum_cons] at room
    have left : (bufsize - size).toNat = bufsize.toNat - size.toNat := by
      rw [UInt64.toNat_sub_of_le]
      rw [UInt64.le_iff_toNat_le]
      omega
    have enough : ¬ (bufsize - size).toNat < decodeBound text := by omega
    have advanced : (size + .ofNat blob.length).toNat = size.toNat + blob.length := by
      have := bufsize.toNat_lt
      rw [UInt64.toNat_add, UInt64.toNat_ofNat']
      omega
    let filled := blob ++ List.replicate ((bufsize - size).toNat - blob.length) 0
    have rewritten : (data.take size.toNat ++ filled).length = bufsize.toNat := by
      simp only [filled, List.length_append, List.length_take, List.length_replicate]
      omega
    obtain ⟨data', size', decoded, counted, within, whole', kept⟩ :=
      ih (fun t member => short t (List.mem_cons_of_mem _ member))
        (show (size + .ofNat blob.length).toNat + (texts.map decodeBound).sum ≤ bufsize.toNat by omega)
        rewritten
    refine ⟨data', size', ?_, ?_, ?_, whole', ?_⟩
    · simp only [List.map_cons, getDataDecode, codecDataDecodeTobuf_string (short text List.mem_cons_self),
        if_neg enough, first, Option.map_some, orError, bind, Except.bind]
      exact decoded
    · simp only [List.flatten_cons, List.length_append]
      omega
    · simp only [List.map_cons, List.sum_cons]
      omega
    · have prefixed : (data.take size.toNat).length = size.toNat := by
        rw [List.length_take]
        omega
      have split : (data.take size.toNat ++ filled).take (size + .ofNat blob.length).toNat =
          data.take size.toNat ++ blob := by
        rw [advanced, List.take_append, prefixed, List.take_of_length_le (by omega)]
        simp [filled]
      rw [kept, split, List.flatten_cons, List.append_assoc]

/-- A text without a meaning stops the second loop, if a short buffer has not before. -/
theorem getDataDecode_refused {texts : List (List UInt8)}
    (short : ∀ text ∈ texts, text.length < 2 ^ 31)
    (bad : ∃ text ∈ texts, base64Meaning .rfc4648 text = none) :
    getDataDecode bufsize (texts.map Json.string) data size = .error .error := by
  induction texts generalizing data size with
  | nil => simp at bad
  | cons text rest ih =>
    simp only [List.map_cons, getDataDecode, codecDataDecodeTobuf_string (short text List.mem_cons_self)]
    split
    · rfl
    · cases meaning : base64Meaning .rfc4648 text with
      | none => rfl
      | some blob =>
        have later : ∃ text ∈ rest, base64Meaning .rfc4648 text = none := by
          obtain ⟨t, member, refused⟩ := bad
          rcases List.mem_cons.mp member with rfl | member
          · rw [meaning] at refused
            contradiction
          · exact ⟨t, member, refused⟩
        exact ih (fun t member => short t (List.mem_cons_of_mem _ member)) later

/-- Bytes `malloc` must supply for the gathered blobs: three for every four characters. -/
def gatherBound (blobs : List (List UInt8)) : Nat := (blobs.map (fun b => (b.length + 2) / 3 * 3)).sum

/-- Encoded blobs as texts, with everything the loops need of them. -/
theorem encoded_texts {blobs : List (List UInt8)} {strs : List Json}
    (bounded : ∀ b ∈ blobs, b.length < 2 ^ 63)
    (encoded : List.Forall₂ (fun b s => codecDataEncode b = .ok s) blobs strs) :
    ∃ texts, strs = texts.map Json.string ∧ (∀ text ∈ texts, text.length < 2 ^ 31) ∧
      List.Forall₂ (fun text blob => base64Meaning .rfc4648 text = some blob) texts blobs ∧
      (texts.map decodeBound).sum = gatherBound blobs := by
  induction encoded with
  | nil => exact ⟨[], rfl, by simp, .nil, rfl⟩
  | @cons b s blobs strs first _ ih =>
    obtain ⟨texts, rfl, short, meant, total⟩ := ih (fun b member => bounded b (List.mem_cons_of_mem _ member))
    obtain ⟨fits, rfl⟩ := (codecDataEncode_ok (bounded b List.mem_cons_self)).mp first
    have length := base64EncodeText_length .rfc4648 b
    refine ⟨base64EncodeText .rfc4648 b :: texts, rfl, ?_, ?_, ?_⟩
    · intro text member
      rcases List.mem_cons.mp member with rfl | member
      · omega
      · exact short text member
    · exact .cons (base64Meaning_encode Base64Maps.rfc4648_lawful.inverts b) meant
    · simp only [List.map_cons, List.sum_cons, total, gatherBound, decodeBound, length]
      omega

theorem all_strings {elements : List Json} (strings : ∀ e ∈ elements, e.isString = true) :
    ∃ texts : List (List UInt8), elements = texts.map Json.string := by
  induction elements with
  | nil => exact ⟨[], rfl⟩
  | cons e rest ih =>
    obtain ⟨texts, rfl⟩ := ih (fun e member => strings e (List.mem_cons_of_mem _ member))
    have head := strings e List.mem_cons_self
    cases e with
    | string text => exact ⟨text :: texts, rfl⟩
    | _ => contradiction

/-- Each element is decoded into a rest of the buffer that has the room its text requires. -/
theorem getDataDecode_room {texts blobs : List (List UInt8)} (short : ∀ text ∈ texts, text.length < 2 ^ 31)
    (meant : List.Forall₂ (fun text blob => base64Meaning .rfc4648 text = some blob) texts blobs)
    (exact : bufsize.toNat = (texts.map decodeBound).sum)
    (split : texts.map Json.string = before ++ .string text :: after) :
    ∃ data size, getDataDecode bufsize before (List.replicate bufsize.toNat 0) 0 = .ok (data, size) ∧
      size ≤ bufsize ∧ base64DecodedLength (.ofNat text.length) ≤ bufsize - size := by
  obtain ⟨first, rest, rfl, rfl, tail⟩ := List.map_eq_append_iff.mp split
  obtain ⟨t, last, rfl, head, _⟩ := List.map_eq_cons_iff.mp tail
  cases Json.string.inj head
  have meantFirst := List.forall₂_take first.length meant
  rw [List.take_left] at meantFirst
  simp only [List.map_append, List.map_cons, List.sum_append, List.sum_cons] at exact
  have room : (0 : UInt64).toNat + (first.map decodeBound).sum ≤ bufsize.toNat := by
    rw [UInt64.toNat_zero]
    omega
  obtain ⟨data, size, decoded, _, within, _, _⟩ := getDataDecode_strings
    (fun t member => short t (List.mem_append_left _ member)) meantFirst room
    (List.length_replicate (a := (0 : UInt8)))
  rw [UInt64.toNat_zero, Nat.zero_add] at within
  have ordered : size ≤ bufsize := by
    rw [UInt64.le_iff_toNat_le]
    omega
  refine ⟨data, size, decoded, ordered, ?_⟩
  have small := short text (by simp)
  rw [UInt64.le_iff_toNat_le, UInt64.toNat_sub_of_le _ _ ordered, base64DecodedLength_toNat (by omega)]
  simp only [decodeBound] at exact ⊢
  omega

theorem exchangeGetData_encoded {blobs : List (List UInt8)} {strs : List Json} (out : DataOutputs)
    (bounded : ∀ b ∈ blobs, b.length < 2 ^ 63)
    (encoded : List.Forall₂ (fun b s => codecDataEncode b = .ok s) blobs strs)
    (fits : gatherBound blobs < 2 ^ 63) :
    ∃ bufsize data size, getDataBufsize strs 0 = .ok bufsize ∧
      exchangeGetData false (some (.array strs)) out = .ok (0, ⟨some data, size⟩) ∧
      size.toNat = (blobs.map List.length).sum ∧ data.take size.toNat = blobs.flatten ∧
      ∀ before text after, strs = before ++ .string text :: after →
        ∃ data size, getDataDecode bufsize before (List.replicate bufsize.toNat 0) 0 = .ok (data, size) ∧
          size ≤ bufsize ∧ base64DecodedLength (.ofNat text.length) ≤ bufsize - size := by
  obtain ⟨texts, rfl, short, meant, total⟩ := encoded_texts bounded encoded
  let bufsize := UInt64.ofNat (texts.map decodeBound).sum
  have sized : getDataBufsize (texts.map Json.string) 0 = .ok bufsize := by
    rw [getDataBufsize_strings short, UInt64.zero_add]
  have exact : bufsize.toNat = (texts.map decodeBound).sum := by
    rw [UInt64.toNat_ofNat']
    omega
  have allocated : malloc bufsize = .ok () := (malloc_ok _).mpr (by omega)
  have filled : (List.replicate bufsize.toNat (0 : UInt8)).length = bufsize.toNat := List.length_replicate
  have room : (0 : UInt64).toNat + (texts.map decodeBound).sum ≤ bufsize.toNat := by
    rw [UInt64.toNat_zero]
    omega
  obtain ⟨data, size, decoded, counted, _, _, kept⟩ := getDataDecode_strings short meant room filled
  refine ⟨bufsize, data, size, sized, ?_, ?_, ?_, ?_⟩
  · simp only [exchangeGetData, Option.map_some, Option.getD_some, Json.arrayElements, getDataBuffer,
      sized, allocated, decoded, bind, Except.bind, Bool.false_eq_true, if_false]
  · simpa [List.length_flatten] using counted
  · simpa using kept
  · intro before text after split
    exact getDataDecode_room short meant exact split

/-- One element that is not a base64 string makes the whole call fail. -/
theorem exchangeGetData_refused {elements : List Json} (out : DataOutputs)
    (short : ∀ text, .string text ∈ elements → text.length < 2 ^ 31)
    (bad : ∃ e ∈ elements, ∀ text, e = .string text → base64Meaning .rfc4648 text = none) :
    exchangeGetData false (some (.array elements)) out = .ok (-1, out) := by
  have failed : getDataBuffer false elements = .error .error := by
    by_cases strings : ∀ e ∈ elements, e.isString = true
    · obtain ⟨texts, rfl⟩ := all_strings strings
      have short : ∀ text ∈ texts, text.length < 2 ^ 31 :=
        fun text member => short text (List.mem_map_of_mem member)
      obtain ⟨e, member, refused⟩ := bad
      obtain ⟨text, inside, rfl⟩ := List.mem_map.mp member
      simp only [getDataBuffer, getDataBufsize_strings short, bind, Except.bind, Bool.false_eq_true,
        if_false]
      rcases malloc_cases (0 + .ofNat (texts.map decodeBound).sum) with allocated | allocated
      · rw [allocated]
        exact getDataDecode_refused short ⟨text, inside, refused text rfl⟩
      · rw [allocated]
    · push Not at strings
      obtain ⟨e, member, other⟩ := strings
      rw [getDataBuffer, getDataBufsize_other short ⟨e, member, by simpa using other⟩]
      rfl
  simp only [exchangeGetData, Option.map_some, Option.getD_some, Json.arrayElements, failed]

/-- Gathering. Encoded blobs whose bounds add up to at most `PTRDIFF_MAX` come back as their
concatenation, each decode being given the room its text requires. Elements that are not
base64 strings make the call fail with its outputs as they were. Encoding never yields a
string for anything but the data itself. -/
theorem exchangeGetData_gathers :
    (∀ (blobs : List (List UInt8)) (strs : List Json) (out : DataOutputs),
      (∀ b ∈ blobs, b.length < 2 ^ 63) →
      List.Forall₂ (fun b s => codecDataEncode b = .ok s) blobs strs → gatherBound blobs < 2 ^ 63 →
      ∃ bufsize data size, getDataBufsize strs 0 = .ok bufsize ∧
        exchangeGetData false (some (.array strs)) out = .ok (0, ⟨some data, size⟩) ∧
        size.toNat = (blobs.map List.length).sum ∧ data.take size.toNat = blobs.flatten ∧
        ∀ before text after, strs = before ++ .string text :: after →
          ∃ data size, getDataDecode bufsize before (List.replicate bufsize.toNat 0) 0 = .ok (data, size) ∧
            size ≤ bufsize ∧ base64DecodedLength (.ofNat text.length) ≤ bufsize - size) ∧
    (∀ (elements : List Json) (out : DataOutputs),
      (∀ text, .string text ∈ elements → text.length < 2 ^ 31) →
      (∃ e ∈ elements, ∀ text, e = .string text → base64Meaning .rfc4648 text = none) →
      exchangeGetData false (some (.array elements)) out = .ok (-1, out)) ∧
    (∀ (data : List UInt8) (o : Json), data.length < 2 ^ 63 → codecDataEncode data = .ok o →
      (data.length + 2) / 3 * 4 + 1 < 2 ^ 31 ∧ ∃ text, o = .string text ∧
        base64Meaning .rfc4648 text = some data) := by
  refine ⟨?_, ?_, ?_⟩
  · intro blobs strs out bounded encoded fits
    exact exchangeGetData_encoded out bounded encoded fits
  · intro elements out short bad
    exact exchangeGetData_refused out short bad
  · intro data o bounded encoded
    obtain ⟨fits, rfl⟩ := (codecDataEncode_ok bounded).mp encoded
    exact ⟨fits, _, rfl, base64Meaning_encode Base64Maps.rfc4648_lawful.inverts data⟩

theorem exchangeGetData_gathers_sample : ∃ bufsize data size,
    getDataBufsize [.string [65, 81, 61, 61], .string [65, 103, 77, 61]] 0 = .ok bufsize ∧
      exchangeGetData false (some (.array [.string [65, 81, 61, 61], .string [65, 103, 77, 61]]))
        ⟨none, 0⟩ = .ok (0, ⟨some data, size⟩) ∧
      size.toNat = 3 ∧ data.take size.toNat = [1, 2, 3] := by
  obtain ⟨bufsize, data, size, sized, gathered, counted, kept, _⟩ :=
    exchangeGetData_gathers.1 [[1], [2, 3]] [.string [65, 81, 61, 61], .string [65, 103, 77, 61]] ⟨none, 0⟩
      (by decide) (.cons rfl (.cons rfl .nil)) (by decide)
  exact ⟨bufsize, data, size, sized, gathered, counted, kept⟩

/-- Bounds that add up to more than `PTRDIFF_MAX` make `malloc` refuse the buffer. -/
theorem exchangeGetData_exhausted (short : text.length < 2 ^ 31) (count : Nat) (out : DataOutputs)
    (above : 2 ^ 63 ≤ count * decodeBound text) (below : count * decodeBound text < 2 ^ 64) :
    exchangeGetData false (some (.array (List.replicate count (.string text)))) out = .ok (-1, out) := by
  have sized := @getDataBufsize_strings (List.replicate count text)
    (fun t member => List.eq_of_mem_replicate member ▸ short) 0
  simp only [List.map_replicate, List.sum_replicate_nat, UInt64.zero_add] at sized
  have large : ¬ (UInt64.ofNat (count * decodeBound text)).toNat < 2 ^ 63 := by
    rw [UInt64.toNat_ofNat']
    omega
  have refused : malloc (.ofNat (count * decodeBound text)) = .error .error :=
    (malloc_cases _).resolve_left (fun allocated => large ((malloc_ok _).mp allocated))
  simp only [exchangeGetData, Option.map_some, Option.getD_some, Json.arrayElements, getDataBuffer,
    sized, refused, bind, Except.bind, Bool.false_eq_true, if_false]

/-- Whatever follows the first four characters goes unread when the length wraps to four. -/
theorem exchangeGetData_truncated (more : List UInt8) (wraps : more.length % 2 ^ 32 = 0)
    (out : DataOutputs) :
    exchangeGetData false (some (.array [.string ([65, 65, 65, 65] ++ more)])) out =
      .ok (0, ⟨some [0, 0, 0], 3⟩) := by
  have length : intToSize (sizeToInt (.ofNat ([65, 65, 65, 65] ++ more).length)) = 4 := by
    apply UInt64.toNat_inj.mp
    rw [intToSize_sizeToInt, UInt64.toNat_ofNat', List.length_append]
    simp only [List.length_cons, List.length_nil, UInt64.reduceToNat]
    split <;> omega
  have size : codecDataDecodeBufsize (.string ([65, 65, 65, 65] ++ more)) = 3 := by
    rw [codecDataDecodeBufsize, length]
    rfl
  have decoded : codecDataDecodeTobuf (.string ([65, 65, 65, 65] ++ more)) 3 = .ok (3, [0, 0, 0]) := by
    rw [codecDataDecodeTobuf, length]
    rfl
  have buffer : getDataBufsize [.string ([65, 65, 65, 65] ++ more)] 0 = .ok 3 := by
    simp only [getDataBufsize, size]
    rfl
  have filled : getDataDecode 3 [.string ([65, 65, 65, 65] ++ more)] (List.replicate 3 0) 0 =
      .ok ([0, 0, 0], 3) := by
    simp only [getDataDecode, UInt64.sub_zero, decoded]
    rfl
  have whole : getDataBuffer false [.string ([65, 65, 65, 65] ++ more)] = .ok ([0, 0, 0], 3) := by
    rw [getDataBuffer, buffer]
    exact filled
  simp only [exchangeGetData, Option.map_some, Option.getD_some, Json.arrayElements, whole]

/-- 2^33 blobs of 2^30 bytes all encode, and their bounds exceed `PTRDIFF_MAX`. A string of
2^32 + 4 characters, of which only the first four are base64, decodes. -/
theorem exchangeGetData_limits :
    (∃ o, codecDataEncode (List.replicate (2 ^ 30) 0) = .ok o ∧
      exchangeGetData false (some (.array (List.replicate (2 ^ 33) o))) ⟨none, 0⟩ = .ok (-1, ⟨none, 0⟩)) ∧
    base64Meaning .rfc4648 ([65, 65, 65, 65] ++ List.replicate (2 ^ 32) 33) = none ∧
    exchangeGetData false (some (.array [.string ([65, 65, 65, 65] ++ List.replicate (2 ^ 32) 33)]))
      ⟨none, 0⟩ = .ok (0, ⟨some [0, 0, 0], 3⟩) := by
  refine ⟨?_, ?_, exchangeGetData_truncated _ (by rw [List.length_replicate, Nat.mod_self]) _⟩
  · have length : (List.replicate (2 ^ 30) (0 : UInt8)).length = 2 ^ 30 := List.length_replicate
    generalize List.replicate (2 ^ 30) (0 : UInt8) = blob at length ⊢
    have text := base64EncodeText_length .rfc4648 blob
    have bound : decodeBound (base64EncodeText .rfc4648 blob) = 1073741826 := by
      rw [decodeBound, text, length]
      omega
    refine ⟨_, (codecDataEncode_ok (by omega)).mpr ⟨by omega, rfl⟩, ?_⟩
    exact exchangeGetData_exhausted (by omega) _ _ (by omega) (by omega)
  · rw [show (2 : Nat) ^ 32 = 4294967291 + 5 from rfl]
    generalize 4294967291 = more
    rfl

end FluxPmix

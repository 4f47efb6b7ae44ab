import FluxPmix.CodecDataProofs

/-! Upcalls: what a server callback packs for the shell thread, and when it fails. Every field
is encoded in turn; the first that is refused makes the callback report an error. -/
namespace FluxPmix

structure InterthreadMsg where
  topic : String
  payload : Json

/-- The message is received once, as it was sent. -/
def interthreadSendPack (name : String) (items : List (String × PackItem)) :
    Except Fault InterthreadMsg := do
  let payload ← jsonPack items
  return ⟨name, payload⟩

/-- The status a server callback returns and the message it sent, if any. -/
def upcallStatus : Except Fault InterthreadMsg → Except Fault (Int32 × Option InterthreadMsg)
  | .ok msg => .ok (pmixSuccess, some msg)
  | .error .error => .ok (pmixError, none)
  | .error .undefined => .error .undefined

/-- A message that was sent is the one that was packed. -/
theorem upcallStatus_sent {sent : Except Fault InterthreadMsg}
    (returned : upcallStatus sent = .ok (rc, some msg)) : sent = .ok msg := by
  cases sent with
  | ok _ =>
    cases returned
    rfl
  | error fault => cases fault <;> cases returned

theorem upcallStatus_ok {sent : Except Fault InterthreadMsg} :
    upcallStatus sent = .ok (pmixSuccess, some msg) ↔ sent = .ok msg := by
  constructor
  · exact upcallStatus_sent
  · rintro rfl
    rfl

/-- Members that are JSON values already are never refused. -/
theorem interthreadSendPack_values (name : String) (members : List (String × Json)) :
    interthreadSendPack name (members.map (fun m => (m.1, .O m.2))) = .ok ⟨name, .object members⟩ := by
  have packed : jsonPack (members.map (fun m => (m.1, .O m.2))) = .ok (.object members) := by
    rw [jsonPack_ok]
    constructor
    · simp [PackItem.packable]
    · simp [PackItem.value, Function.comp_def]
  rw [interthreadSendPack, packed]
  rfl

/-! ### Encoders that fail at worst with NULL -/

theorem jsonString_defined (value : Option (List UInt8)) : jsonString value ≠ .error .undefined := by
  cases value with
  | none => exact error_defined
  | some bytes =>
    rw [jsonString]
    split
    · exact ok_defined _
    · exact error_defined

theorem jsonReal_defined (bits : UInt64) : jsonReal bits ≠ .error .undefined := by
  rw [jsonReal]
  split
  · exact ok_defined _
  · exact error_defined

theorem jsonPack_defined (items : List (String × PackItem)) : jsonPack items ≠ .error .undefined := by
  rw [jsonPack_eq]
  split
  · exact ok_defined _
  · exact error_defined

/-! ### Encoding arrays -/

section
variable {encode : α → Except Fault Json} {xs : List α}

/-- An array is encoded exactly when its elements are and an `int` can count them. -/
theorem encodeEntries_ok (within : i ≤ intMax) : (∃ entries, encodeEntries encode i xs = .ok entries) ↔
    (∀ x ∈ xs, ∃ o, encode x = .ok o) ∧ i + xs.length ≤ intMax := by
  induction xs generalizing i with
  | nil => simpa [encodeEntries] using within
  | cons x rest ih =>
    rw [List.forall_mem_cons, List.length_cons]
    constructor
    · rintro ⟨entries, encoded⟩
      obtain ⟨entry, others, _, below, first, remaining⟩ := encodeEntries_cons encoded
      obtain ⟨every, counted⟩ := (ih (by omega)).mp ⟨others, remaining⟩
      exact ⟨⟨⟨entry, first⟩, every⟩, by omega⟩
    · rintro ⟨⟨⟨entry, first⟩, every⟩, counted⟩
      obtain ⟨others, remaining⟩ := (ih (i := i + 1) (by omega)).mpr ⟨every, by omega⟩
      have below : i ≠ intMax := by omega
      refine ⟨entry :: others, ?_⟩
      simp [encodeEntries, first, remaining, below, bind, Except.bind, pure, Except.pure]

/-- Where no element is worse than refused, neither is an array an `int` can count. -/
theorem encodeEntries_defined (defined : ∀ x ∈ xs, encode x ≠ .error .undefined)
    (counted : i + xs.length ≤ intMax) : encodeEntries encode i xs ≠ .error .undefined := by
  induction xs generalizing i with
  | nil => exact ok_defined []
  | cons x rest ih =>
    rw [List.forall_mem_cons] at defined
    rw [List.length_cons] at counted
    apply bind_defined defined.1
    intro entry _
    have below : i ≠ intMax := by omega
    rw [if_neg below]
    apply bind_defined (ih defined.2 (by omega))
    intro entries _
    exact ok_defined _

theorem encodeArray_ok : (∃ o, encodeArray encode xs = .ok o) ↔
    (∀ x ∈ xs, ∃ o, encode x = .ok o) ∧ xs.length ≤ intMax := by
  have entries := @encodeEntries_ok α encode xs 0 (Nat.zero_le _)
  rw [Nat.zero_add] at entries
  rw [← entries]
  constructor
  · rintro ⟨o, encoded⟩
    obtain ⟨entries, encoded, _⟩ := bind_ok.mp encoded
    exact ⟨entries, encoded⟩
  · rintro ⟨entries, encoded⟩
    exact ⟨.array entries, bind_ok.mpr ⟨entries, encoded, rfl⟩⟩

theorem encodeArray_defined (defined : ∀ x ∈ xs, encode x ≠ .error .undefined)
    (counted : xs.length ≤ intMax) : encodeArray encode xs ≠ .error .undefined := by
  apply bind_defined (encodeEntries_defined defined (by omega))
  intro entries _
  exact ok_defined _

end

/-! ### Procs and data -/

theorem codecProcEncode_defined (proc : PmixProc) : codecProcEncode proc ≠ .error .undefined :=
  jsonPack_defined _

theorem codecProcEncode_valid {proc : PmixProc} :
    (∃ o, codecProcEncode proc = .ok o) ↔ utf8Check proc.nspace.bytes = true := by
  constructor
  · rintro ⟨o, encoded⟩
    exact (codecProcEncode_ok.mp encoded).1
  · intro valid
    exact ⟨_, codecProcEncode_ok.mpr ⟨valid, rfl⟩⟩

theorem codecProcArrayEncode_valid {procs : List PmixProc} : (∃ o, codecProcArrayEncode procs = .ok o) ↔
    (∀ proc ∈ procs, utf8Check proc.nspace.bytes = true) ∧ procs.length ≤ intMax := by
  rw [codecProcArrayEncode, encodeArray_ok]
  simp only [codecProcEncode_valid]

theorem codecProcArray_roundtrip {procs : List PmixProc} (encoded : codecProcArrayEncode procs = .ok o) :
    codecProcArrayDecode o = .ok procs := by
  have each : ∀ proc o, codecProcEncode proc = .ok o → (codecProcDecode o = .ok proc ↔ True) :=
    fun proc o encoded => iff_true_intro (codecProcDecode_encode encoded)
  exact (encodeArray_roundtrip each encoded).mpr (fun _ _ => trivial)

theorem codecDataEncode_defined (data : List UInt8) : codecDataEncode data ≠ .error .undefined := by
  apply bind_defined
  · rcases malloc_cases (intToSize (sizeToInt (base64EncodedLength (.ofNat data.length) + 1))) with
      allocated | refused
    · exact fun undefined => nomatch allocated.symm.trans undefined
    · exact fun undefined => nomatch refused.symm.trans undefined
  · intro _ _
    apply bind_defined
    · rw [base64Encode]
      split
      · exact error_defined
      · exact ok_defined _
    · intro xdata _
      exact ok_defined _

@[simp] theorem codecPointer_roundtrip (ptr : UInt64) :
    codecPointerDecode (codecPointerEncode ptr) = .ok ptr := by
  simp [codecPointerEncode, codecPointerDecode]

end FluxPmix

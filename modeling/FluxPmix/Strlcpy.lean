import FluxPmix.Codec

/-! The loops of `strlcpy`, over the bytes of both buffers. A read or a write outside of them is undefined. What
they leave is what the definition by its result says. -/
namespace FluxPmix.Strlcpy

def store (buf : List UInt8) (i : Nat) (b : UInt8) : Option (List UInt8) :=
  if i < buf.length then some (buf.set i b) else none

/-- The `do` loop: the buffer, how far `d` and `s` have come, and what is left of `n`. A NUL ends it before `n`
is counted down. -/
def copyLoop (src : List UInt8) : (n : Nat) → (dst : List UInt8) → (d s : Nat) → Option (List UInt8 × Nat × Nat × Nat)
  | 0, dst, d, s => some (dst, d, s, 0)
  | n + 1, dst, d, s => do
    let b ← src[s]?
    let dst ← store dst d b
    if b = 0 then some (dst, d + 1, s + 1, n + 1) else copyLoop src n dst (d + 1) (s + 1)

/-- The `while` loop, on the bytes from `s` on. -/
def skipLoop : List UInt8 → (s : Nat) → Option Nat
  | [], _ => none
  | b :: rest, s => if b = 0 then some (s + 1) else skipLoop rest (s + 1)

def strlcpy (dst src : List UInt8) (siz : Nat) : Option (List UInt8 × Nat) := do
  let (dst, d, s, n) ← copyLoop src (siz - 1) dst 0 0
  if n = 0 then
    let dst ← if siz ≠ 0 then store dst d 0 else some dst
    let s ← skipLoop (src.drop s) s
    return (dst, s - 1)
  return (dst, s - 1)

theorem store_append (done : List UInt8) (old : UInt8) (tail : List UInt8) (b : UInt8) :
    store (done ++ old :: tail) done.length b = some (done ++ b :: tail) := by
  have within : done.length < (done ++ old :: tail).length := by simp
  rw [store, if_pos within, List.set_append_right _ _ (Nat.le_refl _), Nat.sub_self, List.set_cons_zero]

/-- The loop copies the text and its NUL if they fit, or as much of the text as does. -/
theorem copyLoop_spec {n : Nat} {text done tail before more : List UInt8} (clean : 0 ∉ text) (room : n ≤ tail.length) :
    copyLoop (before ++ (text ++ 0 :: more)) n (done ++ tail) done.length before.length =
      if text.length < n then
        some (done ++ (text ++ [0]) ++ tail.drop (text.length + 1), done.length + text.length + 1,
          before.length + text.length + 1, n - text.length)
      else some (done ++ text.take n ++ tail.drop n, done.length + n, before.length + n, 0) := by
  induction n generalizing text done tail before with
  | zero => simp [copyLoop]
  | succ n ih =>
    cases tail with
    | nil => cases room
    | cons old tail =>
      have room := Nat.le_of_succ_le_succ room
      cases text with
      | nil =>
        have read : (before ++ ([] ++ 0 :: more))[before.length]? = some 0 := by simp
        simp only [copyLoop, read, store_append, Option.bind_eq_bind, Option.bind_some, if_true]
        simp
      | cons b text =>
        obtain ⟨nonzero, clean⟩ : ¬ b = 0 ∧ 0 ∉ text := by
          simpa [eq_comm, not_or] using clean
        have read : (before ++ (b :: text ++ 0 :: more))[before.length]? = some b := by simp
        have next := @ih text (done ++ [b]) tail (before ++ [b]) clean room
        simp only [List.append_assoc, List.singleton_append, List.length_append, List.length_singleton] at next
        simp only [copyLoop, read, store_append, Option.bind_eq_bind, Option.bind_some, nonzero, if_false]
        rw [List.cons_append, next]
        have one : done.length + 1 + text.length = done.length + (text.length + 1) := by omega
        have other : before.length + 1 + text.length = before.length + (text.length + 1) := by omega
        by_cases fits : text.length < n
        · have fits' : (b :: text).length < n + 1 := Nat.succ_lt_succ fits
          rw [if_pos fits, if_pos fits', one, other, List.length_cons, Nat.add_sub_add_right, List.append_assoc done]
          rfl
        · have fits' : ¬ (b :: text).length < n + 1 := fun less => fits (Nat.lt_of_succ_lt_succ less)
          rw [if_neg fits, if_neg fits', Nat.add_right_comm, Nat.add_right_comm before.length, List.append_assoc done]
          rfl

theorem skipLoop_spec {text : List UInt8} (clean : 0 ∉ text) (more : List UInt8) (s : Nat) :
    skipLoop (text ++ 0 :: more) s = some (s + text.length + 1) := by
  induction text generalizing s with
  | nil => rfl
  | cons b text ih =>
    obtain ⟨nonzero, clean⟩ : ¬ b = 0 ∧ 0 ∉ text := by
      simpa [eq_comm, not_or] using clean
    rw [List.cons_append, skipLoop, if_neg nonzero, ih clean, List.length_cons]
    congr 1
    omega

/-- What C sees of the source, and the rest of it. -/
theorem cString_split {src : List UInt8} (ended : 0 ∈ src) : ∃ more, src = (cString src).bytes ++ 0 :: more := by
  induction src with
  | nil => cases ended
  | cons b rest ih =>
    by_cases nul : b = 0
    · exact ⟨rest, by simp [cString, nul]⟩
    · obtain ⟨more, split⟩ := ih ((List.mem_cons.mp ended).resolve_left (Ne.symm nul))
      have first : (cString (b :: rest)).bytes = b :: (cString rest).bytes := by simp [cString, nul]
      exact ⟨more, by rw [first, List.cons_append, ← split]⟩

/-- With a NUL in the source and room for `siz` bytes both loops stay inside. They leave the source as far as
`siz` goes, a NUL behind it unless `siz` is 0, and nothing else; the length of the source is returned. -/
theorem strlcpy_copies (dst src : List UInt8) (siz : Nat) (ended : 0 ∈ src) (room : siz ≤ dst.length) :
    ∃ written, strlcpy dst src siz = some (written ++ dst.drop written.length, (cString src).bytes.length) ∧
      (siz = 0 ∧ written = [] ∨ siz ≠ 0 ∧ written = (FluxPmix.strlcpy (siz - 1) src).bytes ++ [0]) ∧
      written.length ≤ siz := by
  obtain ⟨more, split⟩ := cString_split ended
  have clean := (cString src).noNul
  have copied := @copyLoop_spec (siz - 1) (cString src).bytes [] dst [] more clean (by omega)
  rw [List.nil_append, List.nil_append, ← split] at copied
  simp only [List.length_nil, Nat.zero_add, List.nil_append] at copied
  have result : (FluxPmix.strlcpy (siz - 1) src).bytes = (cString src).bytes.take (siz - 1) := rfl
  by_cases fits : (cString src).bytes.length < siz - 1
  · have whole : (cString src).bytes.take (siz - 1) = (cString src).bytes := List.take_of_length_le (Nat.le_of_lt fits)
    have left : siz - 1 - (cString src).bytes.length ≠ 0 := by omega
    refine ⟨(cString src).bytes ++ [0], ?_, .inr ⟨by omega, by rw [result, whole]⟩, ?_⟩
    · rw [strlcpy, copied, if_pos fits]
      simp only [Option.bind_eq_bind, Option.bind_some, left, if_false, List.length_append, List.length_singleton]
      rfl
    · rw [List.length_append, List.length_singleton]
      omega
  · have cut : ((cString src).bytes.take (siz - 1)).length = siz - 1 := by
      rw [List.length_take]
      omega
    have skipped : skipLoop (src.drop (siz - 1)) (siz - 1) = some ((cString src).bytes.length + 1) := by
      have behind : src.drop (siz - 1) = (cString src).bytes.drop (siz - 1) ++ 0 :: more := by
        rw [← List.drop_append_of_le_length (Nat.le_of_not_lt fits), ← split]
      have unread : 0 ∉ (cString src).bytes.drop (siz - 1) := fun member => clean (List.mem_of_mem_drop member)
      rw [behind, skipLoop_spec unread, List.length_drop]
      congr 1
      omega
    rw [strlcpy, copied, if_neg fits]
    simp only [Option.bind_eq_bind, Option.bind_some, if_true, skipped]
    cases siz with
    | zero => exact ⟨[], rfl, .inl ⟨rfl, rfl⟩, Nat.le_refl 0⟩
    | succ siz =>
      obtain ⟨old, rest, behind⟩ : ∃ old rest, dst.drop siz = old :: rest :=
        ⟨_, _, List.drop_eq_getElem_cons (Nat.lt_of_succ_le room)⟩
      have stored := store_append ((cString src).bytes.take siz) old rest 0
      have after : dst.drop (siz + 1) = rest := by rw [← List.drop_drop, behind, List.drop_one, List.tail_cons]
      rw [Nat.add_sub_cancel] at cut ⊢
      rw [cut] at stored
      refine ⟨(cString src).bytes.take siz ++ [0], ?_, .inr ⟨Nat.succ_ne_zero siz, rfl⟩, ?_⟩
      · rw [List.length_append, List.length_singleton, cut, after, behind]
        simp [stored]
      · rw [List.length_append, List.length_singleton, cut]

/-- "abc" into four bytes of six, and into two. -/
theorem strlcpy_copies_sample : strlcpy [9, 9, 9, 9, 9, 9] [97, 98, 99, 0, 7] 4 = some ([97, 98, 99, 0, 9, 9], 3) ∧
    strlcpy [9, 9, 9, 9, 9, 9] [97, 98, 99, 0, 7] 2 = some ([97, 0, 9, 9, 9, 9], 3) := by
  obtain ⟨_, fitting, ⟨none, _⟩ | ⟨_, rfl⟩, _⟩ :=
    strlcpy_copies [9, 9, 9, 9, 9, 9] [97, 98, 99, 0, 7] 4 (by decide) (by decide)
  · cases none
  obtain ⟨_, cut, ⟨none, _⟩ | ⟨_, rfl⟩, _⟩ :=
    strlcpy_copies [9, 9, 9, 9, 9, 9] [97, 98, 99, 0, 7] 2 (by decide) (by decide)
  · cases none
  exact ⟨fitting, cut⟩

end FluxPmix.Strlcpy

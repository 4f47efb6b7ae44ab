import Mathlib.Data.List.Basic

/-! Removal by key from a live list, while walking over a copy of it that stays as it was. Items whose
key was removed before are visited all the same, and nothing is left of them to remove. -/
namespace Sweep
variable {α κ : Type} [DecidableEq κ] (key : α → κ) (hit : κ → Bool)

def remove (k : κ) (live : List α) : List α := live.filter (fun x => key x ≠ k)

/-- Remove the key of every item of the snapshot that is hit. -/
def sweep (live : List α) : (snapshot : List α) → List α
  | [] => live
  | x :: rest => sweep (if hit (key x) then remove key (key x) live else live) rest

variable {key hit}

/-- What is left was not hit, or is in no item of the snapshot. -/
theorem sweep_eq (live snapshot : List α) : sweep key hit live snapshot =
    live.filter (fun x => ¬ (hit (key x) = true ∧ key x ∈ snapshot.map key)) := by
  induction snapshot generalizing live with
  | nil => simp [sweep]
  | cons x rest ih =>
    rw [sweep, ih]
    cases hits : hit (key x) with
    | false =>
      apply List.filter_congr
      intro y _
      have other : hit (key y) = true → key y ≠ key x := fun hitY same => by simp [same, hits] at hitY
      by_cases hitY : hit (key y) = true
      · simp [hitY, other hitY]
      · simp [hitY]
    | true =>
      rw [if_pos rfl, remove, List.filter_filter]
      apply List.filter_congr
      intro y _
      by_cases same : key y = key x
      · simp [same, hits]
      · simp [same]

/-- A walk over the list itself leaves what is not hit. -/
theorem sweep_self (items : List α) : sweep key hit items items = items.filter (fun x => !hit (key x)) := by
  rw [sweep_eq]
  apply List.filter_congr
  intro x member
  have present : key x ∈ items.map key := List.mem_map_of_mem member
  simp [present]

theorem sweep_sublist (live snapshot : List α) : (sweep key hit live snapshot).Sublist live := by
  rw [sweep_eq]
  exact List.filter_sublist

/-- What is not hit stays, whatever the walk has come to. -/
theorem filter_sweep (live snapshot : List α) :
    (sweep key hit live snapshot).filter (fun x => !hit (key x)) = live.filter (fun x => !hit (key x)) := by
  rw [sweep_eq, List.filter_filter]
  apply List.filter_congr
  intro x _
  cases hit (key x) <;> simp

end Sweep

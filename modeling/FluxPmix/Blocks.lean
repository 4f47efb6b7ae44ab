import Mathlib.Algebra.Order.Group.Multiset

/-! Programs that allocate and free blocks. A block that is not allocated must not be freed. A triple says
which blocks a program needs and which it leaves, whatever else is allocated, so triples compose. What it says
of a failure is of an allocation that the program attempts. -/
namespace Blocks

abbrev Block := Nat

/-- The allocated blocks, each handed out once, before `next`, and the numbers whose allocation fails. -/
structure Heap where
  live : Multiset Block
  next : Block
  fails : Block → Bool
  below : ∀ b ∈ live, b < next
  distinct : live.Nodup

def Heap.empty (fails : Block → Bool) : Heap where
  live := 0
  next := 0
  fails := fails
  below b member := absurd member (Multiset.notMem_zero b)
  distinct := Multiset.nodup_zero

/-- A failed allocation uses its number up. -/
def Heap.skip (h : Heap) : Heap where
  live := h.live
  next := h.next + 1
  fails := h.fails
  below b member := Nat.lt_succ_of_lt (h.below b member)
  distinct := h.distinct

def Heap.push (h : Heap) : Heap where
  live := h.next ::ₘ h.live
  next := h.next + 1
  fails := h.fails
  below b member := by
    rcases Multiset.mem_cons.mp member with rfl | old
    · exact Nat.lt_succ_self _
    · exact Nat.lt_succ_of_lt (h.below b old)
  distinct := Multiset.nodup_cons.mpr ⟨fun old => Nat.lt_irrefl _ (h.below _ old), h.distinct⟩

def Heap.drop (h : Heap) (b : Block) : Heap where
  live := h.live.erase b
  next := h.next
  fails := h.fails
  below c member := h.below c (Multiset.mem_of_mem_erase member)
  distinct := h.distinct.erase b

/-- Undefined behaviour has no outcome. -/
abbrev Prog (A : Type) := StateT Heap Option A

/-- NULL where the allocation of that number fails. -/
def malloc : Prog (Option Block) :=
  fun h => some (if h.fails h.next then (none, h.skip) else (some h.next, h.push))

def free (b : Block) : Prog Unit := fun h => if b ∈ h.live then some ((), h.drop b) else none

def undefined {A : Type} : Prog A := fun _ => none

/-- The block of a pointer that may be NULL. -/
def held (pointer : Option Block) : Multiset Block := pointer.elim 0 ({·})

def freeNullable : Option Block → Prog Unit
  | none => pure ()
  | some b => free b

/-- A block of another size, in place of what may be NULL. -/
def realloc (old : Option Block) : Prog (Option Block) := do
  let some new ← malloc | return none
  freeNullable old
  return some new

/-! ### Runs -/

/-- The same blocks, and other failures. -/
def Heap.failing (h : Heap) (fails : Block → Bool) : Heap := { h with fails := fails }

/-- Between two heaps of a run an allocation failed. -/
def Heap.Refused (h after : Heap) : Prop := ∃ b, h.next ≤ b ∧ b < after.next ∧ h.fails b = true

variable {A B : Type} {pre own rest : Multiset Block} {prog : Prog A} {next : A → Prog B} {a : A} {h after : Heap}
  {lack : Prop} {post mid : A → Multiset Block → Prop} {last : B → Multiset Block → Prop}
  {b : Block} {result : A → Prop}

/-- A run ends, and would end so whichever other allocations failed that it does not attempt. -/
structure Runs (prog : Prog A) (h : Heap) (a : A) (after : Heap) : Prop where
  ran : prog h = some (a, after)
  grows : h.next ≤ after.next
  same : after.fails = h.fails
  alike : ∀ fails : Block → Bool, (∀ b, h.next ≤ b → b < after.next → fails b = h.fails b) →
    prog (h.failing fails) = some (a, after.failing fails)

theorem Runs.pure (a : A) (h : Heap) : Runs (pure a) h a h := ⟨rfl, le_refl _, rfl, fun _ _ => rfl⟩

theorem Runs.bind (first : Runs prog h a after) {b : B} {final : Heap} (later : Runs (next a) after b final) :
    Runs (prog >>= next) h b final where
  ran := by
    change (prog h).bind (fun result => next result.1 result.2) = _
    rw [first.ran]
    exact later.ran
  grows := first.grows.trans later.grows
  same := later.same.trans first.same
  alike fails agree := by
    have before := first.alike fails fun b low high => agree b low (high.trans_le later.grows)
    have behind := later.alike fails fun b low high => by
      rw [first.same]
      exact agree b (first.grows.trans low) high
    change (prog (h.failing fails)).bind (fun result => next result.1 result.2) = _
    rw [before]
    exact behind

/-- With `pre` among the allocated blocks, and where whatever fails from now on makes for a `lack`, the program
ends with blocks and a result as in `post` in their place and everything else as it was. -/
def Triple (lack : Prop) (pre : Multiset Block) (prog : Prog A) (post : A → Multiset Block → Prop) : Prop :=
  ∀ frame h, h.live = frame + pre → (∀ b, h.next ≤ b → h.fails b = true → lack) →
    ∃ a after own, Runs prog h a after ∧ after.live = frame + own ∧ post a own

namespace Triple

theorem mono (triple : Triple lack pre prog mid) (weaker : ∀ a own, mid a own → post a own) :
    Triple lack pre prog post := by
  intro frame h allocated seen
  obtain ⟨a, after, own, runs, left, found⟩ := triple frame h allocated seen
  exact ⟨a, after, own, runs, left, weaker a own found⟩

theorem pure {a : A} (found : post a pre) : Triple lack pre (pure a) post :=
  fun _ h allocated _ => ⟨a, h, pre, .pure a h, allocated, found⟩

theorem bind (first : Triple lack pre prog mid) (later : ∀ a own, mid a own → Triple lack own (next a) last) :
    Triple lack pre (prog >>= next) last := by
  intro frame h allocated seen
  obtain ⟨a, after, own, runs, left, found⟩ := first frame h allocated seen
  have still : ∀ b, after.next ≤ b → after.fails b = true → lack := by
    intro b low failed
    rw [runs.same] at failed
    exact seen b (runs.grows.trans low) failed
  obtain ⟨b, final, other, runs', left', found'⟩ := later a own found frame after left still
  exact ⟨b, final, other, runs.bind runs', left', found'⟩

/-- What a program does not need stays. -/
theorem frame (triple : Triple lack pre prog post) (rest : Multiset Block) :
    Triple lack (pre + rest) prog fun a own => ∃ part, own = part + rest ∧ post a part := by
  intro frame h allocated seen
  have regrouped : h.live = frame + rest + pre := by
    rw [allocated, add_assoc, add_comm rest]
  obtain ⟨a, after, own, runs, left, found⟩ := triple _ h regrouped seen
  refine ⟨a, after, own + rest, runs, ?_, own, rfl, found⟩
  rw [left, add_assoc, add_comm rest]

/-- A step that needs only some of the blocks. -/
theorem step (first : Triple lack own prog mid) (split : pre = own + rest)
    (later : ∀ a part, mid a part → Triple lack (part + rest) (next a) last) :
    Triple lack pre (prog >>= next) last := by
  subst split
  refine (first.frame rest).bind ?_
  rintro a _ ⟨part, rfl, found⟩
  exact later a part found

/-- A step that gives back all it needs. -/
theorem release {next : Prog B} (first : Triple lack own prog fun _ left => left = 0)
    (later : Triple lack rest next last) : Triple lack (own + rest) (prog >>= fun _ => next) last := by
  refine first.step rfl ?_
  rintro _ _ rfl
  rw [zero_add]
  exact later

theorem malloc : Triple lack 0 malloc fun pointer own => own = held pointer ∧ (pointer = none → lack) := by
  intro frame h allocated seen
  rw [add_zero] at allocated
  have here (fails : Block → Bool) (agree : ∀ b, h.next ≤ b → b < h.next + 1 → fails b = h.fails b) :
      fails h.next = h.fails h.next := agree _ (le_refl _) (Nat.lt_succ_self _)
  by_cases failed : h.fails h.next = true
  · have attempted := seen _ (le_refl _) failed
    refine ⟨none, h.skip, 0, ⟨?_, Nat.le_succ _, rfl, fun fails agree => ?_⟩, ?_, rfl, fun _ => attempted⟩
    · simp only [Blocks.malloc, failed, if_true]
    · have refused := (here fails agree).trans failed
      simp only [Blocks.malloc, Heap.failing, refused, if_true]
      rfl
    · rw [add_zero]
      exact allocated
  · refine ⟨some h.next, h.push, {h.next}, ⟨?_, Nat.le_succ _, rfl, fun fails agree => ?_⟩, ?_, rfl, fun same => ?_⟩
    · simp only [Blocks.malloc, failed]
      rfl
    · have granted := (here fails agree).symm ▸ failed
      simp only [Blocks.malloc, Heap.failing, granted]
      rfl
    · rw [add_comm, Multiset.singleton_add, ← allocated]
      rfl
    · cases same

theorem free : Triple lack {b} (free b) fun _ own => own = 0 := by
  intro frame h allocated _
  have member : b ∈ h.live := by simp [allocated]
  refine ⟨(), h.drop b, 0, ⟨if_pos member, le_refl _, rfl, fun _ _ => if_pos member⟩, ?_, rfl⟩
  change h.live.erase b = _
  rw [allocated, add_comm, Multiset.singleton_add, Multiset.erase_cons_head, add_zero]

theorem freeNullable (pointer : Option Block) :
    Triple lack (held pointer) (freeNullable pointer) fun _ own => own = 0 := by
  cases pointer with
  | none => exact Triple.pure rfl
  | some b => exact Triple.free

/-- The old block is there until there is a new one. -/
theorem realloc (old : Option Block) : Triple lack (held old) (realloc old) fun pointer own =>
    (pointer = none ∧ own = held old ∧ lack) ∨ ∃ new, pointer = some new ∧ own = {new} := by
  refine Triple.malloc.step (zero_add _).symm ?_
  rintro pointer _ ⟨rfl, failed⟩
  cases pointer with
  | none => exact Triple.pure (.inl ⟨rfl, zero_add _, failed rfl⟩)
  | some new =>
    refine (Triple.freeNullable old).step (add_comm _ _) ?_
    rintro _ _ rfl
    exact Triple.pure (.inr ⟨new, rfl, zero_add _⟩)

/-- What is so for every lack is so for that of the allocations that were attempted: had no other one failed, the
run would have been the same. -/
theorem attempted {post : Prop → A → Multiset Block → Prop} (triple : ∀ lack, Triple lack pre prog (post lack))
    {frame : Multiset Block} {h : Heap} (allocated : h.live = frame + pre) :
    ∃ a after own, prog h = some (a, after) ∧ after.live = frame + own ∧ post (h.Refused after) a own := by
  obtain ⟨a, after, _, runs, _, _⟩ := triple True frame h allocated fun _ _ _ => trivial
  let fails : Block → Bool := fun b => h.fails b && decide (b < after.next)
  have agree : ∀ b, h.next ≤ b → b < after.next → fails b = h.fails b := by
    intro b _ high
    simp only [fails, high, decide_true, Bool.and_true]
  have seen : ∀ b, h.next ≤ b → fails b = true → h.Refused after := by
    intro b low failed
    obtain ⟨failed, high⟩ := Bool.and_eq_true_iff.mp failed
    exact ⟨b, low, of_decide_eq_true high, failed⟩
  obtain ⟨a', after', own, runs', left, found⟩ := triple (h.Refused after) frame (h.failing fails) allocated seen
  cases runs'.ran.symm.trans (runs.alike fails agree)
  exact ⟨a, after, own, runs.ran, left, found⟩

/-- What failed does not matter. -/
theorem run (triple : Triple True pre prog post) {frame : Multiset Block} {h : Heap}
    (allocated : h.live = frame + pre) :
    ∃ a after own, prog h = some (a, after) ∧ after.live = frame + own ∧ post a own := by
  obtain ⟨a, after, own, runs, left, found⟩ := triple frame h allocated fun _ _ _ => trivial
  exact ⟨a, after, own, runs.ran, left, found⟩

/-- A program that needs nothing and leaves nothing. -/
theorem balanced {result : Prop → A → Prop} (triple : ∀ lack, Triple lack 0 prog fun a own => own = 0 ∧ result lack a)
    (h : Heap) : ∃ a after, prog h = some (a, after) ∧ after.live = h.live ∧ result (h.Refused after) a := by
  obtain ⟨a, after, _, ran, left, rfl, found⟩ := attempted triple (add_zero h.live).symm
  rw [add_zero] at left
  exact ⟨a, after, ran, left, found⟩

end Triple
end Blocks

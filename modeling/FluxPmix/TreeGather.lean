import FluxPmix.ParentTree
import Mathlib.Algebra.Order.Group.Multiset
import Mathlib.Tactic.Abel

/-! Repeated all-gather on a tree without round numbers. Each node contributes a list per
round, asks its parent once it and all its children have contributed, and passes the root's
list back down. A step moves one contribution by one stage; any interleaving is a run. -/
noncomputable section
namespace TreeGather
open ParentTree Classical

/-- Where a node's current contribution to its parent is. -/
inductive Link (α : Type*) where
  | idle
  | asking (value : List α)
  | queued
  | answered (result : List α)

/-- `given` and `results` list a node's entries and deliveries, round by round. -/
structure State (ι α : Type*) where
  given : ι → List (List α)
  results : ι → List (List α)
  gathered : ι → List α
  link : ι → Link α

variable {ι α : Type*}

namespace State

def initial : State ι α where
  given _ := []
  results _ := []
  gathered _ := []
  link _ := .idle

/-- Entries and deliveries so far. -/
def entries (st : State ι α) (s : ι) : ℕ := (st.given s).length

def rounds (st : State ι α) (s : ι) : ℕ := (st.results s).length

/-- `p` entered its current round and holds every child's contribution to it. -/
def Filled (parent : ι → Option ι) (nodes : Finset ι) (st : State ι α) (p : ι) : Prop :=
  st.entries p = st.rounds p + 1 ∧ ∀ c ∈ children parent nodes p, st.link c = .queued

def enter (st : State ι α) (s : ι) (value : List α) : State ι α :=
  { st with
    given := Function.update st.given s (st.given s ++ [value])
    gathered := Function.update st.gathered s (st.gathered s ++ value) }

def ask (st : State ι α) (c : ι) : State ι α :=
  { st with link := Function.update st.link c (.asking (st.gathered c)) }

def accept (st : State ι α) (c p : ι) (value : List α) : State ι α :=
  { st with
    link := Function.update st.link c .queued
    gathered := Function.update st.gathered p (st.gathered p ++ value) }

/-- `p` delivers `result` and sends it on to its children. -/
def finish (parent : ι → Option ι) (st : State ι α) (p : ι) (result : List α) : State ι α where
  given := st.given
  results := Function.update st.results p (st.results p ++ [result])
  gathered := Function.update st.gathered p []
  link c := if parent c = some p then .answered result else if c = p then .idle else st.link c

end State

inductive Step (parent : ι → Option ι) (root : ι) (nodes : Finset ι) :
    State ι α → State ι α → Prop
  | enter (s : ι) (value : List α) (member : s ∈ nodes) (ready : st.entries s = st.rounds s) :
      Step parent root nodes st (st.enter s value)
  | ask (c p : ι) (member : c ∈ nodes) (up : parent c = some p)
      (filled : st.Filled parent nodes c) (idle : st.link c = .idle) :
      Step parent root nodes st (st.ask c)
  | accept (c p : ι) (value : List α) (member : c ∈ nodes) (up : parent c = some p)
      (asking : st.link c = .asking value) : Step parent root nodes st (st.accept c p value)
  | conclude (filled : st.Filled parent nodes root) :
      Step parent root nodes st (st.finish parent root (st.gathered root))
  | receive (c p : ι) (result : List α) (member : c ∈ nodes) (up : parent c = some p)
      (filled : st.Filled parent nodes c) (answered : st.link c = .answered result) :
      Step parent root nodes st (st.finish parent c result)

/-- What `s` gave to round `n`. -/
def share (st : State ι α) (s : ι) (n : ℕ) : Multiset α := ((st.given s)[n]?.getD [] : List α)

/-- What the nodes below `c` gave to round `n`. -/
def total (parent : ι → Option ι) (nodes : Finset ι) (st : State ι α) (c : ι) (n : ℕ) : Multiset α :=
  ∑ s ∈ subtree parent nodes c, share st s n

/-- Parent and child are in the same round, except while a result is on its way down. -/
def Linked (st : State ι α) (c p : ι) : Link α → Prop
  | .answered result => st.rounds p = st.rounds c + 1 ∧ (st.results p)[st.rounds c]? = some result
  | _ => st.rounds p = st.rounds c

structure Invariant (parent : ι → Option ι) (root : ι) (nodes : Finset ι) (st : State ι α) : Prop where
  entered : ∀ s ∈ nodes, st.entries s = st.rounds s ∨ st.entries s = st.rounds s + 1
  linked : ∀ c ∈ nodes, ∀ p, parent c = some p → Linked st c p (st.link c)
  active : ∀ c ∈ nodes, st.link c ≠ .idle → st.Filled parent nodes c
  root_idle : st.link root = .idle
  reached : ∀ c ∈ nodes, st.link c ≠ .idle → ∀ s ∈ subtree parent nodes c, st.rounds c < st.entries s
  barrier : ∀ s ∈ nodes, st.rounds root ≤ st.entries s
  collected : ∀ p ∈ nodes, (st.gathered p : Multiset α) = share st p (st.rounds p) +
    ∑ c ∈ (children parent nodes p).filter (fun c => st.link c = .queued),
      total parent nodes st c (st.rounds p)
  asked : ∀ c ∈ nodes, ∀ value, st.link c = .asking value →
    (value : Multiset α) = total parent nodes st c (st.rounds c)
  agreed : ∀ s ∈ nodes, st.results s <+: st.results root
  content : ∀ (n : ℕ) (result : List α), (st.results root)[n]? = some result →
    (result : Multiset α) = total parent nodes st root n

theorem initial_invariant (parent : ι → Option ι) (root : ι) (nodes : Finset ι) :
    Invariant parent root nodes (State.initial : State ι α) := by
  refine ⟨fun _ _ => .inl rfl, fun _ _ _ _ => rfl, ?_, rfl, ?_, fun _ _ => le_rfl, ?_, ?_,
    fun _ _ => List.prefix_rfl, ?_⟩
  · intro c _ busy
    exact absurd rfl busy
  · intro c _ busy
    exact absurd rfl busy
  · intro p _
    simp [State.initial, share]
  · intro c _ value asking
    cases asking
  · intro n result found
    simp [State.initial] at found

variable {parent : ι → Option ι} {depth : ι → ℕ} {root : ι} {nodes : Finset ι} {st : State ι α}

/-! ### Entering

A new entry changes no earlier round's shares. -/

theorem entries_enter_self (s : ι) (value : List α) :
    (st.enter s value).entries s = st.entries s + 1 := by
  simp [State.entries, State.enter]

theorem entries_enter_ne (different : t ≠ s) (value : List α) :
    (st.enter s value).entries t = st.entries t := by
  simp [State.entries, State.enter, different]

theorem entries_le_enter (s t : ι) (value : List α) :
    st.entries t ≤ (st.enter s value).entries t := by
  by_cases same : t = s
  · subst same
    rw [entries_enter_self]
    omega
  · rw [entries_enter_ne same]

theorem share_enter_of_lt (earlier : n < st.entries t) (s : ι) (value : List α) :
    share (st.enter s value) t n = share st t n := by
  by_cases same : t = s
  · subst same
    simp only [share, State.enter, Function.update_self]
    rw [List.getElem?_append_left earlier]
  · simp [share, State.enter, same]

theorem share_enter_self (s : ι) (value : List α) :
    share (st.enter s value) s (st.entries s) = (value : Multiset α) := by
  simp [share, State.enter, State.entries]

theorem share_late (late : st.entries s ≤ n) : share st s n = 0 := by
  have absent : (st.given s)[n]? = none := List.getElem?_eq_none late
  simp [share, absent]

theorem total_enter (reached : ∀ s ∈ subtree parent nodes c, n < st.entries s) (t : ι)
    (value : List α) : total parent nodes (st.enter t value) c n = total parent nodes st c n :=
  Finset.sum_congr rfl (fun s member => share_enter_of_lt (reached s member) t value)

theorem Invariant.filled_idle (inv : Invariant parent root nodes st) (member : s ∈ nodes)
    (ready : st.entries s = st.rounds s) : st.link s = .idle := by
  by_contra busy
  have := (inv.active s member busy).1
  omega

/-- A queued child is in its parent's round. -/
theorem Invariant.queued_rounds (inv : Invariant parent root nodes st)
    (child : c ∈ children parent nodes p) (queued : st.link c = .queued) :
    st.rounds p = st.rounds c := by
  have linked := inv.linked c (mem_children.mp child).1 p (mem_children.mp child).2
  simpa only [Linked, queued] using linked

theorem Invariant.queued_reached (inv : Invariant parent root nodes st)
    (child : c ∈ children parent nodes p) (queued : st.link c = .queued) :
    ∀ s ∈ subtree parent nodes c, st.rounds p < st.entries s := by
  rw [inv.queued_rounds child queued]
  exact inv.reached c (mem_children.mp child).1 (by simp [queued])

theorem Invariant.enter (inv : Invariant parent root nodes st) (member : s ∈ nodes)
    (ready : st.entries s = st.rounds s) (value : List α) :
    Invariant parent root nodes (st.enter s value) where
  entered t inside := by
    by_cases same : t = s
    · subst same
      exact .inr (by rw [entries_enter_self, ready]; rfl)
    · rw [entries_enter_ne same]
      exact inv.entered t inside
  linked c inside p up := inv.linked c inside p up
  active c inside busy := by
    obtain ⟨entered, queued⟩ := inv.active c inside busy
    have other : c ≠ s := by
      rintro rfl
      exact busy (inv.filled_idle member ready)
    exact ⟨by rw [entries_enter_ne other]; exact entered, queued⟩
  root_idle := inv.root_idle
  reached c inside busy t below :=
    (inv.reached c inside busy t below).trans_le (entries_le_enter s t value)
  barrier t inside := (inv.barrier t inside).trans (entries_le_enter s t value)
  collected p inside := by
    have totals : ∀ c ∈ (children parent nodes p).filter (fun c => st.link c = .queued),
        total parent nodes (st.enter s value) c (st.rounds p) = total parent nodes st c (st.rounds p) := by
      intro c chosen
      obtain ⟨child, queued⟩ := Finset.mem_filter.mp chosen
      exact total_enter (inv.queued_reached child queued) s value
    have before := inv.collected p inside
    change _ = share (st.enter s value) p (st.rounds p) +
      ∑ c ∈ (children parent nodes p).filter (fun c => st.link c = .queued),
        total parent nodes (st.enter s value) c (st.rounds p)
    rw [Finset.sum_congr rfl totals]
    by_cases same : p = s
    · subst same
      have gathered : (st.enter p value).gathered p = st.gathered p ++ value := by simp [State.enter]
      have own : share (st.enter p value) p (st.entries p) = (value : Multiset α) := share_enter_self p value
      rw [ready] at own
      rw [share_late ready.le, zero_add] at before
      rw [gathered, own, ← before, ← Multiset.coe_add, add_comm]
    · have gathered : (st.enter s value).gathered p = st.gathered p := by simp [State.enter, same]
      have given : (st.enter s value).given p = st.given p := by simp [State.enter, same]
      rw [gathered, share, given, before, share]
  asked c inside given asking := by
    rw [inv.asked c inside given asking]
    exact (total_enter (inv.reached c inside (by rw [show st.link c = _ from asking]; simp)) s value).symm
  agreed t inside := inv.agreed t inside
  content n result found := by
    rw [inv.content n result found]
    refine (total_enter (fun t below => ?_) s value).symm
    have early : n < st.rounds root := (List.getElem?_eq_some_iff.mp found).1
    exact early.trans_le (inv.barrier t (mem_subtree.mp below).1)

/-! ### Asking and accepting -/

theorem total_split (tree : Tree parent depth root nodes) (member : p ∈ nodes) (n : ℕ) :
    total parent nodes st p n =
      share st p n + ∑ c ∈ children parent nodes p, total parent nodes st c n :=
  tree.sum_subtree member (fun s => share st s n)

/-- A node that has everything holds the total of its subtree. -/
theorem Invariant.gathered_total (inv : Invariant parent root nodes st)
    (tree : Tree parent depth root nodes) (member : p ∈ nodes) (filled : st.Filled parent nodes p) :
    (st.gathered p : Multiset α) = total parent nodes st p (st.rounds p) := by
  rw [inv.collected p member, total_split tree member, Finset.filter_true_of_mem filled.2]

/-- A filled node's whole subtree has entered its round. -/
theorem Invariant.filled_reached (inv : Invariant parent root nodes st)
    (tree : Tree parent depth root nodes) (member : p ∈ nodes) (filled : st.Filled parent nodes p) :
    ∀ s ∈ subtree parent nodes p, st.rounds p < st.entries s := by
  intro s below
  rcases (tree.mem_subtree_iff member).mp below with rfl | ⟨c, child, inside⟩
  · have := filled.1
    omega
  · exact inv.queued_reached child (filled.2 c child) s inside

theorem link_ask_self (c : ι) : (st.ask c).link c = .asking (st.gathered c) := by
  simp [State.ask]

theorem link_ask_ne (different : d ≠ c) : (st.ask c).link d = st.link d := by
  simp [State.ask, different]

/-- Asking takes nothing in or out of a queue. -/
theorem link_ask_queued (idle : st.link c = .idle) (d : ι) :
    (st.ask c).link d = .queued ↔ st.link d = .queued := by
  by_cases same : d = c
  · subst same
    simp [link_ask_self, idle]
  · rw [link_ask_ne same]

/-- A step that moves one node's link, and no round, leaves the others where their parents are. -/
theorem Invariant.relinked (inv : Invariant parent root nodes st) {st' : State ι α}
    (rounds : st'.rounds = st.rounds) (results : st'.results = st.results)
    (others : ∀ d, d ≠ c → st'.link d = st.link d)
    (self : ∀ q, parent c = some q → Linked st' c q (st'.link c)) :
    ∀ d ∈ nodes, ∀ q, parent d = some q → Linked st' d q (st'.link d) := by
  intro d inside q above
  by_cases same : d = c
  · subst same
    exact self q above
  · have before := inv.linked d inside q above
    rw [others d same]
    cases link : st.link d <;> rw [link] at before <;> simpa only [Linked, rounds, results] using before

theorem Invariant.ask (inv : Invariant parent root nodes st) (tree : Tree parent depth root nodes)
    (member : c ∈ nodes) (up : parent c = some p) (filled : st.Filled parent nodes c)
    (idle : st.link c = .idle) : Invariant parent root nodes (st.ask c) := by
  have filled_iff (d : ι) : (st.ask c).Filled parent nodes d ↔ st.Filled parent nodes d :=
    and_congr Iff.rfl (forall₂_congr (fun e _ => link_ask_queued idle e))
  refine ⟨inv.entered, ?_, ?_, ?_, ?_, inv.barrier, ?_, ?_, inv.agreed, inv.content⟩
  · refine inv.relinked rfl rfl (fun d => link_ask_ne) fun q above => ?_
    have before := inv.linked c member q above
    rw [idle] at before
    rw [link_ask_self]
    exact before
  · intro d inside busy
    rw [filled_iff]
    by_cases same : d = c
    · subst same
      exact filled
    · rw [link_ask_ne same] at busy
      exact inv.active d inside busy
  · rw [link_ask_ne (tree.ne_root member up).symm]
    exact inv.root_idle
  · intro d inside busy
    by_cases same : d = c
    · subst same
      exact inv.filled_reached tree member filled
    · rw [link_ask_ne same] at busy
      exact inv.reached d inside busy
  · intro q inside
    have same : (children parent nodes q).filter (fun d => (st.ask c).link d = .queued) =
        (children parent nodes q).filter (fun d => st.link d = .queued) :=
      Finset.filter_congr (fun d _ => link_ask_queued idle d)
    rw [same]
    exact inv.collected q inside
  · intro d inside value asking
    by_cases same : d = c
    · subst same
      rw [link_ask_self] at asking
      cases asking
      exact inv.gathered_total tree member filled
    · rw [link_ask_ne same] at asking
      exact inv.asked d inside value asking

theorem link_accept_self (c p : ι) (value : List α) : (st.accept c p value).link c = .queued := by
  simp [State.accept]

theorem link_accept_ne (different : d ≠ c) (p : ι) (value : List α) :
    (st.accept c p value).link d = st.link d := by
  simp [State.accept, different]

theorem Invariant.accept (inv : Invariant parent root nodes st) (tree : Tree parent depth root nodes)
    (member : c ∈ nodes) (up : parent c = some p) (asking : st.link c = .asking value) :
    Invariant parent root nodes (st.accept c p value) := by
  have sameRound : st.rounds p = st.rounds c := by
    simpa only [Linked, asking] using inv.linked c member p up
  refine ⟨inv.entered, ?_, ?_, ?_, ?_, inv.barrier, ?_, ?_, inv.agreed, inv.content⟩
  · refine inv.relinked rfl rfl (fun d different => link_accept_ne different p value) fun q above => ?_
    have before := inv.linked c member q above
    rw [asking] at before
    rw [link_accept_self]
    exact before
  · intro d inside busy
    have before : st.link d ≠ .idle := by
      by_cases same : d = c
      · subst same
        simp [asking]
      · rwa [link_accept_ne same] at busy
    obtain ⟨entered, queued⟩ := inv.active d inside before
    refine ⟨entered, fun e child => ?_⟩
    by_cases same : e = c
    · subst same
      exact link_accept_self e p value
    · rw [link_accept_ne same]
      exact queued e child
  · rw [link_accept_ne (tree.ne_root member up).symm]
    exact inv.root_idle
  · intro d inside busy
    have before : st.link d ≠ .idle := by
      by_cases same : d = c
      · subst same
        simp [asking]
      · rwa [link_accept_ne same] at busy
    exact inv.reached d inside before
  · intro q inside
    change _ = share st q (st.rounds q) + ∑ d ∈ (children parent nodes q).filter
      (fun d => (st.accept c p value).link d = .queued), total parent nodes st d (st.rounds q)
    by_cases same : q = p
    · subst same
      have chosen : (children parent nodes q).filter (fun d => (st.accept c q value).link d = .queued) =
          insert c ((children parent nodes q).filter (fun d => st.link d = .queued)) := by
        ext d
        by_cases self : d = c
        · subst self
          simp [link_accept_self, mem_children, member, up]
        · simp [link_accept_ne self, self]
      have fresh : c ∉ (children parent nodes q).filter (fun d => st.link d = .queued) := by
        simp [asking]
      have gathered : (st.accept c q value).gathered q = st.gathered q ++ value := by
        simp [State.accept]
      rw [chosen, Finset.sum_insert fresh, gathered, ← Multiset.coe_add, inv.collected q inside,
        inv.asked c member value asking, sameRound]
      abel
    · have chosen : (children parent nodes q).filter (fun d => (st.accept c p value).link d = .queued) =
          (children parent nodes q).filter (fun d => st.link d = .queued) := by
        refine Finset.filter_congr (fun d child => ?_)
        have other : d ≠ c := by
          rintro rfl
          exact same (Option.some.inj ((mem_children.mp child).2.symm.trans up))
        rw [link_accept_ne other]
      have gathered : (st.accept c p value).gathered q = st.gathered q := by
        simp [State.accept, same]
      rw [chosen, gathered, inv.collected q inside]
  · intro d inside given asks
    by_cases same : d = c
    · subst same
      rw [link_accept_self] at asks
      cases asks
    · rw [link_accept_ne same] at asks
      exact inv.asked d inside given asks

/-! ### Finishing a round -/

theorem link_finish_child (child : parent c = some p) (result : List α) :
    (st.finish parent p result).link c = .answered result := by
  simp [State.finish, child]

theorem link_finish_self (tree : Tree parent depth root nodes) (p : ι) (result : List α) :
    (st.finish parent p result).link p = .idle := by
  have other : parent p ≠ some p := by
    intro up
    have := tree.descends up
    omega
  simp [State.finish, other]

theorem link_finish_ne (notChild : parent c ≠ some p) (different : c ≠ p) (result : List α) :
    (st.finish parent p result).link c = st.link c := by
  simp [State.finish, notChild, different]

theorem rounds_finish_self (p : ι) (result : List α) : (st.finish parent p result).rounds p = st.rounds p + 1 := by
  simp [State.rounds, State.finish]

theorem rounds_finish_ne (different : s ≠ p) (result : List α) :
    (st.finish parent p result).rounds s = st.rounds s := by
  simp [State.rounds, State.finish, different]

theorem results_finish_self (p : ι) (result : List α) :
    (st.finish parent p result).results p = st.results p ++ [result] := by
  simp [State.finish]

theorem results_finish_ne (different : s ≠ p) (result : List α) :
    (st.finish parent p result).results s = st.results s := by
  simp [State.finish, different]

theorem prefix_snoc {taken all : List (List α)} (starts : taken <+: all)
    (next : all[taken.length]? = some x) : taken ++ [x] <+: all := by
  obtain ⟨rest, rfl⟩ := starts
  cases rest with
  | nil => simp at next
  | cons y rest =>
    obtain rfl : y = x := by simpa using next
    exact ⟨rest, by simp⟩

/-- The two steps that finish a round have in common that the node is filled, that its own
link is not queued, and that the result extends the root's list of results. -/
structure Finishing (parent : ι → Option ι) (root : ι) (nodes : Finset ι) (st : State ι α) (p : ι)
    (result : List α) : Prop where
  member : p ∈ nodes
  filled : st.Filled parent nodes p
  unqueued : st.link p ≠ .queued
  upward : ∀ q, parent p = some q → st.link p = .answered result
  own : p = root → result = st.gathered root

section Finishing

variable {p q c s : ι} {result value : List α}

variable (inv : Invariant parent root nodes st) (tree : Tree parent depth root nodes)
  (finishing : Finishing parent root nodes st p result)

include finishing in
/-- Who is busy afterwards was busy before, and is not the node that finished. -/
theorem Finishing.busy (tree : Tree parent depth root nodes) (inside : c ∈ nodes)
    (busy : (st.finish parent p result).link c ≠ .idle) : c ≠ p ∧ st.link c ≠ .idle := by
  have other : c ≠ p := by
    rintro rfl
    exact busy (link_finish_self tree c result)
  refine ⟨other, ?_⟩
  by_cases child : parent c = some p
  · rw [finishing.filled.2 c (mem_children.mpr ⟨inside, child⟩)]
    exact nofun
  · rwa [link_finish_ne child other] at busy

include finishing in
/-- The queues of other nodes stay as they were. -/
theorem Finishing.queued_iff (tree : Tree parent depth root nodes) (c : ι) :
    (st.finish parent p result).link c = .queued ↔ parent c ≠ some p ∧ st.link c = .queued := by
  by_cases child : parent c = some p
  · simp [link_finish_child child, child]
  · by_cases same : c = p
    · subst same
      simp [link_finish_self tree, finishing.unqueued]
    · simp [link_finish_ne child same, child]

include inv tree finishing

theorem Invariant.finish_linked (inside : c ∈ nodes) (up : parent c = some q) :
    Linked (st.finish parent p result) c q ((st.finish parent p result).link c) := by
  by_cases child : q = p
  · subst child
    have other : c ≠ q := by
      rintro rfl
      exact absurd (tree.descends up) (lt_irrefl _)
    have member := mem_children.mpr ⟨inside, up⟩
    have level := inv.queued_rounds member (finishing.filled.2 c member)
    rw [link_finish_child up]
    constructor
    · rw [rounds_finish_self, rounds_finish_ne other, level]
    · rw [rounds_finish_ne other, results_finish_self, ← level]
      simp [State.rounds]
  · have notChild : parent c ≠ some p := by
      rw [up]
      exact fun same => child (Option.some.inj same)
    have before := inv.linked c inside q up
    by_cases same : c = p
    · subst same
      rw [finishing.upward q up] at before
      rw [link_finish_self tree]
      change (st.finish parent c result).rounds q = (st.finish parent c result).rounds c
      rw [rounds_finish_self, rounds_finish_ne child]
      exact before.1
    · rw [link_finish_ne notChild same]
      cases link : st.link c with
      | answered given =>
        rw [link] at before
        constructor
        · rw [rounds_finish_ne child, rounds_finish_ne same]
          exact before.1
        · rw [results_finish_ne child, rounds_finish_ne same]
          exact before.2
      | idle | asking | queued =>
        rw [link] at before
        simp only [Linked] at before ⊢
        rw [rounds_finish_ne child, rounds_finish_ne same]
        exact before

theorem Invariant.finish_active (inside : c ∈ nodes)
    (busy : (st.finish parent p result).link c ≠ .idle) :
    (st.finish parent p result).Filled parent nodes c := by
  obtain ⟨other, before⟩ := finishing.busy tree inside busy
  obtain ⟨entered, queued⟩ := inv.active c inside before
  constructor
  · rw [rounds_finish_ne other]
    exact entered
  · intro e grandchild
    apply (finishing.queued_iff tree e).mpr
    refine ⟨?_, queued e grandchild⟩
    rw [(mem_children.mp grandchild).2]
    exact fun same => other (Option.some.inj same)

theorem Invariant.finish_barrier (inside : s ∈ nodes) :
    (st.finish parent p result).rounds root ≤ (st.finish parent p result).entries s := by
  by_cases same : root = p
  · subst same
    rw [rounds_finish_self]
    apply inv.filled_reached tree finishing.member finishing.filled s
    rw [tree.subtree_root]
    exact inside
  · rw [rounds_finish_ne same]
    exact inv.barrier s inside

theorem Invariant.finish_collected (inside : q ∈ nodes) :
    ((st.finish parent p result).gathered q : Multiset α) =
      share (st.finish parent p result) q ((st.finish parent p result).rounds q) +
      ∑ c ∈ (children parent nodes q).filter (fun c => (st.finish parent p result).link c = .queued),
        total parent nodes (st.finish parent p result) c ((st.finish parent p result).rounds q) := by
  by_cases same : q = p
  · subst same
    have late : share (st.finish parent q result) q ((st.finish parent q result).rounds q) = 0 := by
      have entered : (st.finish parent q result).entries q = st.rounds q + 1 := finishing.filled.1
      rw [rounds_finish_self]
      exact share_late entered.le
    have answered : (children parent nodes q).filter
        (fun c => (st.finish parent q result).link c = .queued) = ∅ := by
      apply Finset.filter_false_of_mem
      intro c child queued
      exact ((finishing.queued_iff tree c).mp queued).1 (mem_children.mp child).2
    have emptied : (st.finish parent q result).gathered q = [] := by simp [State.finish]
    rw [late, answered, emptied]
    rfl
  · have kept : (st.finish parent p result).gathered q = st.gathered q := by
      simp [State.finish, same]
    have chosen : (children parent nodes q).filter
        (fun c => (st.finish parent p result).link c = .queued) =
        (children parent nodes q).filter (fun c => st.link c = .queued) := by
      apply Finset.filter_congr
      intro c child
      have notChild : parent c ≠ some p := by
        rw [(mem_children.mp child).2]
        exact fun alike => same (Option.some.inj alike)
      simp [finishing.queued_iff tree c, notChild]
    rw [kept, chosen, rounds_finish_ne same]
    exact inv.collected q inside

theorem Invariant.finish_asked (inside : c ∈ nodes)
    (asking : (st.finish parent p result).link c = .asking value) :
    (value : Multiset α) = total parent nodes (st.finish parent p result) c
      ((st.finish parent p result).rounds c) := by
  by_cases child : parent c = some p
  · rw [link_finish_child child] at asking
    cases asking
  · have other := (finishing.busy tree inside (by simp [asking])).1
    rw [link_finish_ne child other] at asking
    rw [rounds_finish_ne other]
    exact inv.asked c inside value asking

/-- A result from the parent is the next one of the root's list. -/
theorem Invariant.finish_next (other : root ≠ p) : (st.results root)[st.rounds p]? = some result := by
  obtain ⟨q, up⟩ : ∃ q, parent p = some q := by
    apply Option.ne_none_iff_exists'.mp
    intro orphan
    exact other ((tree.orphan finishing.member).mp orphan).symm
  have linked := inv.linked p finishing.member q up
  rw [finishing.upward q up] at linked
  obtain ⟨_, next⟩ := linked
  obtain ⟨rest, above⟩ := inv.agreed q (tree.parent_mem finishing.member up)
  rw [← above, List.getElem?_append_left (List.getElem?_eq_some_iff.mp next).1]
  exact next

theorem Invariant.finish_agreed (inside : s ∈ nodes) :
    (st.finish parent p result).results s <+: (st.finish parent p result).results root := by
  have before := inv.agreed s inside
  by_cases atRoot : root = p
  · subst atRoot
    rw [results_finish_self]
    by_cases same : s = root
    · subst same
      rw [results_finish_self]
    · rw [results_finish_ne same]
      exact before.trans (List.prefix_append _ _)
  · rw [results_finish_ne atRoot]
    by_cases same : s = p
    · subst same
      rw [results_finish_self]
      exact prefix_snoc before (inv.finish_next tree finishing atRoot)
    · rw [results_finish_ne same]
      exact before

theorem Invariant.finish_content (n : ℕ) (given : List α)
    (found : ((st.finish parent p result).results root)[n]? = some given) :
    (given : Multiset α) = total parent nodes (st.finish parent p result) root n := by
  by_cases same : root = p
  · subst same
    rw [results_finish_self] at found
    rcases Nat.lt_trichotomy n (st.results root).length with earlier | now | later
    · rw [List.getElem?_append_left earlier] at found
      exact inv.content n given found
    · subst now
      obtain rfl : result = given := by simpa using found
      rw [finishing.own rfl]
      exact inv.gathered_total tree finishing.member finishing.filled
    · rw [List.getElem?_eq_none (by simp; omega)] at found
      cases found
  · rw [results_finish_ne same] at found
    exact inv.content n given found

theorem Invariant.finish : Invariant parent root nodes (st.finish parent p result) := by
  constructor
  · intro s inside
    by_cases same : s = p
    · subst same
      rw [rounds_finish_self]
      exact .inl finishing.filled.1
    · rw [rounds_finish_ne same]
      exact inv.entered s inside
  · intro c inside q up
    exact inv.finish_linked tree finishing inside up
  · intro c inside busy
    exact inv.finish_active tree finishing inside busy
  · by_contra busy
    exact (finishing.busy tree tree.root_mem busy).2 inv.root_idle
  · intro c inside busy s below
    obtain ⟨other, before⟩ := finishing.busy tree inside busy
    rw [rounds_finish_ne other]
    exact inv.reached c inside before s below
  · intro s inside
    exact inv.finish_barrier tree finishing inside
  · intro q inside
    exact inv.finish_collected tree finishing inside
  · intro c inside value asking
    exact inv.finish_asked tree finishing inside asking
  · intro s inside
    exact inv.finish_agreed tree finishing inside
  · exact inv.finish_content tree finishing

end Finishing

theorem Invariant.finishing_root (inv : Invariant parent root nodes st)
    (tree : Tree parent depth root nodes) (filled : st.Filled parent nodes root) :
    Finishing parent root nodes st root (st.gathered root) := by
  refine ⟨tree.root_mem, filled, ?_, ?_, fun _ => rfl⟩
  · rw [inv.root_idle]
    exact nofun
  · intro q up
    exact absurd rfl (tree.ne_root tree.root_mem up)

theorem finishing_answered (tree : Tree parent depth root nodes) (member : c ∈ nodes)
    (up : parent c = some p) (filled : st.Filled parent nodes c)
    (answered : st.link c = .answered result) : Finishing parent root nodes st c result := by
  refine ⟨member, filled, ?_, fun _ _ => answered, ?_⟩
  · rw [answered]
    exact nofun
  · exact fun root => absurd root (tree.ne_root member up)

theorem Step.invariant (step : Step parent root nodes st st') (tree : Tree parent depth root nodes)
    (inv : Invariant parent root nodes st) : Invariant parent root nodes st' := by
  cases step with
  | enter s value member ready => exact inv.enter member ready value
  | ask c p member up filled idle => exact inv.ask tree member up filled idle
  | accept c p value member up asking => exact inv.accept tree member up asking
  | conclude filled => exact inv.finish tree (inv.finishing_root tree filled)
  | receive c p result member up filled answered =>
    exact inv.finish tree (finishing_answered tree member up filled answered)

/-! ### What the invariant says about rounds -/

/-- A result is delivered only in a round that every node has entered. -/
theorem Invariant.finish_entered (inv : Invariant parent root nodes st)
    (tree : Tree parent depth root nodes) (finishing : Finishing parent root nodes st p result) :
    ∀ s ∈ nodes, st.rounds p < st.entries s := by
  intro s inside
  have after := inv.finish tree finishing
  have barrier := after.barrier s inside
  have prefixes := (after.agreed p finishing.member).length_le
  have counted : (st.finish parent p result).rounds p ≤ (st.finish parent p result).rounds root := prefixes
  rw [rounds_finish_self] at counted
  have same : (st.finish parent p result).entries s = st.entries s := rfl
  omega

theorem Invariant.result_content (inv : Invariant parent root nodes st)
    (tree : Tree parent depth root nodes) (member : s ∈ nodes) {n : ℕ} {result : List α}
    (found : (st.results s)[n]? = some result) :
    (result : Multiset α) = ∑ t ∈ nodes, share st t n := by
  obtain ⟨rest, extended⟩ := inv.agreed s member
  have atRoot : (st.results root)[n]? = some result := by
    rw [← extended, List.getElem?_append_left (List.getElem?_eq_some_iff.mp found).1]
    exact found
  rw [inv.content n result atRoot, total, tree.subtree_root]

theorem Invariant.results_agree (inv : Invariant parent root nodes st) (first : s ∈ nodes)
    (second : t ∈ nodes) {n : ℕ} {x y : List α} (left : (st.results s)[n]? = some x)
    (right : (st.results t)[n]? = some y) : x = y := by
  have atRoot : ∀ u ∈ nodes, ∀ z, (st.results u)[n]? = some z → (st.results root)[n]? = some z := by
    intro u member z found
    obtain ⟨rest, extended⟩ := inv.agreed u member
    rw [← extended, List.getElem?_append_left (List.getElem?_eq_some_iff.mp found).1]
    exact found
  exact Option.some.inj ((atRoot s first x left).symm.trans (atRoot t second y right))

/-- When nothing is on its way and every filled node has asked, nodes that have entered equally
often have all finished. -/
theorem Invariant.quiescent (inv : Invariant parent root nodes st)
    (tree : Tree parent depth root nodes) (settled : ∀ s ∈ nodes, st.Filled parent nodes s → st.link s ≠ .idle)
    (quiet : ∀ c ∈ nodes, st.link c = .idle ∨ st.link c = .queued)
    (level : ∀ s ∈ nodes, st.entries s = n) : ∀ s ∈ nodes, st.rounds s = n ∧ st.link s = .idle := by
  have same : ∀ s ∈ nodes, st.rounds s = st.rounds root := by
    refine tree.root_induction rfl ?_
    intro c inside p up above
    have linked := inv.linked c inside p up
    rcases quiet c inside with idle | queued
    · rw [idle] at linked
      exact linked.symm.trans above
    · rw [queued] at linked
      exact linked.symm.trans above
  -- otherwise every node has entered, so from the leaves up every node has asked
  have finished : st.rounds root = n := by
    by_contra unfinished
    have entered : ∀ s ∈ nodes, st.entries s = st.rounds s + 1 := by
      intro s inside
      have := inv.entered s inside
      have := level s inside
      have := same s inside
      omega
    have busy : ∀ s ∈ nodes, st.link s ≠ .idle := by
      refine tree.leaf_induction ?_
      intro p inside children_busy
      refine settled p inside ⟨entered p inside, fun c child => ?_⟩
      exact (quiet c (mem_children.mp child).1).resolve_left (children_busy c child)
    exact busy root tree.root_mem inv.root_idle
  intro s inside
  refine ⟨(same s inside).trans finished, ?_⟩
  by_contra busy
  have := (inv.active s inside busy).1
  have := level s inside
  have := same s inside
  omega

end TreeGather
end

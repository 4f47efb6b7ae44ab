import FluxPmix.Exchange.Agreement

/-! Rounds of a failure-free job. The `n`th exit at every shell comes after every shell's `n`th
entry and has the array of exactly what was given there, and once all shells have entered
equally often the job does not come to rest before all of them have finished. -/
noncomputable section
namespace FluxPmix
open Mealy ParentTree TreeGather

/-- What the shells gave to their `n`th accepted entries. -/
def roundData (size n : Nat) (trace : List (Nat × Effect Unit)) : Multiset Json :=
  ∑ s ∈ Finset.range size, ((entriesOf s trace)[n]?.elim [] Option.toList : List Json)

/-- The `n`th exit callback of a shell runs after every shell's `n`th entry, finds no error, and
gets what was given there, each item once. -/
def Agreed (size : Nat) (before : List (Nat × Effect Unit)) (m : Nat × Effect Unit) : Prop :=
  ∀ ses, m.2.exited = some ses →
    (∀ s < size, (exitsOf m.1 before).length < (entriesOf s before).length) ∧
    ses.hasError = false ∧
    ∃ items, ses.dataOut = some (.array items) ∧
      (items : Multiset Json) = roundData size (exitsOf m.1 before).length before

variable {size r s n : Nat} {trace before after : List (Nat × Effect Unit)} {net : Net}
  {st : State Nat Json}

/-- A shell's exit at a position of the trace has the index its earlier exits leave it. -/
theorem exitsOf_at (exits : e.exited = some ses) :
    (exitsOf r (before ++ (r, e) :: after))[(exitsOf r before).length]? = some ses := by
  have here : exitsOf r ((r, e) :: after) = ses :: exitsOf r after := by
    rw [exitsOf, List.filterMap_cons_some (by simpa using exits)]
    rfl
  have split : exitsOf r (before ++ (r, e) :: after) = exitsOf r before ++ exitsOf r ((r, e) :: after) :=
    List.filterMap_append
  rw [split, here, List.getElem?_append_right le_rfl, Nat.sub_self]
  rfl

theorem entriesOf_early (given : n < (entriesOf s before).length) (after : List (Nat × Effect Unit)) :
    (entriesOf s (before ++ after))[n]? = (entriesOf s before)[n]? := by
  have split : entriesOf s (before ++ after) = entriesOf s before ++ entriesOf s after :=
    List.filterMap_append
  rw [split, List.getElem?_append_left given]

/-- Each exit delivered the gather's result of that round. -/
theorem Sim.result (sim : Sim size trace net st) (exits : (exitsOf r trace)[n]? = some ses) :
    ∃ items, (st.results r)[n]? = some items ∧ Delivered ses items := by
  have related := sim.results r
  obtain ⟨within, found⟩ := List.getElem?_eq_some_iff.mp exits
  have same := related.length_eq
  have bound : n < (st.results r).length := by omega
  refine ⟨(st.results r)[n], List.getElem?_eq_getElem bound, ?_⟩
  have delivered := related.get within bound
  rw [List.get_eq_getElem, List.get_eq_getElem, found] at delivered
  exact delivered

theorem Sim.share (sim : Sim size trace net st) (s n : Nat) :
    TreeGather.share st s n = ((entriesOf s trace)[n]?.elim [] Option.toList : List Json) := by
  rw [TreeGather.share, sim.given s, List.getElem?_map]
  cases (entriesOf s trace)[n]? <;> rfl

theorem Agreeing.rank_inside (agreeing : Agreeing size trace net)
    (exits : (exitsOf r trace)[n]? = some ses) : r < size := by
  obtain ⟨m, member, exited⟩ := List.mem_filterMap.mp (List.mem_of_getElem? exits)
  simp only [Option.ite_none_right_eq_some] at exited
  obtain ⟨rfl, _⟩ := exited
  exact agreeing.inside m member

theorem Agreeing.agreed (agreeing : Agreeing size trace net) : Whenever (Agreed size) trace := by
  intro before m after split ses exits
  obtain ⟨r, e⟩ := m
  have found : (exitsOf r trace)[(exitsOf r before).length]? = some ses := by
    rw [split]
    exact exitsOf_at exits
  have inside := agreeing.rank_inside found
  have entered := agreeing.barrier before (r, e) after split (by simp [exits])
  obtain ⟨st, steps, sim⟩ := agreeing.simulated
  obtain ⟨items, result, clean, output⟩ := sim.result found
  have inv := steps.invariant (Nat.zero_lt_of_lt inside)
  have content := inv.result_content (shell_tree (Nat.zero_lt_of_lt inside))
    (Finset.mem_range.mpr inside) result
  refine ⟨entered, clean, items, output, ?_⟩
  rw [content, roundData]
  apply Finset.sum_congr rfl
  intro s member
  have early := entriesOf_early (entered s (Finset.mem_range.mp member)) ((r, e) :: after)
  rw [sim.share, split, early]

theorem Agreeing.outputs (agreeing : Agreeing size trace net)
    (first : (exitsOf r trace)[n]? = some ses) (second : (exitsOf s trace)[n]? = some ses') :
    ses.dataOut = ses'.dataOut := by
  have inside := agreeing.rank_inside first
  have inside' := agreeing.rank_inside second
  obtain ⟨st, steps, sim⟩ := agreeing.simulated
  obtain ⟨items, result, _, output⟩ := sim.result first
  obtain ⟨items', result', _, output'⟩ := sim.result second
  have inv := steps.invariant (Nat.zero_lt_of_lt inside)
  have same := inv.results_agree (Finset.mem_range.mpr inside) (Finset.mem_range.mpr inside') result result'
  rw [output, output', same]

/-- In every failure-free run of a job of any size, whenever an exit callback runs, every shell
has entered that round, the callback has exactly that round's data, and it is the same array
at every shell. -/
theorem exchange_agreement (size : Nat) (small : size < 2 ^ 31) (actions : List Action) :
    Whenever (Agreed size) (exec (Net.next size) Net.initial (healthy actions)).2 ∧
    ∀ (r s n : Nat) (ses ses' : Session Unit),
      (exitsOf r (exec (Net.next size) Net.initial (healthy actions)).2)[n]? = some ses →
      (exitsOf s (exec (Net.next size) Net.initial (healthy actions)).2)[n]? = some ses' →
      ses.dataOut = ses'.dataOut := by
  have agreeing := exec_agreeing small actions
  constructor
  · exact agreeing.agreed
  · intro r s n ses ses' first second
    exact agreeing.outputs first second

/-- Two shells, one round: the child gives a string, the root nothing. -/
def onePair : List Action :=
  [.enter 0 none, .enter 1 (some (.string [65])), .deliverRequest 0, .deliverResponse 0, .dispatch 1 0]

theorem exchange_agreement_sample : ∃ first second,
    (exitsOf 0 (exec (Net.next 2) Net.initial (healthy onePair)).2)[0]? = some first ∧
    (exitsOf 1 (exec (Net.next 2) Net.initial (healthy onePair)).2)[0]? = some second ∧
    first.dataOut = second.dataOut ∧ second.dataOut = some (.array [.string [65]]) :=
  ⟨_, _, rfl, rfl, (exchange_agreement 2 (by decide) onePair).2 0 1 0 _ _ rfl rfl, rfl⟩

/-! ### Coming to rest -/

/-- No message is on its way and no completion is due. -/
def Net.Quiet (net : Net) : Prop :=
  net.requests = [] ∧ net.responses = [] ∧ ∀ r tag, (net.shells r).ready tag = none

/-- A shell that holds everything for its round has asked its parent. -/
theorem Agreeing.settled (agreeing : Agreeing size trace net) (small : size < 2 ^ 31)
    (sim : Sim size trace net st) (inside : s < size)
    (filled : st.Filled shellParent (Finset.range size) s) : st.link s ≠ .idle := by
  intro idle
  obtain ⟨entered, _, queue⟩ := sim.node s
  have localEntry : (net.shells s).current.isLocal = true := by
    have := filled.1
    cases isLocal : (net.shells s).current.isLocal with
    | true => rfl
    | false =>
      rw [isLocal, Bool.toNat_false] at entered
      omega
  cases live : (net.shells s).session with
  | none =>
    rw [Shell.current, live] at localEntry
    cases localEntry
  | some ses =>
    rw [current_some live] at localEntry
    have senders := Shell.senders_live live
    have covered : ∀ c ∈ children shellParent (Finset.range size) s, c ∈ (net.shells s).senders := by
      intro c child
      obtain ⟨within, up⟩ := mem_children.mp child
      exact (queue c up (Finset.mem_range.mp within)).mp (filled.2 c child)
    have full := (agreeing.single.full inside small).mpr covered
    rw [senders, List.length_map] at full
    have asked := (agreeing.stable s ses live).1 ⟨localEntry, full⟩
    have sound := (agreeing.single.sound s).live live
    cases f : ses.f with
    | none => exact asked f
    | some tag =>
      obtain ⟨below, _, result, futures⟩ := sound.asked f
      have link := sim.link s _ (shellParent_some.mpr ⟨below, rfl⟩) inside
      rw [idle, LinkSim, futures] at link
      cases link

/-- With nothing on its way, no link is between asking and its end. -/
theorem Sim.quiet (sim : Sim size trace net st) (inv : Invariant shellParent 0 (Finset.range size) st)
    (quiet : net.Quiet) (inside : c < size) : st.link c = .idle ∨ st.link c = .queued := by
  obtain ⟨noRequests, noResponses, unready⟩ := quiet
  cases up : shellParent c with
  | none =>
    have root : c = 0 := by
      by_contra below
      rw [shellParent, if_neg below] at up
      cases up
    subst root
    exact .inl inv.root_idle
  | some p =>
    have link := sim.link c p up inside
    cases state : st.link c with
    | idle => exact .inl rfl
    | queued => exact .inr rfl
    | asking value =>
      rw [state] at link
      obtain ⟨_, _, inFlight⟩ := link
      rw [noRequests] at inFlight
      cases inFlight
    | answered result =>
      rw [state] at link
      obtain ⟨tag, ⟨_, inFlight⟩ | future⟩ := link
      · rw [noResponses] at inFlight
        cases inFlight
      · have due := unready c tag
        rw [Shell.ready, future] at due
        simp at due

theorem Agreeing.quiescent (agreeing : Agreeing size trace net) (small : size < 2 ^ 31)
    (quiet : net.Quiet) (level : ∀ s < size, (entriesOf s trace).length = n) (inside : r < size) :
    (exitsOf r trace).length = n ∧ (net.shells r).session = none := by
  obtain ⟨st, steps, sim⟩ := agreeing.simulated
  have positive := Nat.zero_lt_of_lt inside
  have inv := steps.invariant positive
  have given (s : Nat) : st.entries s = (entriesOf s trace).length := by
    rw [State.entries, sim.given s, List.length_map]
  have resting := inv.quiescent (shell_tree positive)
    (fun s member filled => agreeing.settled small sim (Finset.mem_range.mp member) filled)
    (fun c member => sim.quiet inv quiet (Finset.mem_range.mp member))
    (fun s member => (given s).trans (level s (Finset.mem_range.mp member)))
  have finished := (resting r (Finset.mem_range.mpr inside)).1
  constructor
  · exact (sim.results r).length_eq.trans finished
  · cases live : (net.shells r).session with
    | none => rfl
    | some ses =>
      have entered := (sim.node r).entered
      rw [current_some live, given r, level r inside, finished] at entered
      rcases (agreeing.stable r ses live).2 with localEntry | queued
      · rw [localEntry, Bool.toNat_true] at entered
        omega
      · obtain ⟨msg, member⟩ := List.exists_mem_of_ne_nil _ queued
        have sender : msg.sender ∈ (net.shells r).senders := by
          rw [Shell.senders_live live]
          exact List.mem_map_of_mem member
        obtain ⟨up, within⟩ := agreeing.single.held r msg.sender sender
        have waits := ((sim.node r).queue msg.sender up within).mpr sender
        rw [(resting msg.sender (Finset.mem_range.mpr within)).2] at waits
        cases waits

/-- In every state of a failure-free run no child was ever refused, and when nothing is on its
way and all shells have entered equally often, all have finished that often. -/
theorem exchange_deadlock_free (size : Nat) (small : size < 2 ^ 31) (actions : List Action) :
    (∀ m ∈ (exec (Net.next size) Net.initial (healthy actions)).2, m.2.isRefusal = false) ∧
    ((exec (Net.next size) Net.initial (healthy actions)).1.Quiet → ∀ n,
      (∀ s < size, (entriesOf s (exec (Net.next size) Net.initial (healthy actions)).2).length = n) →
      ∀ r < size, (exitsOf r (exec (Net.next size) Net.initial (healthy actions)).2).length = n ∧
        ((exec (Net.next size) Net.initial (healthy actions)).1.shells r).session = none) := by
  have agreeing := exec_agreeing small actions
  constructor
  · exact agreeing.unrefused
  · intro quiet n level r inside
    exact agreeing.quiescent small quiet level inside

theorem exchange_deadlock_free_sample :
    (exitsOf 1 (exec (Net.next 2) Net.initial (healthy onePair)).2).length = 1 := by
  refine ((exchange_deadlock_free 2 (by decide) onePair).2 ⟨rfl, rfl, fun r tag => ?_⟩ 1 ?_ 1 (by decide)).1
  · match r with
    | 0 => rfl
    | 1 => rfl
    | _ + 2 => rfl
  · intro s inside
    match s with
    | 0 => rfl
    | 1 => rfl

end FluxPmix
end

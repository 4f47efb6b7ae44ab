import FluxPmix.Exchange.Progress
import FluxPmix.JobFences

/-! The end of a job's fences. Every receive of a waiting upcall, delivery and completion takes something
off what the job owes, and something of that kind can happen until nothing is owed. -/
noncomputable section
namespace FluxPmix
open Mealy Handoff

/-- The action receives an upcall that waits, delivers a message or runs a completion that is due. -/
def Job.moves (size : Nat) (job : Job) : JobAction → Bool
  | .upcall _ _ => false
  | .receive rank => rank < size && !(job.shells rank).queue.isEmpty
  | .deliverRequest i => i < job.requests.length
  | .deliverResponse i => i < job.responses.length
  | .dispatch rank matchtag => rank < size && ((job.shells rank).machine.fence.exchange.ready matchtag).isSome

def Job.waiting (size : Nat) (job : Job) : Nat := ∑ r ∈ Finset.range size, (job.shells r).queue.length

/-- What the network owes, and what every upcall that waits may add to it. -/
def Job.owing (size : Nat) (job : Job) : Nat := job.net.owing size + 4 * job.waiting size

/-- Nothing waits, is on its way or is due. -/
def Job.AtRest (size : Nat) (job : Job) : Prop := job.net.Quiet ∧ ∀ r < size, (job.shells r).queue = []

theorem entriesWorth_enter {A : Type} {xcg : Exchange} {shell : Shell A} {exitCb : Option A}
    {result : Shell A × List (Effect A)} (stepped : Stepped xcg shell (.enter data exitCb, {}) result) (rank : Nat) :
    entriesWorth rank result.2 ≤ 3 := by
  have once : (result.2.filterMap Effect.entry).length ≤ 1 := by
    cases stepped with
    | unentered => exact Nat.zero_le _
    | unappended => exact le_rfl
    | @entered _ _ result _ cb _ _ _ _ processed =>
      have first : (Effect.entered cb data :: result.2).filterMap Effect.entry =
          data :: result.2.filterMap Effect.entry := rfl
      rw [first, processed.entry_nil]
      exact le_rfl
  rw [entriesWorth]
  split <;> omega

/-- An entry adds three at most. -/
theorem Agreeing.owing_enter (agreeing : Agreeing size trace net) (small : size < 2 ^ 31) (inside : rank < size)
    (data : Option Json) : (net.next size (.enter rank data, {})).1.owing size ≤ net.owing size + 3 := by
  have account := agreeing.owing_next small (.enter rank data)
  have acts : net.event size (.enter rank data) = some (rank, .enter data (some ())) := if_pos inside
  have stepped := Shell.next_stepped (agreeing.single.sound rank) (.enter data (some ()), {})
  have worth := entriesWorth_enter stepped rank
  have appended := enteredBelow_append inside trace
    ((net.shells rank).next (fenceExchange size rank) (.enter data (some ()), {})).2
  simp only [Net.next, acts] at account ⊢
  omega

section
variable [CFloat] {size : Nat} {shell : ShellInfo} {trace : List (Nat × PxOutput)} {job : Job} {action : JobAction}

omit [CFloat] in
/-- What moves a callback of the exchange moves it in the network. -/
theorem Job.moves_reacts (moves : job.moves size action = true) (other : ∀ rank, action ≠ .receive rank)
    (fault : PxFaults) : ∃ act rank given, action.reacts = some act ∧ job.net.moves size act = true ∧
      job.input size fault action = some (rank, .direct given) := by
  cases action with
  | upcall => cases moves
  | receive rank => exact absurd rfl (other rank)
  | deliverRequest i =>
    have found := List.getElem?_eq_getElem (of_decide_eq_true moves)
    exact ⟨.deliverRequest i, _, _, rfl, moves, by rw [Job.input, found]; rfl⟩
  | deliverResponse i =>
    have found := List.getElem?_eq_getElem (of_decide_eq_true moves)
    exact ⟨.deliverResponse i, _, _, rfl, moves, by rw [Job.input, found]; rfl⟩
  | dispatch rank matchtag =>
    obtain ⟨inside, ready⟩ := Bool.and_eq_true_iff.mp moves
    refine ⟨.dispatch rank matchtag, rank, _, rfl, ?_, if_pos (of_decide_eq_true inside)⟩
    rw [Net.moves, inside]
    exact ready

theorem Job.next_queue (acts : job.input size fault action = some (rank, given)) (s : Nat) :
    ((job.next size shell (action, fault)).1.shells s).queue =
      if s = rank then (pxStep (fenceExchange size rank) shell (job.shells rank) given).1.queue
      else (job.shells s).queue := by
  simp only [Job.next, acts, Job.post, Job.deliver_shells]
  split
  · rename_i same
    subst same
    exact congrArg State.queue (Function.update_self ..)
  · rename_i other
    exact congrArg State.queue (Function.update_of_ne other ..)

theorem Job.waiting_direct (acts : job.input size {} action = some (rank, .direct given)) :
    (job.next size shell (action, {})).1.waiting size = job.waiting size := by
  refine Finset.sum_congr rfl fun s _ => ?_
  rw [Job.next_queue acts s]
  split
  · rename_i same
    subst same
    rfl
  · rfl

theorem Job.waiting_receive (inside : rank < size) (queued : (job.shells rank).queue ≠ []) :
    (job.next size shell (.receive rank, {})).1.waiting size < job.waiting size := by
  have acts : job.input size {} (.receive rank) = some (rank, .receive {}) := if_pos inside
  have fewer : (pxStep (fenceExchange size rank) shell (job.shells rank) (.receive {})).1.queue.length <
      (job.shells rank).queue.length := by
    cases waits : (job.shells rank).queue with
    | nil => exact absurd waits queued
    | cons msg later =>
      simp only [pxStep, step, waits, List.length_cons]
      exact Nat.lt_succ_self _
  refine Finset.sum_lt_sum (fun s _ => ?_) ⟨rank, Finset.mem_range.mpr inside, ?_⟩
  · rw [Job.next_queue acts s]
    split
    · rename_i same
      subst same
      exact fewer.le
    · exact le_rfl
  · rw [Job.next_queue acts rank, if_pos rfl]
    exact fewer

/-- Every move takes something off. -/
theorem Job.Kept.owing_move (kept : Job.Kept size trace job) (small : size < 2 ^ 31)
    (moves : job.moves size action = true) : (job.next size shell (action, {})).1.owing size < job.owing size := by
  by_cases receives : ∃ rank, action = .receive rank
  · obtain ⟨rank, rfl⟩ := receives
    obtain ⟨within, queued⟩ := Bool.and_eq_true_iff.mp moves
    have inside := of_decide_eq_true within
    have fewer := @Job.waiting_receive _ size shell job rank inside (by simpa using queued)
    have account : (job.next size shell (.receive rank, {})).1.net.owing size ≤ job.net.owing size + 3 := by
      rcases @Job.next_receive _ size shell {} rank job inside with ⟨net, _⟩ | ⟨data, stepped⟩
      · rw [net]
        exact Nat.le_add_right _ _
      · have entered := kept.agreeing.owing_enter small inside data
        rw [stepped] at entered
        exact entered
    rw [Job.owing, Job.owing]
    omega
  · obtain ⟨act, rank, given, reacts, moved, acts⟩ := Job.moves_reacts moves (fun rank same => receives ⟨rank, same⟩) {}
    have stepped := job.next_reaction shell reacts acts
    have less := kept.agreeing.owing_move small moved
    have same := @Job.waiting_direct _ size shell job action rank given acts
    rw [stepped] at less
    dsimp only at less
    rw [Job.owing, Job.owing]
    omega

/-- A job without moves is at rest. -/
theorem Job.Kept.atRest (kept : Job.Kept size trace job) (still : ∀ action, ¬ job.moves size action = true) :
    job.AtRest size := by
  have outside : ∀ r, size ≤ r → (job.net.shells r).futures = [] := by
    intro r beyond
    exact (kept.agreeing.single.sound r).noFutures (kept.agreeing.single.outside r beyond)
  constructor
  · by_contra unquiet
    obtain ⟨act, moved⟩ := Net.unquiet_moves outside unquiet
    cases act with
    | enter => cases moved
    | deliverRequest i => exact still (.deliverRequest i) moved
    | deliverResponse i => exact still (.deliverResponse i) moved
    | dispatch rank matchtag => exact still (.dispatch rank matchtag) moved
  · intro r inside
    by_contra queued
    refine still (.receive r) ?_
    simp [Job.moves, inside, queued]

/-- A move without failures. -/
def Job.Moves (size : Nat) (job : Job) (input : JobAction × PxFaults) : Prop :=
  input.2 = {} ∧ job.moves size input.1 = true

theorem Job.Moves.healthy {input : JobAction × PxFaults} (moves : job.Moves size input) : Healthy input := by
  obtain ⟨action, fault⟩ := input
  obtain ⟨unfailing, moves⟩ := moves
  refine ⟨unfailing, ?_⟩
  cases action with
  | upcall => cases moves
  | _ => trivial

end

/-- From every state of a run with sound upcalls in which nothing fails, the job makes at most as many moves as it
owes, in whatever order. When it can make no more it is at rest, and if the shells have entered equally often,
every fence call that was accepted has been called back once. -/
theorem job_fences_complete [CFloat] (size : Nat) (small : size < 2 ^ 31) (shell : ShellInfo)
    (inputs : List (JobAction × PxFaults)) (healthy : ∀ input ∈ inputs, Healthy input) :
    let final := (exec (Job.next size shell) Job.initial inputs).1
    ∀ more, Along (Job.next size shell) (Job.Moves size) final more →
      let done := exec (Job.next size shell) Job.initial (inputs ++ more)
      more.length + done.1.owing size ≤ final.owing size ∧
      ((∃ action, done.1.moves size action = true) ∨ done.1.AtRest size ∧
        ∀ n, (∀ s < size, (fenceEntries (fencesAt s done.2)).length = n) →
        ∀ r < size, ∀ id < (fencesMade r done.2).length,
          ((fenceReplies (fencesAt r done.2)).map Prod.fst).count id = 1) := by
  intro final more along done
  have kept : Job.Kept size (exec (Job.next size shell) Job.initial inputs).2 final := exec_kept small inputs healthy
  have lowers : ∀ job input, (∃ trace, Job.Kept size trace job) → job.Moves size input →
      (job.next size shell input).1.owing size < job.owing size := by
    rintro job ⟨action, fault⟩ ⟨trace, kept⟩ ⟨unfailing, moves⟩
    obtain rfl : fault = {} := unfailing
    exact kept.owing_move small moves
  have keeps : ∀ job input, (∃ trace, Job.Kept size trace job) → job.Moves size input →
      ∃ trace, Job.Kept size trace (job.next size shell input).1 := by
    rintro job input ⟨trace, kept⟩ moves
    exact ⟨_, kept.next small moves.healthy⟩
  have bounded := along_lowers (Job.owing size) keeps lowers ⟨_, kept⟩ along
  have joined : done = ((exec (Job.next size shell) final more).1,
      (exec (Job.next size shell) Job.initial inputs).2 ++ (exec (Job.next size shell) final more).2) :=
    exec_append Job.initial inputs more
  have after : Job.Kept size done.2 done.1 := by
    rw [joined]
    exact exec_invariant (fun _ _ _ kept moves => kept.next small moves.healthy) kept along
  refine ⟨?_, ?_⟩
  · rw [joined]
    exact bounded
  · by_cases moving : ∃ action, done.1.moves size action = true
    · exact .inl moving
    · have rest := after.atRest fun action moves => moving ⟨action, moves⟩
      refine .inr ⟨rest, fun n level r inside id within => ?_⟩
      exact after.settled small rest.1 level inside (rest.2 r inside) within

/-- After the upcalls five moves end the fence. -/
theorem job_fences_complete_sample :
    5 + (exec (@Job.next .verbatim 2 cyclicMap.shellInfo) Job.initial fencingPair).1.owing 2 ≤
      (exec (@Job.next .verbatim 2 cyclicMap.shellInfo) Job.initial (fencingPair.take 2)).1.owing 2 := by
  have healthy : ∀ input ∈ fencingPair.take 2, @Healthy .verbatim input :=
    fun input member => fencingPair_healthy input (List.mem_of_mem_take member)
  have along : Along (@Job.next .verbatim 2 cyclicMap.shellInfo) (Job.Moves 2)
      (exec (@Job.next .verbatim 2 cyclicMap.shellInfo) Job.initial (fencingPair.take 2)).1 (fencingPair.drop 2) :=
    ⟨⟨rfl, rfl⟩, ⟨rfl, rfl⟩, ⟨rfl, rfl⟩, ⟨rfl, rfl⟩, ⟨rfl, rfl⟩, trivial⟩
  exact (@job_fences_complete .verbatim 2 (by decide) cyclicMap.shellInfo (fencingPair.take 2) healthy
    (fencingPair.drop 2) along).1

end FluxPmix
end

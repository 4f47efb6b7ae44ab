import FluxPmix.Exchange.Simulation

/-! Failure-free runs of the whole job: every callback of every shell is a few steps of the tree
gather, so rounds stay apart and everyone gets the root's array. -/
noncomputable section
namespace FluxPmix
open Mealy ParentTree TreeGather

section Shell
variable {A : Type} {xcg : Exchange} {fault : Faults} {shell : Shell A} {ses : Session A}

/-- Nothing is left undone between callbacks: a complete session has asked its parent, and a
session exists only for someone's contribution. -/
def Shell.Stable (xcg : Exchange) (shell : Shell A) : Prop :=
  ∀ ses, shell.session = some ses →
    (ses.complete xcg → ses.f ≠ none) ∧ (ses.isLocal = true ∨ ses.requests ≠ [])

def Effect.isRefusal : Effect A → Bool
  | .respondError _ _ _ _ => true
  | _ => false

theorem Processed.stable (processed : Processed xcg fault shell ses result)
    (contributed : ses.isLocal = true ∨ ses.requests ≠ []) : result.1.Stable xcg := by
  cases processed with
  | waits gathering incomplete =>
    intro other live
    cases live
    refine ⟨fun complete => ?_, contributed⟩
    obtain ⟨entered, full⟩ := complete
    rcases incomplete with outside | fewer
    · rw [entered] at outside
      cases outside
    · omega
  | sent complete =>
    intro other live
    cases live
    exact ⟨fun _ => nofun, .inl complete.1⟩
  | unsent | unregistered | refused | answered | broken =>
    intro other live
    cases live

theorem Stepped.stable (stepped : Stepped xcg shell (event, fault) result) (stable : shell.Stable xcg)
    (appends : fault.arrayAppend = false) (accepted : result.2.any Effect.isRefusal = false) :
    result.1.Stable xcg := by
  cases stepped with
  | unentered | unopened | undispatched | fulfilled => exact stable
  | unappended _ _ _ _ _ fails =>
    rw [appends] at fails
    cases fails
  | rejected => cases accepted
  | entered _ _ _ _ _ _ processed => exact processed.stable (.inl rfl)
  | accepted _ _ _ _ _ _ _ processed => exact processed.stable (.inr (by simp))
  | completed matchtag response live upstream ready processed =>
    refine processed.stable ?_
    rw [Session.answer]
    split
    · exact (stable _ live).2
    · exact (stable _ live).2

end Shell

/-- An exit callback runs only after every shell has entered that round. -/
def Entered (size : Nat) (before : List (Nat × Effect Unit)) (m : Nat × Effect Unit) : Prop :=
  m.2.exited ≠ none → ∀ s < size, (exitsOf m.1 before).length < (entriesOf s before).length

/-- Runs of the gather over the shells of a job. -/
def GatherSteps (size : Nat) : State Nat Json → State Nat Json → Prop :=
  Relation.ReflTransGen (Step shellParent 0 (Finset.range size))

/-- Steps of the gather that account for what a callback sent and called. -/
structure Gathers (size : Nat) (trace : List (Nat × Effect Unit)) (st : State Nat Json) (r : Nat)
    (net : Net) (effects : List (Effect Unit)) : Prop where
  simulated : ∃ st', GatherSteps size st st' ∧ Sim size (trace ++ effects.map (r, ·)) net st'
  barrier : Whenever (Entered size) trace → Whenever (Entered size) (trace ++ effects.map (r, ·))
  accepted : effects.any Effect.isRefusal = false

variable {size r : Nat} {trace : List (Nat × Effect Unit)} {net : Net} {st : State Nat Json}

theorem barrier_silent (barrier : Whenever (Entered size) trace) (r : Nat)
    (effects : List (Effect Unit)) (silent : ∀ e ∈ effects, Effect.exited e = none) :
    Whenever (Entered size) (trace ++ effects.map (r, ·)) := by
  refine barrier.append (fun m member before exits => ?_)
  obtain ⟨e, inside, rfl⟩ := List.mem_map.mp member
  exact absurd (silent e inside) exits

theorem finishing_gathers (sim : Sim size trace net st)
    (inv : Invariant shellParent 0 (Finset.range size) st) (inside : r < size)
    (live : (net.shells r).session = some ses)
    (finishes : Finishing shellParent 0 (Finset.range size) st r result)
    (step : Step shellParent 0 (Finset.range size) st (st.finish shellParent r result))
    (delivered : Delivered snapshot result) (tags : Nat) :
    Gathers size trace st r
      (net.post (fenceExchange size r) (⟨none, [], tags⟩, finishing ses.requests result snapshot))
      (finishing ses.requests result snapshot) := by
  have tree := shell_tree (Nat.zero_lt_of_lt inside)
  have entered := inv.finish_entered tree finishes
  refine ⟨⟨_, .single step,
    sim.finish inside live finishes.filled finishes.unqueued delivered tags⟩, fun barrier => ?_, ?_⟩
  · have responses : Whenever (Entered size)
        (trace ++ (ses.requests.map (.respond · (some (.array result)) true)).map (r, ·)) := by
      refine barrier_silent barrier r _ (fun e member => ?_)
      obtain ⟨msg, _, rfl⟩ := List.mem_map.mp member
      rfl
    have exits : Whenever (Entered size)
        (trace ++ (ses.requests.map (.respond · (some (.array result)) true)).map (r, ·) ++
          [(r, .exit () snapshot)]) := by
      refine (whenever_snoc_iff _ _).mpr ⟨responses, fun _ s below => ?_⟩
      have round : (exitsOf r trace).length = st.rounds r := (sim.results r).length_eq
      have given : (entriesOf s trace).length = st.entries s := by
        rw [State.entries, sim.given s, List.length_map]
      simp only
      rw [exitsOf_silent r trace r _ (responses_exited _ _), entriesOf_silent s trace r _ ?_, round, given]
      · exact entered s (Finset.mem_range.mpr below)
      · rw [List.filterMap_map, List.filterMap_eq_nil_iff]
        exact fun _ _ => rfl
    have last := barrier_silent exits r [.destroy] (by simp [Effect.exited])
    simpa [finishing] using last
  · rw [finishing, List.any_append, List.any_map]
    simp [Function.comp_def, Effect.isRefusal]

/-- Posting overwrites the shell that acted. -/
theorem Net.set_post (net : Net) (size r : Nat) (shell : Shell Unit) (first : Effect Unit)
    (unposted : first.posted (fenceExchange size r) = none) (unreplied : first.replied = none)
    (result : Shell Unit × List (Effect Unit)) :
    (net.set r shell).post (fenceExchange size r) result =
      net.post (fenceExchange size r) (result.1, first :: result.2) := by
  rw [Net.post, Net.post, List.filterMap_cons_none unposted, List.filterMap_cons_none unreplied]
  exact congrArg (Net.mk · _ _) (Function.update_idem _ _ _)

/-- Nothing changes when a shell is left as it is and sends nothing. -/
theorem Net.post_silent (net : Net) (size r : Nat) (effects : List (Effect Unit))
    (unposted : effects.filterMap (Effect.posted (fenceExchange size r)) = [])
    (unreplied : effects.filterMap Effect.replied = []) :
    net.post (fenceExchange size r) (net.shells r, effects) = net := by
  rw [Net.post, unposted, unreplied, List.append_nil, List.append_nil]
  exact congrArg (Net.mk · _ _) (Function.update_eq_self _ _)

/-- A complete shell is filled: it entered its round and every child's link is queued. -/
theorem Sim.filled (sim : Sim size trace net st) (live : (net.shells r).session = some ses)
    (complete : ses.isLocal = true)
    (covered : ∀ c ∈ children shellParent (Finset.range size) r, c ∈ (net.shells r).senders) :
    st.Filled shellParent (Finset.range size) r := by
  obtain ⟨entered, _, queue⟩ := sim.node r
  refine ⟨?_, fun c child => ?_⟩
  · rw [entered, current_some live, complete]
    rfl
  · obtain ⟨within, up⟩ := mem_children.mp child
    exact (queue c up (Finset.mem_range.mp within)).mpr (covered c child)

/-- What `session_process` does with a contribution. -/
theorem processed_gathers (small : size < 2 ^ 31) (sim : Sim size trace net st)
    (inv : Invariant shellParent 0 (Finset.range size) st) (inside : r < size)
    (here : net.shells r = ⟨some ses, [], shell.matchtags⟩) (gathering : ses.f = none)
    (clean : ses.hasError = false)
    (covered : ses.complete (fenceExchange size r) →
      ∀ c ∈ children shellParent (Finset.range size) r, c ∈ (net.shells r).senders)
    (processed : Processed (fenceExchange size r) {} shell ses result) :
    Gathers size trace st r (net.post (fenceExchange size r) result) result.2 := by
  have tree := shell_tree (Nat.zero_lt_of_lt inside)
  have live : (net.shells r).session = some ses := by rw [here]
  have noFutures : (net.shells r).futures = [] := by rw [here]
  cases processed with
  | waits =>
    rw [← here, Net.post_silent net size r [] rfl rfl]
    exact ⟨⟨st, .refl, sim.silent r [] rfl rfl⟩, fun barrier => by simpa using barrier, rfl⟩
  | sent complete _ below =>
    have up : shellParent r = some ((r - 1) / 2) := shellParent_some.mpr ⟨below, rfl⟩
    have filled := sim.filled live complete.1 (covered complete)
    have idle := sim.link_idle up inside noFutures
    refine ⟨⟨_, .single (.ask r _ (Finset.mem_range.mpr inside) up filled idle),
      sim.ask small up inside live noFutures shell.matchtags⟩, fun barrier => ?_, rfl⟩
    exact barrier_silent barrier r [.rpc _ _] (by simp [Effect.exited])
  | answered cb data _ complete output =>
    rcases output with ⟨_, root, rfl⟩ | ⟨upstream, _⟩
    · obtain rfl : r = 0 := root
      have filled := sim.filled live complete.1 (covered complete)
      have finishes := inv.finishing_root tree filled
      have gathered : st.gathered 0 = ses.dataIn := by
        rw [(sim.node 0).gathered, current_some live]
      have concludes := Step.conclude filled
      rw [gathered] at finishes concludes
      exact finishing_gathers sim inv inside live finishes concludes ⟨rfl, rfl⟩ shell.matchtags
    · exact absurd gathering upstream
  | unsent _ _ _ _ _ fails => cases fails
  | unregistered _ _ _ _ _ _ fails => cases fails
  | refused _ _ _ _ _ failed =>
    rw [clean] at failed
    cases failed
  | broken _ _ _ _ _ _ _ _ _ fails => cases fails

/-- What a shell's completion finds in its future is the answer to its link. -/
theorem Sim.ready_answered (sim : Sim size trace net st) (up : shellParent r = some p)
    (inside : r < size) (ready : (net.shells r).futures = [⟨tag, some response⟩]) :
    ∃ result, st.link r = .answered result ∧ response = .payload (packData (.array result)) := by
  have link := sim.link r p up inside
  cases state : st.link r with
  | idle =>
    rw [state] at link
    rw [LinkSim, ready] at link
    cases link
  | asking value =>
    rw [state] at link
    obtain ⟨_, future, _⟩ := link
    rw [ready] at future
    cases future
  | queued =>
    rw [state] at link
    obtain ⟨_, _, _, future⟩ := link
    rw [ready] at future
    cases future
  | answered result =>
    rw [state] at link
    obtain ⟨_, ⟨future, _⟩ | future⟩ := link
    · rw [ready] at future
      cases future
    · rw [ready] at future
      cases future
      exact ⟨result, rfl, rfl⟩

/-- What the completion of the parent's answer does. -/
theorem completed_gathers (sim : Sim size trace net st)
    (inv : Invariant shellParent 0 (Finset.range size) st) (inside : r < size)
    (live : (net.shells r).session = some ses) (upstream : ses.f = some tag)
    (ready : (net.shells r).futures = [⟨tag, some response⟩])
    (covered : ses.complete (fenceExchange size r) →
      ∀ c ∈ children shellParent (Finset.range size) r, c ∈ (net.shells r).senders)
    (below : 0 < r) (clean : ses.hasError = false)
    (processed : Processed (fenceExchange size r) {} (net.shells r) (ses.answer response) result) :
    Gathers size trace st r (net.post (fenceExchange size r) result) result.2 := by
  have tree := shell_tree (Nat.zero_lt_of_lt inside)
  have up : shellParent r = some ((r - 1) / 2) := shellParent_some.mpr ⟨below, rfl⟩
  obtain ⟨items, answered, rfl⟩ := sim.ready_answered up inside ready
  have same : ses.answer (.payload (packData (.array items))) = { ses with dataOut := some (.array items) } :=
    rfl
  rw [same] at processed
  cases processed with
  | waits gathering | sent _ gathering =>
    rw [upstream] at gathering
    cases gathering
  | answered cb data _ complete output =>
    rcases output with ⟨gathering, _⟩ | ⟨_, _, found⟩
    · rw [upstream] at gathering
      cases gathering
    · cases found
      have filled := sim.filled live complete.1 (covered complete)
      have finishes := finishing_answered tree (Finset.mem_range.mpr inside) up filled answered
      have receives : Step shellParent 0 (Finset.range size) st (st.finish shellParent r items) :=
        .receive r _ items (Finset.mem_range.mpr inside) up filled answered
      exact finishing_gathers sim inv inside live finishes receives ⟨rfl, rfl⟩ (net.shells r).matchtags
  | unsent _ _ _ gathering | unregistered _ _ _ gathering =>
    rw [upstream] at gathering
    cases gathering
  | refused _ _ _ _ _ failed =>
    rw [clean] at failed
    cases failed
  | broken _ _ _ _ _ _ _ _ _ fails => cases fails

/-! ### Whole callbacks -/

/-- A contribution followed by what `session_process` does with it. -/
theorem Gathers.after (step : Step shellParent 0 (Finset.range size) st st') (first : Effect Unit)
    (silent : first.exited = none) (accepted : first.isRefusal = false)
    (rest : Gathers size (trace ++ [(r, first)]) st' r net effects) :
    Gathers size trace st r net (first :: effects) := by
  have joined : trace ++ (first :: effects).map (r, ·) = trace ++ [(r, first)] ++ effects.map (r, ·) := by
    simp
  refine ⟨?_, fun barrier => ?_, ?_⟩
  · obtain ⟨last, steps, sim⟩ := rest.simulated
    rw [joined]
    exact ⟨last, .head step steps, sim⟩
  · rw [joined]
    refine rest.barrier ?_
    exact barrier_silent barrier r [first] (by simpa using silent)
  · rw [List.any_cons, accepted, Bool.false_or]
    exact rest.accepted

theorem current_opened {shell : Shell Unit} (opened : shell.ensureSession fault = some ses) : shell.current = ses :=
  (Shell.ensureSession_eq opened).symm

theorem enter_gathers (small : size < 2 ^ 31) (single : net.Single size []) (sim : Sim size trace net st)
    (inv : Invariant shellParent 0 (Finset.range size) st) (inside : r < size)
    (stepped : Stepped (fenceExchange size r) (net.shells r) (.enter data (some ()), {}) result) :
    Gathers size trace st r (net.post (fenceExchange size r) result) result.2 := by
  cases stepped with
  | unentered _ _ errno =>
    rw [Net.post_silent net size r [.enterFailed (some ()) errno] rfl rfl]
    exact ⟨⟨st, .refl, sim.silent r [.enterFailed (some ()) errno] rfl rfl⟩,
      fun barrier => barrier_silent barrier r [.enterFailed (some ()) errno] (by simp [Effect.exited]), rfl⟩
  | unappended _ _ _ _ _ fails => cases fails
  | @entered _ ses result _ _ _ opened fresh _ processed =>
    have current := current_opened opened
    have within := (single.sound r).opened opened
    have gathering := within.gathering (.inl fresh)
    have ready : st.entries r = st.rounds r := by
      rw [(sim.node r).entered, current, fresh]
      rfl
    have senders := Shell.senders_opened opened
    have entered := sim.enter data (current ▸ fresh)
    rw [Shell.entering, current] at entered
    have enters : Step shellParent 0 (Finset.range size) st (st.enter r data.toList) :=
      .enter r data.toList (Finset.mem_range.mpr inside) ready
    refine Gathers.after enters (.entered () data) rfl rfl ?_
    rw [← Net.set_post net size r _ (.entered () data) rfl rfl result]
    refine processed_gathers small entered (inv.enter (Finset.mem_range.mpr inside) ready data.toList)
      inside ?_ ?_ ?_ ?_ processed
    · rw [Net.set_self]
      exact congrArg (Shell.mk _ · _) (within.noFutures gathering)
    · exact gathering
    · exact within.clean
    · intro complete
      have covered := (single.full inside small).mp (by
        rw [senders, List.length_map]
        exact complete.2)
      rw [Net.set_self]
      rwa [senders] at covered

/-- A child whose request is in flight is not queued. -/
theorem Sim.request_absent (sim : Sim size trace net st) (single : net.Single size [])
    (inFlight : (r, msg) ∈ net.requests) : msg.sender ∉ (net.shells r).senders := by
  intro held
  obtain ⟨up, _⟩ := single.routed (r, msg) inFlight
  obtain ⟨_, _, _, future⟩ := sim.request_asking single inFlight
  simp only at up future
  have owed := single.single msg.sender r up
  have := unfulfilled_none future
  have : 1 ≤ (net.requests.map (fun m => m.2.sender)).count msg.sender :=
    List.one_le_count_iff.mpr (List.mem_map_of_mem (f := fun m => m.2.sender) inFlight)
  have : 1 ≤ (net.shells r).senders.count msg.sender := List.one_le_count_iff.mpr held
  omega

/-- With the last request that was missing, every child is queued. -/
theorem Sim.request_covers (sim : Sim size trace net st) (single : net.Single size []) (inside : r < size)
    (small : size < 2 ^ 31) (inFlight : (r, msg) ∈ net.requests)
    (full : (net.shells r).senders.length + 1 = (fenceExchange size r).childCount) :
    ∀ c ∈ children shellParent (Finset.range size) r, c ∈ (net.shells r).senders ++ [msg.sender] := by
  obtain ⟨up, below⟩ := single.routed (r, msg) inFlight
  have absent := sim.request_absent single inFlight
  apply (children_covered inside small ?_ ?_).mp
  · simpa using full
  · rw [← List.concat_eq_append, List.nodup_concat]
    exact ⟨absent, single.distinct r⟩
  · intro c member
    rcases List.mem_append.mp member with held | new
    · exact single.fromChildren r c held
    · obtain rfl := List.mem_singleton.mp new
      exact mem_children.mpr ⟨Finset.mem_range.mpr below, up⟩

theorem request_gathers (small : size < 2 ^ 31) (single : net.Single size []) (sim : Sim size trace net st)
    (inv : Invariant shellParent 0 (Finset.range size) st) (inside : r < size)
    (found : net.requests[i]? = some (r, msg))
    (stepped : Stepped (fenceExchange size r) (net.shells r) (.request msg, {}) result) :
    Gathers size trace st r ((net.deliver (.deliverRequest i)).post (fenceExchange size r) result) result.2 := by
  have inFlight := List.mem_of_getElem? found
  obtain ⟨up, below⟩ := single.routed (r, msg) inFlight
  obtain ⟨items, asking, payload, future⟩ := sim.request_asking single inFlight
  simp only at up below asking payload future
  cases stepped with
  | unopened _ _ fails =>
    rcases fails with unpacks | creates
    · rw [payload] at unpacks
      cases unpacks
    · cases creates
  | rejected _ given opened rejection =>
    rw [payload] at given
    cases given
    cases rejection with
    | surplus full =>
      have covered := (single.full inside small).mp (by
        rw [Shell.senders_opened opened, List.length_map]
        exact full)
      have queued := covered msg.sender (mem_children.mpr ⟨Finset.mem_range.mpr below, up⟩)
      exact absurd queued (sim.request_absent single inFlight)
    | unextended fails => cases fails
    | unsaved _ fails => cases fails
  | @accepted _ ses result _ values given opened room _ _ processed =>
    rw [payload] at given
    cases given
    have current := current_opened opened
    have within := (single.sound r).opened opened
    have gathering := within.gathering (.inr room)
    have accepts := sim.accept single found items future
    rw [Shell.accepting, current] at accepts
    have takes : Step shellParent 0 (Finset.range size) st (st.accept msg.sender r items) :=
      .accept msg.sender r items (Finset.mem_range.mpr below) up asking
    refine Gathers.after takes (.accept msg) rfl rfl ?_
    rw [← Net.set_post (net.deliver (.deliverRequest i)) size r _ (.accept msg) rfl rfl result]
    refine processed_gathers small accepts (inv.accept (shell_tree (Nat.zero_lt_of_lt inside))
      (Finset.mem_range.mpr below) up asking) inside ?_ ?_ ?_ ?_ processed
    · rw [Net.set_self]
      exact congrArg (Shell.mk _ · _) (within.noFutures gathering)
    · exact gathering
    · exact within.clean
    · intro complete
      have senders := Shell.senders_opened opened
      have full : (net.shells r).senders.length + 1 = (fenceExchange size r).childCount := by
        rw [senders, List.length_map]
        simpa using complete.2
      have covered := sim.request_covers single inside small inFlight full
      rw [senders] at covered
      rw [Net.set_self, Shell.senders_live rfl, List.map_append]
      exact covered

theorem response_gathers (single : net.Single size []) (sim : Sim size trace net st)
    (found : net.responses[i]? = some (r, tag, response))
    (stepped : Stepped (fenceExchange size r) (net.shells r) (.fulfill tag response, {}) result) :
    Gathers size trace st r ((net.deliver (.deliverResponse i)).post (fenceExchange size r) result) result.2 := by
  cases stepped with
  | fulfilled =>
    have fulfilled := sim.fulfill single found
    refine ⟨⟨st, .refl, ?_⟩, fun barrier => by simpa using barrier, rfl⟩
    simpa [Net.set, Net.post, exchangeCreate] using fulfilled

theorem dispatch_gathers (single : net.Single size []) (sim : Sim size trace net st) (small : size < 2 ^ 31)
    (inv : Invariant shellParent 0 (Finset.range size) st) (inside : r < size)
    (stepped : Stepped (fenceExchange size r) (net.shells r) (.dispatch tag, {}) result) :
    Gathers size trace st r (net.post (fenceExchange size r) result) result.2 := by
  cases stepped with
  | undispatched =>
    rw [Net.post_silent net size r [] rfl rfl]
    exact ⟨⟨st, .refl, sim.silent r [] rfl rfl⟩, fun barrier => by simpa using barrier, rfl⟩
  | @completed ses result _ _ response live upstream ready processed =>
    have within := (single.sound r).live live
    obtain ⟨below, _⟩ := within.asked upstream
    refine completed_gathers sim inv inside live upstream ready (fun complete => ?_) below within.clean processed
    apply (children_covered inside small (single.distinct r) (single.fromChildren r)).mp
    rw [Shell.senders_live live, List.length_map]
    exact complete.2

/-! ### Runs -/

/-- What every state of a failure-free run has behind it. -/
structure Agreeing (size : Nat) (trace : List (Nat × Effect Unit)) (net : Net) : Prop where
  single : net.Single size []
  stable : ∀ r, (net.shells r).Stable (fenceExchange size r)
  simulated : ∃ st, GatherSteps size State.initial st ∧ Sim size trace net st
  barrier : Whenever (Entered size) trace
  unrefused : ∀ m ∈ trace, m.2.isRefusal = false
  inside : ∀ m ∈ trace, m.1 < size

theorem initial_agreeing (size : Nat) : Agreeing size [] Net.initial := by
  refine ⟨Net.initial_single size, ?_, ⟨_, .refl, initial_sim size⟩, whenever_nil, ?_, ?_⟩
  · intro r ses live
    cases live
  · intro m member
    cases member
  · intro m member
    cases member

/-- The gather's invariant holds in every state that simulates a run. -/
theorem GatherSteps.invariant (positive : 0 < size) (steps : GatherSteps size State.initial st) :
    Invariant shellParent 0 (Finset.range size) st := by
  induction steps with
  | refl => exact initial_invariant _ _ _
  | tail _ step ih => exact step.invariant (shell_tree positive) ih

/-- Every callback is a few steps of the gather. -/
theorem callback_gathers (small : size < 2 ^ 31) (single : net.Single size []) (sim : Sim size trace net st)
    (inv : Invariant shellParent 0 (Finset.range size) st) (inside : r < size)
    (acts : net.event size action = some (r, event))
    (stepped : Stepped (fenceExchange size r) (net.shells r) (event, {}) result) :
    Gathers size trace st r ((net.deliver action).post (fenceExchange size r) result) result.2 := by
  cases action with
  | enter rank data =>
    simp only [Net.event, Option.ite_none_right_eq_some, Option.some.injEq, Prod.mk.injEq] at acts
    obtain ⟨_, rfl, rfl⟩ := acts
    exact enter_gathers small single sim inv inside stepped
  | deliverRequest i =>
    obtain ⟨m, found, same⟩ := Option.map_eq_some_iff.mp acts
    cases same
    exact request_gathers small single sim inv inside found stepped
  | deliverResponse i =>
    obtain ⟨m, found, same⟩ := Option.map_eq_some_iff.mp acts
    cases same
    exact response_gathers single sim found stepped
  | dispatch rank matchtag =>
    simp only [Net.event, Option.ite_none_right_eq_some, Option.some.injEq, Prod.mk.injEq] at acts
    obtain ⟨_, rfl, rfl⟩ := acts
    exact dispatch_gathers single sim small inv inside stepped

theorem Agreeing.next (agreeing : Agreeing size trace net) (small : size < 2 ^ 31) (action : Action) :
    Agreeing size (trace ++ (net.next size (action, {})).2) (net.next size (action, {})).1 := by
  obtain ⟨single, stable, ⟨st, steps, sim⟩, barrier, unrefused, ranks⟩ := agreeing
  have kept := single.next small (action, {}) (fun _ _ _ fails => Bool.false_ne_true fails.2.2.2)
  cases acts : net.event size action with
  | none => simpa [Net.next, acts] using Agreeing.mk single stable ⟨st, steps, sim⟩ barrier unrefused ranks
  | some callback =>
    obtain ⟨r, event⟩ := callback
    obtain ⟨_, inside, _⟩ := single.deliver acts
    have stepped := Shell.next_stepped (single.sound r) (event, {})
    have inv := steps.invariant (Nat.zero_lt_of_lt inside)
    have gathers := callback_gathers small single sim inv inside acts stepped
    obtain ⟨st', more, simulated⟩ := gathers.simulated
    simp only [Net.next, acts] at kept ⊢
    constructor
    · exact kept
    · intro s
      by_cases same : s = r
      · subst same
        rw [Net.post_self]
        exact stepped.stable (stable s) rfl gathers.accepted
      · rw [Net.post_ne same]
        cases action <;> exact stable s
    · exact ⟨st', steps.trans more, simulated⟩
    · exact gathers.barrier barrier
    · intro m member
      rcases List.mem_append.mp member with old | new
      · exact unrefused m old
      · obtain ⟨e, inside, rfl⟩ := List.mem_map.mp new
        simpa using List.any_eq_false.mp gathers.accepted e inside
    · intro m member
      rcases List.mem_append.mp member with old | new
      · exact ranks m old
      · obtain ⟨e, _, rfl⟩ := List.mem_map.mp new
        exact inside

/-- Runs in which every call succeeds. -/
def healthy (actions : List Action) : List (Action × Faults) := actions.map (·, {})

theorem exec_agreeing (small : size < 2 ^ 31) (actions : List Action) :
    Agreeing size (exec (Net.next size) Net.initial (healthy actions)).2
      (exec (Net.next size) Net.initial (healthy actions)).1 := by
  have admitted : Along (Net.next size) (fun _ input => input.2 = {}) Net.initial (healthy actions) := by
    generalize Net.initial = net
    induction actions generalizing net with
    | nil => trivial
    | cons action rest ih => exact ⟨rfl, ih _⟩
  refine exec_invariant_nil (P := Agreeing size) ?_ (initial_agreeing size) admitted
  rintro trace net ⟨action, fault⟩ agreeing rfl
  exact agreeing.next small action

end FluxPmix
end

import FluxPmix.Exchange.Agreement
import FluxPmix.Exchange.Hooks
import FluxPmix.FenceProofs
import FluxPmix.Px

/-! A job: the plugin on every shell and the messages between them. Server threads make upcalls, shell
threads take them up, and messages in flight are delivered once each, in any order. Seen through its
exchanges, a run of the job is a run of the exchange network. -/
namespace FluxPmix
open Mealy Handoff

structure Job where
  shells : Nat → PxState
  requests : List (Nat × Request)
  responses : List (Nat × Nat × Response)

def Job.initial : Job := ⟨fun _ => PxState.initial, [], []⟩

/-- What can happen next: an upcall on a server's thread, a receive on a shell's, the delivery of the
`i`th request or response in flight, or the completion of a ready future. -/
inductive JobAction where
  | upcall (rank : Nat) (call : ServerCall)
  | receive (rank : Nat)
  | deliverRequest (i : Nat)
  | deliverResponse (i : Nat)
  | dispatch (rank matchtag : Nat)

/-- What the exchange does in a step of one shell. -/
def innerEffects (outputs : List PxOutput) : List (Effect Nat) := (results outputs).filterMap PxEffect.inner

section
variable [CFloat] (size : Nat) (shell : ShellInfo)

/-- The shell an action concerns, and what it is given. -/
def Job.input (job : Job) (fault : PxFaults) : JobAction → Option (Nat × PxInput)
  | .upcall rank call => if rank < size then some (rank, .offer call) else none
  | .receive rank => if rank < size then some (rank, .receive fault) else none
  | .deliverRequest i => job.requests[i]?.map fun m => (m.1, .direct (.request m.2, fault.fence))
  | .deliverResponse i => job.responses[i]?.map fun m => (m.1, .direct (.fulfill m.2.1 m.2.2, fault.fence))
  | .dispatch rank matchtag => if rank < size then some (rank, .direct (.dispatch matchtag, fault.fence)) else none

/-- A delivered message is no longer in flight. -/
def Job.deliver (job : Job) : JobAction → Job
  | .deliverRequest i => { job with requests := job.requests.eraseIdx i }
  | .deliverResponse i => { job with responses := job.responses.eraseIdx i }
  | _ => job

/-- The shells and messages after a step of one shell. -/
def Job.post (job : Job) (xcg : Exchange) (result : PxState × List PxOutput) : Job where
  shells := Function.update job.shells xcg.rank result.1
  requests := job.requests ++ (innerEffects result.2).filterMap (Effect.posted xcg)
  responses := job.responses ++ (innerEffects result.2).filterMap Effect.replied

def Job.next (job : Job) (input : JobAction × PxFaults) : Job × List (Nat × PxOutput) :=
  match job.input size input.2 input.1 with
  | none => (job, [])
  | some (rank, given) =>
    let xcg := fenceExchange size rank
    let result := pxStep xcg shell (job.shells rank) given
    ((job.deliver input.1).post xcg result, result.2.map (rank, ·))

/-! ### The network in a job -/

/-- The job's exchanges, which do not know their fence calls. -/
def Job.net (job : Job) : Net where
  shells r := (job.shells r).machine.fence.exchange.map fun _ => ()
  requests := job.requests
  responses := job.responses

def exchangeTrace (trace : List (Nat × PxOutput)) : List (Nat × Effect Unit) :=
  trace.filterMap fun m => (m.2.result.bind PxEffect.inner).map fun e => (m.1, e.map fun _ => ())

omit [CFloat] in
theorem exchangeTrace_append (trace more : List (Nat × PxOutput)) :
    exchangeTrace (trace ++ more) = exchangeTrace trace ++ exchangeTrace more :=
  List.filterMap_append

omit [CFloat] in
theorem exchangeTrace_shell (rank : Nat) (outputs : List PxOutput) : exchangeTrace (outputs.map (rank, ·)) =
    (innerEffects outputs).map fun e => (rank, e.map fun _ => ()) := by
  rw [exchangeTrace, innerEffects, results, List.filterMap_filterMap, List.filterMap_map, List.map_filterMap]
  rfl

section
variable {A B : Type} (rename : A → B) (xcg : Exchange)

omit [CFloat] in
@[simp] theorem Effect.posted_map (e : Effect A) : (e.map rename).posted xcg = e.posted xcg := by
  cases e <;> rfl

omit [CFloat] in
@[simp] theorem Effect.replied_map (e : Effect A) : (e.map rename).replied = e.replied := by
  cases e with
  | respond msg dataOut sent =>
    cases dataOut with
    | none => rfl
    | some data => cases sent <;> rfl
  | respondError msg errno errstr sent => cases sent <;> rfl
  | _ => rfl

end

omit [CFloat] in
/-- Posting what a shell did in the job is posting what its exchange did in the network. -/
theorem Job.post_net (job : Job) (xcg : Exchange) (result : PxState × List PxOutput) :
    (job.post xcg result).net = job.net.post xcg (result.1.machine.fence.exchange.map (fun _ => ()),
      (innerEffects result.2).map (Effect.map fun _ => ())) := by
  have posted (e : Effect Nat) : (e.map fun _ => ()).posted xcg = e.posted xcg := Effect.posted_map ..
  have replied (e : Effect Nat) : (e.map fun _ => ()).replied = e.replied := Effect.replied_map ..
  simp only [Job.net, Job.post, Net.post, List.filterMap_map, Function.comp_def, posted, replied]
  congr 1
  funext r
  by_cases same : r = xcg.rank
  · subst same
    simp only [Function.update_self]
  · simp only [Function.update_of_ne same]

/-! ### One shell -/

omit [CFloat] in
theorem exchangeExitCb_inner (fault : FenceFaults) (fx : Fence) (id : Nat) (ses : Session Nat) :
    (exchangeExitCb fault fx id ses).2.filterMap FenceEffect.inner = [] := by
  rw [exchangeExitCb]
  split
  · rfl
  · split <;> rfl

omit [CFloat] in
theorem inner_cons (e : Effect Nat) (rest : List FenceEffect) :
    (FenceEffect.exchange e :: rest).filterMap FenceEffect.inner = e :: rest.filterMap FenceEffect.inner := rfl

omit [CFloat] in
/-- Running the exit callbacks adds nothing to what the exchange did. -/
theorem Fence.exits_inner (fault : FenceFaults) (fx : Fence) (effects : List (Effect Nat)) :
    (Fence.exits fault fx effects).1.exchange = fx.exchange ∧
      (Fence.exits fault fx effects).2.filterMap FenceEffect.inner = effects := by
  induction effects generalizing fx with
  | nil => exact ⟨rfl, rfl⟩
  | cons e rest ih =>
    cases e with
    | exit id ses =>
      obtain ⟨exchange, inner⟩ := ih (exchangeExitCb fault fx id ses).1
      refine ⟨exchange.trans (exchangeExitCb_frame fx id ses).1, ?_⟩
      simp only [Fence.exits, List.cons_append, inner_cons, List.filterMap_append, exchangeExitCb_inner,
        List.nil_append, inner]
    | _ =>
      obtain ⟨exchange, inner⟩ := ih fx
      refine ⟨exchange, ?_⟩
      simp only [Fence.exits, List.cons_append, List.nil_append, inner_cons, inner]

omit [CFloat] in
theorem Fence.callback_inner (xcg : Exchange) (fault : FenceFaults) (fx : Fence) (event : Event Nat) :
    Shell.next xcg fx.exchange (event, fault.exchange) =
      ((fx.callback xcg fault event).1.exchange, (fx.callback xcg fault event).2.filterMap FenceEffect.inner) := by
  rw [Fence.callback]
  generalize Shell.next xcg fx.exchange (event, fault.exchange) = result
  obtain ⟨exchange, inner⟩ := Fence.exits_inner fault { fx with exchange := result.1 } result.2
  dsimp only
  rw [exchange, inner]

/-- A fence upcall leaves the exchange alone or enters it. -/
theorem fenceShellCb_inner (xcg : Exchange) (fault : FenceFaults) (fx : Fence) (msg : Json) :
    ((fenceShellCb xcg fault fx msg).1.exchange = fx.exchange ∧
      (fenceShellCb xcg fault fx msg).2.filterMap FenceEffect.inner = []) ∨
    ∃ data id, Shell.next xcg fx.exchange (.enter data (some id), fault.exchange) =
      ((fenceShellCb xcg fault fx msg).1.exchange,
        (fenceShellCb xcg fault fx msg).2.filterMap FenceEffect.inner) := by
  rw [fenceShellCb]
  split
  · exact .inl ⟨rfl, rfl⟩
  · dsimp only
    split
    · exact .inl ⟨rfl, rfl⟩
    · exact .inl ⟨rfl, rfl⟩
    · exact .inl ⟨rfl, rfl⟩
    · rename_i call data _
      refine .inr ⟨data, fx.exchangeSeq, ?_⟩
      rw [Shell.next, Fence.enter]
      generalize exchangeEnterBase64String xcg fault.exchange fx.exchange data (some fx.exchangeSeq) = entered
      obtain ⟨exchange, inner⟩ := Fence.exits_inner fault ⟨entered.1, fx.exchangeSeq + 1,
        Function.update fx.calls fx.exchangeSeq (some call)⟩ entered.2
      dsimp only
      split
      · have silent : (Fence.fail ⟨entered.1, fx.exchangeSeq + 1,
            Function.update fx.calls fx.exchangeSeq (some call)⟩ fx.exchangeSeq call pmixError).2.filterMap
              FenceEffect.inner = [] := rfl
        simp only [List.filterMap_append, inner, Fence.fail] at silent ⊢
        rw [exchange, silent, List.append_nil]
      · rw [exchange, inner]

omit [CFloat] in
theorem innerEffects_machine (effects : List PxEffect) :
    innerEffects (effects.map .machine) = effects.filterMap PxEffect.inner := by
  have all := results_machine (P := ServerCall) effects []
  rw [List.append_nil] at all
  rw [innerEffects, all]
  exact congrArg (List.filterMap PxEffect.inner) (List.append_nil _)

omit [CFloat] in
theorem innerEffects_fence (effects : List FenceEffect) :
    (effects.map PxEffect.fence).filterMap PxEffect.inner = effects.filterMap FenceEffect.inner := by
  rw [List.filterMap_map]
  rfl

/-- Only a fence upcall touches the exchange. -/
theorem Px.handle_inner (xcg : Exchange) (fault : PxFaults) (px : Px) (msg : Json) (handler : PxHandler) :
    ((px.handle xcg shell fault msg handler).1.fence.exchange = px.fence.exchange ∧
      (px.handle xcg shell fault msg handler).2.filterMap PxEffect.inner = []) ∨
    ∃ data id, Shell.next xcg px.fence.exchange (.enter data (some id), fault.fence.exchange) =
      ((px.handle xcg shell fault msg handler).1.fence.exchange,
        (px.handle xcg shell fault msg handler).2.filterMap PxEffect.inner) := by
  have others {E : Type} (effects : List E) (effect : E → PxEffect) (silent : ∀ e, (effect e).inner = none) :
      (effects.map effect).filterMap PxEffect.inner = [] := by
    rw [List.filterMap_map, List.filterMap_eq_nil_iff]
    exact fun e _ => silent e
  cases handler with
  | fence =>
    simp only [Px.handle, innerEffects_fence]
    exact fenceShellCb_inner xcg fault.fence px.fence msg
  | abort => exact .inl ⟨rfl, others _ _ fun _ => rfl⟩
  | dmodex =>
    rw [Px.handle]
    split
    · exact .inl ⟨rfl, others _ _ fun _ => rfl⟩
    · exact .inl ⟨rfl, rfl⟩
  | notify =>
    rw [Px.handle]
    split <;> exact .inl ⟨rfl, rfl⟩

theorem Px.recv_inner (xcg : Exchange) (px : Px) (msg : InterthreadMsg) (fault : PxFaults) :
    ((px.next xcg shell (.inl (msg, fault))).1.fence.exchange = px.fence.exchange ∧
      (px.next xcg shell (.inl (msg, fault))).2.filterMap PxEffect.inner = []) ∨
    ∃ data id, Shell.next xcg px.fence.exchange (.enter data (some id), fault.fence.exchange) =
      ((px.next xcg shell (.inl (msg, fault))).1.fence.exchange,
        (px.next xcg shell (.inl (msg, fault))).2.filterMap PxEffect.inner) := by
  simp only [Px.next]
  cases interthreadRecv px.it fault.topic msg with
  | handled cb msg => exact Px.handle_inner shell xcg fault px msg.payload cb
  | unhandled | undecoded => exact .inl ⟨rfl, rfl⟩

theorem pxStep_offer (xcg : Exchange) (st : PxState) (call : ServerCall) :
    (pxStep xcg shell st (.offer call)).1.machine = st.machine ∧
      innerEffects (pxStep xcg shell st (.offer call)).2 = [] := by
  cases sent : call.message with
  | none =>
    have same : pxStep xcg shell st (.offer call) = (st, [.refused call]) := by simp [pxStep, step, sent]
    rw [same]
    exact ⟨rfl, rfl⟩
  | some msg =>
    have same : pxStep xcg shell st (.offer call) = ({ st with queue := st.queue ++ [msg] }, [.accepted call]) := by
      simp [pxStep, step, sent]
    rw [same]
    exact ⟨rfl, rfl⟩

theorem pxStep_receive (xcg : Exchange) (st : PxState) (fault : PxFaults) :
    ((pxStep xcg shell st (.receive fault)).1.machine.fence.exchange = st.machine.fence.exchange ∧
      innerEffects (pxStep xcg shell st (.receive fault)).2 = []) ∨
    ∃ data id, Shell.next xcg st.machine.fence.exchange (.enter data (some id), fault.fence.exchange) =
      ((pxStep xcg shell st (.receive fault)).1.machine.fence.exchange,
        innerEffects (pxStep xcg shell st (.receive fault)).2) := by
  obtain ⟨px, queue⟩ := st
  cases queue with
  | nil => exact .inl ⟨rfl, rfl⟩
  | cons msg rest =>
    simp only [pxStep, step, innerEffects_machine]
    exact Px.recv_inner shell xcg px msg fault

theorem pxStep_direct (xcg : Exchange) (st : PxState) (event : ReactorEvent) (fault : FenceFaults) :
    Shell.next xcg st.machine.fence.exchange (event.event, fault.exchange) =
      ((pxStep xcg shell st (.direct (event, fault))).1.machine.fence.exchange,
        innerEffects (pxStep xcg shell st (.direct (event, fault))).2) := by
  simp only [pxStep, step, innerEffects_machine, Px.next, innerEffects_fence]
  exact Fence.callback_inner xcg fault st.machine.fence event.event

/-! ### The job -/

omit [CFloat] in
/-- What the network does with a shell's callback is what the job's shell does. -/
theorem Net.next_callback (net : Net) {given : Event Nat}
    (acts : net.event size action = some (rank, given.map fun _ => ())) {exchange : Shell Nat}
    (here : net.shells rank = exchange.map fun _ => ())
    (stepped : Shell.next (fenceExchange size rank) exchange (given, fault) = (after, effects)) :
    net.next size (action, fault) =
      ((net.deliver action).post (fenceExchange size rank)
          (after.map (fun _ => ()), effects.map (Effect.map fun _ => ())),
        effects.map fun e => (rank, e.map fun _ => ())) := by
  have mapped := @Shell.next_map _ _ (fun _ => ()) (fenceExchange size rank) fault exchange given
  rw [stepped, ← here] at mapped
  simp only [Net.next, acts, mapped, renamed, List.map_map, Function.comp_def]

omit [CFloat] in
/-- A step that leaves the exchange alone does nothing to the network. -/
theorem Job.post_silent (job : Job) (rank : Nat) (result : PxState × List PxOutput)
    (same : result.1.machine.fence.exchange = (job.shells rank).machine.fence.exchange)
    (silent : innerEffects result.2 = []) :
    (job.post (fenceExchange size rank) result).net = job.net ∧ exchangeTrace (result.2.map (rank, ·)) = [] := by
  rw [Job.post_net, exchangeTrace_shell, silent, same]
  exact ⟨Net.post_silent job.net size rank [] rfl rfl, rfl⟩

/-- The step is a run of the network under the failures of its exchange. -/
def Job.Simulated (job : Job) (input : JobAction × PxFaults) : Prop :=
  ∃ actions : List (Action × Faults), (∀ a ∈ actions, a.2 = input.2.fence.exchange) ∧
    exec (Net.next size) job.net actions =
      ((job.next size shell input).1.net, exchangeTrace (job.next size shell input).2)

variable {size} {job : Job} {action : JobAction} {fault : PxFaults} {rank : Nat}

theorem Job.simulated_idle (idle : job.input size fault action = none) : job.Simulated size shell (action, fault) := by
  refine ⟨[], nofun, ?_⟩
  simp only [Job.next, idle]
  rfl

theorem Job.simulated_silent {given : PxInput} (acts : job.input size fault action = some (rank, given))
    (delivers : job.deliver action = job)
    (same : (pxStep (fenceExchange size rank) shell (job.shells rank) given).1.machine.fence.exchange =
      (job.shells rank).machine.fence.exchange)
    (silent : innerEffects (pxStep (fenceExchange size rank) shell (job.shells rank) given).2 = []) :
    job.Simulated size shell (action, fault) := by
  obtain ⟨net, trace⟩ := Job.post_silent size job rank _ same silent
  refine ⟨[], nofun, ?_⟩
  simp only [Job.next, acts, delivers, net, trace]
  rfl

/-- A callback in the job is one in the network. -/
theorem Job.next_callback {given : PxInput} (acts : job.input size fault action = some (rank, given))
    (act : Action) (event : Event Nat) (alike : job.net.event size act = some (rank, event.map fun _ => ()))
    (delivers : (job.deliver action).net = job.net.deliver act)
    (stepped : Shell.next (fenceExchange size rank) (job.shells rank).machine.fence.exchange
        (event, fault.fence.exchange) =
      ((pxStep (fenceExchange size rank) shell (job.shells rank) given).1.machine.fence.exchange,
        innerEffects (pxStep (fenceExchange size rank) shell (job.shells rank) given).2)) :
    job.net.next size (act, fault.fence.exchange) =
      ((job.next size shell (action, fault)).1.net, exchangeTrace (job.next size shell (action, fault)).2) := by
  rw [Net.next_callback size job.net alike rfl stepped]
  simp only [Job.next, acts]
  rw [Job.post_net, exchangeTrace_shell, delivers]

theorem Job.simulated_callback (act : Action) (stepped : job.net.next size (act, fault.fence.exchange) =
      ((job.next size shell (action, fault)).1.net, exchangeTrace (job.next size shell (action, fault)).2)) :
    job.Simulated size shell (action, fault) := by
  refine ⟨[(act, fault.fence.exchange)], by simp, ?_⟩
  rw [exec, stepped, exec, List.append_nil]

/-- What the network does when the job runs a callback of the exchange. -/
def JobAction.reacts : JobAction → Option Action
  | .upcall _ _ | .receive _ => none
  | .deliverRequest i => some (.deliverRequest i)
  | .deliverResponse i => some (.deliverResponse i)
  | .dispatch rank matchtag => some (.dispatch rank matchtag)

theorem Job.next_reaction (job : Job) (reacts : action.reacts = some act)
    (acts : job.input size fault action = some (rank, given)) : job.net.next size (act, fault.fence.exchange) =
      ((job.next size shell (action, fault)).1.net, exchangeTrace (job.next size shell (action, fault)).2) := by
  cases action with
  | upcall | receive => cases reacts
  | deliverRequest i =>
    cases reacts
    obtain ⟨m, found, same⟩ := Option.map_eq_some_iff.mp acts
    cases same
    refine Job.next_callback shell acts (.deliverRequest i) _ ?_ rfl (pxStep_direct shell _ _ _ fault.fence)
    simp [Net.event, Job.net, found, ReactorEvent.event, Event.map]
  | deliverResponse i =>
    cases reacts
    obtain ⟨m, found, same⟩ := Option.map_eq_some_iff.mp acts
    cases same
    refine Job.next_callback shell acts (.deliverResponse i) _ ?_ rfl (pxStep_direct shell _ _ _ fault.fence)
    simp [Net.event, Job.net, found, ReactorEvent.event, Event.map]
  | dispatch _ matchtag =>
    cases reacts
    obtain ⟨inside, same⟩ := Option.ite_none_right_eq_some.mp acts
    cases same
    exact Job.next_callback shell acts (.dispatch rank matchtag) (.dispatch matchtag) (if_pos inside) rfl
      (pxStep_direct shell _ _ (.dispatch matchtag) fault.fence)

/-- A shell that takes up an upcall leaves the network alone or enters it. -/
theorem Job.next_receive (job : Job) (inside : rank < size) :
    ((job.next size shell (.receive rank, fault)).1.net = job.net ∧
      exchangeTrace (job.next size shell (.receive rank, fault)).2 = []) ∨
    ∃ data, job.net.next size (.enter rank data, fault.fence.exchange) =
      ((job.next size shell (.receive rank, fault)).1.net,
        exchangeTrace (job.next size shell (.receive rank, fault)).2) := by
  have acts : job.input size fault (.receive rank) = some (rank, .receive fault) := if_pos inside
  rcases pxStep_receive shell (fenceExchange size rank) (job.shells rank) fault with
    ⟨same, silent⟩ | ⟨data, id, stepped⟩
  · have unchanged := Job.post_silent size job rank _ same silent
    simp only [Job.next, acts]
    exact .inl unchanged
  · have simulated :=
      Job.next_callback shell acts (.enter rank data) (.enter data (some id)) (if_pos inside) rfl stepped
    exact .inr ⟨data, simulated⟩

/-- Every step of the job is one of its network, or none. -/
theorem Job.next_simulates (job : Job) (input : JobAction × PxFaults) : job.Simulated size shell input := by
  obtain ⟨action, fault⟩ := input
  cases acts : job.input size fault action with
  | none => exact Job.simulated_idle shell acts
  | some taker =>
    cases action with
    | upcall rank call =>
      obtain ⟨inside, _⟩ := Option.ite_none_right_eq_some.mp acts
      obtain ⟨machine, silent⟩ := pxStep_offer shell (fenceExchange size rank) (job.shells rank) call
      exact Job.simulated_silent shell (if_pos inside) rfl (congrArg (fun px => px.fence.exchange) machine) silent
    | receive rank =>
      obtain ⟨inside, _⟩ := Option.ite_none_right_eq_some.mp acts
      rcases @Job.next_receive _ size shell fault rank job inside with ⟨net, trace⟩ | ⟨data, stepped⟩
      · refine ⟨[], nofun, ?_⟩
        rw [net, trace]
        rfl
      · exact Job.simulated_callback shell _ stepped
    | deliverRequest i => exact Job.simulated_callback shell _ (job.next_reaction shell rfl acts)
    | deliverResponse i => exact Job.simulated_callback shell _ (job.next_reaction shell rfl acts)
    | dispatch rank matchtag => exact Job.simulated_callback shell _ (job.next_reaction shell rfl acts)

/-- Seen through its exchanges, every run of a job is a run of the exchange network. -/
theorem job_simulates (inputs : List (JobAction × PxFaults)) : ∃ actions,
    (∀ a ∈ actions, ∃ input ∈ inputs, a.2 = input.2.fence.exchange) ∧
    exec (Net.next size) Net.initial actions =
      ((exec (Job.next size shell) Job.initial inputs).1.net,
        exchangeTrace (exec (Job.next size shell) Job.initial inputs).2) := by
  have along : Along (Job.next size shell) (fun _ input => input ∈ inputs) Job.initial inputs :=
    along_forall (fun _ member => member) _
  refine exec_simulates (Net.next size) (fun a => ∃ input ∈ inputs, a.2 = input.2.fence.exchange) Job.net
    exchangeTrace rfl exchangeTrace_append ?_ along
  intro job input member
  obtain ⟨actions, failures, ran⟩ := job.next_simulates shell input
  exact ⟨actions, fun a inside => ⟨input, member, failures a inside⟩, ran⟩

end
end FluxPmix

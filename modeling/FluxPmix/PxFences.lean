import FluxPmix.FenceLedger

/-! The fences of one shell among its other upcalls. Whatever the other shells send, the fence calls that
were accepted are entered in the ledger in order. -/
namespace FluxPmix
open Mealy Handoff Ledger

/-- What a trace shows of the fences. -/
def fenceTrace (trace : List PxOutput) : List FenceEffect := (results trace).filterMap PxEffect.fenceEffect

theorem fenceTrace_append (trace more : List PxOutput) :
    fenceTrace (trace ++ more) = fenceTrace trace ++ fenceTrace more := by
  rw [fenceTrace, results_append, List.filterMap_append]
  rfl

theorem fenceTrace_machine (effects : List PxEffect) :
    fenceTrace (effects.map .machine) = effects.filterMap PxEffect.fenceEffect := by
  have all := results_machine (P := ServerCall) effects []
  rw [List.append_nil] at all
  rw [fenceTrace, all]
  exact congrArg (List.filterMap PxEffect.fenceEffect) (List.append_nil _)

theorem fenceEffect_fence (effects : List FenceEffect) :
    (effects.map PxEffect.fence).filterMap PxEffect.fenceEffect = effects := by
  rw [List.filterMap_map]
  exact List.filterMap_some

section
variable [CFloat]

/-- Sound upcalls, and nothing on the shell's thread fails. -/
def PxInput.Healthy : PxInput → Prop
  | .offer call => call.upcall.Sound
  | .receive fault => fault = {}
  | .direct (_, fault) => fault = {}

theorem PxInput.Healthy.sound {input : PxInput} (healthy : PxInput.Healthy input) : PxInput.Sound input := by
  cases input with
  | offer call => exact healthy
  | receive fault =>
    obtain rfl : fault = {} := healthy
    exact ⟨rfl, rfl, rfl, rfl⟩
  | direct reaction => trivial

/-- The fence calls among the upcalls that were taken up are the ones in the ledger. -/
def Px.Keeps (xcg : Exchange) (trace : List PxOutput) (st : PxState) : Prop :=
  ∃ taken waiting, Account taken waiting trace st ∧
    st.machine.fence.Kept xcg (taken.filterMap Upcall.fenceArgs) (fenceTrace trace) ∧
    ∀ upcall ∈ taken, upcall.Sound ∧ ∃ msg, upcall.pack = .ok msg

variable {xcg : Exchange} {shell : ShellInfo} {trace : List PxOutput} {st : PxState}

theorem Px.initial_keeps : Px.Keeps xcg [] PxState.initial :=
  ⟨[], [], initial_account, Fence.initial_kept xcg, List.forall_mem_nil _⟩

/-- Only the fence's handler touches it. -/
theorem Px.handle_fence (fault : PxFaults) (px : Px) (msg : Json) (handler : PxHandler) (other : handler ≠ .fence) :
    (px.handle xcg shell fault msg handler).1.fence = px.fence ∧
      (px.handle xcg shell fault msg handler).2.filterMap PxEffect.fenceEffect = [] := by
  have silent {E : Type} (effects : List E) (effect : E → PxEffect) (none : ∀ e, (effect e).fenceEffect = none) :
      (effects.map effect).filterMap PxEffect.fenceEffect = [] := by
    rw [List.filterMap_map, List.filterMap_eq_nil_iff]
    exact fun e _ => none e
  cases handler with
  | fence => contradiction
  | abort => exact ⟨rfl, silent _ _ fun _ => rfl⟩
  | dmodex =>
    rw [Px.handle]
    split
    · exact ⟨rfl, silent _ _ fun _ => rfl⟩
    · exact ⟨rfl, rfl⟩
  | notify =>
    rw [Px.handle]
    split <;> exact ⟨rfl, rfl⟩

omit [CFloat] in
theorem Upcall.fenceArgs_none {upcall : Upcall} (other : upcall.handler ≠ .fence) : upcall.fenceArgs = none := by
  cases upcall with
  | fence => exact absurd rfl other
  | _ => rfl

theorem Px.Keeps.step (keeps : Px.Keeps xcg trace st) (input : PxInput) (healthy : PxInput.Healthy input) :
    Px.Keeps xcg (trace ++ (pxStep xcg shell st input).2) (pxStep xcg shell st input).1 := by
  obtain ⟨taken, waiting, account, kept, good⟩ := keeps
  rcases @Account.step_cases _ xcg shell _ _ _ _ account input healthy.sound with
    ⟨call, rfl, stepped, after⟩ | ⟨call, msg, rfl, _, stepped, after⟩ | ⟨fault, rfl, _, stepped⟩ |
    ⟨fault, upcall, later, msg, queue, rfl, _, _, packed, sound, stepped, after⟩ | ⟨event, fault, rfl, stepped, after⟩
  · rw [stepped]
    refine ⟨taken, waiting, after, ?_, good⟩
    rw [fenceTrace_append]
    exact (List.append_nil (fenceTrace trace)).symm ▸ kept
  · rw [stepped]
    refine ⟨taken, _, after, ?_, good⟩
    rw [fenceTrace_append]
    exact (List.append_nil (fenceTrace trace)).symm ▸ kept
  · rw [stepped, List.append_nil]
    exact ⟨taken, waiting, account, kept, good⟩
  · obtain rfl : fault = {} := healthy
    rw [stepped]
    refine ⟨_, later, after, ?_, ?_⟩
    · rw [fenceTrace_append, fenceTrace_machine, List.filterMap_append]
      by_cases fence : upcall.handler = .fence
      · cases upcall with
        | fence args =>
          have up := kept.upcall sound.2 packed
          simp only [Px.handle, Upcall.handler, fenceEffect_fence]
          exact up
        | _ => cases fence
      · obtain ⟨same, silent⟩ := @Px.handle_fence _ xcg shell {} st.machine msg.payload upcall.handler fence
        rw [same, silent, List.filterMap_cons_none (Upcall.fenceArgs_none fence)]
        simpa using kept
    · intro other member
      rcases List.mem_append.mp member with old | new
      · exact good other old
      · obtain rfl := List.mem_singleton.mp new
        exact ⟨sound, msg, packed⟩
  · obtain rfl : fault = {} := healthy
    rw [stepped]
    refine ⟨taken, waiting, after, ?_, good⟩
    have elsewhere : ∀ data cb, event.event ≠ .enter data cb := by
      intro data cb same
      cases event <;> cases same
    rw [fenceTrace_append, fenceTrace_machine]
    simp only [Px.next, fenceEffect_fence]
    exact kept.callback event.event elsewhere

/-- In every run of one shell in which nothing fails there and every upcall is sound, with whatever messages
from the other shells, the fence calls that were taken up are those accepted first, they enter the exchange one
at a time and leave it in that order, a call that may enter is refused only while another is inside, and each
call is called back at most once, with its own arguments and as the rules have it. -/
theorem px_fence_ledger (xcg : Exchange) (shell : ShellInfo) (inputs : List PxInput)
    (healthy : ∀ input ∈ inputs, PxInput.Healthy input) :
    let final := exec (pxStep xcg shell) PxState.initial inputs
    ∃ taken waiting, acceptedUpcalls final.2 = taken ++ waiting ∧ waiting.length = final.1.queue.length ∧
      Valid fenceRules (bookOf (taken.filterMap Upcall.fenceArgs) (fenceTrace final.2)
        final.1.machine.fence.exchange.hook) := by
  intro final
  have admitted : Along (pxStep xcg shell) (fun _ input => PxInput.Healthy input) PxState.initial inputs :=
    along_forall healthy _
  obtain ⟨taken, waiting, account, kept, _⟩ := exec_invariant_nil (P := Px.Keeps xcg)
    (fun _ _ input keeps healthy => keeps.step input healthy) Px.initial_keeps admitted
  exact ⟨taken, waiting, account.accepted, account.queue.length_eq, kept.valid⟩

end

/-- A fence over the procs. -/
def fencing (procs : List PmixProc) (cbdata : UInt64) : ServerCall := ⟨.fence ⟨procs, [], [], 1, cbdata⟩, false⟩

/-- A fence waits for the other shell, a second one is refused meanwhile, and one that is not over the whole job
is refused once the first has ended. -/
def fencingRun : List PxInput :=
  [.offer (fencing [sampleProc] 7), .offer (fencing [sampleProc] 8), .receive {}, .receive {},
    .direct (.request ⟨1, 0, packData (.array [])⟩, {}), .offer (fencing [sampleProc, sampleProc] 9), .receive {}]

theorem px_fence_ledger_sample :
    let final := exec (@pxStep .verbatim (exchangeCreate 2 0 0) cyclicMap.shellInfo) PxState.initial fencingRun
    ∃ taken waiting, acceptedUpcalls final.2 = taken ++ waiting ∧ waiting.length = 0 ∧
      Valid fenceRules (bookOf (taken.filterMap Upcall.fenceArgs) (fenceTrace final.2)
        final.1.machine.fence.exchange.hook) ∧
      (fenceReplies (fenceTrace final.2)).map Prod.fst = [1, 0, 2] := by
  intro final
  have sound (procs : List PmixProc) (some : procs ≠ []) (cbdata : UInt64)
      (packed : ∃ msg, @Upcall.pack .verbatim (fencing procs cbdata).upcall = .ok msg) :
      @Upcall.Sound .verbatim (fencing procs cbdata).upcall := by
    obtain ⟨msg, packed⟩ := packed
    refine ⟨fun undefined => ?_, some, (by decide : (1 : UInt64) ≠ 0), List.forall_mem_nil _, Nat.two_pow_pos 63⟩
    cases packed.symm.trans undefined
  have healthy : ∀ input ∈ fencingRun, @PxInput.Healthy .verbatim input := by
    simp only [fencingRun, List.forall_mem_cons]
    refine ⟨sound _ ?_ _ ⟨_, rfl⟩, sound _ ?_ _ ⟨_, rfl⟩, rfl, rfl, rfl, sound _ ?_ _ ⟨_, rfl⟩, rfl, ?_⟩
    · exact List.cons_ne_nil _ _
    · exact List.cons_ne_nil _ _
    · exact List.cons_ne_nil _ _
    · exact List.forall_mem_nil _
  obtain ⟨taken, waiting, accepted, queue, valid⟩ :=
    @px_fence_ledger .verbatim (exchangeCreate 2 0 0) cyclicMap.shellInfo fencingRun healthy
  exact ⟨taken, waiting, accepted, queue, valid, rfl⟩

end FluxPmix

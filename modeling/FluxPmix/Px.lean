import FluxPmix.Abort
import FluxPmix.FenceUpcall
import FluxPmix.Interthread
import FluxPmix.ServerCallbacks

/-! The plugin on one shell. The server's thread calls it back for fences, aborts, direct modex requests
and events, and packs each upcall for the shell's thread, which takes them up in turn while it also runs
the callbacks of its exchange. -/
namespace FluxPmix
open Mealy Handoff

/-- What `interthread_register` is given with each topic. -/
inductive PxHandler where
  | fence
  | abort
  | dmodex
  | notify
  deriving DecidableEq

structure Px where
  it : Interthread PxHandler
  fence : Fence

/-- The registrations by `fence_create`, `abort_create`, `dmodex_create` and `notify_create`, in the
order `px_init` has them. -/
def pxRegistrations : List (Registration PxHandler) :=
  [⟨"fence_upcall", .fence⟩, ⟨"abort_upcall", .abort⟩, ⟨"dmodex_upcall", .dmodex⟩, ⟨"notify_upcall", .notify⟩]

def pxHandlers : Interthread PxHandler :=
  pxRegistrations.foldl (fun it r => (interthreadRegister it r.topic r.cb).2) interthreadCreate

def Px.initial : Px := ⟨pxHandlers, Fence.initial⟩

/-- Which calls fail while the shell's thread runs one callback. -/
structure PxFaults where
  topic : Bool := false
  dmodexCalloc : Bool := false
  notifyInfo : Bool := false
  notifyResults : Bool := false
  fence : FenceFaults := {}

inductive PxEffect where
  | fence (e : FenceEffect)
  | abort (e : AbortEffect)
  | dmodex (e : DmodexEffect)
  | notify (note : Option NotifyNote)
  | lost (msg : InterthreadMsg)
  | undefined

def PxEffect.fenceEffect : PxEffect → Option FenceEffect
  | .fence e => some e
  | _ => none

/-- What the exchange of a fence does. -/
def FenceEffect.inner : FenceEffect → Option (Effect Nat)
  | .exchange e => some e
  | _ => none

def PxEffect.inner (e : PxEffect) : Option (Effect Nat) := e.fenceEffect.bind FenceEffect.inner

/-- A callback of the exchange that the shell's reactor runs. -/
inductive ReactorEvent where
  | request (msg : Request)
  | fulfill (matchtag : Nat) (response : Response)
  | dispatch (matchtag : Nat)

def ReactorEvent.event : ReactorEvent → Event Nat
  | .request msg => .request msg
  | .fulfill matchtag response => .fulfill matchtag response
  | .dispatch matchtag => .dispatch matchtag

/-! ### Upcalls -/

/-- The arguments of `fence_server_cb`. -/
structure FenceArgs where
  procs : List PmixProc
  info : List PmixInfo
  data : List UInt8
  cbfunc : UInt64
  cbdata : UInt64

/-- A call of one of the four server callbacks, with its arguments. -/
inductive Upcall where
  | fence (args : FenceArgs)
  | abort (proc : PmixProc) (serverObject : UInt64) (status : Int32) (msg : Option CString)
      (procs : List PmixProc) (cbfunc cbdata : UInt64)
  | dmodex (proc : PmixProc) (info : List PmixInfo) (cbfunc cbdata : UInt64)
  | notify (evhdlrRegistrationId : UInt64) (status : Int32) (source : PmixProc) (info results : List PmixInfo)
      (cbfunc cbdata : UInt64)

def Upcall.topic : Upcall → String
  | .fence _ => "fence_upcall"
  | .abort _ _ _ _ _ _ _ => "abort_upcall"
  | .dmodex _ _ _ _ => "dmodex_upcall"
  | .notify _ _ _ _ _ _ _ => "notify_upcall"

def Upcall.handler : Upcall → PxHandler
  | .fence _ => .fence
  | .abort _ _ _ _ _ _ _ => .abort
  | .dmodex _ _ _ _ => .dmodex
  | .notify _ _ _ _ _ _ _ => .notify

def Upcall.fenceArgs : Upcall → Option FenceArgs
  | .fence args => some args
  | _ => none

section
variable [CFloat]

def FenceArgs.pack (args : FenceArgs) : Except Fault InterthreadMsg :=
  fenceUpcallPack args.procs args.info args.data args.cbfunc args.cbdata

def Upcall.pack : Upcall → Except Fault InterthreadMsg
  | .fence args => args.pack
  | .abort proc serverObject status msg procs cbfunc cbdata =>
    abortUpcallPack proc serverObject status msg procs cbfunc cbdata
  | .dmodex proc info cbfunc cbdata => dmodexUpcallPack proc info cbfunc cbdata
  | .notify id status source info results cbfunc cbdata => notifyUpcallPack id status source info results cbfunc cbdata

/-- What the callback sends. The one for events returns no status. -/
def Upcall.serverCb : Upcall → Except Fault (Option InterthreadMsg)
  | .fence ⟨procs, info, data, cbfunc, cbdata⟩ => (fenceServerCb procs info data cbfunc cbdata).map Prod.snd
  | .abort proc serverObject status msg procs cbfunc cbdata =>
    (abortServerCb proc serverObject status msg procs cbfunc cbdata).map Prod.snd
  | .dmodex proc info cbfunc cbdata => (dmodexServerCb proc info cbfunc cbdata).map Prod.snd
  | .notify id status source info results cbfunc cbdata => notifyServerCb id status source info results cbfunc cbdata

/-- Each of the callbacks sends what it packs. -/
theorem Upcall.serverCb_pack (upcall : Upcall) : upcall.serverCb = (upcallStatus upcall.pack).map Prod.snd := by
  cases upcall with
  | fence => rfl
  | abort => rfl
  | dmodex => rfl
  | notify id status source info results cbfunc cbdata =>
    rw [serverCb, notifyServerCb, pack]
    cases upcallStatus (notifyUpcallPack id status source info results cbfunc cbdata) <;> rfl

/-- An upcall as the server's thread makes it. What is packed may still fail to be sent. -/
structure ServerCall where
  upcall : Upcall
  sendFails : Bool := false

def ServerCall.message (call : ServerCall) : Option InterthreadMsg :=
  if call.sendFails then none else call.upcall.serverCb.toOption.join

/-! ### The shell's thread -/

variable (xcg : Exchange) (shell : ShellInfo)

def Px.handle (fault : PxFaults) (px : Px) (msg : Json) : PxHandler → Px × List PxEffect
  | .fence =>
    let (fence, effects) := fenceShellCb xcg fault.fence px.fence msg
    ({ px with fence := fence }, effects.map .fence)
  | .abort => (px, (abortShellCb msg).map .abort)
  | .dmodex =>
    match dmodexShellCb fault.dmodexCalloc shell msg with
    | .ok effects => (px, effects.map .dmodex)
    | .error _ => (px, [.undefined])
  | .notify =>
    match (notifyShellCb fault.notifyInfo fault.notifyResults msg).result with
    | .ok note => (px, [.notify note])
    | .error _ => (px, [.undefined])

def Px.next (px : Px) : Given InterthreadMsg PxFaults (ReactorEvent × FenceFaults) → Px × List PxEffect
  | .inl (msg, fault) =>
    match interthreadRecv px.it fault.topic msg with
    | .handled cb msg => px.handle xcg shell fault msg.payload cb
    | .unhandled msg => (px, [.lost msg])
    | .undecoded msg => (px, [.lost msg])
  | .inr (event, fault) =>
    let (fence, effects) := px.fence.callback xcg fault event.event
    ({ px with fence := fence }, effects.map .fence)

/-- Both threads: upcalls on one, receives and the exchange on the other. -/
abbrev pxStep := step ServerCall.message (Px.next xcg shell)

abbrev PxInput := Input ServerCall PxFaults (ReactorEvent × FenceFaults)

abbrev PxOutput := Output ServerCall PxEffect

abbrev PxState := State Px InterthreadMsg

def PxState.initial : PxState := ⟨Px.initial, []⟩

/-! ### What is asked of a run -/

def Timeless (info : List PmixInfo) : Prop := ∀ i ∈ info, i.value.type ≠ PmixType.timeval.code

/-- Something to fence over, whom to call back, no timeval, and no more data than an object has. -/
structure FenceArgs.Sound (args : FenceArgs) : Prop where
  procs : args.procs ≠ []
  cbfunc : args.cbfunc ≠ 0
  info : Timeless args.info
  data : args.data.length < 2 ^ 63

/-- An upcall whose packing is defined, and without a timeval, which the codec does not decode. -/
def Upcall.Sound (upcall : Upcall) : Prop :=
  upcall.pack ≠ .error .undefined ∧
    match upcall with
    | .fence args => args.Sound
    | .abort _ _ _ _ _ _ _ => True
    | .dmodex _ info _ _ => Timeless info
    | .notify _ _ _ info results _ _ => Timeless (info ++ results)

/-- Sound upcalls, and topics and infos that the shell's thread has the memory to read. What fails
in a fence or its exchange is left open. -/
def PxInput.Sound : PxInput → Prop
  | .offer call => call.upcall.Sound
  | .receive fault => fault.topic = false ∧ fault.dmodexCalloc = false ∧ fault.notifyInfo = false ∧
      fault.notifyResults = false
  | .direct _ => True

/-! ### The upcalls of a run -/

/-- The upcalls that were accepted on the server's thread, in order. -/
def acceptedUpcalls (trace : List PxOutput) : List Upcall := trace.filterMap fun e => e.acceptance.map ServerCall.upcall

/-- What was accepted has been taken up or waits as a message. -/
structure Account (taken waiting : List Upcall) (trace : List PxOutput) (st : PxState) : Prop where
  accepted : acceptedUpcalls trace = taken ++ waiting
  queue : List.Forall₂ (fun upcall msg => upcall.pack = .ok msg) waiting st.queue
  handlers : st.machine.it = pxHandlers
  sound : ∀ upcall ∈ waiting, upcall.Sound

omit [CFloat] in
theorem acceptedUpcalls_append (trace more : List PxOutput) :
    acceptedUpcalls (trace ++ more) = acceptedUpcalls trace ++ acceptedUpcalls more :=
  List.filterMap_append

omit [CFloat] in
theorem acceptedUpcalls_machine (trace : List PxOutput) (effects : List PxEffect) :
    acceptedUpcalls (trace ++ effects.map .machine) = acceptedUpcalls trace := by
  have none : acceptedUpcalls (effects.map .machine) = [] := by
    rw [acceptedUpcalls, List.filterMap_map, List.filterMap_eq_nil_iff]
    exact fun _ _ => rfl
  rw [acceptedUpcalls_append, none, List.append_nil]

omit [CFloat] in
theorem results_append (trace more : List PxOutput) : results (trace ++ more) = results trace ++ results more :=
  List.filterMap_append

omit [CFloat] in
theorem results_append_machine (trace : List PxOutput) (effects : List PxEffect) :
    results (trace ++ effects.map .machine) = results trace ++ effects := by
  have all := results_machine (P := ServerCall) effects []
  rw [List.append_nil] at all
  rw [results_append, all]
  exact congrArg (results trace ++ ·) (List.append_nil _)

theorem initial_account : Account [] [] [] PxState.initial := ⟨rfl, .nil, rfl, List.forall_mem_nil _⟩

theorem ServerCall.message_some {call : ServerCall} (sent : call.message = some msg) :
    call.upcall.pack = .ok msg := by
  rw [ServerCall.message] at sent
  split at sent
  · cases sent
  · rw [Upcall.serverCb_pack] at sent
    cases returned : upcallStatus call.upcall.pack with
    | ok result =>
      obtain ⟨rc, msgs⟩ := result
      rw [returned] at sent
      obtain rfl : msgs = some msg := sent
      exact upcallStatus_sent returned
    | error fault =>
      rw [returned] at sent
      cases sent

omit [CFloat] in
/-- The table has each topic under its own handler. -/
theorem pxHandlers_find (upcall : Upcall) : pxHandlers.find upcall.topic = some upcall.handler := by
  cases upcall with
  | fence => exact (by decide : pxHandlers.find "fence_upcall" = some .fence)
  | abort => exact (by decide : pxHandlers.find "abort_upcall" = some .abort)
  | dmodex => exact (by decide : pxHandlers.find "dmodex_upcall" = some .dmodex)
  | notify => exact (by decide : pxHandlers.find "notify_upcall" = some .notify)

theorem Upcall.pack_topic {upcall : Upcall} (packed : upcall.pack = .ok msg) : msg.topic = upcall.topic := by
  cases upcall with
  | fence args =>
    obtain ⟨_, _, _, _, _, _, rfl⟩ := fenceUpcallPack_ok.mp packed
    rfl
  | abort =>
    obtain ⟨_, _, _, _, _, rfl⟩ := abortUpcallPack_ok.mp packed
    rfl
  | dmodex =>
    obtain ⟨_, _, _, _, rfl⟩ := dmodexUpcallPack_ok.mp packed
    rfl
  | notify =>
    obtain ⟨_, _, _, _, _, _, rfl⟩ := notifyUpcallPack_ok.mp packed
    rfl

/-- Every upcall gets to its own handler. -/
theorem Px.next_packed {px : Px} {upcall : Upcall} (handlers : px.it = pxHandlers) (packed : upcall.pack = .ok msg)
    {fault : PxFaults} (decodes : fault.topic = false) :
    px.next xcg shell (.inl (msg, fault)) = px.handle xcg shell fault msg.payload upcall.handler := by
  have found := pxHandlers_find upcall
  rw [← Upcall.pack_topic packed] at found
  simp [Px.next, interthreadRecv, decodes, handlers, found]

variable {xcg shell} {taken waiting : List Upcall} {trace : List PxOutput} {st : PxState}

theorem Px.next_it (px : Px) (given : Given InterthreadMsg PxFaults (ReactorEvent × FenceFaults)) :
    (px.next xcg shell given).1.it = px.it := by
  cases given with
  | inr => rfl
  | inl received =>
    simp only [Px.next]
    split
    · rename_i cb _ _
      cases cb with
      | fence | abort => rfl
      | dmodex | notify =>
        simp only [Px.handle]
        split <;> rfl
    · rfl
    · rfl

/-- What one step can be: an upcall that is not sent, or is; a receive with nothing to take up, or of the
upcall that has waited longest; or a callback of the exchange. -/
theorem Account.step_cases (account : Account taken waiting trace st) (input : PxInput) (sound : input.Sound) :
    (∃ call, input = .offer call ∧ pxStep xcg shell st input = (st, [.refused call]) ∧
      Account taken waiting (trace ++ [.refused call]) st) ∨
    (∃ call msg, input = .offer call ∧ call.upcall.pack = .ok msg ∧
      pxStep xcg shell st input = ({ st with queue := st.queue ++ [msg] }, [.accepted call]) ∧
      Account taken (waiting ++ [call.upcall]) (trace ++ [.accepted call]) { st with queue := st.queue ++ [msg] }) ∨
    (∃ fault, input = .receive fault ∧ waiting = [] ∧ pxStep xcg shell st input = (st, [])) ∨
    (∃ fault upcall later msg queue, input = .receive fault ∧ waiting = upcall :: later ∧
      st.queue = msg :: queue ∧ upcall.pack = .ok msg ∧ upcall.Sound ∧
      pxStep xcg shell st input = (⟨(st.machine.handle xcg shell fault msg.payload upcall.handler).1, queue⟩,
        (st.machine.handle xcg shell fault msg.payload upcall.handler).2.map .machine) ∧
      Account (taken ++ [upcall]) later
        (trace ++ (st.machine.handle xcg shell fault msg.payload upcall.handler).2.map .machine)
        ⟨(st.machine.handle xcg shell fault msg.payload upcall.handler).1, queue⟩) ∨
    (∃ event fault, input = .direct (event, fault) ∧
      pxStep xcg shell st input = ({ st with machine := (st.machine.next xcg shell (.inr (event, fault))).1 },
        (st.machine.next xcg shell (.inr (event, fault))).2.map .machine) ∧
      Account taken waiting (trace ++ (st.machine.next xcg shell (.inr (event, fault))).2.map .machine)
        { st with machine := (st.machine.next xcg shell (.inr (event, fault))).1 }) := by
  obtain ⟨offers, queue, handlers, waits⟩ := account
  cases input with
  | offer call =>
    cases sent : call.message with
    | none =>
      refine .inl ⟨call, rfl, by simp [pxStep, step, sent], ?_, queue, handlers, waits⟩
      rw [acceptedUpcalls_append, offers]
      exact List.append_nil _
    | some msg =>
      have packed := ServerCall.message_some sent
      refine .inr (.inl ⟨call, msg, rfl, packed, by simp [pxStep, step, sent], ?_, ?_, handlers, ?_⟩)
      · rw [acceptedUpcalls_append, offers, List.append_assoc]
        rfl
      · exact List.rel_append queue (.cons packed .nil)
      · intro upcall member
        rcases List.mem_append.mp member with old | new
        · exact waits upcall old
        · obtain rfl := List.mem_singleton.mp new
          exact sound
  | receive fault =>
    obtain ⟨px, msgs⟩ := st
    cases queue with
    | nil => exact .inr (.inr (.inl ⟨fault, rfl, rfl, rfl⟩))
    | @cons upcall msg later rest packed others =>
      have next := Px.next_packed xcg shell handlers packed sound.1
      refine .inr (.inr (.inr (.inl ⟨fault, upcall, later, msg, rest, rfl, rfl, rfl, packed,
        waits upcall List.mem_cons_self, ?_, ?_, others, ?_, ?_⟩)))
      · simp only [pxStep, step]
        rw [next]
      · rw [acceptedUpcalls_machine, offers, List.append_assoc]
        rfl
      · rw [← next, Px.next_it]
        exact handlers
      · exact fun other member => waits other (List.mem_cons_of_mem _ member)
  | direct reaction =>
    obtain ⟨event, fault⟩ := reaction
    refine .inr (.inr (.inr (.inr ⟨event, fault, rfl, rfl, ?_, queue, ?_, waits⟩)))
    · rw [acceptedUpcalls_machine]
      exact offers
    · exact (@Px.next_it _ xcg shell st.machine (.inr (event, fault))).trans handlers

end
end FluxPmix

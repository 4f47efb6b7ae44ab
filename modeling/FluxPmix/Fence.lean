import FluxPmix.Upcall
import FluxPmix.Exchange.Session
import FluxPmix.Exchange.Data
import Mathlib.Logic.Function.Basic

/-! The fence upcall, from the server's callback to the exit of the exchange. A `fence_call` is
known to the exchange by its sequence number; the live ones are the heap of this model. -/
namespace FluxPmix

def pmixCollect : CharArray (pmixMaxKeylen + 1) :=
  ⟨literal "pmix.collect", by decide, by decide⟩

structure FenceCall where
  procs : List PmixProc
  info : List PmixInfo
  cbfunc : UInt64
  cbdata : UInt64
  collect : Bool

structure Fence where
  exchange : Shell Nat
  exchangeSeq : Nat
  calls : Nat → Option FenceCall

def Fence.initial : Fence := ⟨.idle, 0, fun _ => none⟩

/-- Which calls fail while one callback runs: the allocation of the `fence_call`, one inside
the decoders, the buffer for the gathered data, or a call of the exchange. And whether the
callback runs with the trace flag. -/
structure FenceFaults where
  callCreate : Bool := false
  decode : Bool := false
  getData : Bool := false
  exchange : Faults := {}
  trace : Bool := true

/-- `dropped` is a message that could not be unpacked, `stale` the exit callback of a
`fence_call` that was destroyed before. -/
inductive FenceEffect where
  | exchange (e : Effect Nat)
  | dropped
  | cbfunc (call : Nat) (cbfunc cbdata : UInt64) (status : Int32) (out : DataOutputs)
  | destroy (call : Nat)
  | stale (call : Nat)
  | undefined

/-! ### Leaving the exchange -/

/-- The status and data `exchange_exit_cb` passes on. -/
def exchangeExitData (fault : FenceFaults) (ses : Session Nat) : Except Fault (Int32 × DataOutputs) :=
  if ses.hasError then .ok (pmixError, ⟨none, 0⟩)
  else
    match exchangeGetData fault.getData ses.dataOut ⟨none, 0⟩ with
    | .ok (rc, out) => .ok (if rc < 0 then pmixError else pmixSuccess, out)
    | .error fault => .error fault

def exchangeExitCb (fault : FenceFaults) (fx : Fence) (id : Nat) (ses : Session Nat) :
    Fence × List FenceEffect :=
  match fx.calls id with
  | none => (fx, [.stale id])
  | some call =>
    match exchangeExitData fault ses with
    | .error _ => (fx, [.undefined])
    | .ok (status, out) =>
      ({ fx with calls := Function.update fx.calls id none },
        [.cbfunc id call.cbfunc call.cbdata status out, .destroy id])

/-- What a callback of the exchange does, with its exit callbacks run where they are called. -/
def Fence.exits (fault : FenceFaults) (fx : Fence) : List (Effect Nat) → Fence × List FenceEffect
  | [] => (fx, [])
  | e :: rest =>
    let (fx, called) : Fence × List FenceEffect :=
      match e with
      | .exit id ses => exchangeExitCb fault fx id ses
      | _ => (fx, [])
    let (fx, more) := Fence.exits fault fx rest
    (fx, .exchange e :: called ++ more)

/-! ### The upcall on the shell thread -/

section
variable [CFloat]

/-- The status of one attribute and the `collect` flag after it. -/
def parseFenceAttr (collect : Bool) (info : PmixInfo) : Int32 × Bool :=
  if info.key = pmixCollect then
    match info.value with
    | .bool flag => (pmixSuccess, flag || collect)
    | _ => (pmixErrBadParam, collect)
  else if info.flags &&& pmixInfoReqd ≠ 0 then (pmixErrBadParam, collect)
  else (pmixSuccess, collect)

/-- `for (int i = 0; i < fxcall->ninfo; i++)`, stopping at the first error. -/
def parseFenceAttrs : (i : Nat) → Bool → List PmixInfo → Except Fault (Int32 × Bool)
  | _, collect, [] => .ok (pmixSuccess, collect)
  | i, collect, info :: rest =>
    let (rc, collect) := parseFenceAttr collect info
    if rc ≠ pmixSuccess then .ok (rc, collect)
    else if i = intMax then .error .undefined
    else parseFenceAttrs (i + 1) collect rest

/-- The condition before `fence_shell_cb`'s first warning: the call and its data. -/
def fenceUpcallUnpack (msg : Json) : Except Fault (FenceCall × Json) := do
  let (xprocs, xinfo, xdata, xcbfunc, xcbdata, ()) ←
    jsonUnpack msg [.o, .o, .o, .o, .o] (keyed ["procs", "info", "data", "cbfunc", "cbdata"])
  let procs ← codecProcArrayDecode xprocs
  let info ← codecInfoArrayDecode xinfo
  let cbfunc ← codecPointerDecode xcbfunc
  let cbdata ← codecPointerDecode xcbdata
  if cbfunc = 0 then throw .error
  return (⟨procs, info, cbfunc, cbdata, false⟩, xdata)

/-- The checks between the two warnings. An empty array of procs is read at index 0. -/
def fenceCheck (call : FenceCall) : Except Fault (Int32 × Bool) :=
  match call.procs with
  | [] => .error .undefined
  | [proc] =>
    if proc.rank = pmixRankWildcard then parseFenceAttrs 0 call.collect call.info
    else .ok (pmixErrNotSupported, call.collect)
  | _ :: _ :: _ => .ok (pmixErrNotSupported, call.collect)

/-- What `fence_shell_cb` decides before it enters the exchange. -/
inductive Admission where
  | dropped
  | rejected (call : FenceCall) (rc : Int32)
  | entering (call : FenceCall) (data : Option Json)
  | undefined

/-- The trace message decodes the data of a collecting call once for its length. -/
def fenceAdmit (fault : FenceFaults) (msg : Json) : Admission :=
  if fault.decode then .dropped
  else
    match fenceUpcallUnpack msg with
    | .error .error => .dropped
    | .error .undefined => .undefined
    | .ok (call, xdata) =>
      match fenceCheck call with
      | .error _ => .undefined
      | .ok (rc, collect) =>
        if rc ≠ pmixSuccess then .rejected call rc
        else if collect then
          match if fault.trace then codecDataLength xdata else .ok 0 with
          | .error .undefined => .undefined
          | _ => .entering { call with collect := true } (some xdata)
        else .entering call none

/-- The label `error` of `fence_shell_cb`. -/
def Fence.fail (fx : Fence) (id : Nat) (call : FenceCall) (rc : Int32) : Fence × List FenceEffect :=
  ({ fx with calls := Function.update fx.calls id none },
    [.cbfunc id call.cbfunc call.cbdata rc ⟨none, 0⟩, .destroy id])

/-- The exchange's entry returned -1. -/
def Effect.failsEntry : Effect A → Bool
  | .enterFailed _ _ => true
  | _ => false

/-- The call of `exchange_enter_base64_string` and what follows it. -/
def Fence.enter (xcg : Exchange) (fault : FenceFaults) (fx : Fence) (id : Nat) (call : FenceCall)
    (data : Option Json) : Fence × List FenceEffect :=
  let (shell, effects) := exchangeEnterBase64String xcg fault.exchange fx.exchange data (some id)
  let (fx, called) := Fence.exits fault
    { fx with exchange := shell, calls := Function.update fx.calls id (some call) } effects
  if effects.any Effect.failsEntry then
    let (fx, last) := fx.fail id call pmixError
    (fx, called ++ last)
  else (fx, called)

def fenceShellCb (xcg : Exchange) (fault : FenceFaults) (fx : Fence) (msg : Json) :
    Fence × List FenceEffect :=
  if fault.callCreate then (fx, [.dropped])
  else
    let id := fx.exchangeSeq
    let fx := { fx with exchangeSeq := id + 1 }
    match fenceAdmit fault msg with
    | .dropped => (fx, [.dropped])
    | .undefined => (fx, [.undefined])
    | .rejected call rc => fx.fail id call rc
    | .entering call data => fx.enter xcg fault id call data

/-- What the shell's reactor can run next for a fence. -/
inductive FenceEvent where
  | upcall (msg : Json)
  | request (msg : Request)
  | fulfill (matchtag : Nat) (response : Response)
  | dispatch (matchtag : Nat)

def Fence.callback (xcg : Exchange) (fault : FenceFaults) (fx : Fence) (event : Event Nat) :
    Fence × List FenceEffect :=
  let (shell, effects) := Shell.next xcg fx.exchange (event, fault.exchange)
  Fence.exits fault { fx with exchange := shell } effects

def Fence.next (xcg : Exchange) (fx : Fence) : FenceEvent × FenceFaults → Fence × List FenceEffect
  | (.upcall msg, fault) => fenceShellCb xcg fault fx msg
  | (.request msg, fault) => fx.callback xcg fault (.request msg)
  | (.fulfill matchtag response, fault) => fx.callback xcg fault (.fulfill matchtag response)
  | (.dispatch matchtag, fault) => fx.callback xcg fault (.dispatch matchtag)

/-! ### The callback on the server thread -/

def fenceUpcallPack (procs : List PmixProc) (info : List PmixInfo) (data : List UInt8)
    (cbfunc cbdata : UInt64) : Except Fault InterthreadMsg := do
  let xprocs ← codecProcArrayEncode procs
  let xinfo ← codecInfoArrayEncode info
  let xdata ← codecDataEncode data
  interthreadSendPack "fence_upcall" [("procs", .O xprocs), ("info", .O xinfo), ("data", .O xdata),
    ("cbfunc", .O (codecPointerEncode cbfunc)), ("cbdata", .O (codecPointerEncode cbdata))]

def fenceServerCb (procs : List PmixProc) (info : List PmixInfo) (data : List UInt8)
    (cbfunc cbdata : UInt64) : Except Fault (Int32 × Option InterthreadMsg) :=
  upcallStatus (fenceUpcallPack procs info data cbfunc cbdata)

end
end FluxPmix

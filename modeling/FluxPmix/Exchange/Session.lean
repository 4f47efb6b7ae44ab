import FluxPmix.Exchange.Kary
import FluxPmix.Jansson

/-! One shell's side of the exchange: `session_process` and the three callbacks that call it.
`A` stands for an exit callback together with its argument. The calls of a callback that may
fail are listed in `Faults`; what it sends and calls is its list of effects. -/
namespace FluxPmix

/-- A `pmix-exchange` request as its handler holds it. A response goes back to the sender
under the matchtag. -/
structure Request where
  sender : Nat
  matchtag : Nat
  payload : Json

inductive Response where
  | payload (json : Json)
  | error (errno : Errno) (errstr : Option String)

/-- The future of a request to the parent with its completion registered. -/
structure Future where
  matchtag : Nat
  result : Option Response

/-- `"{s:O}", "data", data`. -/
def packData (data : Json) : Json := .object [("data", data)]

/-- `"{s:o}", "data", &data`. -/
def unpackData (payload : Json) : Option Json := payload.objectGet "data"

@[simp] theorem unpackData_packData (data : Json) : unpackData (packData data) = some data := rfl

/-- `flux_rpc_get_unpack`. -/
def Response.unpack : Response → Option Json
  | .payload json => unpackData json
  | .error _ _ => none

variable {A : Type}

structure Session (A : Type) where
  dataIn : List Json
  dataOut : Option Json
  exitCb : Option A
  requests : List Request
  f : Option Nat
  isLocal : Bool
  hasError : Bool

/-- What the exchange and the Flux handle hold between two callbacks. -/
structure Shell (A : Type) where
  session : Option (Session A)
  futures : List Future
  matchtags : Nat

def Shell.idle : Shell A := ⟨none, [], 0⟩

/-- Which calls fail while one callback runs; responses are numbered in the order sent. -/
structure Faults where
  sessionCreate : Bool := false
  arrayAppend : Bool := false
  arrayExtend : Bool := false
  msglistAppend : Bool := false
  rpcPack : Bool := false
  futureThen : Bool := false
  respondPack : Nat → Bool := fun _ => false
  respondError : Bool := false

inductive Effect (A : Type) where
  | entered (exitCb : A) (data : Option Json)
  | enterFailed (exitCb : Option A) (errno : Errno)
  | accept (msg : Request)
  | rpc (matchtag : Nat) (payload : Json)
  | respond (msg : Request) (dataOut : Option Json) (sent : Bool)
  | respondError (msg : Request) (errno : Errno) (errstr : Option String) (sent : Bool)
  | exit (exitCb : A) (ses : Session A)
  | destroy
  | crash

def sessionCreate : Session A where
  dataIn := []
  dataOut := none
  exitCb := none
  requests := []
  f := none
  isLocal := false
  hasError := false

/-- `flux_future_is_ready`. -/
def Shell.isReady (shell : Shell A) (f : Nat) : Bool :=
  shell.futures.any (fun future => future.matchtag == f && future.result.isSome)

/-- The label `done`: call the exit callback, destroy the session and its future. -/
def sessionDone (shell : Shell A) (ses : Session A) : Shell A × List (Effect A) :=
  ({ shell with
      session := none
      futures := shell.futures.filter (fun future => some future.matchtag != ses.f) },
    [ses.exitCb.elim .crash (.exit · ses), .destroy])

/-- The request to the parent. It goes out before its completion is registered, and a future
without completion is destroyed. -/
def sessionSend (fault : Faults) (shell : Shell A) (ses : Session A) :
    Shell A × Session A × List (Effect A) :=
  if fault.rpcPack then (shell, { ses with hasError := true }, [])
  else
    let tag := shell.matchtags
    let shell := { shell with matchtags := tag + 1 }
    let sent := [.rpc tag (packData (.array ses.dataIn))]
    if fault.futureThen then (shell, { ses with hasError := true }, sent)
    else ({ shell with futures := shell.futures ++ [⟨tag, none⟩] }, { ses with f := some tag }, sent)

/-- The response loop from its `i`th round: the queue it leaves, whether a response failed,
and the responses. Packing fails on a NULL `data_out`. -/
def respondLoop (fault : Faults) (dataOut : Option Json) :
    Nat → List Request → List Request × Bool × List (Effect A)
  | _, [] => ([], false, [])
  | i, msg :: rest =>
    if dataOut.isNone || fault.respondPack i then (rest, true, [.respond msg dataOut false])
    else
      let (left, failed, effects) := respondLoop fault dataOut (i + 1) rest
      (left, failed, .respond msg dataOut true :: effects)

def sessionProcess (xcg : Exchange) (fault : Faults) (shell : Shell A) (ses : Session A) :
    Shell A × List (Effect A) :=
  if ses.hasError then sessionDone shell ses
  -- awaiting self or child input
  else if !ses.isLocal || ses.requests.length < xcg.childCount then
    ({ shell with session := some ses }, [])
  else
    let (shell, ses, sent) :=
      if 0 < xcg.rank && ses.f.isNone then sessionSend fault shell ses else (shell, ses, [])
    if ses.hasError then
      let (shell, last) := sessionDone shell ses
      (shell, sent ++ last)
    -- awaiting the parent's response
    else if ses.f.any (fun f => !shell.isReady f) then ({ shell with session := some ses }, sent)
    else
      let ses := if xcg.rank = 0 then { ses with dataOut := some (.array ses.dataIn) } else ses
      let (left, failed, responses) := respondLoop fault ses.dataOut 0 ses.requests
      let (shell, last) := sessionDone shell { ses with requests := left, hasError := failed }
      (shell, sent ++ responses ++ last)

/-- `flux_rpc_get_unpack` into the session, or the error flag. -/
def Session.answer (ses : Session A) (response : Response) : Session A :=
  match response.unpack with
  | some data => { ses with dataOut := some data }
  | none => { ses with hasError := true }

/-- The parent answered. The C code dereferences the session unchecked. -/
def exchangeResponseCompletion (xcg : Exchange) (fault : Faults) (shell : Shell A)
    (response : Response) : Shell A × List (Effect A) :=
  match shell.session with
  | none => (shell, [.crash])
  | some ses => sessionProcess xcg fault shell (ses.answer response)

/-- The session there is, or a new one. -/
def Shell.ensureSession (shell : Shell A) (fault : Faults) : Option (Session A) :=
  match shell.session with
  | some ses => some ses
  | none => if fault.sessionCreate then none else some sessionCreate

/-- `json_array_extend`, which also refuses what is not an array. -/
def arrayExtend (fault : Faults) (dataIn : List Json) (data : Json) : Option (List Json) :=
  match data with
  | .array items => if fault.arrayExtend then none else some (dataIn ++ items)
  | _ => none

/-- A child's request arrived. -/
def exchangeRequestCb (xcg : Exchange) (fault : Faults) (shell : Shell A) (msg : Request) :
    Shell A × List (Effect A) :=
  let error (errno : Errno) (errstr : Option String) : List (Effect A) :=
    [.respondError msg errno errstr (!fault.respondError)]
  match unpackData msg.payload with
  | none => (shell, error .EPROTO none)
  | some data =>
    match shell.ensureSession fault with
    | none => (shell, error .ENOMEM none)
    | some ses =>
      if ses.requests.length = xcg.childCount then
        ({ shell with session := some ses },
          error .EINPROGRESS (some "exchange received too many child requests"))
      else
        match arrayExtend fault ses.dataIn data with
        | none =>
          ({ shell with session := some ses },
            error .ENOMEM (some "exchange request failed to extend data_in array"))
        | some dataIn =>
          if fault.msglistAppend then
            ({ shell with session := some { ses with dataIn := dataIn } },
              error .ENOMEM (some "exchange request failed to save pending request"))
          else
            let (shell, effects) := sessionProcess xcg fault shell
              { ses with dataIn := dataIn, requests := ses.requests ++ [msg] }
            (shell, .accept msg :: effects)

/-- This shell's own entry. After a failed append the session stays marked local. -/
def exchangeEnterBase64String (xcg : Exchange) (fault : Faults) (shell : Shell A)
    (data : Option Json) (exitCb : Option A) : Shell A × List (Effect A) :=
  match exitCb with
  | none => (shell, [.enterFailed exitCb .EINVAL])
  | some cb =>
    if data.any (fun data => !data.isString) then (shell, [.enterFailed exitCb .EINVAL])
    else
      match shell.ensureSession fault with
      | none => (shell, [.enterFailed exitCb .ENOMEM])
      | some ses =>
        if ses.isLocal then
          ({ shell with session := some ses }, [.enterFailed exitCb .EINPROGRESS])
        else
          let ses := { ses with exitCb := some cb, isLocal := true }
          if data.isSome && fault.arrayAppend then
            ({ shell with session := some ses }, [.entered cb data, .enterFailed exitCb .ENOMEM])
          else
            let (shell, effects) := sessionProcess xcg fault shell
              { ses with dataIn := ses.dataIn ++ data.toList }
            (shell, .entered cb data :: effects)

/-- What the reactor of one shell can run next. Between `fulfill` and `dispatch` the future is
ready and its completion has not run yet. -/
inductive Event (A : Type) where
  | enter (data : Option Json) (exitCb : Option A)
  | request (msg : Request)
  | fulfill (matchtag : Nat) (response : Response)
  | dispatch (matchtag : Nat)

def Future.fulfill (matchtag : Nat) (response : Response) (future : Future) : Future :=
  if future.matchtag = matchtag && future.result.isNone then
    { future with result := some response }
  else future

/-- The response a registered future holds under this matchtag. -/
def Shell.ready (shell : Shell A) (matchtag : Nat) : Option Response :=
  (shell.futures.find? (fun future => future.matchtag == matchtag)).bind Future.result

def Shell.next (xcg : Exchange) (shell : Shell A) : Event A × Faults → Shell A × List (Effect A)
  | (.enter data exitCb, fault) => exchangeEnterBase64String xcg fault shell data exitCb
  | (.request msg, fault) => exchangeRequestCb xcg fault shell msg
  | (.fulfill matchtag response, _) =>
    ({ shell with futures := shell.futures.map (Future.fulfill matchtag response) }, [])
  | (.dispatch matchtag, fault) =>
    match shell.ready matchtag with
    | some response => exchangeResponseCompletion xcg fault shell response
    | none => (shell, [])

end FluxPmix

import FluxPmix.Exchange.Session

/-! An exchange never looks into its exit callbacks: renaming them commutes with every callback of a
shell. So what holds of shells whose callbacks are forgotten holds of the shells of a fence. -/
namespace FluxPmix
variable {A B : Type} (rename : A → B)

def Session.map (ses : Session A) : Session B where
  dataIn := ses.dataIn
  dataOut := ses.dataOut
  exitCb := ses.exitCb.map rename
  requests := ses.requests
  f := ses.f
  isLocal := ses.isLocal
  hasError := ses.hasError

def Shell.map (shell : Shell A) : Shell B where
  session := shell.session.map (Session.map rename)
  futures := shell.futures
  matchtags := shell.matchtags

def Effect.map : Effect A → Effect B
  | .entered exitCb data => .entered (rename exitCb) data
  | .enterFailed exitCb errno => .enterFailed (exitCb.map rename) errno
  | .accept msg => .accept msg
  | .rpc matchtag payload => .rpc matchtag payload
  | .respond msg dataOut sent => .respond msg dataOut sent
  | .respondError msg errno errstr sent => .respondError msg errno errstr sent
  | .exit exitCb ses => .exit (rename exitCb) (ses.map rename)
  | .destroy => .destroy
  | .crash => .crash

def Event.map : Event A → Event B
  | .enter data exitCb => .enter data (exitCb.map rename)
  | .request msg => .request msg
  | .fulfill matchtag response => .fulfill matchtag response
  | .dispatch matchtag => .dispatch matchtag

/-- The outcome of a callback. -/
def renamed (result : Shell A × List (Effect A)) : Shell B × List (Effect B) :=
  (result.1.map rename, result.2.map (Effect.map rename))

variable {rename} (xcg : Exchange) (fault : Faults) (shell : Shell A) (ses : Session A)

@[simp] theorem Session.map_dataIn : (ses.map rename).dataIn = ses.dataIn := rfl
@[simp] theorem Session.map_dataOut : (ses.map rename).dataOut = ses.dataOut := rfl
@[simp] theorem Session.map_requests : (ses.map rename).requests = ses.requests := rfl
@[simp] theorem Session.map_f : (ses.map rename).f = ses.f := rfl
@[simp] theorem Session.map_isLocal : (ses.map rename).isLocal = ses.isLocal := rfl
@[simp] theorem Session.map_hasError : (ses.map rename).hasError = ses.hasError := rfl
@[simp] theorem Shell.map_isReady (f : Nat) : (shell.map rename).isReady f = shell.isReady f := rfl

theorem sessionDone_map : sessionDone (shell.map rename) (ses.map rename) = renamed rename (sessionDone shell ses) := by
  cases hook : ses.exitCb <;> simp [sessionDone, renamed, Shell.map, Session.map, Effect.map, hook]

theorem sessionSend_map : sessionSend fault (shell.map rename) (ses.map rename) =
    ((sessionSend fault shell ses).1.map rename, (sessionSend fault shell ses).2.1.map rename,
      (sessionSend fault shell ses).2.2.map (Effect.map rename)) := by
  simp only [sessionSend]
  split
  · rfl
  · split <;> rfl

theorem respondLoop_map (dataOut : Option Json) (i : Nat) (queue : List Request) :
    respondLoop (A := B) fault dataOut i queue =
      ((respondLoop (A := A) fault dataOut i queue).1, (respondLoop (A := A) fault dataOut i queue).2.1,
        (respondLoop (A := A) fault dataOut i queue).2.2.map (Effect.map rename)) := by
  induction queue generalizing i with
  | nil => rfl
  | cons msg rest ih =>
    simp only [respondLoop]
    split
    · rfl
    · rw [ih]
      rfl

/-- `session_process` after the place where it may have asked the parent. -/
def sessionSettle (xcg : Exchange) (fault : Faults) : Shell A × Session A × List (Effect A) →
    Shell A × List (Effect A)
  | (shell, ses, sent) =>
    if ses.hasError then ((sessionDone shell ses).1, sent ++ (sessionDone shell ses).2)
    else if ses.f.any (fun f => !shell.isReady f) then ({ shell with session := some ses }, sent)
    else
      let dataOut := if xcg.rank = 0 then some (.array ses.dataIn) else ses.dataOut
      let (left, failed, responses) := respondLoop fault dataOut 0 ses.requests
      let (shell, last) := sessionDone shell { ses with dataOut := dataOut, requests := left, hasError := failed }
      (shell, sent ++ responses ++ last)

theorem sessionProcess_settle : sessionProcess xcg fault shell ses =
    if ses.hasError then sessionDone shell ses
    else if !ses.isLocal || ses.requests.length < xcg.childCount then ({ shell with session := some ses }, [])
    else sessionSettle xcg fault
      (if 0 < xcg.rank && ses.f.isNone then sessionSend fault shell ses else (shell, ses, [])) := by
  simp only [sessionProcess, sessionSettle]
  split
  · rfl
  · split
    · rfl
    · by_cases root : xcg.rank = 0
      · simp only [root, if_true]
      · simp only [root, if_false]

theorem sessionSettle_map (sent : List (Effect A)) :
    sessionSettle xcg fault (shell.map rename, ses.map rename, sent.map (Effect.map rename)) =
      renamed rename (sessionSettle xcg fault (shell, ses, sent)) := by
  have ended (dataOut : Option Json) (left : List Request) (failed : Bool) := @sessionDone_map _ _ rename shell
    { ses with dataOut := dataOut, requests := left, hasError := failed }
  simp only [Session.map] at ended
  simp only [sessionSettle, Session.map_hasError, Session.map_f, Session.map_dataIn, Session.map_dataOut,
    Session.map_requests, Shell.map_isReady, @respondLoop_map A B rename]
  by_cases failed : ses.hasError = true
  · simp only [failed, if_true, sessionDone_map, renamed, List.map_append]
  · by_cases waits : ses.f.any (fun f => !shell.isReady f) = true
    · simp only [failed, waits, if_true, renamed]
      rfl
    · simp only [failed, waits, Bool.false_eq_true, if_false, Session.map, ended, renamed, List.map_append]

theorem sessionProcess_map :
    sessionProcess xcg fault (shell.map rename) (ses.map rename) =
      renamed rename (sessionProcess xcg fault shell ses) := by
  rw [sessionProcess_settle, sessionProcess_settle]
  by_cases failed : ses.hasError = true
  · have alike : (ses.map rename).hasError = true := failed
    rw [if_pos failed, if_pos alike]
    exact sessionDone_map shell ses
  · have alike : ¬ (ses.map rename).hasError = true := failed
    rw [if_neg failed, if_neg alike]
    by_cases waits : (!ses.isLocal || ses.requests.length < xcg.childCount) = true
    · have alike : (!(ses.map rename).isLocal || (ses.map rename).requests.length < xcg.childCount) = true := waits
      rw [if_pos waits, if_pos alike]
      rfl
    · have alike : ¬ (!(ses.map rename).isLocal || (ses.map rename).requests.length < xcg.childCount) = true := waits
      rw [if_neg waits, if_neg alike]
      by_cases asks : (0 < xcg.rank && ses.f.isNone) = true
      · have alike : (0 < xcg.rank && (ses.map rename).f.isNone) = true := asks
        rw [if_pos asks, if_pos alike, sessionSend_map]
        exact sessionSettle_map xcg fault _ _ _
      · have alike : ¬ (0 < xcg.rank && (ses.map rename).f.isNone) = true := asks
        rw [if_neg asks, if_neg alike]
        exact sessionSettle_map xcg fault shell ses []

theorem ensureSession_map :
    (shell.map rename).ensureSession fault = (shell.ensureSession fault).map (Session.map rename) := by
  cases live : shell.session with
  | some ses => simp [Shell.ensureSession, Shell.map, live]
  | none =>
    simp only [Shell.ensureSession, Shell.map, live, Option.map_none]
    split <;> rfl

theorem exchangeResponseCompletion_map (response : Response) :
    exchangeResponseCompletion xcg fault (shell.map rename) response =
      renamed rename (exchangeResponseCompletion xcg fault shell response) := by
  cases live : shell.session with
  | none => simp [exchangeResponseCompletion, Shell.map, live, renamed, Effect.map]
  | some ses =>
    have answer : (ses.map rename).answer response = (ses.answer response).map rename := by
      cases unpacked : response.unpack <;> simp [Session.answer, unpacked, Session.map]
    have mapped : (shell.map rename).session = some (ses.map rename) := by simp [Shell.map, live]
    simp only [exchangeResponseCompletion, mapped, live, answer]
    exact sessionProcess_map xcg fault shell (ses.answer response)

theorem exchangeRequestCb_map (msg : Request) : exchangeRequestCb xcg fault (shell.map rename) msg =
    renamed rename (exchangeRequestCb xcg fault shell msg) := by
  simp only [exchangeRequestCb, ensureSession_map]
  cases unpackData msg.payload with
  | none => rfl
  | some data =>
    cases shell.ensureSession fault with
    | none => rfl
    | some ses =>
      simp only [Option.map_some, Session.map_requests, Session.map_dataIn]
      by_cases full : ses.requests.length = xcg.childCount
      · simp only [full, if_true]
        rfl
      · simp only [full, if_false]
        cases arrayExtend fault ses.dataIn data with
        | none => rfl
        | some dataIn =>
          simp only
          cases fault.msglistAppend with
          | true => rfl
          | false =>
            have processed := @sessionProcess_map _ _ rename xcg fault shell
              { ses with dataIn := dataIn, requests := ses.requests ++ [msg] }
            simp only [Session.map] at processed
            simp only [Bool.false_eq_true, if_false, Session.map, processed]
            rfl

theorem exchangeEnterBase64String_map (data : Option Json) (exitCb : Option A) :
    exchangeEnterBase64String xcg fault (shell.map rename) data (exitCb.map rename) =
      renamed rename (exchangeEnterBase64String xcg fault shell data exitCb) := by
  cases exitCb with
  | none => rfl
  | some cb =>
    simp only [exchangeEnterBase64String, Option.map_some, ensureSession_map]
    by_cases text : data.any (fun data => !data.isString) = true
    · simp only [text, if_true]
      rfl
    · cases shell.ensureSession fault with
      | none => simp [text, renamed, Effect.map]
      | some ses =>
        simp only [Option.map_some, Session.map]
        by_cases entered : ses.isLocal = true
        · simp [text, entered, renamed, Shell.map, Session.map, Effect.map]
        · by_cases lost : (data.isSome && fault.arrayAppend) = true
          · simp [text, entered, lost, renamed, Shell.map, Session.map, Effect.map]
          · have processed := @sessionProcess_map _ _ rename xcg fault shell
              { ses with exitCb := some cb, isLocal := true, dataIn := ses.dataIn ++ data.toList }
            simp only [Session.map, Option.map_some] at processed
            simp only [text, entered, lost, Bool.false_eq_true, if_false, processed]
            rfl

/-- Renaming commutes with every callback of a shell. -/
theorem Shell.next_map (event : Event A) :
    (shell.map rename).next xcg (event.map rename, fault) = renamed rename (shell.next xcg (event, fault)) := by
  cases event with
  | enter data exitCb => exact exchangeEnterBase64String_map xcg fault shell data exitCb
  | request msg => exact exchangeRequestCb_map xcg fault shell msg
  | fulfill matchtag response => rfl
  | dispatch matchtag =>
    have same : (shell.map rename).ready matchtag = shell.ready matchtag := rfl
    simp only [Event.map, Shell.next, same]
    cases shell.ready matchtag with
    | none => rfl
    | some response => exact exchangeResponseCompletion_map xcg fault shell response

end FluxPmix

import FluxPmix.Exchange.Session
import Mathlib.Data.List.Induction

/-! What one callback can do to a shell. Between callbacks a session is sound: it holds an
upstream future only once it is complete, and neither output nor error. From there every
callback has one of the outcomes of `Stepped`, and each is sound again. -/
namespace FluxPmix
variable {A : Type}

section
variable {xcg : Exchange} {fault : Faults} {shell : Shell A} {ses : Session A}

/-- The local entry was made and every child has sent its request. -/
def Session.complete (xcg : Exchange) (ses : Session A) : Prop :=
  ses.isLocal = true ∧ ses.requests.length = xcg.childCount

/-- The session's upstream future is the shell's only one. -/
def Session.Upstream (xcg : Exchange) (ses : Session A) (futures : List Future) : Prop :=
  match ses.f with
  | none => futures = []
  | some tag => 0 < xcg.rank ∧ ses.complete xcg ∧ ∃ result, futures = [⟨tag, result⟩]

structure Session.Sound (xcg : Exchange) (ses : Session A) (futures : List Future) : Prop where
  bounded : ses.requests.length ≤ xcg.childCount
  clean : ses.hasError = false
  noOutput : ses.dataOut = none
  hooked : ses.exitCb.isSome = ses.isLocal
  upstream : ses.Upstream xcg futures

def Shell.Sound (xcg : Exchange) (shell : Shell A) : Prop :=
  match shell.session with
  | none => shell.futures = []
  | some ses => ses.Sound xcg shell.futures

theorem Shell.idle_sound : (Shell.idle : Shell A).Sound xcg := rfl

theorem Shell.Sound.live (sound : shell.Sound xcg) (live : shell.session = some ses) :
    ses.Sound xcg shell.futures := by
  simpa only [Shell.Sound, live] using sound

theorem Shell.Sound.noFutures (sound : shell.Sound xcg) (idle : shell.session = none) :
    shell.futures = [] := by
  simpa only [Shell.Sound, idle] using sound

theorem Session.Sound.noFutures (sound : ses.Sound xcg futures) (gathering : ses.f = none) :
    futures = [] := by
  simpa only [Session.Upstream, gathering] using sound.upstream

theorem Session.Sound.asked (sound : ses.Sound xcg futures) (upstream : ses.f = some tag) :
    0 < xcg.rank ∧ ses.complete xcg ∧ ∃ result, futures = [⟨tag, result⟩] := by
  simpa only [Session.Upstream, upstream] using sound.upstream

/-- The children's requests a shell has accepted and not answered. -/
def Shell.waiting (shell : Shell A) : List Request := shell.session.elim [] Session.requests

theorem Shell.waiting_live (live : shell.session = some ses) : shell.waiting = ses.requests := by
  rw [Shell.waiting, live]
  rfl

/-! ### Responses -/

/-- Responses that are all sent from index `i` on: the one at `i`, and the ones after it. -/
theorem Faults.sent_cons {fault : Faults} (sent : ∀ n < count + 1, fault.respondPack (i + n) = false) :
    fault.respondPack i = false ∧ ∀ n < count, fault.respondPack (i + 1 + n) = false := by
  refine ⟨sent 0 (Nat.succ_pos count), ?_⟩
  intro n below
  have := sent (n + 1) (Nat.succ_lt_succ below)
  rwa [Nat.add_comm n 1, ← Nat.add_assoc] at this

theorem respondLoop_sent (data : Json) (i : Nat) (queue : List Request)
    (sent : ∀ n < queue.length, fault.respondPack (i + n) = false) :
    respondLoop (A := A) fault (some data) i queue =
      ([], false, queue.map (.respond · (some data) true)) := by
  induction queue generalizing i with
  | nil => rfl
  | cons msg rest ih =>
    obtain ⟨first, others⟩ := Faults.sent_cons sent
    simp [respondLoop, first, ih (i + 1) others]

/-- The loop stops at the first response that fails. -/
theorem respondLoop_broken (data : Json) (i : Nat) (answered : List Request) (msg : Request)
    (left : List Request) (sent : ∀ n < answered.length, fault.respondPack (i + n) = false)
    (fails : fault.respondPack (i + answered.length) = true) :
    respondLoop (A := A) fault (some data) i (answered ++ msg :: left) =
      (left, true, answered.map (.respond · (some data) true) ++ [.respond msg (some data) false]) := by
  induction answered generalizing i with
  | nil =>
    have first : fault.respondPack i = true := fails
    simp [respondLoop, first]
  | cons head rest ih =>
    obtain ⟨first, others⟩ := Faults.sent_cons sent
    have last : fault.respondPack (i + 1 + rest.length) = true := by
      rwa [List.length_cons, Nat.add_comm rest.length 1, ← Nat.add_assoc] at fails
    simp [respondLoop, first, ih (i + 1) others last]

/-- Either no response of a queue fails, or there is a first one that does. -/
theorem Faults.first_failure (fault : Faults) (queue : List Request) :
    (∀ n < queue.length, fault.respondPack n = false) ∨
      ∃ answered msg left, queue = answered ++ msg :: left ∧
        (∀ n < answered.length, fault.respondPack n = false) ∧
        fault.respondPack answered.length = true := by
  induction queue using List.reverseRecOn with
  | nil => exact .inl (by simp)
  | append_singleton queue msg ih =>
    rcases ih with sent | ⟨answered, first, left, rfl, sent, fails⟩
    · cases last : fault.respondPack queue.length with
      | true => exact .inr ⟨queue, msg, [], rfl, sent, last⟩
      | false =>
        refine .inl (fun n below => ?_)
        rcases Nat.lt_succ_iff_lt_or_eq.mp (by simpa using below) with earlier | rfl
        · exact sent n earlier
        · exact last
    · exact .inr ⟨answered, first, left ++ [msg], by simp, sent, fails⟩

/-! ### One call of `session_process` -/

/-- Where the responses' data comes from: the root's own array, or the parent. -/
def Session.Output (xcg : Exchange) (ses : Session A) (data : Json) : Prop :=
  (ses.f = none ∧ xcg.rank = 0 ∧ data = .array ses.dataIn) ∨
    (ses.f ≠ none ∧ 0 < xcg.rank ∧ ses.dataOut = some data)

/-- The ways through `session_process` from a sound session, with what each leaves and sends. -/
inductive Processed (xcg : Exchange) (fault : Faults) (shell : Shell A) (ses : Session A) :
    Shell A × List (Effect A) → Prop
  | waits (gathering : ses.f = none)
      (incomplete : ses.isLocal = false ∨ ses.requests.length < xcg.childCount) :
      Processed xcg fault shell ses (⟨some ses, [], shell.matchtags⟩, [])
  | unsent (cb : A) (hook : ses.exitCb = some cb) (complete : ses.complete xcg)
      (gathering : ses.f = none) (below : 0 < xcg.rank) (fails : fault.rpcPack = true) :
      Processed xcg fault shell ses
        (⟨none, [], shell.matchtags⟩, [.exit cb { ses with hasError := true }, .destroy])
  | unregistered (cb : A) (hook : ses.exitCb = some cb) (complete : ses.complete xcg)
      (gathering : ses.f = none) (below : 0 < xcg.rank) (sends : fault.rpcPack = false)
      (fails : fault.futureThen = true) :
      Processed xcg fault shell ses
        (⟨none, [], shell.matchtags + 1⟩, [.rpc shell.matchtags (packData (.array ses.dataIn)),
          .exit cb { ses with hasError := true }, .destroy])
  | sent (complete : ses.complete xcg) (gathering : ses.f = none) (below : 0 < xcg.rank)
      (sends : fault.rpcPack = false) (registers : fault.futureThen = false) :
      Processed xcg fault shell ses
        (⟨some { ses with f := some shell.matchtags }, [⟨shell.matchtags, none⟩], shell.matchtags + 1⟩,
          [.rpc shell.matchtags (packData (.array ses.dataIn))])
  | refused (cb : A) (hook : ses.exitCb = some cb) (complete : ses.complete xcg)
      (upstream : ses.f ≠ none) (below : 0 < xcg.rank) (failed : ses.hasError = true) :
      Processed xcg fault shell ses (⟨none, [], shell.matchtags⟩, [.exit cb ses, .destroy])
  | answered (cb : A) (data : Json) (hook : ses.exitCb = some cb) (complete : ses.complete xcg)
      (output : ses.Output xcg data)
      (sent : ∀ n < ses.requests.length, fault.respondPack n = false) :
      Processed xcg fault shell ses (⟨none, [], shell.matchtags⟩,
        ses.requests.map (.respond · (some data) true) ++
          [.exit cb { ses with dataOut := some data, requests := [], hasError := false }, .destroy])
  | broken (cb : A) (data : Json) (answered : List Request) (msg : Request) (left : List Request)
      (hook : ses.exitCb = some cb) (complete : ses.complete xcg) (output : ses.Output xcg data)
      (queue : ses.requests = answered ++ msg :: left)
      (fails : fault.respondPack answered.length = true) :
      Processed xcg fault shell ses (⟨none, [], shell.matchtags⟩,
        answered.map (.respond · (some data) true) ++ [.respond msg (some data) false,
          .exit cb { ses with dataOut := some data, requests := left, hasError := true }, .destroy])

theorem sessionDone_eq (ses : Session A) (hook : ses.exitCb = some cb)
    (own : ∀ future ∈ shell.futures, ses.f = some future.matchtag) :
    sessionDone shell ses = (⟨none, [], shell.matchtags⟩, [.exit cb ses, .destroy]) := by
  have dropped : shell.futures.filter (fun future => some future.matchtag != ses.f) = [] := by
    refine List.filter_eq_nil_iff.mpr (fun future member => ?_)
    simp [own future member]
  simp [sessionDone, hook, dropped]

theorem Session.complete.hook (complete : ses.complete xcg) (hooked : ses.exitCb.isSome = ses.isLocal) :
    ∃ cb, ses.exitCb = some cb :=
  Option.isSome_iff_exists.mp (hooked.trans complete.1)

theorem Session.complete_or (bounded : ses.requests.length ≤ xcg.childCount) :
    ses.complete xcg ∨ ses.isLocal = false ∨ ses.requests.length < xcg.childCount := by
  cases entered : ses.isLocal with
  | false => exact .inr (.inl rfl)
  | true =>
    rcases Nat.lt_or_ge ses.requests.length xcg.childCount with fewer | enough
    · exact .inr (.inr fewer)
    · exact .inl ⟨entered, Nat.le_antisymm bounded enough⟩

/-- The end of `session_process` once the output is known. -/
theorem sessionRespond_processed (fault : Faults) (shell : Shell A)
    (hooked : ses.exitCb.isSome = ses.isLocal)
    (complete : ses.complete xcg) (output : ses.Output xcg data)
    (own : ∀ future ∈ shell.futures, ses.f = some future.matchtag) :
    Processed xcg fault shell ses
      (let (left, failed, responses) := respondLoop fault (some data) 0 ses.requests
       let (shell, last) := sessionDone shell
        { ses with dataOut := some data, requests := left, hasError := failed }
       (shell, responses ++ last)) := by
  obtain ⟨cb, hook⟩ := complete.hook hooked
  rcases fault.first_failure ses.requests with sent | ⟨answered, msg, left, queue, sent, fails⟩
  · rw [respondLoop_sent data 0 _ (by simpa using sent)]
    simp only
    rw [sessionDone_eq { ses with dataOut := some data, requests := [], hasError := false } hook own]
    exact .answered cb data hook complete output sent
  · rw [queue, respondLoop_broken data 0 _ _ _ (by simpa using sent) (by simpa using fails)]
    simp only
    rw [sessionDone_eq { ses with dataOut := some data, requests := left, hasError := true } hook own]
    simpa using Processed.broken cb data answered msg left hook complete output queue fails

/-- Called while the session gathers, before anything was sent upstream. -/
theorem sessionProcess_gathering (sound : ses.Sound xcg shell.futures) (gathering : ses.f = none) :
    Processed xcg fault shell ses (sessionProcess xcg fault shell ses) := by
  have noFutures := sound.noFutures gathering
  obtain ⟨bounded, clean, noOutput, hooked, upstream⟩ := sound
  rcases Session.complete_or bounded with complete | incomplete
  · obtain ⟨cb, hook⟩ := complete.hook hooked
    have proceeds : (!ses.isLocal || decide (ses.requests.length < xcg.childCount)) = false := by
      simp [complete.1, complete.2]
    rcases Nat.eq_zero_or_pos xcg.rank with root | below
    · have respond := sessionRespond_processed fault shell hooked complete
        (.inl ⟨gathering, root, rfl⟩) (by simp [noFutures])
      simpa [sessionProcess, clean, proceeds, root, gathering] using respond
    · have sends : (decide (0 < xcg.rank) && ses.f.isNone) = true := by simp [below, gathering]
      simp only [sessionProcess, clean, proceeds, sends, if_true, Bool.false_eq_true, if_false]
      cases packs : fault.rpcPack with
      | true =>
        simp only [sessionSend, packs, if_true]
        rw [sessionDone_eq { ses with hasError := true } hook (by simp [noFutures])]
        exact .unsent cb hook complete gathering below packs
      | false =>
        cases registers : fault.futureThen with
        | true =>
          simp only [sessionSend, packs, registers, if_true, Bool.false_eq_true, if_false]
          rw [sessionDone_eq { ses with hasError := true } hook (by simp [noFutures])]
          exact .unregistered cb hook complete gathering below packs registers
        | false =>
          have unready : (some shell.matchtags).any (fun f => !Shell.isReady (A := A)
              ⟨shell.session, [⟨shell.matchtags, none⟩], shell.matchtags + 1⟩ f) = true := by
            simp [Shell.isReady]
          simp only [sessionSend, packs, registers, clean, noFutures, List.nil_append, unready, if_true,
            Bool.false_eq_true, if_false]
          have outcome : Processed xcg fault shell ses _ := .sent complete gathering below packs registers
          simpa only [clean] using outcome
  · have waits : (!ses.isLocal || decide (ses.requests.length < xcg.childCount)) = true := by
      simpa using incomplete
    have stored : sessionProcess xcg fault shell ses = (⟨some ses, [], shell.matchtags⟩, []) := by
      simp [sessionProcess, clean, waits, ← noFutures]
    rw [stored]
    exact .waits gathering incomplete

/-- Called by the completion, with the parent's data or its error. -/
theorem sessionProcess_completion (hooked : ses.exitCb.isSome = ses.isLocal)
    (complete : ses.complete xcg) (below : 0 < xcg.rank) (upstream : ses.f = some tag)
    (ready : shell.futures = [⟨tag, some response⟩])
    (answer : ses.hasError = true ∨ (ses.hasError = false ∧ ses.dataOut = some data)) :
    Processed xcg fault shell ses (sessionProcess xcg fault shell ses) := by
  have own : ∀ future ∈ shell.futures, ses.f = some future.matchtag := by
    simp [ready, upstream]
  rcases answer with failed | ⟨clean, answer⟩
  · obtain ⟨cb, hook⟩ := complete.hook hooked
    simp only [sessionProcess, failed, if_true]
    rw [sessionDone_eq ses hook own]
    exact .refused cb hook complete (by simp [upstream]) below failed
  · have proceeds : (!ses.isLocal || decide (ses.requests.length < xcg.childCount)) = false := by
      simp [complete.1, complete.2]
    have isReady : shell.isReady tag = true := by simp [Shell.isReady, ready]
    have respond := sessionRespond_processed fault shell hooked complete
      (.inr ⟨by simp [upstream], below, answer⟩) own
    have nonroot : xcg.rank ≠ 0 := by omega
    simp only [sessionProcess, clean, proceeds, upstream, isReady, nonroot, Option.isNone_some,
      Bool.and_false, Bool.false_eq_true, if_false, Option.any_some, Bool.not_true, answer,
      List.nil_append]
    simpa [upstream] using respond

end

/-! ### One callback -/

/-- Why a request that found a session is answered with an error, what is then in `data_in`,
and the error. -/
inductive Rejection (xcg : Exchange) (fault : Faults) (ses : Session A) (data : Json) :
    List Json → Errno → String → Prop
  | surplus (full : ses.requests.length = xcg.childCount) :
      Rejection xcg fault ses data ses.dataIn .EINPROGRESS "exchange received too many child requests"
  | unextended (fails : arrayExtend fault ses.dataIn data = none) :
      Rejection xcg fault ses data ses.dataIn .ENOMEM "exchange request failed to extend data_in array"
  | unsaved (extended : arrayExtend fault ses.dataIn data = some dataIn)
      (fails : fault.msglistAppend = true) :
      Rejection xcg fault ses data dataIn .ENOMEM "exchange request failed to save pending request"

/-- Everything a callback can do to a sound shell. -/
inductive Stepped (xcg : Exchange) (shell : Shell A) :
    Event A × Faults → Shell A × List (Effect A) → Prop
  | unentered (data : Option Json) (exitCb : Option A) (errno : Errno) :
      Stepped xcg shell (.enter data exitCb, fault) (shell, [.enterFailed exitCb errno])
  | unappended (data : Json) (cb : A) (string : data.isString = true)
      (opened : shell.ensureSession fault = some ses)
      (fresh : ses.isLocal = false) (fails : fault.arrayAppend = true) :
      Stepped xcg shell (.enter (some data) (some cb), fault)
        ({ shell with session := some { ses with exitCb := some cb, isLocal := true } },
          [.entered cb (some data), .enterFailed (some cb) .ENOMEM])
  | entered (data : Option Json) (cb : A) (string : data.all Json.isString = true)
      (opened : shell.ensureSession fault = some ses) (fresh : ses.isLocal = false)
      (appends : (data.isSome && fault.arrayAppend) = false)
      (processed : Processed xcg fault shell { ses with
        exitCb := some cb, isLocal := true, dataIn := ses.dataIn ++ data.toList } result) :
      Stepped xcg shell (.enter data (some cb), fault) (result.1, .entered cb data :: result.2)
  | unopened (msg : Request) (errno : Errno)
      (fails : unpackData msg.payload = none ∨ fault.sessionCreate = true) :
      Stepped xcg shell (.request msg, fault)
        (shell, [.respondError msg errno none (!fault.respondError)])
  | rejected (msg : Request) (payload : unpackData msg.payload = some data)
      (opened : shell.ensureSession fault = some ses)
      (rejection : Rejection xcg fault ses data dataIn errno errstr) :
      Stepped xcg shell (.request msg, fault)
        ({ shell with session := some { ses with dataIn := dataIn } },
          [.respondError msg errno (some errstr) (!fault.respondError)])
  | accepted (msg : Request) (items : List Json)
      (payload : unpackData msg.payload = some (.array items))
      (opened : shell.ensureSession fault = some ses)
      (room : ses.requests.length < xcg.childCount)
      (grows : fault.arrayExtend = false) (saves : fault.msglistAppend = false)
      (processed : Processed xcg fault shell { ses with
        dataIn := ses.dataIn ++ items, requests := ses.requests ++ [msg] } result) :
      Stepped xcg shell (.request msg, fault) (result.1, .accept msg :: result.2)
  | fulfilled (matchtag : Nat) (response : Response) :
      Stepped xcg shell (.fulfill matchtag response, fault)
        ({ shell with futures := shell.futures.map (Future.fulfill matchtag response) }, [])
  | undispatched (matchtag : Nat) : Stepped xcg shell (.dispatch matchtag, fault) (shell, [])
  | completed (matchtag : Nat) (response : Response) (live : shell.session = some ses)
      (upstream : ses.f = some matchtag) (ready : shell.futures = [⟨matchtag, some response⟩])
      (processed : Processed xcg fault shell (ses.answer response) result) :
      Stepped xcg shell (.dispatch matchtag, fault) result

variable {xcg : Exchange} {fault : Faults} {shell : Shell A} {ses : Session A}

theorem Shell.Sound.opened (sound : shell.Sound xcg) (opened : shell.ensureSession fault = some ses) :
    ses.Sound xcg shell.futures := by
  cases live : shell.session with
  | some old =>
    simp only [Shell.ensureSession, live, Option.some.injEq] at opened
    subst opened
    exact sound.live live
  | none =>
    simp only [Shell.ensureSession, live, Option.ite_none_left_eq_some, Option.some.injEq] at opened
    obtain ⟨_, rfl⟩ := opened
    exact ⟨Nat.zero_le _, rfl, rfl, rfl, sound.noFutures live⟩

theorem Session.Sound.gathering (sound : ses.Sound xcg futures)
    (open_ : ses.isLocal = false ∨ ses.requests.length < xcg.childCount) : ses.f = none := by
  cases upstream : ses.f with
  | none => rfl
  | some tag =>
    obtain ⟨_, ⟨entered, full⟩, _⟩ := sound.asked upstream
    rcases open_ with outside | room
    · rw [entered] at outside
      cases outside
    · omega

theorem Session.Sound.entered (sound : ses.Sound xcg futures) (fresh : ses.isLocal = false) (cb : A)
    (dataIn : List Json) :
    ({ ses with exitCb := some cb, isLocal := true, dataIn := dataIn } : Session A).Sound xcg futures := by
  have gathering := sound.gathering (.inl fresh)
  have noFutures := sound.noFutures gathering
  exact ⟨sound.bounded, sound.clean, sound.noOutput, rfl, by simpa only [Session.Upstream, gathering]⟩

theorem Session.Sound.accepted (sound : ses.Sound xcg futures)
    (room : ses.requests.length < xcg.childCount) (msg : Request) (dataIn : List Json) :
    ({ ses with dataIn := dataIn, requests := ses.requests ++ [msg] } : Session A).Sound xcg futures := by
  have gathering := sound.gathering (.inr room)
  have noFutures := sound.noFutures gathering
  refine ⟨?_, sound.clean, sound.noOutput, sound.hooked, by simpa only [Session.Upstream, gathering]⟩
  simpa using Nat.succ_le_of_lt room

theorem Session.Sound.extended (sound : ses.Sound xcg futures) (dataIn : List Json) :
    ({ ses with dataIn := dataIn } : Session A).Sound xcg futures :=
  ⟨sound.bounded, sound.clean, sound.noOutput, sound.hooked, sound.upstream⟩

theorem exchangeEnterBase64String_stepped (sound : shell.Sound xcg) (data : Option Json)
    (exitCb : Option A) : Stepped xcg shell (.enter data exitCb, fault)
      (exchangeEnterBase64String xcg fault shell data exitCb) := by
  cases exitCb with
  | none => exact .unentered data none .EINVAL
  | some cb =>
    rw [exchangeEnterBase64String]
    split
    · exact .unentered data (some cb) .EINVAL
    · have string : data.all Json.isString = true := by
        rename_i admitted
        cases data with
        | none => rfl
        | some data => simpa using admitted
      cases opened : shell.ensureSession fault with
      | none => exact .unentered data (some cb) .ENOMEM
      | some ses =>
        have within := sound.opened opened
        cases fresh : ses.isLocal with
        | true =>
          have live : shell.session = some ses := by
            cases live : shell.session with
            | some old => simpa [Shell.ensureSession, live] using opened
            | none =>
              simp only [Shell.ensureSession, live, Option.ite_none_left_eq_some, Option.some.injEq] at opened
              obtain ⟨_, rfl⟩ := opened
              cases fresh
          have same : { shell with session := some ses } = shell := by rw [← live]
          simp only [fresh, if_true, same]
          exact .unentered data (some cb) .EINPROGRESS
        | false =>
          simp only [fresh, Bool.false_eq_true, if_false]
          cases fails : data.isSome && fault.arrayAppend with
          | true =>
            obtain ⟨given, fails⟩ := Bool.and_eq_true_iff.mp fails
            obtain ⟨data, rfl⟩ := Option.isSome_iff_exists.mp given
            simp only [if_true]
            exact .unappended data cb string opened fresh fails
          | false =>
            have gathering := within.gathering (.inl fresh)
            simp only [Bool.false_eq_true, if_false]
            exact .entered data cb string opened fresh fails
              (sessionProcess_gathering (within.entered fresh cb _) gathering)

theorem exchangeRequestCb_stepped (sound : shell.Sound xcg) (msg : Request) :
    Stepped xcg shell (.request msg, fault) (exchangeRequestCb xcg fault shell msg) := by
  rw [exchangeRequestCb]
  cases payload : unpackData msg.payload with
  | none => exact .unopened msg .EPROTO (.inl payload)
  | some data =>
    cases opened : shell.ensureSession fault with
    | none =>
      refine .unopened msg .ENOMEM (.inr ?_)
      cases live : shell.session with
      | some old => simp [Shell.ensureSession, live] at opened
      | none => simpa [Shell.ensureSession, live] using opened
    | some ses =>
      have within := sound.opened opened
      by_cases full : ses.requests.length = xcg.childCount
      · simp only [full, if_true]
        exact .rejected msg payload opened (.surplus full)
      · have room : ses.requests.length < xcg.childCount := Nat.lt_of_le_of_ne within.bounded full
        simp only [full, if_false]
        cases extended : arrayExtend fault ses.dataIn data with
        | none => exact .rejected msg payload opened (.unextended extended)
        | some dataIn =>
          cases saves : fault.msglistAppend with
          | true => exact .rejected msg payload opened (.unsaved extended saves)
          | false =>
            have gathering := within.gathering (.inr room)
            cases data with
            | array items =>
              simp only [arrayExtend, Option.ite_none_left_eq_some, Option.some.injEq] at extended
              obtain ⟨grows, rfl⟩ := extended
              exact .accepted msg items payload opened room (by simpa using grows) saves
                (sessionProcess_gathering (within.accepted room msg _) gathering)
            | _ => simp [arrayExtend] at extended

theorem exchangeResponseCompletion_stepped (sound : shell.Sound xcg)
    (ready : shell.ready matchtag = some response) :
    Stepped xcg shell (.dispatch matchtag, fault)
      (exchangeResponseCompletion xcg fault shell response) := by
  cases live : shell.session with
  | none => simp [Shell.ready, sound.noFutures live] at ready
  | some ses =>
    have within := sound.live live
    cases upstream : ses.f with
    | none => simp [Shell.ready, within.noFutures upstream] at ready
    | some tag =>
      obtain ⟨below, complete, result, futures⟩ := within.asked upstream
      simp only [Shell.ready, futures, List.find?_singleton] at ready
      obtain ⟨rfl, rfl⟩ : tag = matchtag ∧ result = some response := by
        split at ready
        · exact ⟨by simpa using ‹(tag == matchtag) = true›, ready⟩
        · cases ready
      simp only [exchangeResponseCompletion, live]
      refine .completed _ _ live upstream futures ?_
      cases unpacked : response.unpack with
      | some data =>
        simp only [Session.answer, unpacked]
        exact sessionProcess_completion within.hooked complete below upstream futures
          (.inr ⟨within.clean, rfl⟩)
      | none =>
        simp only [Session.answer, unpacked]
        exact @sessionProcess_completion _ _ _ _ _ _ _ .null within.hooked complete below upstream
          futures (.inl rfl)

/-- The step lemma of a sound shell. -/
theorem Shell.next_stepped (sound : shell.Sound xcg) (input : Event A × Faults) :
    Stepped xcg shell input (shell.next xcg input) := by
  obtain ⟨event, fault⟩ := input
  cases event with
  | enter data exitCb => exact exchangeEnterBase64String_stepped sound data exitCb
  | request msg => exact exchangeRequestCb_stepped sound msg
  | fulfill matchtag response => exact .fulfilled matchtag response
  | dispatch matchtag =>
    simp only [Shell.next]
    split
    · rename_i response ready
      exact exchangeResponseCompletion_stepped sound ready
    · exact .undispatched matchtag

theorem Processed.sound (processed : Processed xcg fault shell ses result)
    (sound : ses.f = none → ses.Sound xcg shell.futures) : result.1.Sound xcg := by
  cases processed with
  | waits gathering _ =>
    have within := sound gathering
    simpa [Shell.Sound, within.noFutures gathering] using within
  | sent complete gathering below _ _ =>
    have within := sound gathering
    exact ⟨within.bounded, within.clean, within.noOutput, within.hooked, below, complete, none, rfl⟩
  | unsent | unregistered | refused | answered | broken => exact rfl

theorem Future.fulfill_matchtag (matchtag : Nat) (response : Response) (future : Future) :
    (future.fulfill matchtag response).matchtag = future.matchtag := by
  rw [Future.fulfill]
  split <;> rfl

theorem Session.answer_f (ses : Session A) (response : Response) : (ses.answer response).f = ses.f := by
  rw [Session.answer]
  split <;> rfl

theorem Stepped.sound (stepped : Stepped xcg shell input result) (sound : shell.Sound xcg) :
    result.1.Sound xcg := by
  cases stepped with
  | unentered | unopened | undispatched => exact sound
  | unappended data cb _ opened fresh _ => exact (sound.opened opened).entered fresh cb _
  | entered data cb _ opened fresh _ processed =>
    exact processed.sound (fun _ => (sound.opened opened).entered fresh cb _)
  | rejected msg _ opened _ => exact (sound.opened opened).extended _
  | accepted msg items _ opened room _ _ processed =>
    exact processed.sound (fun _ => (sound.opened opened).accepted room msg _)
  | fulfilled matchtag response =>
    cases live : shell.session with
    | none => simp [Shell.Sound, sound.noFutures live]
    | some ses =>
      have within := sound.live live
      simp only [Shell.Sound]
      refine ⟨within.bounded, within.clean, within.noOutput, within.hooked, ?_⟩
      cases f : ses.f with
      | none => simp [Session.Upstream, f, within.noFutures f]
      | some tag =>
        obtain ⟨below, complete, held, futures⟩ := within.asked f
        simp only [Session.Upstream, f]
        refine ⟨below, complete, (Future.fulfill matchtag response ⟨tag, held⟩).result, ?_⟩
        rw [futures, List.map_singleton, List.singleton_inj]
        exact congrArg (Future.mk · _) (Future.fulfill_matchtag matchtag response ⟨tag, held⟩)
  | completed matchtag response live upstream ready processed =>
    refine processed.sound (fun gathering => ?_)
    rw [Session.answer_f, upstream] at gathering
    cases gathering

end FluxPmix

import FluxPmix.Exchange.Lifecycle
import Mathlib.Data.List.Perm.Subperm

/-! Which finished sessions have answered every child whose request they accepted. -/
namespace FluxPmix
open Mealy
variable {A : Type} {xcg : Exchange} {fault : Faults} {shell : Shell A} {ses : Session A}

/-- A request that was sent a response, data or error. -/
def Effect.answered : Effect A → Option Request
  | .respond msg _ true => some msg
  | .respondError msg _ _ true => some msg
  | _ => none

/-- When the session ends, every accepted request has had its response. -/
def Answered (window : List (Effect A)) (e : Effect A) : Prop :=
  e.isDestroy = true →
    (window.filterMap Effect.accepted).Subperm (window.filterMap Effect.answered)

/-- Whether a callback brings in the last contribution its session was waiting for. -/
def Shell.gathered (xcg : Exchange) (shell : Shell A) : Event A × Faults → Bool
  | (.enter data exitCb, fault) =>
    exitCb.isSome && data.all Json.isString && !(data.isSome && fault.arrayAppend) &&
      match shell.ensureSession fault with
      | some ses => !ses.isLocal && ses.requests.length == xcg.childCount
      | none => false
  | (.request msg, fault) =>
    !fault.msglistAppend &&
      match shell.ensureSession fault, unpackData msg.payload with
      | some ses, some data => (arrayExtend fault ses.dataIn data).isSome && ses.isLocal &&
          ses.requests.length + 1 == xcg.childCount
      | _, _ => false
  | _ => false

theorem Shell.gathered_enter (cb : A) (string : data.all Json.isString = true)
    (opened : shell.ensureSession fault = some ses) (fresh : ses.isLocal = false)
    (appends : (data.isSome && fault.arrayAppend) = false)
    (full : ses.requests.length = xcg.childCount) :
    shell.gathered xcg (.enter data (some cb), fault) = true := by
  simp [Shell.gathered, string, opened, fresh, appends, full]

theorem Shell.gathered_request (payload : unpackData msg.payload = some (.array items))
    (opened : shell.ensureSession fault = some ses) (grows : fault.arrayExtend = false)
    (saves : fault.msglistAppend = false) (entered : ses.isLocal = true)
    (full : ses.requests.length + 1 = xcg.childCount) :
    shell.gathered xcg (.request msg, fault) = true := by
  simp [Shell.gathered, saves, opened, payload, arrayExtend, grows, entered, full]

/-- One call of `session_process` on a complete session reaches the end of what it has to send. -/
def Session.Answerable (xcg : Exchange) (fault : Faults) (ses : Session A) : Prop :=
  ses.hasError = false ∧
    if ses.f = none ∧ 0 < xcg.rank then fault.rpcPack = false ∧ fault.futureThen = false
    else ∀ n < xcg.childCount, fault.respondPack n = false

/-- No child is dropped by this callback: a shell with children that has gathered everything
sends upstream and registers the completion, the parent answers with data, and every response
goes out. -/
def Answerable (xcg : Exchange) (shell : Shell A) (input : Event A × Faults) : Prop :=
  0 < xcg.childCount →
    (shell.gathered xcg input = true →
      if 0 < xcg.rank then input.2.rpcPack = false ∧ input.2.futureThen = false
      else ∀ n < xcg.childCount, input.2.respondPack n = false) ∧
    (∀ tag response, input.1 = .dispatch tag → shell.ready tag = some response →
      response.unpack ≠ none ∧ ∀ n < xcg.childCount, input.2.respondPack n = false)

theorem answered_other (window : List (Effect A)) (other : e.isDestroy = false) : Answered window e := by
  intro ends
  rw [other] at ends
  cases ends

/-- A session that accepted nothing owes nothing. -/
theorem answered_childless (accepted : window.filterMap Effect.accepted = []) (e : Effect A) :
    Answered window e := by
  intro _
  rw [accepted]
  exact List.nil_subperm

theorem responses_accepted (requests : List Request) (data : Json) :
    (requests.map (Effect.respond (A := A) · (some data) true)).filterMap Effect.accepted = [] := by
  rw [List.filterMap_map, List.filterMap_eq_nil_iff]
  intro msg _
  rfl

theorem responses_answered (requests : List Request) (data : Json) :
    (requests.map (Effect.respond (A := A) · (some data) true)).filterMap Effect.answered = requests := by
  rw [List.filterMap_map]
  exact List.filterMap_some

theorem Processed.answers (processed : Processed xcg fault shell ses result)
    (accepted : window.filterMap Effect.accepted = ses.requests)
    (answerable : 0 < xcg.childCount → ses.complete xcg → ses.Answerable xcg fault) :
    Continues Effect.isDestroy Answered window result.2 := by
  have childless (complete : ses.complete xcg) (none : xcg.childCount = 0) :
      window.filterMap Effect.accepted = [] := by
    rw [accepted]
    exact List.eq_nil_of_length_eq_zero (complete.2.trans none)
  have served (complete : ses.complete xcg) (fails : ¬ ses.Answerable xcg fault) :
      window.filterMap Effect.accepted = [] := by
    rcases Nat.eq_zero_or_pos xcg.childCount with none | some
    · exact childless complete none
    · exact absurd (answerable some complete) fails
  cases processed with
  | waits => trivial
  | unsent cb _ complete gathering below fails =>
    have nothing := served complete (fun answerable => by
      simp [Session.Answerable, gathering, below, fails] at answerable)
    refine ⟨answered_other _ rfl, answered_childless ?_ _, trivial⟩
    simpa [Effect.isDestroy, Effect.accepted] using nothing
  | unregistered cb _ complete gathering below _ fails =>
    have nothing := served complete (fun answerable => by
      simp [Session.Answerable, gathering, below, fails] at answerable)
    refine ⟨answered_other _ rfl, answered_other _ rfl, answered_childless ?_ _, trivial⟩
    simpa [Effect.isDestroy, Effect.accepted] using nothing
  | sent => exact ⟨answered_other _ rfl, trivial⟩
  | refused cb _ complete _ _ failed =>
    have nothing := served complete (fun answerable => by
      simp [Session.Answerable, failed] at answerable)
    refine ⟨answered_other _ rfl, answered_childless ?_ _, trivial⟩
    simpa [Effect.isDestroy, Effect.accepted] using nothing
  | answered cb data =>
    rw [continues_append, responses_window]
    refine ⟨continues_free ?_ _, answered_other _ rfl, fun _ => ?_, trivial⟩
    · intro e member window
      obtain ⟨msg, _, rfl⟩ := List.mem_map.mp member
      exact answered_other _ rfl
    · simp only [Effect.isDestroy, Bool.false_eq_true, if_false, List.filterMap_append,
        responses_accepted, responses_answered, accepted]
      simp only [List.filterMap_cons, Effect.accepted, Effect.answered, List.filterMap_nil, List.append_nil]
      exact (List.sublist_append_right _ _).subperm
  | broken cb data answered msg left _ complete output queue fails =>
    have within : answered.length < xcg.childCount := by
      rw [← complete.2, queue, List.length_append, List.length_cons]
      omega
    have stays : ¬ (ses.f = none ∧ 0 < xcg.rank) := by
      rintro ⟨gathering, below⟩
      rcases output with ⟨_, root, _⟩ | ⟨upstream, _⟩
      · omega
      · exact upstream gathering
    have goes := answerable (by omega) complete
    rw [Session.Answerable, if_neg stays] at goes
    rw [goes.2 answered.length within] at fails
    cases fails

theorem Stepped.answers (stepped : Stepped xcg shell input result) (sound : shell.Sound xcg)
    (tally : shell.Tally window) (answerable : Answerable xcg shell input) :
    Continues Effect.isDestroy Answered window result.2 := by
  cases stepped with
  | unentered | unopened | rejected => exact ⟨answered_other _ rfl, trivial⟩
  | undispatched | fulfilled => trivial
  | unappended => exact ⟨answered_other _ rfl, answered_other _ rfl, trivial⟩
  | @entered fault ses _ data cb string opened fresh appends processed =>
    have within := sound.opened opened
    have held := (tally.opened opened).enter fresh cb data (ses.dataIn ++ data.toList)
    refine ⟨answered_other _ rfl, processed.answers held.accepted (fun children complete => ?_)⟩
    have gathered := Shell.gathered_enter cb string opened fresh appends complete.2
    refine ⟨within.clean, ?_⟩
    simpa [within.gathering (.inl fresh)] using (answerable children).1 gathered
  | @accepted fault ses _ msg items payload opened room grows saves processed =>
    have within := sound.opened opened
    have held := (tally.opened opened).accept msg (ses.dataIn ++ items)
    refine ⟨answered_other _ rfl, processed.answers held.accepted (fun children complete => ?_)⟩
    have full : ses.requests.length + 1 = xcg.childCount := by simpa using complete.2
    have gathered := Shell.gathered_request payload opened grows saves complete.1 full
    refine ⟨within.clean, ?_⟩
    simpa [within.gathering (.inr room)] using (answerable children).1 gathered
  | @completed ses _ _ matchtag response live upstream ready processed =>
    have held : ses.Tally window := by
      simpa only [Shell.Tally, live, Option.getD_some] using tally
    have within := sound.live live
    have isReady : shell.ready matchtag = some response := by simp [Shell.ready, ready]
    cases unpacked : response.unpack with
    | none =>
      have same : ses.answer response = { ses with hasError := true } := by
        rw [Session.answer, unpacked]
      rw [same] at processed
      refine processed.answers held.accepted (fun children _ => ?_)
      exact absurd unpacked ((answerable children).2 matchtag response rfl isReady).1
    | some data =>
      have same : ses.answer response = { ses with dataOut := some data } := by
        rw [Session.answer, unpacked]
      rw [same] at processed
      refine processed.answers held.accepted (fun children _ => ⟨within.clean, ?_⟩)
      simpa [upstream] using ((answerable children).2 matchtag response rfl isReady).2

/-- While every callback is answerable, no session ends with a child's request unanswered. -/
theorem exchange_children_answered (xcg : Exchange) (inputs : List (Event A × Faults))
    (answerable : Along (Shell.next xcg) (Answerable xcg) Shell.idle inputs) :
    InWindows Effect.isDestroy Answered (exec (Shell.next xcg) Shell.idle inputs).2 := by
  have kept := exec_invariant_nil
    (P := fun trace (shell : Shell A) => shell.Runs xcg trace ∧ InWindows Effect.isDestroy Answered trace)
    (fun trace shell input ⟨runs, answered⟩ ok => by
      have stepped := Shell.next_stepped runs.sound input
      refine ⟨runs.next input, (inWindows_append _ _).mpr ⟨answered, ?_⟩⟩
      exact stepped.answers runs.sound runs.tally ok)
    ⟨⟨Shell.idle_sound, .nil 0, inWindows_nil⟩, inWindows_nil⟩ answerable
  exact kept.2

/-- Shell 1 of 4 enters, its child 3 asks, and the parent answers. -/
def answeredRun (response : Response) : List (Event Unit × Faults) :=
  [(.enter none (some ()), {}), (.request ⟨3, 0, packData (.array [])⟩, {}), (.fulfill 0 response, {}),
    (.dispatch 0, {})]

theorem exchange_children_answered_sample : InWindows Effect.isDestroy Answered
    (exec (Shell.next (exchangeCreate 4 1 0)) Shell.idle (answeredRun (.payload (packData .null)))).2 := by
  refine exchange_children_answered _ _ ⟨fun _ => ⟨fun _ => ⟨rfl, rfl⟩, ?_⟩,
    fun _ => ⟨fun _ => ⟨rfl, rfl⟩, ?_⟩, fun _ => ⟨fun _ => ⟨rfl, rfl⟩, ?_⟩,
    fun _ => ⟨fun _ => ⟨rfl, rfl⟩, ?_⟩, trivial⟩
  · intro tag response impossible
    cases impossible
  · intro tag response impossible
    cases impossible
  · intro tag response impossible
    cases impossible
  · intro tag response dispatched ready
    cases dispatched
    cases ready
    exact ⟨by simp [Response.unpack], fun _ _ => rfl⟩

/-- When the parent answers with an error the session ends and shell 3 is never answered. -/
theorem exchange_child_dropped : ¬ InWindows Effect.isDestroy Answered
    (exec (Shell.next (exchangeCreate 4 1 0)) Shell.idle (answeredRun (.error .ENOMEM none))).2 := by
  intro all
  have owed := all
    (exec (Shell.next (exchangeCreate 4 1 0)) Shell.idle (answeredRun (.error .ENOMEM none))).2.dropLast
    .destroy [] rfl rfl
  exact absurd owed.length_le (by decide)

end FluxPmix

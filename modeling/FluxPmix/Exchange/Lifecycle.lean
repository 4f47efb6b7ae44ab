import FluxPmix.Exchange.SessionProofs
import FluxPmix.Mealy

/-! A session's life, read off the effects since the last session was destroyed. -/
namespace FluxPmix
open Mealy
variable {A : Type} {xcg : Exchange} {fault : Faults} {shell : Shell A} {ses : Session A}

namespace Effect

def isEntry : Effect A → Bool
  | .entered _ _ => true
  | _ => false

def isRpc : Effect A → Bool
  | .rpc _ _ => true
  | _ => false

def isExit : Effect A → Bool
  | .exit _ _ => true
  | _ => false

def isDestroy : Effect A → Bool
  | .destroy => true
  | _ => false

def accepted : Effect A → Option Request
  | .accept msg => some msg
  | _ => none

end Effect

/-- What may happen next in a session's life, given what has happened in it. -/
def Lawful (xcg : Exchange) (window : List (Effect A)) : Effect A → Prop
  | .accept _ => (window.filterMap Effect.accepted).length < xcg.childCount
  | .rpc _ _ => 0 < xcg.rank ∧ window.countP Effect.isEntry = 1 ∧
      (window.filterMap Effect.accepted).length = xcg.childCount ∧ window.countP Effect.isRpc = 0
  | .respond _ dataOut _ => dataOut.isSome = true
  | .exit cb ses => ses.exitCb = some cb ∧ (∃ data, .entered cb data ∈ window) ∧
      window.countP Effect.isExit = 0 ∧ ses.requests.length ≤ xcg.childCount ∧
      (ses.hasError = true → ses.isLocal = true)
  | .destroy => window.countP Effect.isExit = 1
  | .crash => False
  | _ => True

/-- A session's fields agree with the effects of its life so far. -/
structure Session.Tally (ses : Session A) (window : List (Effect A)) : Prop where
  entered : window.countP Effect.isEntry = ses.isLocal.toNat
  hook : ∀ cb, ses.exitCb = some cb → ∃ data, .entered cb data ∈ window
  accepted : window.filterMap Effect.accepted = ses.requests
  sent : window.countP Effect.isRpc = ses.f.toList.length
  unfinished : window.countP Effect.isExit = 0

/-- Without a session nothing has happened that the next one would inherit. -/
def Shell.Tally (shell : Shell A) (window : List (Effect A)) : Prop :=
  (shell.session.getD sessionCreate).Tally window

theorem Shell.Tally.nil (matchtags : Nat) : (⟨none, [], matchtags⟩ : Shell A).Tally [] := by
  refine ⟨rfl, fun _ hook => ?_, rfl, rfl, rfl⟩
  cases hook

theorem Shell.ensureSession_eq (opened : shell.ensureSession fault = some ses) :
    ses = shell.session.getD sessionCreate := by
  cases live : shell.session with
  | some old => simpa [Shell.ensureSession, live, eq_comm] using opened
  | none =>
    simp only [Shell.ensureSession, live, Option.ite_none_left_eq_some, Option.some.injEq] at opened
    exact opened.2.symm

theorem Shell.Tally.opened (tally : shell.Tally window) (opened : shell.ensureSession fault = some ses) :
    ses.Tally window := by
  rw [Shell.ensureSession_eq opened]
  exact tally

/-- Effects that are no part of a session's life leave its tally alone. -/
theorem Session.Tally.snoc (tally : ses.Tally window) (e : Effect A)
    (neutral : e.isEntry = false ∧ e.isRpc = false ∧ e.isExit = false ∧ e.accepted = none) :
    ses.Tally (window ++ [e]) := by
  obtain ⟨noEntry, noRpc, noExit, notAccepted⟩ := neutral
  refine ⟨by simp [noEntry, tally.entered], fun cb hook => ?_, by simp [notAccepted, tally.accepted],
    by simp [noRpc, tally.sent], by simp [noExit, tally.unfinished]⟩
  obtain ⟨data, member⟩ := tally.hook cb hook
  exact ⟨data, List.mem_append_left _ member⟩

theorem Session.Tally.enter (tally : ses.Tally window) (fresh : ses.isLocal = false) (cb : A)
    (data : Option Json) (dataIn : List Json) :
    ({ ses with exitCb := some cb, isLocal := true, dataIn := dataIn } : Session A).Tally
      (window ++ [.entered cb data]) := by
  obtain ⟨entered, hook, accepted, sent, unfinished⟩ := tally
  refine ⟨?_, fun other hooked => ⟨data, ?_⟩, ?_, ?_, ?_⟩
  · rw [List.countP_append, entered, fresh]
    rfl
  · cases hooked
    exact List.mem_append_right _ List.mem_cons_self
  · rw [List.filterMap_append, accepted]
    exact List.append_nil _
  · rw [List.countP_append, sent]
    rfl
  · rw [List.countP_append, unfinished]
    rfl

theorem Session.Tally.accept (tally : ses.Tally window) (msg : Request) (dataIn : List Json) :
    ({ ses with dataIn := dataIn, requests := ses.requests ++ [msg] } : Session A).Tally
      (window ++ [.accept msg]) := by
  obtain ⟨entered, hook, accepted, sent, unfinished⟩ := tally
  refine ⟨?_, fun cb hooked => ?_, ?_, ?_, ?_⟩
  · rw [List.countP_append, entered]
    rfl
  · obtain ⟨data, member⟩ := hook cb hooked
    exact ⟨data, List.mem_append_left _ member⟩
  · rw [List.filterMap_append, accepted]
    rfl
  · rw [List.countP_append, sent]
    rfl
  · rw [List.countP_append, unfinished]
    rfl

theorem Session.Tally.send (tally : ses.Tally window) (gathering : ses.f = none) (tag : Nat)
    (payload : Json) :
    ({ ses with f := some tag } : Session A).Tally (window ++ [.rpc tag payload]) := by
  obtain ⟨entered, hook, accepted, sent, unfinished⟩ := tally
  refine ⟨?_, fun cb hooked => ?_, ?_, ?_, ?_⟩
  · rw [List.countP_append, entered]
    rfl
  · obtain ⟨data, member⟩ := hook cb hooked
    exact ⟨data, List.mem_append_left _ member⟩
  · rw [List.filterMap_append, accepted]
    exact List.append_nil _
  · rw [List.countP_append, sent, gathering]
    rfl
  · rw [List.countP_append, unfinished]
    rfl

/-- The responses of one loop are lawful and close no window. -/
theorem responses_continue (requests : List Request) (data : Json) (window : List (Effect A)) :
    Continues Effect.isDestroy (Lawful xcg) window (requests.map (.respond · (some data) true)) :=
  continues_free (fun e member => by
    obtain ⟨msg, _, rfl⟩ := List.mem_map.mp member
    exact fun _ => rfl) window

theorem responses_window (requests : List Request) (data : Json) (window : List (Effect A)) :
    windowAfter Effect.isDestroy window (requests.map (.respond · (some data) true)) =
      window ++ requests.map (.respond · (some data) true) :=
  windowAfter_uncut (fun e member => by
    obtain ⟨msg, _, rfl⟩ := List.mem_map.mp member
    rfl) window

theorem responses_countP {p : Effect A → Bool} (other : ∀ msg data, p (.respond msg data true) = false)
    (requests : List Request) (data : Json) : (requests.map (.respond · (some data) true)).countP p = 0 := by
  rw [List.countP_eq_zero]
  intro e member
  obtain ⟨msg, _, rfl⟩ := List.mem_map.mp member
  rw [other msg (some data)]
  exact Bool.false_ne_true

theorem responses_exits (requests : List Request) (data : Json) :
    (requests.map (Effect.respond (A := A) · (some data) true)).countP Effect.isExit = 0 :=
  responses_countP (fun _ _ => rfl) requests data

theorem Processed.continues (processed : Processed xcg fault shell ses result)
    (tally : ses.Tally window) :
    Continues Effect.isDestroy (Lawful xcg) window result.2 ∧
      result.1.Tally (windowAfter Effect.isDestroy window result.2) := by
  obtain ⟨entered, hook, accepted, sent, unfinished⟩ := tally
  cases processed with
  | waits gathering _ => exact ⟨trivial, entered, hook, accepted, sent, unfinished⟩
  | unsent cb hooked complete =>
    refine ⟨⟨⟨hooked, hook cb hooked, unfinished, complete.2.le, fun _ => complete.1⟩, ?_, trivial⟩, .nil _⟩
    simp [Lawful, Effect.isExit, Effect.isDestroy, unfinished]
  | unregistered cb hooked complete gathering below =>
    have sends := Session.Tally.send ⟨entered, hook, accepted, sent, unfinished⟩ gathering
      shell.matchtags (packData (.array ses.dataIn))
    refine ⟨⟨⟨below, ?_, ?_, ?_⟩, ⟨hooked, sends.hook cb hooked, sends.unfinished, complete.2.le,
      fun _ => complete.1⟩, ?_, trivial⟩, .nil _⟩
    · simp [entered, complete.1]
    · rw [accepted, complete.2]
    · simp [sent, gathering]
    · simp [Lawful, Effect.isExit, Effect.isDestroy, unfinished]
  | sent complete gathering below =>
    refine ⟨⟨⟨below, ?_, ?_, ?_⟩, trivial⟩, ?_⟩
    · simp [entered, complete.1]
    · rw [accepted, complete.2]
    · simp [sent, gathering]
    · exact Session.Tally.send ⟨entered, hook, accepted, sent, unfinished⟩ gathering _ _
  | refused cb hooked complete =>
    refine ⟨⟨⟨hooked, hook cb hooked, unfinished, complete.2.le, fun _ => complete.1⟩, ?_, trivial⟩, .nil _⟩
    simp [Lawful, Effect.isExit, Effect.isDestroy, unfinished]
  | answered cb data hooked complete =>
    obtain ⟨given, member⟩ := hook cb hooked
    have unexited := responses_exits (A := A) ses.requests data
    rw [continues_append, windowAfter_append, responses_window]
    refine ⟨⟨responses_continue _ _ _, ⟨hooked, ?_, ?_, Nat.zero_le _, ?_⟩, ?_, trivial⟩, .nil _⟩
    · exact ⟨given, List.mem_append_left _ member⟩
    · simp [unfinished, unexited]
    · exact fun impossible => absurd impossible Bool.false_ne_true
    · simp [Lawful, Effect.isDestroy, Effect.isExit, unfinished, unexited]
  | broken cb data answered msg left hooked complete output queue =>
    obtain ⟨given, member⟩ := hook cb hooked
    have unexited := responses_exits (A := A) answered data
    have fewer : left.length ≤ xcg.childCount := by
      rw [← complete.2, queue, List.length_append, List.length_cons]
      omega
    rw [continues_append, windowAfter_append, responses_window]
    refine ⟨⟨responses_continue _ _ _, rfl, ⟨hooked, ?_, ?_, fewer, fun _ => complete.1⟩, ?_, trivial⟩, .nil _⟩
    · refine ⟨given, ?_⟩
      simp [Effect.isDestroy, member]
    · simp [Effect.isDestroy, Effect.isExit, unfinished, unexited]
    · simp [Lawful, Effect.isDestroy, Effect.isExit, unfinished, unexited]

theorem Stepped.continues (stepped : Stepped xcg shell input result) (tally : shell.Tally window) :
    Continues Effect.isDestroy (Lawful xcg) window result.2 ∧
      result.1.Tally (windowAfter Effect.isDestroy window result.2) := by
  cases stepped with
  | unentered => exact ⟨⟨trivial, trivial⟩, Session.Tally.snoc tally _ ⟨rfl, rfl, rfl, rfl⟩⟩
  | unopened => exact ⟨⟨trivial, trivial⟩, Session.Tally.snoc tally _ ⟨rfl, rfl, rfl, rfl⟩⟩
  | undispatched | fulfilled => exact ⟨trivial, tally⟩
  | @unappended _ ses data cb _ opened fresh =>
    have entered := (tally.opened opened).enter fresh cb (some data) ses.dataIn
    exact ⟨⟨trivial, trivial, trivial⟩, entered.snoc _ ⟨rfl, rfl, rfl, rfl⟩⟩
  | entered data cb _ opened fresh _ processed =>
    obtain ⟨lawful, after⟩ := processed.continues ((tally.opened opened).enter fresh cb data _)
    exact ⟨⟨trivial, lawful⟩, after⟩
  | rejected msg payload opened =>
    have held := tally.opened opened
    refine ⟨⟨trivial, trivial⟩, Session.Tally.snoc ?_ _ ⟨rfl, rfl, rfl, rfl⟩⟩
    exact ⟨held.entered, held.hook, held.accepted, held.sent, held.unfinished⟩
  | accepted msg items _ opened room _ _ processed =>
    have held := tally.opened opened
    obtain ⟨lawful, after⟩ := processed.continues (held.accept msg _)
    refine ⟨⟨?_, lawful⟩, after⟩
    rw [Lawful, held.accepted]
    exact room
  | @completed ses _ _ matchtag response live upstream ready processed =>
    have held : ses.Tally window := by
      simpa only [Shell.Tally, live, Option.getD_some] using tally
    refine processed.continues ?_
    rw [Session.answer]
    split
    · exact ⟨held.entered, held.hook, held.accepted, held.sent, held.unfinished⟩
    · exact ⟨held.entered, held.hook, held.accepted, held.sent, held.unfinished⟩

/-- What holds of a shell between any two callbacks, and of everything it did before. -/
structure Shell.Runs (xcg : Exchange) (trace : List (Effect A)) (shell : Shell A) : Prop where
  sound : shell.Sound xcg
  tally : shell.Tally (sinceLast Effect.isDestroy trace)
  lawful : InWindows Effect.isDestroy (Lawful xcg) trace

theorem Shell.Runs.next (runs : shell.Runs xcg trace) (input : Event A × Faults) :
    (shell.next xcg input).1.Runs xcg (trace ++ (shell.next xcg input).2) := by
  have stepped := Shell.next_stepped runs.sound input
  obtain ⟨lawful, tally⟩ := stepped.continues runs.tally
  refine ⟨stepped.sound runs.sound, ?_, (inWindows_append _ _).mpr ⟨runs.lawful, lawful⟩⟩
  rwa [sinceLast_append]

theorem Shell.exec_runs (xcg : Exchange) (inputs : List (Event A × Faults)) :
    (exec (Shell.next xcg) .idle inputs).1.Runs xcg (exec (Shell.next xcg) .idle inputs).2 := by
  refine exec_invariant_nil (P := fun trace (shell : Shell A) => shell.Runs xcg trace)
    (fun trace shell input runs _ => runs.next input) ?_ (along_true _ inputs)
  exact ⟨Shell.idle_sound, .nil 0, inWindows_nil⟩

/-- The session state machine: after any run the live session is within its bounds, and
everything done on the way was lawful at that point of its session's life. -/
theorem exchange_session_invariant (xcg : Exchange) (inputs : List (Event A × Faults)) :
    let (shell, trace) := exec (Shell.next xcg) Shell.idle inputs
    (∀ ses, shell.session = some ses →
      ses.requests.length ≤ xcg.childCount ∧ (ses.hasError = true → ses.isLocal = true) ∧
      (ses.f ≠ none → 0 < xcg.rank ∧ ses.isLocal = true ∧ ses.requests.length = xcg.childCount)) ∧
    (∀ future ∈ shell.futures, ∃ ses, shell.session = some ses ∧ ses.f = some future.matchtag) ∧
    InWindows Effect.isDestroy (Lawful xcg) trace ∧
    (sinceLast Effect.isDestroy trace).countP Effect.isRpc ≤ 1 ∧
    (sinceLast Effect.isDestroy trace).countP Effect.isExit = 0 := by
  obtain ⟨sound, tally, lawful⟩ := Shell.exec_runs xcg inputs
  generalize exec (Shell.next xcg) Shell.idle inputs = run at sound tally lawful ⊢
  obtain ⟨shell, trace⟩ := run
  have sound : shell.Sound xcg := sound
  refine ⟨fun ses live => ?_, fun future member => ?_, lawful, ?_, tally.unfinished⟩
  · have within := sound.live live
    refine ⟨within.bounded, fun failed => ?_, fun upstream => ?_⟩
    · rw [within.clean] at failed
      cases failed
    · obtain ⟨tag, f⟩ := Option.ne_none_iff_exists'.mp upstream
      obtain ⟨below, complete, _⟩ := within.asked f
      exact ⟨below, complete⟩
  · cases live : shell.session with
    | none => simp [sound.noFutures live] at member
    | some ses =>
      have within := sound.live live
      refine ⟨ses, rfl, ?_⟩
      cases f : ses.f with
      | none => simp [within.noFutures f] at member
      | some tag =>
        obtain ⟨_, _, result, futures⟩ := within.asked f
        simp only [futures, List.mem_singleton] at member
        rw [member]
  · rw [tally.sent]
    cases (shell.session.getD sessionCreate).f <;> simp

end FluxPmix

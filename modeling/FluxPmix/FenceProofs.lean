import FluxPmix.Fence
import FluxPmix.Exchange.Lifecycle

/-! Who completes a `fence_call`. The call belongs to `fence_shell_cb` until its entry into the
exchange succeeded and to the session's exit callback from then on. Data that could not be
appended breaks this: the entry fails and the session still has the callback. -/
namespace FluxPmix
open Mealy

/-! ### The exit callback a session holds -/

section Shell
variable {A : Type} {xcg : Exchange} {fault : Faults} {shell : Shell A} {ses : Session A}

def Shell.hook (shell : Shell A) : Option A := shell.session.bind Session.exitCb

/-- A complete session that has not asked its parent. No callback returns to it. -/
def Shell.Stuck (xcg : Exchange) (shell : Shell A) : Prop :=
  ∃ ses, shell.session = some ses ∧ ses.complete xcg ∧ ses.f = none

/-- Effects that neither leave the exchange nor refuse an entry. -/
def Plain (effects : List (Effect A)) : Prop :=
  ∀ e ∈ effects, e.isExit = false ∧ e.failsEntry = false

/-- The session ends in this callback, with `cb` as its last call. -/
def Exits (cb : A) (result : Shell A × List (Effect A)) : Prop :=
  result.1.session = none ∧ ∃ before snapshot, result.2 = before ++ [.exit cb snapshot, .destroy] ∧ Plain before

theorem plain_nil : Plain ([] : List (Effect A)) := nofun

theorem Plain.cons (plain : Plain effects) (e : Effect A) (silent : e.isExit = false ∧ e.failsEntry = false) :
    Plain (e :: effects) := by
  intro other member
  rcases List.mem_cons.mp member with rfl | later
  · exact silent
  · exact plain other later

theorem plain_responses (requests : List Request) (data : Json) :
    Plain (requests.map (Effect.respond (A := A) · (some data) true)) := by
  intro e member
  obtain ⟨msg, _, rfl⟩ := List.mem_map.mp member
  exact ⟨rfl, rfl⟩

theorem Plain.accepted (plain : Plain effects) : effects.any Effect.failsEntry = false := by
  rw [List.any_eq_false]
  intro e member
  simp [(plain e member).2]

theorem Exits.accepted (exits : Exits cb result) : result.2.any Effect.failsEntry = false := by
  obtain ⟨_, before, snapshot, same, plain⟩ := exits
  rw [same, List.any_append, plain.accepted]
  rfl

theorem Exits.cons (exits : Exits cb result) (e : Effect A) (silent : e.isExit = false ∧ e.failsEntry = false) :
    Exits cb (result.1, e :: result.2) := by
  obtain ⟨gone, before, snapshot, same, plain⟩ := exits
  refine ⟨gone, e :: before, snapshot, ?_, plain.cons e silent⟩
  rw [same]
  rfl

/-- `session_process` keeps the exit callback or calls it last. -/
theorem Processed.hook (processed : Processed xcg fault shell ses result) :
    (result.1.hook = ses.exitCb ∧ Plain result.2) ∨ ∃ cb, ses.exitCb = some cb ∧ Exits cb result := by
  cases processed with
  | waits => exact .inl ⟨rfl, plain_nil⟩
  | sent => exact .inl ⟨rfl, plain_nil.cons _ ⟨rfl, rfl⟩⟩
  | unsent cb hook => exact .inr ⟨cb, hook, rfl, [], _, rfl, plain_nil⟩
  | unregistered cb hook => exact .inr ⟨cb, hook, rfl, [_], _, rfl, plain_nil.cons _ ⟨rfl, rfl⟩⟩
  | refused cb hook => exact .inr ⟨cb, hook, rfl, [], _, rfl, plain_nil⟩
  | answered cb data hook => exact .inr ⟨cb, hook, rfl, _, _, rfl, plain_responses _ data⟩
  | broken cb data answered msg left hook =>
    refine .inr ⟨cb, hook, rfl, answered.map (.respond · (some data) true) ++ [.respond msg (some data) false],
      { ses with dataOut := some data, requests := left, hasError := true }, by simp, ?_⟩
    intro e member
    rcases List.mem_append.mp member with sent | failed
    · exact plain_responses answered data e sent
    · obtain rfl := List.mem_singleton.mp failed
      exact ⟨rfl, rfl⟩

theorem Shell.hook_opened (opened : shell.ensureSession fault = some ses) : shell.hook = ses.exitCb := by
  rw [Shell.ensureSession_eq opened, Shell.hook]
  cases shell.session <;> rfl

/-- A stuck session is not open for anything. -/
theorem Shell.Stuck.opened (stuck : shell.Stuck xcg) (opened : shell.ensureSession fault = some ses) :
    ses.complete xcg ∧ ses.f = none := by
  obtain ⟨old, live, complete, idle⟩ := stuck
  have same := Shell.ensureSession_eq opened
  rw [live] at same
  subst same
  exact ⟨complete, idle⟩

/-- Other callbacks than an entry keep the exit callback or call it. -/
theorem Stepped.hook (stepped : Stepped xcg shell (event, fault) result)
    (elsewhere : ∀ data cb, event ≠ .enter data cb) :
    (result.1.hook = shell.hook ∧ (shell.Stuck xcg → result.1.Stuck xcg) ∧ Plain result.2) ∨
      (¬ shell.Stuck xcg ∧ ∃ cb, shell.hook = some cb ∧ Exits cb result) := by
  cases stepped with
  | unentered data exitCb => exact absurd rfl (elsewhere data exitCb)
  | unappended data cb => exact absurd rfl (elsewhere (some data) (some cb))
  | entered data cb => exact absurd rfl (elsewhere data (some cb))
  | unopened => exact .inl ⟨rfl, id, plain_nil.cons _ ⟨rfl, rfl⟩⟩
  | undispatched => exact .inl ⟨rfl, id, plain_nil⟩
  | fulfilled => exact .inl ⟨rfl, id, plain_nil⟩
  | rejected msg _ opened =>
    refine .inl ⟨(Shell.hook_opened opened).symm, fun stuck => ?_, plain_nil.cons _ ⟨rfl, rfl⟩⟩
    obtain ⟨complete, idle⟩ := stuck.opened opened
    exact ⟨_, rfl, complete, idle⟩
  | @accepted _ ses _ msg items payload opened room _ _ processed =>
    have unstuck : ¬ shell.Stuck xcg := by
      intro stuck
      have full := (stuck.opened opened).1.2
      omega
    rw [Shell.hook_opened opened]
    rcases processed.hook with ⟨same, plain⟩ | ⟨cb, hook, exits⟩
    · exact .inl ⟨same, fun stuck => absurd stuck unstuck, plain.cons _ ⟨rfl, rfl⟩⟩
    · exact .inr ⟨unstuck, cb, hook, exits.cons _ ⟨rfl, rfl⟩⟩
  | @completed ses _ _ matchtag response live upstream ready processed =>
    have unstuck : ¬ shell.Stuck xcg := by
      rintro ⟨old, same, _, idle⟩
      cases live.symm.trans same
      rw [upstream] at idle
      cases idle
    have hook : shell.hook = (ses.answer response).exitCb := by
      rw [Shell.hook, live, Session.answer]
      split <;> rfl
    rw [hook]
    rcases processed.hook with ⟨same, plain⟩ | ⟨cb, hooked, exits⟩
    · exact .inl ⟨same, fun stuck => absurd stuck unstuck, plain⟩
    · exact .inr ⟨unstuck, cb, hooked, exits⟩

/-- An entry that is made either fails with nothing changed, or loses its data and leaves its
callback behind, or keeps the callback, or calls it at once. -/
inductive Entry (shell : Shell A) (fault : Faults) (data : Option Json) (cb : A)
    (result : Shell A × List (Effect A)) : Prop where
  | failed (errno : Errno) (unchanged : result = (shell, [.enterFailed (some cb) errno]))
  | lost {ses : Session A} (json : Json) (given : data = some json) (string : json.isString = true)
      (opened : shell.ensureSession fault = some ses) (fresh : ses.isLocal = false)
      (fails : fault.arrayAppend = true) (idle : ses.f = none)
      (left : result = ({ shell with session := some { ses with exitCb := some cb, isLocal := true } },
        [.entered cb data, .enterFailed (some cb) .ENOMEM]))
  | hooked (hook : result.1.hook = some cb) (plain : Plain result.2)
  | exited (exits : Exits cb result)

theorem Stepped.entry (stepped : Stepped xcg shell (.enter data (some cb), fault) result)
    (sound : shell.Sound xcg) : Entry shell fault data cb result := by
  cases stepped with
  | unentered _ _ errno => exact .failed errno rfl
  | @unappended _ ses json _ string opened fresh fails =>
    have idle := (sound.opened opened).gathering (.inl fresh)
    exact .lost json rfl string opened fresh fails idle rfl
  | entered _ _ _ _ _ _ processed =>
    rcases processed.hook with ⟨same, plain⟩ | ⟨own, hook, exits⟩
    · exact .hooked same (plain.cons _ ⟨rfl, rfl⟩)
    · cases hook
      exact .exited (exits.cons _ ⟨rfl, rfl⟩)

end Shell

/-! ### The life of one `fence_call` -/

/-- What happens to a given `fence_call`: its exit callback runs, its entry is refused, its
`cbfunc` is called, or its exit callback runs after it was destroyed. -/
inductive Mark where
  | exits
  | failed
  | called
  | stale
  deriving DecidableEq

def FenceEffect.mark (id : Nat) : FenceEffect → Option Mark
  | .exchange (.exit call _) => if call = id then some .exits else none
  | .exchange (.enterFailed (some call) _) => if call = id then some .failed else none
  | .cbfunc call _ _ _ _ => if call = id then some .called else none
  | .stale call => if call = id then some .stale else none
  | _ => none

def history (id : Nat) (trace : List FenceEffect) : List Mark := trace.filterMap (FenceEffect.mark id)

/-- The histories a `fence_call` can have. -/
def lives : List (List Mark) := [[], [.called], [.exits], [.exits, .called], [.failed, .called]]

theorem history_append (id : Nat) (trace more : List FenceEffect) :
    history id (trace ++ more) = history id trace ++ history id more :=
  List.filterMap_append

theorem history_plain (plain : Plain effects) (id : Nat) : history id (effects.map .exchange) = [] := by
  rw [history, List.filterMap_map, List.filterMap_eq_nil_iff]
  intro e member
  obtain ⟨noExit, accepted⟩ := plain e member
  cases e with
  | exit => cases noExit
  | enterFailed => cases accepted
  | _ => rfl

theorem history_append_plain (plain : Plain effects) (id : Nat) (trace : List FenceEffect) :
    history id (trace ++ effects.map .exchange) = history id trace := by
  rw [history_append, history_plain plain, List.append_nil]

section Exits
variable {fault : FenceFaults} {fx : Fence} {id other : Nat}

theorem Fence.exits_plain (plain : Plain effects) (fx : Fence) :
    Fence.exits fault fx effects = (fx, effects.map .exchange) := by
  induction effects with
  | nil => rfl
  | cons e rest ih =>
    have first := plain e List.mem_cons_self
    have others := ih (fun other member => plain other (List.mem_cons_of_mem _ member))
    cases e with
    | exit => cases first.1
    | _ => simp [Fence.exits, others]

theorem Fence.exits_append (first rest : List (Effect Nat)) (fx : Fence) :
    Fence.exits fault fx (first ++ rest) =
      ((Fence.exits fault (Fence.exits fault fx first).1 rest).1,
        (Fence.exits fault fx first).2 ++ (Fence.exits fault (Fence.exits fault fx first).1 rest).2) := by
  induction first generalizing fx with
  | nil => rfl
  | cons e first ih => simp only [List.cons_append, Fence.exits, ih, List.append_assoc]

/-- A callback that ends the session runs one exit callback. -/
theorem Fence.exits_last (plain : Plain before) (fx : Fence) (id : Nat) (ses : Session Nat) :
    Fence.exits fault fx (before ++ [.exit id ses, .destroy]) =
      ((exchangeExitCb fault fx id ses).1,
        before.map .exchange ++ .exchange (.exit id ses) :: (exchangeExitCb fault fx id ses).2 ++
          [.exchange .destroy]) := by
  rw [Fence.exits_append, Fence.exits_plain plain]
  simp [Fence.exits]

/-- An exit callback concerns its own `fence_call` only. -/
theorem exchangeExitCb_other (different : other ≠ id) (ses : Session Nat) :
    (exchangeExitCb fault fx id ses).1.calls other = fx.calls other ∧
      history other (exchangeExitCb fault fx id ses).2 = [] := by
  rw [exchangeExitCb]
  split
  · exact ⟨rfl, by simp [history, FenceEffect.mark, Ne.symm different]⟩
  · split
    · exact ⟨rfl, rfl⟩
    · exact ⟨Function.update_of_ne different _ _, by simp [history, FenceEffect.mark, Ne.symm different]⟩

/-- Run on a live `fence_call` it calls the `cbfunc` at most once. -/
theorem exchangeExitCb_own (live : fx.calls id ≠ none) (ses : Session Nat) :
    history id (exchangeExitCb fault fx id ses).2 = [.called] ∨
      history id (exchangeExitCb fault fx id ses).2 = [] := by
  rw [exchangeExitCb]
  split
  · contradiction
  · split
    · exact .inr rfl
    · exact .inl (by simp [history, FenceEffect.mark])

theorem exchangeExitCb_frame (fx : Fence) (id : Nat) (ses : Session Nat) :
    (exchangeExitCb fault fx id ses).1.exchange = fx.exchange ∧
      (exchangeExitCb fault fx id ses).1.exchangeSeq = fx.exchangeSeq := by
  rw [exchangeExitCb]
  split
  · exact ⟨rfl, rfl⟩
  · split <;> exact ⟨rfl, rfl⟩

end Exits

/-- Who owns the `fence_call`: not created yet, in the hands of the session, or done with. A
stuck session may name one that is done with, since it never calls it. -/
structure Fence.Owns (xcg : Exchange) (id : Nat) (trace : List FenceEffect) (fx : Fence) : Prop where
  sound : fx.exchange.Sound xcg
  unborn : fx.exchangeSeq ≤ id → fx.exchange.hook ≠ some id ∧ history id trace = []
  held : fx.exchange.hook = some id →
    (fx.calls id ≠ none ∧ history id trace = []) ∨ fx.exchange.Stuck xcg
  lawful : history id trace ∈ lives

theorem Fence.initial_owns (xcg : Exchange) (id : Nat) : Fence.initial.Owns xcg id [] := by
  constructor
  · exact Shell.idle_sound
  · exact fun _ => ⟨nofun, rfl⟩
  · exact nofun
  · exact List.mem_cons_self

section Steps
variable {xcg : Exchange} {fault : FenceFaults} {fx : Fence} {trace : List FenceEffect} {id : Nat}

/-- The session ended with the exit callback of a `fence_call` that was live. -/
theorem Fence.owns_ended (sound : fx.exchange.Sound xcg) (gone : fx.exchange.session = none)
    (plain : Plain before) (snapshot : Session Nat)
    (unborn : fx.exchangeSeq ≤ id → id ≠ cb ∧ history id trace = [])
    (own : id = cb → fx.calls id ≠ none ∧ history id trace = []) (lawful : history id trace ∈ lives) :
    (Fence.exits fault fx (before ++ [.exit cb snapshot, .destroy])).1.Owns xcg id
      (trace ++ (Fence.exits fault fx (before ++ [.exit cb snapshot, .destroy])).2) := by
  obtain ⟨exchange, seq⟩ := @exchangeExitCb_frame fault fx cb snapshot
  have noHook : (exchangeExitCb fault fx cb snapshot).1.exchange.hook = none := by
    rw [exchange, Shell.hook, gone]
    rfl
  have marks : history id (trace ++ (Fence.exits fault fx (before ++ [.exit cb snapshot, .destroy])).2) =
      history id trace ++ ((if cb = id then [Mark.exits] else []) ++
        history id (exchangeExitCb fault fx cb snapshot).2) := by
    rw [Fence.exits_last plain, history_append, List.append_assoc, history_append, history_plain plain]
    by_cases same : cb = id
    · simp [history, FenceEffect.mark, same]
    · simp [history, FenceEffect.mark, same]
  have quiet : id ≠ cb →
      history id (trace ++ (Fence.exits fault fx (before ++ [.exit cb snapshot, .destroy])).2) =
        history id trace := by
    intro different
    rw [marks, if_neg (Ne.symm different), (exchangeExitCb_other different snapshot).2]
    simp
  constructor
  · rw [Fence.exits_last plain, exchange]
    exact sound
  · rw [Fence.exits_last plain, seq, noHook]
    intro beyond
    obtain ⟨different, nothing⟩ := unborn beyond
    rw [← Fence.exits_last plain, quiet different]
    exact ⟨nofun, nothing⟩
  · rw [Fence.exits_last plain, noHook]
    exact nofun
  · by_cases same : id = cb
    · obtain ⟨live, nothing⟩ := own same
      subst same
      rw [marks, nothing, if_pos rfl]
      rcases exchangeExitCb_own live snapshot with called | silent
      · rw [called]
        decide
      · rw [silent]
        decide
    · rw [quiet same]
      exact lawful

/-- Callbacks that do not enter. -/
theorem Fence.Owns.callback (owns : fx.Owns xcg id trace) (fault : FenceFaults) (event : Event Nat)
    (elsewhere : ∀ data cb, event ≠ .enter data cb) :
    (fx.callback xcg fault event).1.Owns xcg id (trace ++ (fx.callback xcg fault event).2) := by
  obtain ⟨sound, unborn, held, lawful⟩ := owns
  have stepped := Shell.next_stepped sound (event, fault.exchange)
  have kept := stepped.sound sound
  rw [Fence.callback]
  generalize Shell.next xcg fx.exchange (event, fault.exchange) = result at stepped kept
  obtain ⟨shell, effects⟩ := result
  rcases stepped.hook elsewhere with ⟨same, stuck, plain⟩ | ⟨unstuck, cb, hook, gone, before, snapshot, rfl, plain⟩
  · simp only [Fence.exits_plain plain]
    have marks := history_append_plain plain id trace
    constructor
    · exact kept
    · rw [marks, same]
      exact unborn
    · rw [marks, same]
      intro hook
      exact (held hook).imp_right stuck
    · rw [marks]
      exact lawful
  · apply Fence.owns_ended kept gone plain snapshot
    · intro beyond
      obtain ⟨unhooked, nothing⟩ := unborn beyond
      refine ⟨?_, nothing⟩
      rintro rfl
      exact unhooked hook
    · rintro rfl
      exact (held hook).resolve_right unstuck
    · exact lawful

/-- A callback that only creates and drops a `fence_call`. -/
theorem Fence.Owns.created (owns : fx.Owns xcg id trace) (effects : List FenceEffect)
    (silent : history id effects = []) :
    Fence.Owns xcg id (trace ++ effects) { fx with exchangeSeq := fx.exchangeSeq + 1 } := by
  obtain ⟨sound, unborn, held, lawful⟩ := owns
  have marks : history id (trace ++ effects) = history id trace := by
    rw [history_append, silent, List.append_nil]
  constructor
  · exact sound
  · rw [marks]
    intro beyond
    exact unborn (Nat.le_of_succ_le beyond)
  · rw [marks]
    exact held
  · rw [marks]
    exact lawful

/-- The error label runs for a new `fence_call` whose session, if it has one, is stuck. -/
theorem Fence.Owns.failed (owns : fx.Owns xcg id trace) (shell : Shell Nat) (effects : List FenceEffect)
    (call : FenceCall) (rc : Int32) (calls : Nat → Option FenceCall) (sound : shell.Sound xcg)
    (hook : shell.hook = fx.exchange.hook ∧ (fx.exchange.Stuck xcg → shell.Stuck xcg) ∨
      shell.hook = some fx.exchangeSeq ∧ shell.Stuck xcg)
    (own : history fx.exchangeSeq effects ∈ [[], [Mark.failed]])
    (others : id ≠ fx.exchangeSeq → calls id = fx.calls id ∧ history id effects = []) :
    (Fence.fail ⟨shell, fx.exchangeSeq + 1, calls⟩ fx.exchangeSeq call rc).1.Owns xcg id
      (trace ++ (effects ++ (Fence.fail ⟨shell, fx.exchangeSeq + 1, calls⟩ fx.exchangeSeq call rc).2)) := by
  obtain ⟨_, unborn, held, lawful⟩ := owns
  by_cases same : id = fx.exchangeSeq
  · subst same
    obtain ⟨unhooked, nothing⟩ := unborn le_rfl
    constructor
    · exact sound
    · intro beyond
      simp only [Fence.fail] at beyond
      omega
    · intro hooked
      rcases hook with ⟨kept, _⟩ | ⟨_, stuck⟩
      · exact absurd (kept.symm.trans hooked) unhooked
      · exact .inr stuck
    · have last : history fx.exchangeSeq
          (Fence.fail ⟨shell, fx.exchangeSeq + 1, calls⟩ fx.exchangeSeq call rc).2 = [.called] := by
        simp [Fence.fail, history, FenceEffect.mark]
      rw [history_append, history_append, nothing, last]
      rcases List.mem_pair.mp own with none | failed
      · rw [none]
        decide
      · rw [failed]
        decide
  · obtain ⟨unchanged, silent⟩ := others same
    have last : history id (Fence.fail ⟨shell, fx.exchangeSeq + 1, calls⟩ fx.exchangeSeq call rc).2 = [] := by
      simp [Fence.fail, history, FenceEffect.mark, Ne.symm same]
    have marks : history id (trace ++ (effects ++
        (Fence.fail ⟨shell, fx.exchangeSeq + 1, calls⟩ fx.exchangeSeq call rc).2)) = history id trace := by
      rw [history_append, history_append, silent, last, List.append_nil, List.append_nil]
    constructor
    · exact sound
    · rw [marks]
      intro beyond
      simp only [Fence.fail] at beyond ⊢
      obtain ⟨unhooked, nothing⟩ := unborn (by omega)
      refine ⟨?_, nothing⟩
      rcases hook with ⟨kept, _⟩ | ⟨new, _⟩
      · rwa [kept]
      · rw [new]
        exact fun alike => same (Option.some.inj alike).symm
    · rw [marks]
      intro hooked
      rcases hook with ⟨kept, stuck⟩ | ⟨_, stuck⟩
      · have later : Function.update calls fx.exchangeSeq none id = fx.calls id :=
          (Function.update_of_ne same _ _).trans unchanged
        simp only [Fence.fail, later]
        exact (held (kept.symm.trans hooked)).imp_right stuck
      · exact .inr stuck
    · rw [marks]
      exact lawful

/-- When the data of an upcall cannot be appended, every child's request is queued already. -/
def AppendsInTime [CFloat] (xcg : Exchange) (fx : Fence) (input : FenceEvent × FenceFaults) : Prop :=
  ∀ msg call data ses, input.1 = .upcall msg → input.2.callCreate = false →
    fenceAdmit input.2 msg = .entering call (some data) → data.isString = true →
    fx.exchange.ensureSession input.2.exchange = some ses → ses.isLocal = false →
    input.2.exchange.arrayAppend = true → ses.requests.length = xcg.childCount

/-- The entry of a new `fence_call`. -/
theorem Fence.Owns.enter (owns : fx.Owns xcg id trace) (call : FenceCall) (data : Option Json)
    (inTime : ∀ json ses, data = some json → json.isString = true →
      fx.exchange.ensureSession fault.exchange = some ses → ses.isLocal = false →
      fault.exchange.arrayAppend = true → ses.requests.length = xcg.childCount) :
    (Fence.enter xcg fault { fx with exchangeSeq := fx.exchangeSeq + 1 } fx.exchangeSeq call data).1.Owns
      xcg id (trace ++
        (Fence.enter xcg fault { fx with exchangeSeq := fx.exchangeSeq + 1 } fx.exchangeSeq call data).2) := by
  have stepped := Shell.next_stepped owns.sound (.enter data (some fx.exchangeSeq), fault.exchange)
  have kept := stepped.sound owns.sound
  have entry := stepped.entry owns.sound
  have others : id ≠ fx.exchangeSeq → Function.update fx.calls fx.exchangeSeq (some call) id = fx.calls id :=
    fun different => Function.update_of_ne different _ _
  have live : Function.update fx.calls fx.exchangeSeq (some call) fx.exchangeSeq ≠ none := by
    rw [Function.update_self]
    exact nofun
  rw [Shell.next] at kept entry
  rw [Fence.enter]
  generalize exchangeEnterBase64String xcg fault.exchange fx.exchange data (some fx.exchangeSeq) = result
    at kept entry
  cases entry with
  | failed errno unchanged =>
    subst unchanged
    refine owns.failed fx.exchange [.exchange (.enterFailed (some fx.exchangeSeq) errno)] call pmixError _
      kept (.inl ⟨rfl, fun stuck => stuck⟩) ?_ (fun different => ⟨others different, ?_⟩)
    · simp [history, FenceEffect.mark]
    · simp [history, FenceEffect.mark, Ne.symm different]
  | lost json given string opened fresh fails idle left =>
    subst left
    have full := inTime json _ given string opened fresh fails
    refine owns.failed _ [.exchange (.entered fx.exchangeSeq data),
      .exchange (.enterFailed (some fx.exchangeSeq) .ENOMEM)] call pmixError _
      kept (.inr ⟨rfl, _, rfl, ⟨rfl, full⟩, idle⟩) ?_ (fun different => ⟨others different, ?_⟩)
    · rw [history, List.filterMap_cons_none rfl]
      simp [FenceEffect.mark]
    · simp [history, FenceEffect.mark, Ne.symm different]
  | hooked hook plain =>
    obtain ⟨shell, effects⟩ := result
    simp only [Fence.exits_plain plain, plain.accepted, Bool.false_eq_true, if_false]
    obtain ⟨_, unborn, held, lawful⟩ := owns
    have marks := history_append_plain plain id trace
    constructor
    · exact kept
    · rw [marks]
      intro beyond
      refine ⟨?_, (unborn (Nat.le_of_succ_le beyond)).2⟩
      rw [hook]
      rintro ⟨rfl⟩
      exact absurd beyond (Nat.not_succ_le_self _)
    · rw [marks]
      intro hooked
      obtain rfl := Option.some.inj (hook.symm.trans hooked)
      exact .inl ⟨live, (unborn le_rfl).2⟩
    · rw [marks]
      exact lawful
  | exited exits =>
    have accepted := exits.accepted
    obtain ⟨shell, effects⟩ := result
    obtain ⟨gone, before, snapshot, rfl, plain⟩ := exits
    simp only [accepted, Bool.false_eq_true, if_false]
    obtain ⟨_, unborn, _, lawful⟩ := owns
    refine Fence.owns_ended kept gone plain snapshot ?_ ?_ lawful
    · intro beyond
      refine ⟨?_, (unborn (Nat.le_of_succ_le beyond)).2⟩
      rintro rfl
      exact absurd beyond (Nat.not_succ_le_self _)
    · rintro rfl
      exact ⟨live, (unborn le_rfl).2⟩

theorem Fence.Owns.next [CFloat] (owns : fx.Owns xcg id trace) (input : FenceEvent × FenceFaults)
    (inTime : AppendsInTime xcg fx input) :
    (Fence.next xcg fx input).1.Owns xcg id (trace ++ (Fence.next xcg fx input).2) := by
  obtain ⟨event, fault⟩ := input
  cases event with
  | request msg => exact owns.callback fault (.request msg) (fun _ _ => nofun)
  | fulfill matchtag response => exact owns.callback fault (.fulfill matchtag response) (fun _ _ => nofun)
  | dispatch matchtag => exact owns.callback fault (.dispatch matchtag) (fun _ _ => nofun)
  | upcall msg =>
    rw [Fence.next, fenceShellCb]
    cases created : fault.callCreate with
    | true =>
      have marks : history id (trace ++ [.dropped]) = history id trace := by
        rw [history_append]
        exact List.append_nil _
      obtain ⟨sound, unborn, held, lawful⟩ := owns
      simp only [if_true]
      constructor
      · exact sound
      · rwa [marks]
      · rwa [marks]
      · rwa [marks]
    | false =>
      simp only [Bool.false_eq_true, if_false]
      cases admitted : fenceAdmit fault msg with
      | dropped => exact owns.created [.dropped] rfl
      | undefined => exact owns.created [.undefined] rfl
      | rejected call rc =>
        exact owns.failed fx.exchange [] call rc fx.calls owns.sound (.inl ⟨rfl, fun stuck => stuck⟩)
          List.mem_cons_self (fun _ => ⟨rfl, rfl⟩)
      | entering call data =>
        refine owns.enter call data (fun json ses given string opened fresh fails => ?_)
        subst given
        exact inTime msg call json ses rfl created admitted string opened fresh fails

end Steps

/-! ### Whole runs -/

/-- What a lawful history says: one call of the `cbfunc`, no use after the end, and no exit
callback after a refused entry. -/
theorem lives_spec (lawful : marks ∈ lives) : marks.count .called ≤ 1 ∧ Mark.stale ∉ marks ∧
    ∀ before after, marks = before ++ .exits :: after → before = [] := by
  refine ⟨?_, ?_, ?_⟩
  · revert marks
    decide
  · revert marks
    decide
  · rintro before after rfl
    cases before with
    | nil => rfl
    | cons first rest => cases first <;> cases rest <;> simp [lives] at lawful

/-- In every run in which data is appended before the last child's request, or without fault, the
`cbfunc` of each `fence_call` is called at most once, its exit callback never runs after it was
destroyed, and none runs for an entry that returned -1. -/
theorem fence_completes_once [CFloat] (xcg : Exchange) (inputs : List (FenceEvent × FenceFaults))
    (inTime : Along (Fence.next xcg) (AppendsInTime xcg) Fence.initial inputs) (id : Nat) :
    (history id (exec (Fence.next xcg) Fence.initial inputs).2).count .called ≤ 1 ∧
    Mark.stale ∉ history id (exec (Fence.next xcg) Fence.initial inputs).2 ∧
    Whenever (fun before e => e.mark id = some .exits → Mark.failed ∉ history id before)
      (exec (Fence.next xcg) Fence.initial inputs).2 := by
  have owns := exec_invariant_nil (P := fun trace fx => Fence.Owns xcg id trace fx)
    (fun _ _ input owns inTime => owns.next input inTime) (Fence.initial_owns xcg id) inTime
  obtain ⟨once, unstale, ordered⟩ := lives_spec owns.lawful
  refine ⟨once, unstale, ?_⟩
  intro before e after split exits
  have marks : history id (exec (Fence.next xcg) Fence.initial inputs).2 =
      history id before ++ .exits :: history id after := by
    rw [split, history_append, history, history, history, List.filterMap_cons_some exits]
  rw [ordered _ _ marks]
  exact List.not_mem_nil

/-- The upcall of a fence over all procs with `pmix.collect`, no data, and `cbfunc` 1. -/
def collectUpcall : Json := .object [
  ("procs", .array [.object [("nspace", .string []), ("rank", .integer (-2))]]),
  ("info", .array [.object [("key", .string (literal "pmix.collect")), ("flags", .integer 0),
    ("value", .object [("type", .integer 1), ("data", .bool true)])]]),
  ("data", .string []), ("cbfunc", .integer 1), ("cbdata", .integer 0)]

/-- The root of two shells enters, then its child's request arrives. -/
def collectRun (fault : FenceFaults) : List (FenceEvent × FenceFaults) :=
  [(.upcall collectUpcall, fault), (.request ⟨1, 0, packData (.array [])⟩, {})]

/-- The child's request is there before the root's data fails to be appended, and is sent again. -/
def gatheredRun : List (FenceEvent × FenceFaults) :=
  [(.request ⟨1, 0, packData (.array [])⟩, {}), (.upcall collectUpcall, { exchange := { arrayAppend := true } }),
    (.request ⟨1, 1, packData (.array [])⟩, {})]

/-- The `fence_call` fails, and its exit callback does not run. -/
theorem fence_completes_once_sample :
    history 0 (exec (@Fence.next .verbatim (exchangeCreate 2 0 0)) Fence.initial gatheredRun).2 =
        [.failed, .called] ∧
      (history 0 (exec (@Fence.next .verbatim (exchangeCreate 2 0 0)) Fence.initial gatheredRun).2).count .called ≤ 1 ∧
      Mark.stale ∉ history 0 (exec (@Fence.next .verbatim (exchangeCreate 2 0 0)) Fence.initial gatheredRun).2 := by
  have inTime : Along (@Fence.next .verbatim (exchangeCreate 2 0 0)) (@AppendsInTime .verbatim (exchangeCreate 2 0 0))
      Fence.initial gatheredRun := by
    refine ⟨fun _ _ _ _ asked => (by cases asked), fun _ _ _ ses _ _ _ _ opened _ _ => ?_,
      fun _ _ _ _ asked => (by cases asked), trivial⟩
    cases opened
    rfl
  obtain ⟨once, unstale, _⟩ := @fence_completes_once .verbatim (exchangeCreate 2 0 0) gatheredRun inTime 0
  exact ⟨rfl, once, unstale⟩

/-- The append fails, so the fence has failed and its `fence_call` is gone. The child's request
then completes the session, which still calls it. -/
theorem fence_call_used_after_destroy :
    history 0 (exec (@Fence.next .verbatim (exchangeCreate 2 0 0)) Fence.initial
      (collectRun { exchange := { arrayAppend := true } })).2 = [.failed, .called, .exits, .stale] :=
  rfl

end FluxPmix

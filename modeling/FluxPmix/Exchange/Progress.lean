import FluxPmix.Exchange.Rounds
import Mathlib.Algebra.BigOperators.Group.Finset.Piecewise
import Mathlib.Order.Interval.Finset.Nat

/-! What an exchange costs. An entry below the root is worth three steps: the delivery of a request,
the delivery of its response, and a completion. Every step that does something takes one off what is
owed, so a job neither runs on for ever nor rests before it is done. -/
namespace FluxPmix
open Mealy

section Shell
variable {A : Type} {xcg : Exchange} {shell : Shell A} {ses : Session A}

/-- The steps an entry is worth whose request was not sent. -/
def Session.unasked (rank : Nat) (ses : Session A) : Nat :=
  if 0 < rank ∧ ses.isLocal = true ∧ ses.f = none then 3 else 0

def Session.owing (rank : Nat) (ses : Session A) : Nat := ses.unasked rank + 2 * ses.requests.length

/-- A queued request is worth its response and the sender's completion, a ready future the completion. -/
def Shell.owing (rank : Nat) (shell : Shell A) : Nat :=
  shell.session.elim 0 (Session.owing rank) + shell.futures.countP (fun future => future.result.isSome)

/-- What a callback's messages are worth. -/
def messagesOwing (xcg : Exchange) (effects : List (Effect A)) : Nat :=
  3 * (effects.filterMap (Effect.posted xcg)).length + 2 * (effects.filterMap Effect.replied).length

theorem Session.unasked_root (ses : Session A) (root : rank = 0) : ses.unasked rank = 0 := by
  rw [unasked, if_neg (by omega)]

theorem Session.unasked_outside (outside : ses.isLocal = false) (rank : Nat) : ses.unasked rank = 0 := by
  simp [unasked, outside]

theorem Session.unasked_asked (asked : ses.f ≠ none) (rank : Nat) : ses.unasked rank = 0 := by
  simp [unasked, asked]

theorem responses_owing (requests : List Request) (data : Json) :
    messagesOwing xcg (requests.map (Effect.respond (A := A) · (some data) true)) = 2 * requests.length := by
  have posted : (requests.map (Effect.respond (A := A) · (some data) true)).filterMap (Effect.posted xcg) = [] := by
    rw [List.filterMap_map, List.filterMap_eq_nil_iff]
    exact fun _ _ => rfl
  have replied : ((requests.map (Effect.respond (A := A) · (some data) true)).filterMap Effect.replied).length =
      requests.length := by
    rw [← List.length_map (f := Prod.fst)]
    exact (congrArg List.length (recipients_responses requests data)).trans (by rw [List.length_map])
  rw [messagesOwing, posted, replied, List.length_nil, Nat.mul_zero, Nat.zero_add]

theorem messagesOwing_append (first rest : List (Effect A)) :
    messagesOwing xcg (first ++ rest) = messagesOwing xcg first + messagesOwing xcg rest := by
  simp only [messagesOwing, List.filterMap_append, List.length_append]
  omega

/-- `session_process` moves what is owed from the session into its messages. -/
theorem Processed.owing (processed : Processed xcg {} shell ses result) (clean : ses.hasError = false) :
    result.1.owing xcg.rank + messagesOwing xcg result.2 = ses.owing xcg.rank := by
  cases processed with
  | waits => rfl
  | sent complete gathering below =>
    have fresh : ses.unasked xcg.rank = 3 := if_pos ⟨below, complete.1, gathering⟩
    have asked : Session.unasked xcg.rank { ses with f := some shell.matchtags } = 0 :=
      Session.unasked_asked (Option.some_ne_none _) _
    have message : messagesOwing xcg [Effect.rpc (A := A) shell.matchtags (packData (.array ses.dataIn))] = 3 := rfl
    simp [Shell.owing, Session.owing, asked, fresh, message]
    omega
  | answered cb data _ complete output =>
    have settled : ses.unasked xcg.rank = 0 := by
      rcases output with ⟨_, root, _⟩ | ⟨asked, _⟩
      · exact ses.unasked_root root
      · exact Session.unasked_asked asked _
    rw [messagesOwing_append, responses_owing, Session.owing, settled]
    simp [Shell.owing, messagesOwing, Effect.posted, Effect.replied]
  | unsent _ _ _ _ _ fails => cases fails
  | unregistered _ _ _ _ _ _ fails => cases fails
  | refused _ _ _ _ _ failed =>
    rw [clean] at failed
    cases failed
  | broken _ _ _ _ _ _ _ _ _ fails => cases fails

/-- A shell without futures owes what the session it opens owes. -/
theorem Shell.owing_opened (opened : shell.ensureSession fault = some ses) (noFutures : shell.futures = [])
    (rank : Nat) : shell.owing rank = ses.owing rank := by
  rw [Shell.ensureSession_eq opened, Shell.owing, noFutures]
  cases shell.session with
  | some _ => rfl
  | none => exact (@Session.unasked_outside A sessionCreate rfl rank).symm

/-- How many steps below the root a callback's entries are worth. -/
def entriesWorth (rank : Nat) (effects : List (Effect A)) : Nat :=
  if 0 < rank then 3 * (effects.filterMap Effect.entry).length else 0

theorem Processed.entry_nil (processed : Processed xcg fault shell ses result) :
    result.2.filterMap Effect.entry = [] := by
  have responses (requests : List Request) (data : Json) :
      (requests.map (Effect.respond (A := A) · (some data) true)).filterMap Effect.entry = [] := by
    rw [List.filterMap_map, List.filterMap_eq_nil_iff]
    exact fun _ _ => rfl
  cases processed with
  | waits | sent | unsent | unregistered | refused => rfl
  | answered => rw [List.filterMap_append, responses]; rfl
  | broken => rw [List.filterMap_append, responses]; rfl

/-- An entry adds what it is worth, whether it sends at once or not. -/
theorem Stepped.owing_enter (stepped : Stepped xcg shell (.enter data exitCb, {}) result) (sound : shell.Sound xcg) :
    result.1.owing xcg.rank + messagesOwing xcg result.2 =
      shell.owing xcg.rank + entriesWorth xcg.rank result.2 := by
  cases stepped with
  | unentered _ _ errno =>
    have nothing : entriesWorth xcg.rank [Effect.enterFailed (A := A) exitCb errno] = 0 := ite_self 0
    rw [nothing]
    rfl
  | unappended _ _ _ _ _ fails => cases fails
  | @entered _ ses result _ cb _ opened fresh _ processed =>
    have within := sound.opened opened
    have gathering := within.gathering (.inl fresh)
    have settled := processed.owing within.clean
    have sent : messagesOwing xcg (.entered cb data :: result.2) = messagesOwing xcg result.2 := rfl
    have worth : entriesWorth xcg.rank (.entered cb data :: result.2) = if 0 < xcg.rank then 3 else 0 := by
      have first : (Effect.entered cb data :: result.2).filterMap Effect.entry =
          data :: result.2.filterMap Effect.entry := rfl
      rw [entriesWorth, first, processed.entry_nil]
      rfl
    have after : Session.unasked xcg.rank { ses with
        exitCb := some cb, isLocal := true, dataIn := ses.dataIn ++ data.toList } = if 0 < xcg.rank then 3 else 0 := by
      simp [Session.unasked, gathering]
    have before : shell.owing xcg.rank = 2 * ses.requests.length := by
      rw [Shell.owing_opened opened (within.noFutures gathering), Session.owing, Session.unasked_outside fresh,
        Nat.zero_add]
    rw [Session.owing, after] at settled
    dsimp only at settled ⊢
    omega

/-- A queued request is worth what the delivery left of it. -/
theorem Stepped.owing_request (stepped : Stepped xcg shell (.request msg, {}) result) (sound : shell.Sound xcg)
    (accepts : result.2.any Effect.isRefusal = false) :
    result.1.owing xcg.rank + messagesOwing xcg result.2 = shell.owing xcg.rank + 2 := by
  cases stepped with
  | unopened => cases accepts
  | rejected => cases accepts
  | @accepted _ ses result _ items _ opened room _ _ processed =>
    have within := sound.opened opened
    have gathering := within.gathering (.inr room)
    have settled := processed.owing within.clean
    have sent : messagesOwing xcg (.accept msg :: result.2) = messagesOwing xcg result.2 := rfl
    have unchanged : Session.unasked xcg.rank { ses with
      dataIn := ses.dataIn ++ items, requests := ses.requests ++ [msg] } = ses.unasked xcg.rank := rfl
    rw [Session.owing, unchanged, List.length_append, List.length_singleton] at settled
    rw [Shell.owing_opened opened (within.noFutures gathering), Session.owing, sent]
    dsimp only
    omega

/-- A ready future is that of the request the session sent. -/
theorem Shell.ready_asked (sound : shell.Sound xcg) (ready : shell.ready matchtag = some response) :
    ∃ ses, shell.session = some ses ∧ ses.f = some matchtag ∧ 0 < xcg.rank ∧ ses.complete xcg ∧
      shell.futures = [⟨matchtag, some response⟩] := by
  cases live : shell.session with
  | none => simp [Shell.ready, sound.noFutures live] at ready
  | some ses =>
    have within := sound.live live
    cases upstream : ses.f with
    | none => simp [Shell.ready, within.noFutures upstream] at ready
    | some tag =>
      obtain ⟨below, complete, result, futures⟩ := within.asked upstream
      rw [Shell.ready, futures, List.find?_singleton] at ready
      by_cases same : tag = matchtag
      · subst same
        simp only [beq_self_eq_true, if_true, Option.bind_some] at ready
        subst ready
        exact ⟨ses, rfl, upstream, below, complete, futures⟩
      · simp [same] at ready

/-- A completion takes its future with it. -/
theorem Shell.owing_dispatch (sound : shell.Sound xcg) (ready : shell.ready matchtag = some response)
    (unpacked : response.unpack = some data) :
    (shell.next xcg (.dispatch matchtag, {})).1.owing xcg.rank +
      messagesOwing xcg (shell.next xcg (.dispatch matchtag, {})).2 + 1 = shell.owing xcg.rank := by
  obtain ⟨ses, live, upstream, below, complete, futures⟩ := Shell.ready_asked sound ready
  have within := sound.live live
  have processed : Processed xcg {} shell { ses with dataOut := some data }
      (shell.next xcg (.dispatch matchtag, {})) := by
    simp only [Shell.next, ready, exchangeResponseCompletion, live, Session.answer, unpacked]
    exact sessionProcess_completion within.hooked complete below upstream futures (.inr ⟨within.clean, rfl⟩)
  have settled := processed.owing within.clean
  have asked : ses.f ≠ none := by simp [upstream]
  have before : shell.owing xcg.rank = 2 * ses.requests.length + 1 := by
    simp [Shell.owing, live, futures, Session.owing, Session.unasked_asked asked]
  have after : Session.unasked xcg.rank { ses with dataOut := some data } = 0 := by
    simp [Session.unasked, asked]
  rw [Session.owing, after] at settled
  dsimp only at settled
  omega

theorem Stepped.entry_nil (stepped : Stepped xcg shell (event, fault) result)
    (elsewhere : ∀ data cb, event ≠ .enter data cb) : result.2.filterMap Effect.entry = [] := by
  cases stepped with
  | unentered data exitCb => exact absurd rfl (elsewhere data exitCb)
  | unappended data cb => exact absurd rfl (elsewhere (some data) (some cb))
  | entered data cb => exact absurd rfl (elsewhere data (some cb))
  | unopened | rejected | fulfilled | undispatched => rfl
  | accepted _ _ _ _ _ _ _ processed => exact processed.entry_nil
  | completed _ _ _ _ _ processed => exact processed.entry_nil

end Shell

/-! ### The whole job -/

/-- What the shells and the messages in flight owe. -/
def Net.owing (size : Nat) (net : Net) : Nat :=
  ∑ r ∈ Finset.range size, (net.shells r).owing r + 3 * net.requests.length + 2 * net.responses.length

/-- The action delivers a message or runs a completion that is due. -/
def Net.moves (size : Nat) (net : Net) : Action → Bool
  | .enter _ _ => false
  | .deliverRequest i => i < net.requests.length
  | .deliverResponse i => i < net.responses.length
  | .dispatch rank matchtag => rank < size && ((net.shells rank).ready matchtag).isSome

/-- How many actions of a failure-free run do. -/
def Net.moved (size : Nat) (net : Net) : List Action → Nat
  | [] => 0
  | action :: rest => (net.moves size action).toNat + Net.moved size (net.next size (action, {})).1 rest

/-- The accepted entries of all shells but the root. -/
def enteredBelow (size : Nat) (trace : List (Nat × Effect A)) : Nat :=
  ∑ s ∈ Finset.Ico 1 size, (entriesOf s trace).length

variable {size r : Nat} {trace : List (Nat × Effect Unit)} {net : Net} {action : Action} {event : Event Unit}

theorem enteredBelow_append (inside : r < size) (trace : List (Nat × Effect A)) (effects : List (Effect A)) :
    3 * enteredBelow size (trace ++ effects.map (r, ·)) = 3 * enteredBelow size trace + entriesWorth r effects := by
  have each (s : Nat) : (entriesOf s (trace ++ effects.map (r, ·))).length =
      (entriesOf s trace).length + if r = s then (effects.filterMap Effect.entry).length else 0 := by
    rw [entriesOf_append, List.length_append]
    split <;> rfl
  simp only [enteredBelow, each, Finset.sum_add_distrib, Finset.sum_ite_eq, Finset.mem_Ico, entriesWorth]
  by_cases below : 0 < r
  · rw [if_pos ⟨below, inside⟩, if_pos below]
    omega
  · rw [if_neg (fun member => below member.1), if_neg below]
    rfl

theorem Net.owing_post (net : Net) (inside : r < size) (result : Shell Unit × List (Effect Unit)) :
    (net.post (fenceExchange size r) result).owing size + (net.shells r).owing r =
      net.owing size + result.1.owing r + messagesOwing (fenceExchange size r) result.2 := by
  have member : r ∈ Finset.range size := Finset.mem_range.mpr inside
  have others : ∑ s ∈ (Finset.range size).erase r, ((net.post (fenceExchange size r) result).shells s).owing s =
      ∑ s ∈ (Finset.range size).erase r, (net.shells s).owing s := by
    apply Finset.sum_congr rfl
    intro s different
    rw [Net.post_ne (Finset.ne_of_mem_erase different)]
  have after := Finset.add_sum_erase _ (fun s => ((net.post (fenceExchange size r) result).shells s).owing s) member
  have before := Finset.add_sum_erase _ (fun s => (net.shells s).owing s) member
  rw [Net.post_self, others] at after
  have requests : (net.post (fenceExchange size r) result).requests.length =
      net.requests.length + (result.2.filterMap (Effect.posted (fenceExchange size r))).length := List.length_append
  have responses : (net.post (fenceExchange size r) result).responses.length =
      net.responses.length + (result.2.filterMap Effect.replied).length := List.length_append
  rw [Net.owing, Net.owing, messagesOwing, requests, responses]
  omega

/-- A message taken out of flight is no longer owed as one. -/
theorem Net.owing_deliver (acts : net.event size action = some (r, event)) :
    (net.deliver action).owing size + 3 * event.arrived.length + 2 * event.fulfills = net.owing size := by
  cases action with
  | enter | dispatch =>
    simp only [Net.event, Option.ite_none_right_eq_some, Option.some.injEq, Prod.mk.injEq] at acts
    obtain ⟨_, rfl, rfl⟩ := acts
    rfl
  | deliverRequest i =>
    obtain ⟨m, same, _, order⟩ := inFlight_taken acts
    obtain ⟨rfl, rfl⟩ := Prod.mk.inj same
    have taken := order.length_eq
    rw [List.length_cons] at taken
    simp only [Net.owing, Net.deliver, Event.arrived, Event.fulfills, List.length_singleton]
    omega
  | deliverResponse i =>
    obtain ⟨m, same, _, order⟩ := inFlight_taken acts
    obtain ⟨rfl, rfl⟩ := Prod.mk.inj same
    have taken := order.length_eq
    rw [List.length_cons] at taken
    simp only [Net.owing, Net.deliver, Event.arrived, Event.fulfills, List.length_nil]
    omega

/-- A future that waits becomes one that is ready. -/
theorem Shell.owing_fulfill (shell : Shell A) (waits : shell.futures = [⟨matchtag, none⟩]) (response : Response)
    (rank : Nat) : Shell.owing rank { shell with
      futures := shell.futures.map (Future.fulfill matchtag response) } = shell.owing rank + 1 := by
  simp [Shell.owing, waits, Future.fulfill]

/-- One callback's account. -/
theorem Agreeing.owing_callback (agreeing : Agreeing size trace net) (acts : net.event size action = some (r, event))
    (accepted : ((net.shells r).next (fenceExchange size r) (event, {})).2.any Effect.isRefusal = false) :
    ((net.shells r).next (fenceExchange size r) (event, {})).1.owing r +
        messagesOwing (fenceExchange size r) ((net.shells r).next (fenceExchange size r) (event, {})).2 +
        (net.moves size action).toNat =
      (net.shells r).owing r + entriesWorth r ((net.shells r).next (fenceExchange size r) (event, {})).2 +
        3 * event.arrived.length + 2 * event.fulfills := by
  obtain ⟨_, inside, _⟩ := agreeing.single.deliver acts
  have sound := agreeing.single.sound r
  have stepped := Shell.next_stepped sound (event, {})
  have quiet (elsewhere : ∀ data cb, event ≠ .enter data cb) :
      entriesWorth r ((net.shells r).next (fenceExchange size r) (event, {})).2 = 0 := by
    rw [entriesWorth, stepped.entry_nil elsewhere]
    exact ite_self 0
  cases action with
  | enter rank data =>
    simp only [Net.event, Option.ite_none_right_eq_some, Option.some.injEq, Prod.mk.injEq] at acts
    obtain ⟨_, rfl, rfl⟩ := acts
    exact stepped.owing_enter sound
  | deliverRequest i =>
    obtain ⟨m, same, found, _⟩ := inFlight_taken acts
    obtain ⟨rfl, rfl⟩ := Prod.mk.inj same
    have moves : net.moves size (.deliverRequest i) = true := by
      simpa [Net.moves] using (List.getElem?_eq_some_iff.mp found).1
    have queued := stepped.owing_request sound accepted
    rw [moves, quiet (fun _ _ same => by cases same)]
    exact congrArg (· + 1) queued
  | deliverResponse i =>
    obtain ⟨m, same, found, _⟩ := inFlight_taken acts
    obtain ⟨rfl, rfl⟩ := Prod.mk.inj same
    have moves : net.moves size (.deliverResponse i) = true := by
      simpa [Net.moves] using (List.getElem?_eq_some_iff.mp found).1
    obtain ⟨st, _, sim⟩ := agreeing.simulated
    obtain ⟨_, _, _, waits⟩ := sim.response_answered agreeing.single (List.mem_of_getElem? found)
    have fulfilled := (net.shells m.1).owing_fulfill waits m.2.2 m.1
    rw [moves, quiet (fun _ _ same => by cases same)]
    exact congrArg (· + 1) fulfilled
  | dispatch rank matchtag =>
    simp only [Net.event, Option.ite_none_right_eq_some, Option.some.injEq, Prod.mk.injEq] at acts
    obtain ⟨_, rfl, rfl⟩ := acts
    rw [quiet (fun _ _ same => by cases same)]
    cases ready : (net.shells rank).ready matchtag with
    | none => simp [Net.moves, Shell.next, ready, messagesOwing, Event.arrived, Event.fulfills]
    | some response =>
      have moves : net.moves size (.dispatch rank matchtag) = true := by simp [Net.moves, inside, ready]
      rw [moves]
      obtain ⟨_, _, _, below, _, futures⟩ := Shell.ready_asked sound ready
      obtain ⟨st, _, sim⟩ := agreeing.simulated
      obtain ⟨items, _, rfl⟩ := sim.ready_answered (shellParent_some.mpr ⟨below, rfl⟩) inside futures
      have completed := Shell.owing_dispatch sound ready rfl
      simp only [Event.arrived, Event.fulfills, List.length_nil]
      exact completed

/-- The step lemma of the account. -/
theorem Agreeing.owing_next (agreeing : Agreeing size trace net) (small : size < 2 ^ 31) (action : Action) :
    (net.next size (action, {})).1.owing size + (net.moves size action).toNat + 3 * enteredBelow size trace =
      net.owing size + 3 * enteredBelow size (trace ++ (net.next size (action, {})).2) := by
  have later := (agreeing.next small action).unrefused
  cases acts : net.event size action with
  | none =>
    have still : net.moves size action = false := by
      cases action <;> simp_all [Net.event, Net.moves]
    simp [Net.next, acts, still]
  | some callback =>
    obtain ⟨r, event⟩ := callback
    obtain ⟨_, inside, _⟩ := agreeing.single.deliver acts
    have unmoved : (net.deliver action).shells = net.shells := by cases action <;> rfl
    simp only [Net.next, acts] at later ⊢
    have account := agreeing.owing_callback acts (by
      rw [List.any_eq_false]
      intro e member
      simpa using later (r, e) (List.mem_append_right _ (List.mem_map_of_mem member)))
    have taken := Net.owing_deliver acts
    have posted := Net.owing_post (net.deliver action) inside ((net.shells r).next (fenceExchange size r) (event, {}))
    rw [unmoved] at posted
    rw [enteredBelow_append inside]
    omega

/-- The run lemma of the account. -/
theorem Agreeing.owing_exec (agreeing : Agreeing size trace net) (small : size < 2 ^ 31) (actions : List Action) :
    (exec (Net.next size) net (healthy actions)).1.owing size + net.moved size actions +
        3 * enteredBelow size trace =
      net.owing size + 3 * enteredBelow size (trace ++ (exec (Net.next size) net (healthy actions)).2) := by
  induction actions generalizing net trace with
  | nil => simp [healthy, exec, Net.moved]
  | cons action rest ih =>
    have first := agreeing.owing_next small action
    have others := ih (agreeing.next small action)
    rw [List.append_assoc] at others
    simp only [healthy, List.map_cons, exec, Net.moved] at others ⊢
    omega

/-! ### To the end -/

theorem Net.initial_owing (size : Nat) : Net.initial.owing size = 0 := by
  have shells : ∑ r ∈ Finset.range size, (Net.initial.shells r).owing r = 0 := Finset.sum_eq_zero (fun _ _ => rfl)
  rw [Net.owing, shells]
  rfl

/-- What moves is no entry. -/
theorem Net.event_moves (moves : net.moves size action = true) :
    ∃ r event, net.event size action = some (r, event) ∧ ∀ data cb, event ≠ .enter data cb := by
  cases action with
  | enter => cases moves
  | deliverRequest i =>
    have found := List.getElem?_eq_getElem (of_decide_eq_true moves)
    refine ⟨_, _, by rw [Net.event, found]; rfl, ?_⟩
    intro data cb same
    cases same
  | deliverResponse i =>
    have found := List.getElem?_eq_getElem (of_decide_eq_true moves)
    refine ⟨_, _, by rw [Net.event, found]; rfl, ?_⟩
    intro data cb same
    cases same
  | dispatch rank matchtag =>
    have inside := of_decide_eq_true (Bool.and_eq_true_iff.mp moves).1
    exact ⟨rank, .dispatch matchtag, if_pos inside, fun _ _ same => by cases same⟩

/-- A step that moves something takes one off what is owed. -/
theorem Agreeing.owing_move (agreeing : Agreeing size trace net) (small : size < 2 ^ 31)
    (moves : net.moves size action = true) :
    net.owing size = (net.next size (action, {})).1.owing size + 1 := by
  have account := agreeing.owing_next small action
  obtain ⟨r, event, acts, elsewhere⟩ := Net.event_moves moves
  obtain ⟨_, inside, _⟩ := agreeing.single.deliver acts
  have stepped := Shell.next_stepped (agreeing.single.sound r) (event, {})
  have silent : enteredBelow size (trace ++ (net.next size (action, {})).2) = enteredBelow size trace := by
    have appended := enteredBelow_append inside trace ((net.shells r).next (fenceExchange size r) (event, {})).2
    rw [entriesWorth, stepped.entry_nil elsewhere, List.length_nil, Nat.mul_zero, ite_self, Nat.add_zero] at appended
    simp only [Net.next, acts]
    omega
  rw [silent, moves, Bool.toNat_true] at account
  omega

/-- A job that is not at rest can move. -/
theorem Net.unquiet_moves (outside : ∀ r, size ≤ r → (net.shells r).futures = []) (unquiet : ¬ net.Quiet) :
    ∃ action, net.moves size action = true := by
  by_contra still
  push Not at still
  refine unquiet ⟨?_, ?_, fun r tag => ?_⟩
  · by_contra inFlight
    exact still (.deliverRequest 0) (decide_eq_true (List.length_pos_iff.mpr inFlight))
  · by_contra inFlight
    exact still (.deliverResponse 0) (decide_eq_true (List.length_pos_iff.mpr inFlight))
  · rcases Nat.lt_or_ge r size with inside | beyond
    · have unready := still (.dispatch r tag)
      simpa [Net.moves, inside] using unready
    · simp [Shell.ready, outside r beyond]

/-- A job that owes nothing is at rest. -/
theorem Net.quiet_of_owing (outside : ∀ r, size ≤ r → (net.shells r).futures = []) (settled : net.owing size = 0) :
    net.Quiet := by
  rw [Net.owing] at settled
  refine ⟨List.length_eq_zero_iff.mp (by omega), List.length_eq_zero_iff.mp (by omega), fun r tag => ?_⟩
  rcases Nat.lt_or_ge r size with inside | beyond
  · have shells : ∑ r ∈ Finset.range size, (net.shells r).owing r = 0 := by omega
    have shell := Finset.sum_eq_zero_iff.mp shells r (Finset.mem_range.mpr inside)
    rw [Shell.owing] at shell
    have unready : (net.shells r).futures.countP (fun future => future.result.isSome) = 0 := by omega
    rw [List.countP_eq_zero] at unready
    rw [Shell.ready, Option.bind_eq_none_iff]
    intro future found
    simpa using unready future (List.mem_of_find?_eq_some found)
  · simp [Shell.ready, outside r beyond]

/-- A job that has finished its rounds owes nothing. -/
theorem Net.owing_rested (quiet : net.Quiet) (idle : ∀ r < size, (net.shells r).session = none)
    (sound : ∀ r, (net.shells r).Sound (fenceExchange size r)) : net.owing size = 0 := by
  have shells : ∑ r ∈ Finset.range size, (net.shells r).owing r = 0 := by
    apply Finset.sum_eq_zero
    intro r member
    have ended := idle r (Finset.mem_range.mp member)
    rw [Shell.owing, ended, (sound r).noFutures ended]
    rfl
  rw [Net.owing, shells, quiet.1, quiet.2.1]
  rfl

/-- In every failure-free run what was moved and what is owed add up to three for each entry below the
root, and every move takes one off. Once all shells have entered equally often, something can move as
long as anything is owed, and when nothing is, every shell has finished. -/
theorem exchange_progress (size : Nat) (small : size < 2 ^ 31) (actions : List Action) :
    let net := (exec (Net.next size) Net.initial (healthy actions)).1
    let trace := (exec (Net.next size) Net.initial (healthy actions)).2
    net.owing size + Net.initial.moved size actions = 3 * enteredBelow size trace ∧
    (∀ action, net.moves size action = true → net.owing size = (net.next size (action, {})).1.owing size + 1) ∧
    ∀ n, (∀ s < size, (entriesOf s trace).length = n) →
      net.owing size + Net.initial.moved size actions = 3 * (n * (size - 1)) ∧
      (net.owing size ≠ 0 → ∃ action, net.moves size action = true) ∧
      (net.owing size = 0 → ∀ r < size, (exitsOf r trace).length = n ∧ (net.shells r).session = none) := by
  intro net trace
  have agreeing : Agreeing size trace net := exec_agreeing small actions
  have outside : ∀ r, size ≤ r → (net.shells r).futures = [] := by
    intro r beyond
    exact (agreeing.single.sound r).noFutures (agreeing.single.outside r beyond)
  have account := (initial_agreeing size).owing_exec small actions
  rw [Net.initial_owing, List.nil_append] at account
  have start : enteredBelow size ([] : List (Nat × Effect Unit)) = 0 := Finset.sum_eq_zero (fun _ _ => rfl)
  rw [start] at account
  have total : net.owing size + Net.initial.moved size actions = 3 * enteredBelow size trace := by
    simpa using account
  refine ⟨total, fun action moves => agreeing.owing_move small moves, fun n level => ⟨?_, ?_, ?_⟩⟩
  · have entries : enteredBelow size trace = n * (size - 1) := by
      rw [enteredBelow, Finset.sum_const_nat (fun s member => level s (Finset.mem_Ico.mp member).2), Nat.card_Ico,
        Nat.mul_comm]
    rw [total, entries]
  · intro owed
    apply Net.unquiet_moves outside
    intro quiet
    have rested := fun r inside => (agreeing.quiescent small quiet level inside (r := r)).2
    exact owed (Net.owing_rested quiet rested agreeing.single.sound)
  · intro settled r inside
    exact agreeing.quiescent small (Net.quiet_of_owing outside settled) level inside

/-- After the two entries three moves finish the round. -/
theorem exchange_progress_sample :
    (exec (Net.next 2) Net.initial (healthy (onePair.take 2))).1.owing 2 = 3 ∧ Net.initial.moved 2 onePair = 3 ∧
    (exitsOf 1 (exec (Net.next 2) Net.initial (healthy onePair)).2).length = 1 := by
  have finished := (exchange_progress 2 (by decide) onePair).2.2 1 (by decide)
  exact ⟨by decide, by decide, (finished.2.2 (by decide) 1 (by decide)).1⟩

end FluxPmix

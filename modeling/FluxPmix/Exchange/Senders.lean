import FluxPmix.Exchange.Answers
import FluxPmix.Exchange.Network

/-! Whose requests a session holds. A child has at most one unanswered request anywhere: in
flight, queued, or with its response in flight. Only a future that was sent and not kept breaks
this, since its request is no longer counted by the sender. -/
namespace FluxPmix
open Mealy ParentTree

section Shell
variable {A : Type} {xcg : Exchange} {fault : Faults} {shell : Shell A} {ses : Session A}

/-- The callback sends its request upstream and fails to register the completion. -/
def Unregistered (xcg : Exchange) (shell : Shell A) (input : Event A × Faults) : Prop :=
  shell.gathered xcg input = true ∧ 0 < xcg.rank ∧ input.2.rpcPack = false ∧ input.2.futureThen = true

def Shell.unfulfilled (shell : Shell A) : Nat :=
  shell.futures.countP (fun future => future.result.isNone)

def Shell.senders (shell : Shell A) : List Nat := shell.waiting.map Request.sender

/-- The senders these effects send a response to. -/
def recipients (effects : List (Effect A)) : List Nat :=
  (effects.filterMap Effect.replied).map Prod.fst

/-- The sender whose request an event brings in. -/
def Event.arrived : Event A → List Nat
  | .request msg => [msg.sender]
  | _ => []

/-- How many futures an event fulfils. -/
def Event.fulfills : Event A → Nat
  | .fulfill _ _ => 1
  | _ => 0

/-- The shells that wait for what an event at `rank` delivers. -/
def Event.waiter (rank : Nat) (event : Event A) : List Nat :=
  event.arrived ++ List.replicate event.fulfills rank

theorem recipients_append (first rest : List (Effect A)) :
    recipients (first ++ rest) = recipients first ++ recipients rest := by
  simp [recipients]

theorem recipients_responses (requests : List Request) (data : Json) :
    recipients (requests.map (Effect.respond (A := A) · (some data) true)) =
      requests.map Request.sender := by
  induction requests with
  | nil => rfl
  | cons msg rest ih =>
    rw [List.map_cons, List.map_cons, ← ih]
    rfl

/-- Who was queued is still queued, was answered, or was dropped. -/
theorem Processed.senders (processed : Processed xcg fault shell ses result) :
    (result.1.senders ++ recipients result.2).Subperm (ses.requests.map Request.sender) := by
  cases processed with
  | waits | sent =>
    change (ses.requests.map Request.sender ++ []).Subperm _
    rw [List.append_nil]
  | unsent | unregistered | refused => exact List.nil_subperm
  | answered cb data =>
    rw [recipients_append, recipients_responses]
    change (ses.requests.map Request.sender ++ []).Subperm _
    rw [List.append_nil]
  | broken cb data answered msg left _ _ _ queue =>
    rw [recipients_append, recipients_responses, queue, List.map_append]
    change (answered.map Request.sender ++ []).Subperm _
    rw [List.append_nil]
    exact (List.sublist_append_left _ _).subperm

/-- What is sent upstream and kept is what the shell then waits for. -/
theorem Processed.unfulfilled (processed : Processed xcg fault shell ses result)
    (registers : ses.f = none → ses.complete xcg → 0 < xcg.rank → fault.rpcPack = false →
      fault.futureThen = false) :
    result.1.unfulfilled = result.2.countP Effect.isRpc := by
  have noRpc (requests : List Request) (data : Json) :
      (requests.map (Effect.respond (A := A) · (some data) true)).countP Effect.isRpc = 0 :=
    responses_countP (fun _ _ => rfl) requests data
  cases processed with
  | waits | unsent | refused | sent => rfl
  | unregistered cb _ complete gathering below sends fails =>
    rw [registers gathering complete below sends] at fails
    cases fails
  | answered cb data =>
    rw [List.countP_append, noRpc]
    rfl
  | broken cb data answered =>
    rw [List.countP_append, noRpc]
    rfl

theorem Shell.senders_live (live : shell.session = some ses) :
    shell.senders = ses.requests.map Request.sender := by
  rw [Shell.senders, Shell.waiting_live live]

theorem Shell.senders_opened (opened : shell.ensureSession fault = some ses) :
    shell.senders = ses.requests.map Request.sender := by
  rw [Shell.ensureSession_eq opened, Shell.senders, Shell.waiting]
  cases shell.session <;> rfl

/-- The same over a whole callback: requests it brought in count as queued. -/
theorem Stepped.senders (stepped : Stepped xcg shell (event, fault) result) :
    (result.1.senders ++ recipients result.2).Subperm (shell.senders ++ event.arrived) := by
  cases stepped with
  | unentered | undispatched | fulfilled =>
    change (shell.senders ++ []).Subperm (shell.senders ++ [])
    exact .refl _
  | unappended data cb _ opened =>
    rw [shell.senders_opened opened]
    exact .refl _
  | entered data cb _ opened _ _ processed =>
    rw [shell.senders_opened opened]
    refine processed.senders.trans ?_
    simp [Event.arrived, List.Subperm.refl]
  | unopened msg errno =>
    cases sent : fault.respondError with
    | true =>
      change (shell.senders ++ []).Subperm (shell.senders ++ [msg.sender])
      exact ((List.nil_sublist _).append_left _).subperm
    | false => exact .refl _
  | rejected msg _ opened =>
    rw [shell.senders_opened opened]
    cases sent : fault.respondError with
    | true =>
      refine List.Sublist.subperm (List.Sublist.append_left (List.nil_sublist _) _)
    | false => exact .refl _
  | accepted msg items _ opened _ _ _ processed =>
    rw [shell.senders_opened opened]
    refine processed.senders.trans ?_
    simp [Event.arrived, List.Subperm.refl]
  | @completed ses _ _ matchtag response live _ _ processed =>
    have same : shell.senders = (ses.answer response).requests.map Request.sender := by
      rw [Shell.senders_live live, Session.answer]
      split <;> rfl
    rw [same]
    refine processed.senders.trans ?_
    simp [Event.arrived, List.Subperm.refl]

theorem Shell.Sound.futures_length (sound : shell.Sound xcg) : shell.futures.length ≤ 1 := by
  cases live : shell.session with
  | none => simp [sound.noFutures live]
  | some ses =>
    have within := sound.live live
    cases f : ses.f with
    | none => simp [within.noFutures f]
    | some tag =>
      obtain ⟨_, _, _, futures⟩ := within.asked f
      simp [futures]

/-- Only a shell with a parent sends upstream. -/
theorem Processed.below (processed : Processed xcg fault shell ses result)
    (sends : .rpc tag payload ∈ result.2) : 0 < xcg.rank := by
  cases processed with
  | unregistered _ _ _ _ below | sent _ _ below => exact below
  | waits | unsent | refused => simp at sends
  | answered | broken => simp at sends

theorem Stepped.below (stepped : Stepped xcg shell (event, fault) result)
    (sends : .rpc tag payload ∈ result.2) : 0 < xcg.rank := by
  cases stepped with
  | unentered | undispatched | unopened | unappended | rejected | fulfilled => simp at sends
  | entered data cb _ _ _ _ processed => exact processed.below (by simpa using sends)
  | accepted msg items _ _ _ _ _ processed => exact processed.below (by simpa using sends)
  | completed _ _ _ _ _ processed => exact processed.below sends

/-- Every future but the one a step fulfils is still there, with those sent added. -/
theorem Stepped.unfulfilled (stepped : Stepped xcg shell (event, fault) result)
    (sound : shell.Sound xcg) (registers : ¬ Unregistered xcg shell (event, fault)) :
    shell.unfulfilled + result.2.countP Effect.isRpc ≤
      result.1.unfulfilled + event.fulfills := by
  cases stepped with
  | unentered | undispatched | unopened | unappended | rejected => exact le_rfl
  | fulfilled matchtag response =>
    have bounded : shell.unfulfilled ≤ 1 := List.countP_le_length.trans sound.futures_length
    exact bounded.trans (Nat.le_add_left _ _)
  | entered data cb string opened fresh appends processed =>
    have within := sound.opened opened
    have waitsFor : shell.unfulfilled = 0 := by
      rw [Shell.unfulfilled, within.noFutures (within.gathering (.inl fresh))]
      rfl
    have after := processed.unfulfilled (fun _ complete below sends => by
      have gathered := Shell.gathered_enter cb string opened fresh appends complete.2
      by_contra fails
      exact registers ⟨gathered, below, sends, by simpa using fails⟩)
    rw [waitsFor, Nat.zero_add]
    exact after.ge
  | @accepted _ ses _ msg items payload opened room grows saves processed =>
    have within := sound.opened opened
    have waitsFor : shell.unfulfilled = 0 := by
      rw [Shell.unfulfilled, within.noFutures (within.gathering (.inr room))]
      rfl
    have after := processed.unfulfilled (fun _ complete below sends => by
      have full : ses.requests.length + 1 = xcg.childCount := by simpa using complete.2
      have gathered := Shell.gathered_request payload opened grows saves complete.1 full
      by_contra fails
      exact registers ⟨gathered, below, sends, by simpa using fails⟩)
    rw [waitsFor, Nat.zero_add]
    exact after.ge
  | completed matchtag response live upstream ready processed =>
    have waitsFor : shell.unfulfilled = 0 := by
      rw [Shell.unfulfilled, ready]
      rfl
    have after := processed.unfulfilled (fun gathering => by
      rw [Session.answer_f, upstream] at gathering
      cases gathering)
    rw [waitsFor, Nat.zero_add]
    exact after.ge

/-! ### Messages put in flight -/

theorem posted_eq {effects : List (Effect A)} (member : m ∈ effects.filterMap (Effect.posted xcg)) :
    ∃ tag payload, .rpc tag payload ∈ effects ∧ m = (xcg.parentRank.toNat, ⟨xcg.rank, tag, payload⟩) := by
  obtain ⟨e, inside, posts⟩ := List.mem_filterMap.mp member
  cases e with
  | rpc tag payload => exact ⟨tag, payload, inside, (Option.some.inj posts).symm⟩
  | _ => cases posts

theorem posted_senders (effects : List (Effect A)) :
    (effects.filterMap (Effect.posted xcg)).map (fun m => m.2.sender) =
      List.replicate (effects.countP Effect.isRpc) xcg.rank := by
  induction effects with
  | nil => rfl
  | cons e rest ih =>
    cases e with
    | rpc tag payload =>
      have posts : (Effect.rpc tag payload : Effect A).posted xcg =
        some (xcg.parentRank.toNat, ⟨xcg.rank, tag, payload⟩) := rfl
      rw [List.filterMap_cons_some posts, List.map_cons, ih, List.countP_cons_of_pos rfl]
      rfl
    | _ => exact ih

end Shell

/-! ### Across the network -/

/-- The shell that acts sends nothing upstream whose completion it then fails to register. -/
def Registers (size : Nat) (net : Net) (input : Action × Faults) : Prop :=
  ∀ rank event, net.event size input.1 = some (rank, event) →
    ¬ Unregistered (fenceExchange size rank) (net.shells rank) (event, input.2)

/-- Each child's requests, wherever they or their responses are, are futures it still holds.
`delivered` lists the waiters of a message that is being handled. -/
structure Net.Single (size : Nat) (delivered : List Nat) (net : Net) : Prop where
  sound : ∀ r, (net.shells r).Sound (fenceExchange size r)
  outside : ∀ r, size ≤ r → (net.shells r).session = none
  routed : ∀ m ∈ net.requests, shellParent m.2.sender = some m.1 ∧ m.2.sender < size
  held : ∀ r, ∀ c ∈ (net.shells r).senders, shellParent c = some r ∧ c < size
  addressed : ∀ m ∈ net.responses, m.1 < size ∧ ∃ p, shellParent m.1 = some p
  single : ∀ c p, shellParent c = some p →
    (net.requests.map (fun m => m.2.sender)).count c + (net.shells p).senders.count c +
      (net.responses.map Prod.fst).count c + delivered.count c ≤ (net.shells c).unfulfilled

theorem Net.initial_single (size : Nat) : Net.initial.Single size [] := by
  refine ⟨fun r => Shell.idle_sound, fun _ _ => rfl, ?_, ?_, ?_, fun _ _ _ => Nat.zero_le _⟩
  · intro m member
    cases member
  · intro r c member
    cases member
  · intro m member
    cases member

variable {net : Net} {size rank : Nat} {action : Action} {event : Event Unit}

theorem parent_lt (up : shellParent c = some p) : p < c := by
  obtain ⟨below, rfl⟩ := shellParent_some.mp up
  omega

/-- A message in flight is taken out of it. -/
theorem inFlight_taken {flight : List M} {event : M → E} (acts : flight[i]?.map event = some e) :
    ∃ m, event m = e ∧ flight[i]? = some m ∧ (m :: flight.eraseIdx i).Perm flight := by
  obtain ⟨m, found, same⟩ := Option.map_eq_some_iff.mp acts
  obtain ⟨within, taken⟩ := List.getElem?_eq_some_iff.mp found
  exact ⟨m, same, found, taken ▸ List.getElem_cons_eraseIdx_perm within⟩

/-- Taking a message out of flight leaves its waiter waiting for the callback. -/
theorem Net.Single.deliver (single : net.Single size [])
    (acts : net.event size action = some (rank, event)) :
    (net.deliver action).Single size (event.waiter rank) ∧ rank < size ∧
      (∀ msg, event = .request msg → shellParent msg.sender = some rank ∧ msg.sender < size) := by
  cases action with
  | enter r data =>
    simp only [Net.event, Option.ite_none_right_eq_some, Option.some.injEq, Prod.mk.injEq] at acts
    obtain ⟨inside, rfl, rfl⟩ := acts
    exact ⟨single, inside, fun _ other => by cases other⟩
  | dispatch r matchtag =>
    simp only [Net.event, Option.ite_none_right_eq_some, Option.some.injEq, Prod.mk.injEq] at acts
    obtain ⟨inside, rfl, rfl⟩ := acts
    exact ⟨single, inside, fun _ other => by cases other⟩
  | deliverRequest i =>
    obtain ⟨m, same, found, order⟩ := inFlight_taken acts
    obtain ⟨rfl, rfl⟩ := Prod.mk.inj same
    obtain ⟨up, inside⟩ := single.routed m (List.mem_of_getElem? found)
    refine ⟨⟨single.sound, single.outside, ?_, single.held, single.addressed, ?_⟩, ?_, ?_⟩
    · intro other member
      exact single.routed other (List.mem_of_mem_eraseIdx member)
    · intro c p above
      have counted := (order.map (fun m => m.2.sender)).count_eq c
      have before := single.single c p above
      simp only [List.map_cons, List.count_cons, List.count_nil, Event.waiter, Event.arrived,
        Event.fulfills, List.replicate_zero, List.append_nil, Net.deliver] at counted before ⊢
      omega
    · exact (parent_lt up).trans inside
    · intro msg same
      cases same
      exact ⟨up, inside⟩
  | deliverResponse i =>
    obtain ⟨m, same, found, order⟩ := inFlight_taken acts
    obtain ⟨rfl, rfl⟩ := Prod.mk.inj same
    refine ⟨⟨single.sound, single.outside, single.routed, single.held, ?_, ?_⟩, ?_, ?_⟩
    · intro other member
      exact single.addressed other (List.mem_of_mem_eraseIdx member)
    · intro c p above
      have counted := (order.map Prod.fst).count_eq c
      have before := single.single c p above
      simp only [List.map_cons, List.count_cons, List.count_nil, Event.waiter, Event.arrived,
        Event.fulfills, List.replicate_one, List.nil_append, Net.deliver] at counted before ⊢
      omega
    · exact (single.addressed m (List.mem_of_getElem? found)).1
    · intro msg other
      cases other

/-- Whoever is queued or arrives at a shell is one of its children. -/
theorem Net.Single.queued (single : net.Single size delivered)
    (child : ∀ msg, event = .request msg → shellParent msg.sender = some rank ∧ msg.sender < size) :
    ∀ c ∈ (net.shells rank).senders ++ event.arrived, shellParent c = some rank ∧ c < size := by
  intro c member
  rcases List.mem_append.mp member with held | arrived
  · exact single.held rank c held
  · cases event with
    | request msg =>
      obtain rfl := List.mem_singleton.mp arrived
      exact child msg rfl
    | _ => cases arrived

theorem Net.count_requests (net : Net) (size rank : Nat) (result : Shell Unit × List (Effect Unit)) (c : Nat) :
    ((net.post (fenceExchange size rank) result).requests.map (fun m => m.2.sender)).count c =
      (net.requests.map (fun m => m.2.sender)).count c +
        if rank = c then result.2.countP Effect.isRpc else 0 := by
  have own : (fenceExchange size rank).rank = rank := rfl
  simp [Net.post, posted_senders, List.count_replicate, own]

theorem Net.count_responses (net : Net) (xcg : Exchange) (result : Shell Unit × List (Effect Unit)) (c : Nat) :
    ((net.post xcg result).responses.map Prod.fst).count c =
      (net.responses.map Prod.fst).count c + (recipients result.2).count c := by
  simp [Net.post, recipients]

section Post
variable {fault : Faults} {result : Shell Unit × List (Effect Unit)} {c p : Nat}

/-- A callback moves requests of children from its queue to their responses, and makes a request
of its own only with a future it keeps. -/
theorem Net.Single.post_single (single : net.Single size (event.waiter rank))
    (queue : ∀ c ∈ (net.shells rank).senders ++ event.arrived, shellParent c = some rank ∧ c < size)
    (stepped : Stepped (fenceExchange size rank) (net.shells rank) (event, fault) result)
    (registers : ¬ Unregistered (fenceExchange size rank) (net.shells rank) (event, fault))
    (up : shellParent c = some p) :
    ((net.post (fenceExchange size rank) result).requests.map (fun m => m.2.sender)).count c +
        ((net.post (fenceExchange size rank) result).shells p).senders.count c +
        ((net.post (fenceExchange size rank) result).responses.map Prod.fst).count c ≤
      ((net.post (fenceExchange size rank) result).shells c).unfulfilled := by
  have before := single.single c p up
  have kept := stepped.senders.count_le c
  rw [Event.waiter, List.count_append, List.count_replicate] at before
  rw [List.count_append, List.count_append] at kept
  -- only children of the acting shell are queued there or answered by it
  have elsewhere : p ≠ rank → (net.shells rank).senders.count c + event.arrived.count c = 0 := by
    intro other
    rw [← List.count_append, List.count_eq_zero]
    intro member
    exact other (Option.some.inj (up.symm.trans (queue c member).1))
  rw [Net.count_requests, Net.count_responses]
  by_cases self : c = rank
  · subst self
    have other : p ≠ c := (parent_lt up).ne
    have futures := stepped.unfulfilled (single.sound c) registers
    have none := elsewhere other
    rw [Net.post_ne other, Net.post_self]
    simp only [beq_self_eq_true, if_true] at before ⊢
    omega
  · have unwaited : (rank == c) = false := by simpa using Ne.symm self
    simp only [unwaited, Bool.false_eq_true, if_false] at before
    rw [Net.post_ne self, if_neg (Ne.symm self)]
    by_cases here : p = rank
    · subst here
      rw [Net.post_self]
      omega
    · have none := elsewhere here
      rw [Net.post_ne here]
      omega

/-- What a callback sends and keeps leaves every child's requests covered by its futures. -/
theorem Net.Single.post (single : net.Single size (event.waiter rank)) (inside : rank < size)
    (small : size < 2 ^ 31)
    (child : ∀ msg, event = .request msg → shellParent msg.sender = some rank ∧ msg.sender < size)
    (stepped : Stepped (fenceExchange size rank) (net.shells rank) (event, fault) result)
    (registers : ¬ Unregistered (fenceExchange size rank) (net.shells rank) (event, fault)) :
    (net.post (fenceExchange size rank) result).Single size [] := by
  have queue := single.queued child
  have kept := stepped.senders
  constructor
  · intro r
    by_cases same : r = rank
    · subst same
      rw [Net.post_self]
      exact stepped.sound (single.sound r)
    · rw [Net.post_ne same]
      exact single.sound r
  · intro r beyond
    have other : r ≠ rank := by omega
    rw [Net.post_ne other]
    exact single.outside r beyond
  · intro m member
    rcases List.mem_append.mp member with old | new
    · exact single.routed m old
    · obtain ⟨tag, payload, sends, rfl⟩ := posted_eq new
      have up : shellParent rank = some ((rank - 1) / 2) :=
        shellParent_some.mpr ⟨stepped.below sends, rfl⟩
      exact ⟨by rw [fenceExchange_parent inside small up]; exact up, inside⟩
  · intro r c member
    by_cases same : r = rank
    · subst same
      rw [Net.post_self] at member
      exact queue c (kept.subset (List.mem_append_left _ member))
    · rw [Net.post_ne same] at member
      exact single.held r c member
  · intro m member
    rcases List.mem_append.mp member with old | new
    · exact single.addressed m old
    · have recipient : m.1 ∈ recipients result.2 := List.mem_map_of_mem new
      obtain ⟨up, within⟩ := queue m.1 (kept.subset (List.mem_append_right _ recipient))
      exact ⟨within, rank, up⟩
  · intro c p up
    rw [List.count_nil, Nat.add_zero]
    exact single.post_single queue stepped registers up

end Post

theorem Net.Single.next (single : net.Single size []) (small : size < 2 ^ 31)
    (input : Action × Faults) (registers : Registers size net input) :
    (net.next size input).1.Single size [] := by
  cases acts : net.event size input.1 with
  | none => simpa [Net.next, acts] using single
  | some next =>
    obtain ⟨rank, event⟩ := next
    obtain ⟨delivered, inside, child⟩ := single.deliver acts
    have stepped := Shell.next_stepped (single.sound rank) (event, input.2)
    have same : (net.deliver input.1).shells = net.shells := by
      cases input.1 <;> rfl
    rw [← same] at stepped
    simp only [Net.next, acts, ← same]
    refine delivered.post inside small child stepped ?_
    rw [same]
    exact registers rank event acts

theorem Net.exec_single (small : size < 2 ^ 31) (inputs : List (Action × Faults))
    (registers : Along (Net.next size) (Registers size) Net.initial inputs) :
    (exec (Net.next size) Net.initial inputs).1.Single size [] :=
  exec_invariant_nil (P := fun _ net => net.Single size [])
    (fun _ _ input single registers => single.next small input registers)
    (Net.initial_single size) registers

/-- No child has two unanswered requests. -/
theorem Net.Single.count_le_one (single : net.Single size []) (up : shellParent c = some p) :
    (net.shells p).senders.count c ≤ 1 := by
  have owed := single.single c p up
  have held : (net.shells c).unfulfilled ≤ 1 :=
    List.countP_le_length.trans (single.sound c).futures_length
  omega

/-- Different children, as many as there are, are all of them. -/
theorem children_covered {queue : List Nat} (inside : rank < size) (small : size < 2 ^ 31)
    (distinct : queue.Nodup)
    (fromChildren : ∀ c ∈ queue, c ∈ children shellParent (Finset.range size) rank) :
    queue.length = (fenceExchange size rank).childCount ↔
      ∀ c ∈ children shellParent (Finset.range size) rank, c ∈ queue := by
  have included : queue.toFinset ⊆ children shellParent (Finset.range size) rank :=
    fun c member => fromChildren c (List.mem_toFinset.mp member)
  rw [fenceExchange_children inside small, ← List.toFinset_card_of_nodup distinct]
  constructor
  · intro full c child
    rw [← List.mem_toFinset, Finset.eq_of_subset_of_card_le included full.ge]
    exact child
  · intro covered
    have all : children shellParent (Finset.range size) rank ⊆ queue.toFinset :=
      fun c child => List.mem_toFinset.mpr (covered c child)
    rw [Finset.Subset.antisymm included all]

theorem Net.Single.distinct (single : net.Single size []) (rank : Nat) :
    (net.shells rank).senders.Nodup := by
  rw [List.nodup_iff_count_le_one]
  intro c
  by_cases member : c ∈ (net.shells rank).senders
  · exact single.count_le_one (single.held rank c member).1
  · rw [List.count_eq_zero_of_not_mem member]
    exact Nat.zero_le 1

theorem Net.Single.fromChildren (single : net.Single size []) (rank : Nat) :
    ∀ c ∈ (net.shells rank).senders, c ∈ children shellParent (Finset.range size) rank := by
  intro c member
  obtain ⟨up, within⟩ := single.held rank c member
  exact mem_children.mpr ⟨Finset.mem_range.mpr within, up⟩

/-- A full count means that every child is queued. -/
theorem Net.Single.full (single : net.Single size []) (inside : rank < size) (small : size < 2 ^ 31) :
    (net.shells rank).senders.length = (fenceExchange size rank).childCount ↔
      ∀ c ∈ children shellParent (Finset.range size) rank, c ∈ (net.shells rank).senders :=
  children_covered inside small (single.distinct rank) (single.fromChildren rank)

/-- In every state of a run in which no request is sent and then left without completion, a
session's requests come from different children, and a full count means all of them. -/
theorem exchange_senders_distinct (size : Nat) (small : size < 2 ^ 31)
    (inputs : List (Action × Faults))
    (registers : Along (Net.next size) (Registers size) Net.initial inputs) (rank : Nat)
    (ses : Session Unit)
    (live : ((exec (Net.next size) Net.initial inputs).1.shells rank).session = some ses) :
    (ses.requests.map Request.sender).Nodup ∧
    (∀ msg ∈ ses.requests, msg.sender ∈ children shellParent (Finset.range size) rank) ∧
    (ses.requests.length = (fenceExchange size rank).childCount →
      ∀ c ∈ children shellParent (Finset.range size) rank, c ∈ ses.requests.map Request.sender) := by
  have single := Net.exec_single small inputs registers
  generalize (exec (Net.next size) Net.initial inputs).1 = net at single live
  have queue := Shell.senders_live live
  have inside : rank < size := by
    by_contra beyond
    rw [single.outside rank (by omega)] at live
    cases live
  have distinct := single.distinct rank
  have fromChildren := single.fromChildren rank
  have covered := single.full inside small
  rw [queue] at distinct fromChildren covered
  rw [List.length_map] at covered
  exact ⟨distinct, fun msg member => fromChildren _ (List.mem_map_of_mem member), covered.mp⟩

/-- Shell 1 of 3 enters twice, its first attempt failing as given, and the root holds what
arrives. -/
def retriedRun (fault : Faults) : List (Action × Faults) :=
  [(.enter 1 none, fault), (.enter 1 none, {}), (.deliverRequest 0, {}), (.deliverRequest 0, {})]

theorem exchange_senders_distinct_sample : ∃ ses,
    ((exec (Net.next 3) Net.initial (retriedRun { rpcPack := true })).1.shells 0).session = some ses ∧
      (ses.requests.map Request.sender).Nodup :=
  ⟨_, rfl, (exchange_senders_distinct 3 (by decide) (retriedRun { rpcPack := true })
    ⟨fun _ _ _ fails => Bool.false_ne_true fails.2.2.2, fun _ _ _ fails => Bool.false_ne_true fails.2.2.2,
      fun _ _ _ fails => Bool.false_ne_true fails.2.2.2, fun _ _ _ fails => Bool.false_ne_true fails.2.2.2,
      trivial⟩ 0 _ rfl).1⟩

/-- The first request went out although its completion could not be registered. The retry sends
another, and the root counts shell 1 twice. -/
theorem exchange_sender_repeated : ∃ ses,
    ((exec (Net.next 3) Net.initial (retriedRun { futureThen := true })).1.shells 0).session = some ses ∧
      ses.requests.length = (fenceExchange 3 0).childCount ∧
      ¬ (ses.requests.map Request.sender).Nodup ∧ 2 ∉ ses.requests.map Request.sender :=
  ⟨_, rfl, rfl, by decide, by decide⟩

end FluxPmix

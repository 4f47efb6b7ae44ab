import FluxPmix.Exchange.Senders
import FluxPmix.TreeGather

/-! A failure-free network simulates the tree gather. An entry or a request is one step of the
gather, and what `session_process` makes of it another. -/
noncomputable section
namespace FluxPmix
open Mealy ParentTree TreeGather

/-- The exit callback found this array and no error. -/
def Delivered (ses : Session Unit) (items : List Json) : Prop :=
  ses.hasError = false ∧ ses.dataOut = some (.array items)

/-- The session there is, or the one the next callback would create. -/
def Shell.current (shell : Shell Unit) : Session Unit := shell.session.getD sessionCreate

structure NodeSim (size : Nat) (shell : Shell Unit) (st : State Nat Json) (s : Nat) : Prop where
  entered : st.entries s = st.rounds s + shell.current.isLocal.toNat
  gathered : st.gathered s = shell.current.dataIn
  queue : ∀ c, shellParent c = some s → c < size → (st.link c = .queued ↔ c ∈ shell.senders)

/-- Where the message is that a link stands for. -/
def LinkSim (net : Net) (c p : Nat) : Link Json → Prop
  | .idle => (net.shells c).futures = []
  | .asking value => ∃ tag, (net.shells c).futures = [⟨tag, none⟩] ∧
      (p, ⟨c, tag, packData (.array value)⟩) ∈ net.requests
  | .queued => ∃ msg ∈ (net.shells p).waiting,
      msg.sender = c ∧ (net.shells c).futures = [⟨msg.matchtag, none⟩]
  | .answered result => ∃ tag,
      ((net.shells c).futures = [⟨tag, none⟩] ∧
        (c, tag, .payload (packData (.array result))) ∈ net.responses) ∨
      (net.shells c).futures = [⟨tag, some (.payload (packData (.array result)))⟩]

structure Sim (size : Nat) (trace : List (Nat × Effect Unit)) (net : Net) (st : State Nat Json) :
    Prop where
  given : ∀ s, st.given s = (entriesOf s trace).map Option.toList
  results : ∀ s, List.Forall₂ Delivered (exitsOf s trace) (st.results s)
  node : ∀ s, NodeSim size (net.shells s) st s
  link : ∀ c p, shellParent c = some p → c < size → LinkSim net c p (st.link c)

theorem initial_sim (size : Nat) : Sim size [] Net.initial State.initial where
  given _ := rfl
  results _ := .nil
  node s := by
    refine ⟨rfl, rfl, fun c _ _ => ?_⟩
    simp [State.initial, Net.initial, Shell.idle, Shell.senders, Shell.waiting]
  link _ _ _ _ := rfl

variable {size r : Nat} {trace : List (Nat × Effect Unit)} {net net' : Net} {st : State Nat Json}

/-- A link looks only at its own messages, its future and its place in the parent's queue. -/
theorem LinkSim.mono (sim : LinkSim net c p link)
    (futures : (net'.shells c).futures = (net.shells c).futures)
    (requests : ∀ m ∈ net.requests, m.2.sender = c → m ∈ net'.requests)
    (waiting : ∀ msg ∈ (net.shells p).waiting, msg.sender = c → msg ∈ (net'.shells p).waiting)
    (responses : ∀ m ∈ net.responses, m.1 = c → m ∈ net'.responses) : LinkSim net' c p link := by
  cases link with
  | idle => exact futures.trans sim
  | asking value =>
    obtain ⟨tag, future, inFlight⟩ := sim
    exact ⟨tag, futures.trans future, requests _ inFlight rfl⟩
  | queued =>
    obtain ⟨msg, held, sender, future⟩ := sim
    exact ⟨msg, waiting msg held sender, sender, futures.trans future⟩
  | answered result =>
    obtain ⟨tag, ⟨future, inFlight⟩ | ready⟩ := sim
    · exact ⟨tag, .inl ⟨futures.trans future, responses _ inFlight rfl⟩⟩
    · exact ⟨tag, .inr (futures.trans ready)⟩

/-- Effects that are neither entries nor exits leave the logs alone. -/
theorem Sim.silent (sim : Sim size trace net st) (r : Nat) (effects : List (Effect Unit))
    (noEntry : effects.filterMap Effect.entry = []) (noExit : effects.filterMap Effect.exited = []) :
    Sim size (trace ++ effects.map (r, ·)) net st where
  given s := by
    rw [entriesOf_silent s trace r effects noEntry]
    exact sim.given s
  results s := by
    rw [exitsOf_silent s trace r effects noExit]
    exact sim.results s
  node := sim.node
  link := sim.link

def Net.set (net : Net) (r : Nat) (shell : Shell Unit) : Net :=
  { net with shells := Function.update net.shells r shell }

@[simp] theorem Net.set_self (net : Net) (r : Nat) (shell : Shell Unit) :
    (net.set r shell).shells r = shell := by
  simp [Net.set]

theorem Net.set_ne (different : s ≠ r) (net : Net) (shell : Shell Unit) :
    (net.set r shell).shells s = net.shells s := by
  simp [Net.set, different]

theorem current_some (live : (net.shells r).session = some ses) : (net.shells r).current = ses := by
  rw [Shell.current, live]
  rfl

theorem waiting_current (shell : Shell Unit) : shell.waiting = shell.current.requests := by
  rw [Shell.current, Shell.waiting]
  cases shell.session <;> rfl

/-! ### A local entry -/

/-- The shell after its entry's data was appended. -/
def Shell.entering (shell : Shell Unit) (data : Option Json) : Shell Unit :=
  { shell with session := some { shell.current with
      exitCb := some (), isLocal := true, dataIn := shell.current.dataIn ++ data.toList } }

theorem Shell.entering_waiting (shell : Shell Unit) (data : Option Json) :
    (shell.entering data).waiting = shell.waiting :=
  (waiting_current shell).symm

theorem NodeSim.enter (node : NodeSim size (net.shells s) st s) (data : Option Json)
    (fresh : (net.shells r).current.isLocal = false) :
    NodeSim size ((net.set r ((net.shells r).entering data)).shells s) (st.enter r data.toList) s := by
  obtain ⟨entered, gathered, queue⟩ := node
  by_cases same : s = r
  · subst same
    rw [Net.set_self]
    refine ⟨?_, ?_, fun c up inside => ?_⟩
    · rw [entries_enter_self, entered, fresh]
      rfl
    · simp [State.enter, gathered, Shell.entering, Shell.current]
    · rw [Shell.senders, Shell.entering_waiting, ← Shell.senders]
      exact queue c up inside
  · rw [Net.set_ne same]
    refine ⟨?_, ?_, queue⟩
    · rw [entries_enter_ne same]
      exact entered
    · simp [State.enter, same, gathered]

theorem LinkSim.enter (link : LinkSim net c p (st.link c)) (r : Nat) (data : Option Json) :
    LinkSim (net.set r ((net.shells r).entering data)) c p ((st.enter r data.toList).link c) := by
  refine link.mono ?_ (fun m member _ => member) ?_ (fun m member _ => member)
  · by_cases same : c = r
    · subst same
      rw [Net.set_self]
      rfl
    · rw [Net.set_ne same]
  · intro msg member _
    by_cases same : p = r
    · subst same
      rw [Net.set_self, Shell.entering_waiting]
      exact member
    · rw [Net.set_ne same]
      exact member

theorem Sim.enter (sim : Sim size trace net st) (data : Option Json)
    (fresh : (net.shells r).current.isLocal = false) :
    Sim size (trace ++ [(r, .entered () data)]) (net.set r ((net.shells r).entering data))
      (st.enter r data.toList) := by
  constructor
  · intro s
    have log : entriesOf s (trace ++ [(r, .entered () data)]) =
        entriesOf s trace ++ if r = s then [data] else [] := entriesOf_append s trace r [.entered () data]
    rw [log]
    by_cases same : s = r
    · subst same
      simp [State.enter, sim.given s]
    · simp [State.enter, same, Ne.symm same, sim.given s]
  · intro s
    rw [exitsOf_snoc s trace r (.entered () data) rfl]
    exact sim.results s
  · intro s
    exact (sim.node s).enter data fresh
  · intro c p up inside
    exact (sim.link c p up inside).enter r data

/-! ### Whose messages are in flight -/

theorem mem_eraseIdx_of_ne {l : List α} (found : l[i]? = some x) (member : y ∈ l) (different : y ≠ x) :
    y ∈ l.eraseIdx i := by
  obtain ⟨bound, taken⟩ := List.getElem?_eq_some_iff.mp found
  have order := List.getElem_cons_eraseIdx_perm bound
  rw [taken] at order
  exact (List.mem_cons.mp (order.mem_iff.mpr member)).resolve_left different

/-- Two messages of one sender are the same when that sender has at most one. -/
theorem eq_of_count_le_one {l : List α} (key : α → Nat) (single : (l.map key).count c ≤ 1)
    (first : x ∈ l) (second : y ∈ l) (left : key x = c) (right : key y = c) : x = y := by
  have mine : x ∈ l.filter (fun z => key z == c) := List.mem_filter.mpr ⟨first, by simpa using left⟩
  have yours : y ∈ l.filter (fun z => key z == c) := List.mem_filter.mpr ⟨second, by simpa using right⟩
  have bounded : (l.filter (fun z => key z == c)).length ≤ 1 := by
    rw [← List.countP_eq_length_filter]
    rwa [List.count, List.countP_map] at single
  match filtered : l.filter (fun z => key z == c), bounded with
  | [], _ => simp [filtered] at mine
  | [z], _ =>
    simp only [filtered, List.mem_singleton] at mine yours
    rw [mine, yours]

theorem unfulfilled_none (future : shell.futures = [⟨tag, none⟩]) :
    Shell.unfulfilled (A := A) shell = 1 := by
  rw [Shell.unfulfilled, future]
  rfl

theorem unfulfilled_some (future : shell.futures = [⟨tag, some response⟩]) :
    Shell.unfulfilled (A := A) shell = 0 := by
  rw [Shell.unfulfilled, future]
  rfl

theorem unfulfilled_nil (noFutures : shell.futures = []) :
    Shell.unfulfilled (A := A) shell = 0 := by
  rw [Shell.unfulfilled, noFutures]
  rfl

/-- A request in flight is what its sender's link is asking. -/
theorem Sim.request_asking (sim : Sim size trace net st) (single : net.Single size [])
    (inFlight : m ∈ net.requests) : ∃ value, st.link m.2.sender = .asking value ∧
      unpackData m.2.payload = some (.array value) ∧
      (net.shells m.2.sender).futures = [⟨m.2.matchtag, none⟩] := by
  obtain ⟨up, inside⟩ := single.routed m inFlight
  have owed := single.single m.2.sender m.1 up
  have counted : 1 ≤ (net.requests.map (fun m => m.2.sender)).count m.2.sender :=
    List.one_le_count_iff.mpr (List.mem_map_of_mem inFlight)
  have link := sim.link m.2.sender m.1 up inside
  cases state : st.link m.2.sender with
  | idle =>
    rw [state] at link
    have := unfulfilled_nil link
    omega
  | asking value =>
    rw [state] at link
    obtain ⟨tag, future, asked⟩ := link
    have := unfulfilled_none future
    have same : m = (m.1, ⟨m.2.sender, tag, packData (.array value)⟩) :=
      eq_of_count_le_one (fun m => m.2.sender) (by omega) inFlight asked rfl rfl
    refine ⟨value, rfl, ?_, ?_⟩
    · rw [same]
      rfl
    · rw [future, same]
  | queued =>
    rw [state] at link
    obtain ⟨msg, held, sender, future⟩ := link
    have := unfulfilled_none future
    have : 1 ≤ (net.shells m.1).senders.count m.2.sender :=
      List.one_le_count_iff.mpr (sender ▸ List.mem_map_of_mem held)
    omega
  | answered result =>
    rw [state] at link
    obtain ⟨tag, ⟨future, replied⟩ | ready⟩ := link
    · have := unfulfilled_none future
      have : 1 ≤ (net.responses.map Prod.fst).count m.2.sender :=
        List.one_le_count_iff.mpr (List.mem_map_of_mem (f := Prod.fst) replied)
      omega
    · have := unfulfilled_some ready
      omega

/-- A response in flight is the answer its receiver's link has. -/
theorem Sim.response_answered (sim : Sim size trace net st) (single : net.Single size [])
    (inFlight : m ∈ net.responses) : ∃ result, st.link m.1 = .answered result ∧
      m.2.2 = .payload (packData (.array result)) ∧ (net.shells m.1).futures = [⟨m.2.1, none⟩] := by
  obtain ⟨inside, p, up⟩ := single.addressed m inFlight
  have owed := single.single m.1 p up
  have counted : 1 ≤ (net.responses.map Prod.fst).count m.1 :=
    List.one_le_count_iff.mpr (List.mem_map_of_mem inFlight)
  have link := sim.link m.1 p up inside
  cases state : st.link m.1 with
  | idle =>
    rw [state] at link
    have := unfulfilled_nil link
    omega
  | asking value =>
    rw [state] at link
    obtain ⟨tag, future, asked⟩ := link
    have := unfulfilled_none future
    have : 1 ≤ (net.requests.map (fun m => m.2.sender)).count m.1 :=
      List.one_le_count_iff.mpr (List.mem_map_of_mem (f := fun m => m.2.sender) asked)
    omega
  | queued =>
    rw [state] at link
    obtain ⟨msg, held, sender, future⟩ := link
    have := unfulfilled_none future
    have : 1 ≤ (net.shells p).senders.count m.1 :=
      List.one_le_count_iff.mpr (sender ▸ List.mem_map_of_mem held)
    omega
  | answered result =>
    rw [state] at link
    obtain ⟨tag, ⟨future, replied⟩ | ready⟩ := link
    · have := unfulfilled_none future
      have same : m = (m.1, tag, .payload (packData (.array result))) :=
        eq_of_count_le_one Prod.fst (by omega) inFlight replied rfl rfl
      refine ⟨result, rfl, ?_, ?_⟩
      · rw [same]
      · rw [future, same]
    · have := unfulfilled_some ready
      omega

/-! ### A child's request -/

/-- The shell after a child's request was queued. -/
def Shell.accepting (shell : Shell Unit) (msg : Request) (items : List Json) : Shell Unit :=
  { shell with session := some { shell.current with
      dataIn := shell.current.dataIn ++ items, requests := shell.current.requests ++ [msg] } }

theorem Shell.accepting_waiting (shell : Shell Unit) (msg : Request) (items : List Json) :
    (shell.accepting msg items).waiting = shell.waiting ++ [msg] := by
  rw [waiting_current shell]
  rfl

theorem NodeSim.accept (node : NodeSim size (net.shells s) st s) (above : shellParent msg.sender = some r)
    (i : Nat) (items : List Json) :
    NodeSim size (((net.deliver (.deliverRequest i)).set r ((net.shells r).accepting msg items)).shells s)
      (st.accept msg.sender r items) s := by
  obtain ⟨entered, gathered, queue⟩ := node
  by_cases same : s = r
  · subst same
    rw [Net.set_self]
    refine ⟨entered, ?_, fun c up inside => ?_⟩
    · simp [State.accept, gathered, Shell.accepting, Shell.current]
    · rw [Shell.senders, Shell.accepting_waiting, List.map_append, List.mem_append, ← Shell.senders,
        ← queue c up inside]
      by_cases self : c = msg.sender
      · subst self
        simp [link_accept_self]
      · simp [link_accept_ne self, self]
  · rw [Net.set_ne same]
    refine ⟨entered, ?_, fun c up inside => ?_⟩
    · simp [State.accept, same, gathered, Net.deliver]
    · have other : c ≠ msg.sender := by
        rintro rfl
        exact same (Option.some.inj (up.symm.trans above))
      rw [link_accept_ne other]
      exact queue c up inside

theorem LinkSim.accept (link : LinkSim net c p (st.link c)) (up : shellParent c = some p)
    (above : shellParent msg.sender = some r) (found : net.requests[i]? = some (r, msg)) (items : List Json)
    (future : (net.shells msg.sender).futures = [⟨msg.matchtag, none⟩]) :
    LinkSim ((net.deliver (.deliverRequest i)).set r ((net.shells r).accepting msg items)) c p
      ((st.accept msg.sender r items).link c) := by
  by_cases self : c = msg.sender
  · subst self
    obtain rfl := Option.some.inj (up.symm.trans above)
    rw [link_accept_self]
    refine ⟨msg, ?_, rfl, ?_⟩
    · rw [Net.set_self, Shell.accepting_waiting]
      exact List.mem_append_right _ List.mem_cons_self
    · have other : msg.sender ≠ p := (parent_lt up).ne'
      rw [Net.set_ne other]
      exact future
  · rw [link_accept_ne self]
    refine link.mono ?_ ?_ ?_ (fun m member _ => member)
    · by_cases same : c = r
      · subst same
        rw [Net.set_self]
        rfl
      · rw [Net.set_ne same]
        rfl
    · intro m member sender
      apply mem_eraseIdx_of_ne found member
      rintro rfl
      exact self sender.symm
    · intro held member _
      by_cases same : p = r
      · subst same
        rw [Net.set_self, Shell.accepting_waiting]
        exact List.mem_append_left _ member
      · rw [Net.set_ne same]
        exact member

/-- A child's request is taken out of flight and queued. -/
theorem Sim.accept (sim : Sim size trace net st) (single : net.Single size [])
    (found : net.requests[i]? = some (r, msg)) (items : List Json)
    (future : (net.shells msg.sender).futures = [⟨msg.matchtag, none⟩]) :
    Sim size (trace ++ [(r, .accept msg)])
      ((net.deliver (.deliverRequest i)).set r ((net.shells r).accepting msg items))
      (st.accept msg.sender r items) := by
  obtain ⟨above, _⟩ := single.routed (r, msg) (List.mem_of_getElem? found)
  constructor
  · intro s
    rw [entriesOf_snoc s trace r (.accept msg) rfl]
    exact sim.given s
  · intro s
    rw [exitsOf_snoc s trace r (.accept msg) rfl]
    exact sim.results s
  · intro s
    exact (sim.node s).accept above i items
  · intro c p up inside
    exact (sim.link c p up inside).accept up above found items future

/-! ### A request to the parent -/

/-- A shell without a future has asked nothing. -/
theorem Sim.link_idle (sim : Sim size trace net st) (up : shellParent r = some p) (inside : r < size)
    (noFutures : (net.shells r).futures = []) : st.link r = .idle := by
  have link := sim.link r p up inside
  cases state : st.link r with
  | idle => rfl
  | asking value =>
    rw [state] at link
    obtain ⟨_, future, _⟩ := link
    rw [noFutures] at future
    cases future
  | queued =>
    rw [state] at link
    obtain ⟨_, _, _, future⟩ := link
    rw [noFutures] at future
    cases future
  | answered result =>
    rw [state] at link
    obtain ⟨_, ⟨future, _⟩ | future⟩ := link
    · rw [noFutures] at future
      cases future
    · rw [noFutures] at future
      cases future

/-- What a callback of another shell leaves of a link, if it keeps the link's place in a queue. -/
theorem LinkSim.post (link : LinkSim net c p state) (other : c ≠ r) (size : Nat)
    (result : Shell Unit × List (Effect Unit))
    (waiting : p = r → ∀ msg ∈ (net.shells r).waiting, msg ∈ result.1.waiting) :
    LinkSim (net.post (fenceExchange size r) result) c p state := by
  refine link.mono ?_ ?_ ?_ ?_
  · rw [Net.post_ne other]
  · intro m member _
    exact List.mem_append_left _ member
  · intro msg member _
    by_cases same : p = r
    · subst same
      rw [Net.post_self]
      exact waiting rfl msg member
    · rw [Net.post_ne same]
      exact member
  · intro m member _
    exact List.mem_append_left _ member

/-- The shell and its effect once its request is on the way. -/
def Session.asking (ses : Session Unit) (tag : Nat) : Shell Unit × List (Effect Unit) :=
  (⟨some { ses with f := some tag }, [⟨tag, none⟩], tag + 1⟩, [.rpc tag (packData (.array ses.dataIn))])

theorem Session.asking_waiting (ses : Session Unit) (tag : Nat) : (ses.asking tag).1.waiting = ses.requests := rfl

theorem NodeSim.ask (node : NodeSim size (net.shells s) st s) (live : (net.shells r).session = some ses)
    (idle : st.link r = .idle) (tag : Nat) :
    NodeSim size ((net.post (fenceExchange size r) (ses.asking tag)).shells s) (st.ask r) s := by
  obtain ⟨entered, gathered, queue⟩ := node
  by_cases same : s = r
  · subst same
    rw [current_some live] at entered gathered
    rw [Net.post_self]
    refine ⟨entered, gathered, fun c up inside => ?_⟩
    rw [link_ask_queued idle, queue c up inside, Shell.senders_live live, Shell.senders, Session.asking_waiting]
  · rw [Net.post_ne same]
    refine ⟨entered, gathered, fun c up inside => ?_⟩
    rw [link_ask_queued idle, queue c up inside]

theorem LinkSim.ask (link : LinkSim net c q (st.link c)) (live : (net.shells r).session = some ses)
    (gathered : st.gathered r = ses.dataIn) (up : shellParent c = some q) (inside : c < size)
    (small : size < 2 ^ 31) (tag : Nat) :
    LinkSim (net.post (fenceExchange size r) (ses.asking tag)) c q ((st.ask r).link c) := by
  by_cases self : c = r
  · subst self
    rw [link_ask_self, gathered]
    refine ⟨tag, ?_, List.mem_append_right _ ?_⟩
    · rw [Net.post_self]
      rfl
    · have posted : (Effect.rpc tag (packData (.array ses.dataIn)) : Effect Unit).posted
          (fenceExchange size c) = some (q, ⟨c, tag, packData (.array ses.dataIn)⟩) := by
        rw [Effect.posted, fenceExchange_parent inside small up]
        rfl
      rw [Session.asking, List.filterMap_cons_some posted]
      exact List.mem_cons_self
  · rw [link_ask_ne self]
    apply link.post self
    intro _ msg member
    rwa [Shell.waiting_live live] at member

/-- A complete shell asks its parent. -/
theorem Sim.ask (sim : Sim size trace net st) (small : size < 2 ^ 31) (up : shellParent r = some p)
    (inside : r < size) (live : (net.shells r).session = some ses)
    (noFutures : (net.shells r).futures = []) (tag : Nat) :
    Sim size (trace ++ [(r, .rpc tag (packData (.array ses.dataIn)))])
      (net.post (fenceExchange size r) (ses.asking tag)) (st.ask r) := by
  have gathered : st.gathered r = ses.dataIn := by
    rw [(sim.node r).gathered, current_some live]
  constructor
  · intro s
    rw [entriesOf_snoc s trace r (.rpc tag _) rfl]
    exact sim.given s
  · intro s
    rw [exitsOf_snoc s trace r (.rpc tag _) rfl]
    exact sim.results s
  · intro s
    exact (sim.node s).ask live (sim.link_idle up inside noFutures) tag
  · intro c q above within
    exact (sim.link c q above within).ask live gathered above within small tag

/-! ### The end of a round -/

/-- The effects of answering every child and ending the session. -/
def finishing (requests : List Request) (result : List Json) (ses : Session Unit) : List (Effect Unit) :=
  requests.map (.respond · (some (.array result)) true) ++ [.exit () ses, .destroy]

theorem finishing_entries (requests : List Request) (result : List Json) (ses : Session Unit) :
    (finishing requests result ses).filterMap Effect.entry = [] := by
  rw [finishing, List.filterMap_append, List.filterMap_map]
  simp [Effect.entry, Function.comp_def]

theorem responses_exited (requests : List Request) (result : List Json) :
    (requests.map (Effect.respond (A := Unit) · (some (.array result)) true)).filterMap Effect.exited = [] := by
  rw [List.filterMap_map, List.filterMap_eq_nil_iff]
  intro msg _
  rfl

theorem finishing_exits (requests : List Request) (result : List Json) (ses : Session Unit) :
    (finishing requests result ses).filterMap Effect.exited = [ses] := by
  rw [finishing, List.filterMap_append, responses_exited]
  rfl

theorem finishing_replied (requests : List Request) (result : List Json) (ses : Session Unit)
    (member : msg ∈ requests) : (msg.sender, msg.matchtag, .payload (packData (.array result))) ∈
      (finishing requests result ses).filterMap Effect.replied :=
  List.mem_filterMap.mpr ⟨.respond msg (some (.array result)) true,
    List.mem_append_left _ (List.mem_map_of_mem member), rfl⟩

theorem finishing_log (sim : Sim size trace net st) (r : Nat) (requests : List Request)
    (delivered : Delivered snapshot result) (s : Nat) :
    List.Forall₂ Delivered (exitsOf s (trace ++ (finishing requests result snapshot).map (r, ·)))
      ((st.finish shellParent r result).results s) := by
  rw [exitsOf_append, finishing_exits]
  by_cases same : s = r
  · subst same
    rw [if_pos rfl, results_finish_self]
    exact List.rel_append (sim.results s) (.cons delivered .nil)
  · rw [if_neg (Ne.symm same), List.append_nil, results_finish_ne same]
    exact sim.results s

theorem NodeSim.finish (node : NodeSim size (net.shells s) st s) (tree : Tree shellParent id 0 (Finset.range size))
    (filled : st.Filled shellParent (Finset.range size) r) (unqueued : st.link r ≠ .queued)
    (result : List Json) (tags : Nat) (effects : List (Effect Unit)) :
    NodeSim size ((net.post (fenceExchange size r) (⟨none, [], tags⟩, effects)).shells s)
      (st.finish shellParent r result) s := by
  obtain ⟨entered, gathered, queue⟩ := node
  by_cases same : s = r
  · subst same
    rw [Net.post_self]
    refine ⟨?_, ?_, fun c up within => ?_⟩
    · rw [rounds_finish_self]
      exact filled.1
    · simp [State.finish, Shell.current, sessionCreate]
    · rw [link_finish_child up]
      simp [Shell.senders, Shell.waiting]
  · rw [Net.post_ne same]
    refine ⟨?_, ?_, fun c up within => ?_⟩
    · rw [rounds_finish_ne same]
      exact entered
    · simpa [State.finish, same] using gathered
    · have notChild : shellParent c ≠ some r := by
        rw [up]
        exact fun alike => same (Option.some.inj alike)
      by_cases self : c = r
      · subst self
        rw [link_finish_self tree, ← queue c up within]
        simp [unqueued]
      · rw [link_finish_ne notChild self]
        exact queue c up within

/-- The children's links lead to the responses, the shell's own is idle again. -/
theorem LinkSim.finish (link : LinkSim net c q (st.link c)) (tree : Tree shellParent id 0 (Finset.range size))
    (live : (net.shells r).session = some ses) (filled : st.Filled shellParent (Finset.range size) r)
    (up : shellParent c = some q) (inside : c < size) (snapshot : Session Unit) (tags : Nat) :
    LinkSim (net.post (fenceExchange size r) (⟨none, [], tags⟩, finishing ses.requests result snapshot)) c q
      ((st.finish shellParent r result).link c) := by
  by_cases self : c = r
  · subst self
    rw [link_finish_self tree]
    exact congrArg Shell.futures (Net.post_self _ _ _ _)
  · by_cases child : q = r
    · subst child
      rw [link_finish_child up]
      rw [filled.2 c (mem_children.mpr ⟨Finset.mem_range.mpr inside, up⟩)] at link
      obtain ⟨msg, held, rfl, future⟩ := link
      rw [Shell.waiting_live live] at held
      refine ⟨msg.matchtag, .inl ⟨?_, ?_⟩⟩
      · rw [Net.post_ne self]
        exact future
      · exact List.mem_append_right _ (finishing_replied _ _ _ held)
    · have notChild : shellParent c ≠ some r := by
        rw [up]
        exact fun alike => child (Option.some.inj alike)
      rw [link_finish_ne notChild self]
      exact link.post self _ _ (fun same => absurd same child)

/-- A filled shell delivers the result and answers its children. -/
theorem Sim.finish (sim : Sim size trace net st) (inside : r < size)
    (live : (net.shells r).session = some ses)
    (filled : st.Filled shellParent (Finset.range size) r) (unqueued : st.link r ≠ .queued)
    (delivered : Delivered snapshot result) (tags : Nat) :
    Sim size (trace ++ (finishing ses.requests result snapshot).map (r, ·))
      (net.post (fenceExchange size r) (⟨none, [], tags⟩, finishing ses.requests result snapshot))
      (st.finish shellParent r result) := by
  have tree := shell_tree (Nat.zero_lt_of_lt inside)
  constructor
  · intro s
    rw [entriesOf_silent s trace r _ (finishing_entries _ _ _)]
    exact sim.given s
  · intro s
    exact finishing_log sim r ses.requests delivered s
  · intro s
    exact (sim.node s).finish tree filled unqueued result tags _
  · intro c q up within
    exact (sim.link c q up within).finish tree live filled up within snapshot tags

/-! ### The parent's response -/

/-- A response arrives and waits for its completion. -/
theorem Sim.fulfill (sim : Sim size trace net st) (single : net.Single size [])
    (found : net.responses[i]? = some (r, tag, response)) :
    Sim size trace ((net.deliver (.deliverResponse i)).set r { net.shells r with
      futures := (net.shells r).futures.map (Future.fulfill tag response) }) st := by
  have inFlight := List.mem_of_getElem? found
  obtain ⟨result, answered, payload, future⟩ := sim.response_answered single inFlight
  refine ⟨sim.given, sim.results, fun s => ?_, fun c p up inside => ?_⟩
  · by_cases same : s = r
    · subst same
      obtain ⟨entered, gathered, queue⟩ := sim.node s
      rw [Net.set_self]
      exact ⟨entered, gathered, queue⟩
    · rw [Net.set_ne same]
      exact sim.node s
  · by_cases self : c = r
    · subst self
      rw [answered]
      refine ⟨tag, .inr ?_⟩
      simp only at payload future
      rw [Net.set_self, future, payload]
      simp [Future.fulfill]
    · refine (sim.link c p up inside).mono ?_ (fun m member _ => member) ?_ ?_
      · rw [Net.set_ne self]
        rfl
      · intro msg member _
        by_cases same : p = r
        · subst same
          rw [Net.set_self]
          exact member
        · rw [Net.set_ne same]
          exact member
      · intro m member sender
        refine mem_eraseIdx_of_ne found member ?_
        rintro rfl
        exact self sender.symm

end FluxPmix
end

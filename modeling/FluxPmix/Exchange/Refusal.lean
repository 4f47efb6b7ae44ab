import FluxPmix.Exchange.Lifecycle

/-! What a child whose request was refused leaves behind in its parent's session. -/
namespace FluxPmix
open Mealy
variable {A : Type} {xcg : Exchange} {fault : Faults} {shell : Shell A} {ses : Session A} {msg : Request}

/-- The request whose sender is told that it failed. -/
def Effect.refused : Effect A → Option Request
  | .respondError msg _ _ _ => some msg
  | _ => none

/-- The session is what it was. Where there was none there is none, or an empty one. -/
structure Shell.Untouched (shell after : Shell A) : Prop where
  session : after.session = shell.session ∨ (shell.session = none ∧ after.session = some sessionCreate)
  futures : after.futures = shell.futures
  matchtags : after.matchtags = shell.matchtags

/-- If the request is answered with an error, it has left no trace. -/
def RefusalLeavesNoTrace (xcg : Exchange) (fault : Faults) (shell : Shell A) (msg : Request) : Prop :=
  msg ∈ (exchangeRequestCb xcg fault shell msg).2.filterMap Effect.refused →
    shell.Untouched (exchangeRequestCb xcg fault shell msg).1

/-- The request brings data and there is room for it, but it cannot be queued. -/
structure Stranded (xcg : Exchange) (fault : Faults) (shell : Shell A) (msg : Request) : Prop where
  data : ∃ item items, unpackData msg.payload = some (.array (item :: items))
  opened : shell.session = none → fault.sessionCreate = false
  room : shell.waiting.length ≠ xcg.childCount
  grows : fault.arrayExtend = false
  unsaved : fault.msglistAppend = true

/-! ### Processing a session refuses nobody -/

theorem sessionDone_refused (shell : Shell A) (ses : Session A) :
    ∀ e ∈ (sessionDone shell ses).2, e.refused = none := by
  cases hook : ses.exitCb <;> simp [sessionDone, hook, Effect.refused]

theorem sessionSend_refused (fault : Faults) (shell : Shell A) (ses : Session A) :
    ∀ e ∈ (sessionSend fault shell ses).2.2, e.refused = none := by
  rw [sessionSend]
  split
  · exact List.forall_mem_nil _
  · dsimp only
    split <;> exact List.forall_mem_singleton.mpr rfl

theorem respondLoop_refused (fault : Faults) (dataOut : Option Json) (i : Nat) (queue : List Request) :
    ∀ e ∈ (respondLoop (A := A) fault dataOut i queue).2.2, e.refused = none := by
  induction queue generalizing i with
  | nil => exact List.forall_mem_nil _
  | cons first rest ih =>
    rw [respondLoop]
    split
    · exact List.forall_mem_singleton.mpr rfl
    · exact List.forall_mem_cons.mpr ⟨rfl, ih (i + 1)⟩

theorem sessionProcess_refused (xcg : Exchange) (fault : Faults) (shell : Shell A) (ses : Session A) :
    ∀ e ∈ (sessionProcess xcg fault shell ses).2, e.refused = none := by
  have upstream : ∀ e ∈ (if 0 < xcg.rank && ses.f.isNone then sessionSend fault shell ses
      else (shell, ses, [])).2.2, e.refused = none := by
    split
    · exact sessionSend_refused fault shell ses
    · exact List.forall_mem_nil _
  rw [sessionProcess]
  generalize (if 0 < xcg.rank && ses.f.isNone then sessionSend fault shell ses else (shell, ses, [])) = stage
    at upstream ⊢
  obtain ⟨shell', ses', sent⟩ := stage
  dsimp only at upstream ⊢
  split
  · exact sessionDone_refused shell ses
  split
  · exact List.forall_mem_nil _
  split
  · exact List.forall_mem_append.mpr ⟨upstream, sessionDone_refused _ _⟩
  split
  · exact upstream
  · exact List.forall_mem_append.mpr ⟨List.forall_mem_append.mpr
      ⟨upstream, respondLoop_refused fault _ 0 _⟩, sessionDone_refused _ _⟩

/-! ### Which refusals leave something behind -/

theorem Shell.untouched_self (shell : Shell A) : shell.Untouched shell := ⟨.inl rfl, rfl, rfl⟩

/-- Creating the session is no trace. -/
theorem Shell.untouched_opened (opened : shell.ensureSession fault = some ses) :
    shell.Untouched { shell with session := some ses } := by
  cases live : shell.session with
  | some old =>
    have same : old = ses := by simpa [Shell.ensureSession, live] using opened
    exact ⟨.inl (by rw [live, same]), rfl, rfl⟩
  | none =>
    have fresh : ses = sessionCreate := by
      rw [Shell.ensureSession_eq opened, live]
      rfl
    exact ⟨.inr ⟨live, by rw [fresh]⟩, rfl, rfl⟩

theorem Shell.ensureSession_ok : (∃ ses, shell.ensureSession fault = some ses) ↔
    (shell.session = none → fault.sessionCreate = false) := by
  cases live : shell.session with
  | some old => simp [Shell.ensureSession, live]
  | none => simp [Shell.ensureSession, live]

theorem Shell.waiting_opened (opened : shell.ensureSession fault = some ses) : shell.waiting = ses.requests := by
  rw [Shell.ensureSession_eq opened]
  cases live : shell.session with
  | some old => exact Shell.waiting_live live
  | none => simp [Shell.waiting, live, sessionCreate]

/-- Appending something to the gathered data is a trace. -/
theorem Shell.touched_extended (opened : shell.ensureSession fault = some ses) (item : Json) (items : List Json) :
    ¬ shell.Untouched { shell with session := some { ses with dataIn := ses.dataIn ++ item :: items } } := by
  rintro ⟨same | ⟨live, fresh⟩, _, _⟩
  · have live : shell.session.isSome := by simp [← same]
    obtain ⟨old, live⟩ := Option.isSome_iff_exists.mp live
    rw [Shell.ensureSession_eq opened, live] at same
    have longer := congrArg (fun ses => (Session.dataIn ses).length) (Option.some.inj same)
    simp at longer
  · have longer := congrArg (fun ses => (Session.dataIn ses).length) (Option.some.inj fresh)
    simp [sessionCreate] at longer

theorem arrayExtend_ok {dataIn extended : List Json} : arrayExtend fault dataIn data = some extended ↔
    fault.arrayExtend = false ∧ ∃ items, data = .array items ∧ extended = dataIn ++ items := by
  cases data with
  | array items =>
    cases grows : fault.arrayExtend with
    | true => simp [arrayExtend, grows]
    | false => simp [arrayExtend, grows, eq_comm]
  | _ => simp [arrayExtend]

theorem Stranded.leaves_trace (stranded : Stranded xcg fault shell msg) :
    ¬ RefusalLeavesNoTrace xcg fault shell msg := by
  obtain ⟨⟨item, items, payload⟩, creates, room, grows, unsaved⟩ := stranded
  obtain ⟨ses, opened⟩ := Shell.ensureSession_ok.mpr creates
  rw [Shell.waiting_opened opened] at room
  rw [RefusalLeavesNoTrace, exchangeRequestCb]
  simp only [payload, opened, room, if_false, arrayExtend, grows, unsaved, Bool.false_eq_true, if_true]
  intro traceless
  exact Shell.touched_extended opened item items (traceless (by simp [Effect.refused]))

theorem unstranded_traceless (unstranded : ¬ Stranded xcg fault shell msg) :
    RefusalLeavesNoTrace xcg fault shell msg := by
  rw [RefusalLeavesNoTrace, exchangeRequestCb]
  intro refused
  cases payload : unpackData msg.payload with
  | none => exact shell.untouched_self
  | some data =>
    cases opened : shell.ensureSession fault with
    | none => exact shell.untouched_self
    | some ses =>
      have untouched := Shell.untouched_opened opened
      by_cases full : ses.requests.length = xcg.childCount
      · simpa only [full, if_true] using untouched
      cases extended : arrayExtend fault ses.dataIn data with
      | none => simpa only [full, if_false, extended] using untouched
      | some dataIn =>
        obtain ⟨grows, items, rfl, rfl⟩ := arrayExtend_ok.mp extended
        cases unsaved : fault.msglistAppend with
        | true =>
          have nothing : items = [] := by
            cases items with
            | nil => rfl
            | cons item items =>
              refine absurd ⟨⟨item, items, payload⟩, Shell.ensureSession_ok.mp ⟨ses, opened⟩, ?_, grows, unsaved⟩
                unstranded
              rwa [Shell.waiting_opened opened]
          subst nothing
          simpa only [full, if_false, extended, if_true, List.append_nil] using untouched
        | false =>
          -- the request is accepted, and nothing after that refuses it
          simp only [payload, opened, full, if_false, extended, unsaved, Bool.false_eq_true] at refused
          obtain ⟨e, member, told⟩ := List.mem_filterMap.mp refused
          rcases List.mem_cons.mp member with rfl | processed
          · cases told
          · cases (sessionProcess_refused xcg fault _ _ e processed).symm.trans told

/-- A refused request leaves no trace unless it is the queueing of new data that fails. -/
theorem refusal_leaves_no_trace (xcg : Exchange) (fault : Faults) (shell : Shell A) (msg : Request) :
    RefusalLeavesNoTrace xcg fault shell msg ↔ ¬ Stranded xcg fault shell msg :=
  ⟨fun traceless stranded => stranded.leaves_trace traceless, unstranded_traceless⟩

/-- Shell 0 of 2 has no session when shell 1 sends its data, and cannot queue the request. -/
theorem refusal_leaves_data : ¬ RefusalLeavesNoTrace (exchangeCreate 2 0 0) { msglistAppend := true }
    (Shell.idle : Shell Unit) ⟨1, 0, packData (.array [.null])⟩ := by
  intro traceless
  have untouched := traceless List.mem_cons_self
  rcases untouched.session with same | ⟨_, fresh⟩
  · cases same
  · cases fresh

/-! ### What a session has gathered over a whole run -/

/-- What each event of a session's life adds to the data. -/
def Effect.contributed : Effect A → List Json
  | .entered _ data => data.toList
  | .accept msg => ((unpackData msg.payload).map Json.arrayElements).getD []
  | _ => []

/-- The data is what was entered and accepted, and no more. -/
def Shell.Accounted (shell : Shell A) (window : List (Effect A)) : Prop :=
  (shell.session.getD sessionCreate).dataIn = window.flatMap Effect.contributed

/-- A callback that takes over no data without its contributor. -/
def Keeps (xcg : Exchange) (shell : Shell A) : Event A × Faults → Prop
  | (.enter data _, fault) => (data.isSome && fault.arrayAppend) = false
  | (.request msg, fault) => ¬ Stranded xcg fault shell msg
  | _ => True

theorem Processed.accounted (processed : Processed xcg fault shell ses result)
    (accounted : ses.dataIn = window.flatMap Effect.contributed) :
    result.1.Accounted (windowAfter Effect.isDestroy window result.2) := by
  cases processed with
  | waits => exact accounted
  | sent => simpa [Shell.Accounted, Effect.isDestroy, Effect.contributed] using accounted
  | unsent | unregistered | refused => rfl
  | answered | broken =>
    rw [windowAfter_append]
    rfl

theorem Shell.Untouched.current {after : Shell A} (untouched : shell.Untouched after) :
    after.session.getD sessionCreate = shell.session.getD sessionCreate := by
  rcases untouched.session with same | ⟨idle, fresh⟩
  · rw [same]
  · rw [idle, fresh]
    rfl

theorem Session.answer_dataIn (ses : Session A) (response : Response) :
    (ses.answer response).dataIn = ses.dataIn := by
  rw [Session.answer]
  split <;> rfl

theorem Stepped.accounted (stepped : Stepped xcg shell input result) (keeps : Keeps xcg shell input)
    (traceless : ∀ msg fault, input = (.request msg, fault) →
      msg ∈ result.2.filterMap Effect.refused → shell.Untouched result.1)
    (accounted : shell.Accounted window) :
    result.1.Accounted (windowAfter Effect.isDestroy window result.2) := by
  have held {fault : Faults} {ses : Session A} (opened : shell.ensureSession fault = some ses) :
      ses.dataIn = window.flatMap Effect.contributed := by
    rw [Shell.ensureSession_eq opened]
    exact accounted
  cases stepped with
  | unentered | unopened => simpa [Shell.Accounted, Effect.isDestroy, Effect.contributed] using accounted
  | undispatched | fulfilled => exact accounted
  | unappended data cb string opened fresh fails => cases fails.symm.trans keeps
  | entered data cb string opened fresh appends processed =>
    apply processed.accounted
    simp [Effect.isDestroy, Effect.contributed, held opened]
  | rejected msg payload opened rejection =>
    have untouched := traceless msg _ rfl (by simp [Effect.refused])
    simpa [Shell.Accounted, untouched.current, Effect.isDestroy, Effect.contributed] using accounted
  | accepted msg items payload opened room grows saves processed =>
    apply processed.accounted
    simp [Effect.isDestroy, Effect.contributed, held opened, payload, Json.arrayElements]
  | completed matchtag response live upstream ready processed =>
    apply processed.accounted
    rw [Session.answer_dataIn]
    simpa [Shell.Accounted, live] using accounted

/-- While no local entry and no request with new data fails to be registered, the live session
holds exactly what was entered and accepted since the last one ended. Whoever was told of a
failure has contributed nothing. -/
theorem exchange_holds_accepted (xcg : Exchange) (inputs : List (Event A × Faults))
    (keeps : Along (Shell.next xcg) (Keeps xcg) Shell.idle inputs) :
    let (shell, trace) := exec (Shell.next xcg) Shell.idle inputs
    ∀ ses, shell.session = some ses →
      ses.dataIn = (sinceLast Effect.isDestroy trace).flatMap Effect.contributed := by
  have kept := exec_invariant_nil
    (P := fun trace (shell : Shell A) => shell.Sound xcg ∧ shell.Accounted (sinceLast Effect.isDestroy trace))
    (fun trace shell input ⟨sound, accounted⟩ keeps => by
      have stepped := Shell.next_stepped sound input
      refine ⟨stepped.sound sound, ?_⟩
      rw [sinceLast_append]
      refine stepped.accounted keeps ?_ accounted
      rintro msg fault rfl
      exact unstranded_traceless keeps)
    ⟨Shell.idle_sound, rfl⟩ keeps
  intro ses live
  simpa [Shell.Accounted, live] using kept.2

end FluxPmix

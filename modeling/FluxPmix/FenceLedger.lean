import FluxPmix.FenceAdmission
import FluxPmix.FenceProofs
import FluxPmix.Ledger
import FluxPmix.Px

/-! The fence calls of one shell keep a ledger: the exchange lets one of them in at a time, and whoever
entered is called back with what its exit callback found. -/
namespace FluxPmix
open Ledger

/-- How a `cbfunc` is called. -/
structure Reply where
  cbfunc : UInt64
  cbdata : UInt64
  status : Int32
  out : DataOutputs

def FenceEffect.reply : FenceEffect → Option (Nat × Reply)
  | .cbfunc call fn cbdata status out => some (call, ⟨fn, cbdata, status, out⟩)
  | _ => none

def Effect.enters : Effect A → Option (A × Option Json)
  | .entered call data => some (call, data)
  | _ => none

def Effect.leaves : Effect A → Option (A × Session A)
  | .exit call ses => some (call, ses)
  | _ => none

def fenceReplies (trace : List FenceEffect) : List (Nat × Reply) := trace.filterMap FenceEffect.reply

def fenceEntries (trace : List FenceEffect) : List (Nat × Option Json) :=
  trace.filterMap fun e => e.inner.bind Effect.enters

def fenceExits (trace : List FenceEffect) : List (Nat × Session Nat) :=
  trace.filterMap fun e => e.inner.bind Effect.leaves

/-- What the ledger has of an effect. -/
def Effect.note : Effect Nat → Option (Note (Option Json) (Session Nat) Reply)
  | .entered call data => some (.entered call data)
  | .exit call ses => some (.left call ses)
  | _ => none

def FenceEffect.note : FenceEffect → Option (Note (Option Json) (Session Nat) Reply)
  | .cbfunc call fn cbdata status out => some (.answered call ⟨fn, cbdata, status, out⟩)
  | .exchange e => e.note
  | _ => none

def fenceLog (trace : List FenceEffect) : List (Note (Option Json) (Session Nat) Reply) :=
  trace.filterMap FenceEffect.note

def bookOf (taken : List FenceArgs) (trace : List FenceEffect) (inside : Option Nat) :
    Book FenceArgs (Option Json) (Session Nat) Reply :=
  ⟨taken, fenceLog trace, inside⟩

/-! ### What a call is due -/

/-- The call as it is decoded. -/
def FenceArgs.call (args : FenceArgs) : FenceCall := ⟨args.procs, args.info, args.cbfunc, args.cbdata, false⟩

def FenceArgs.decision (args : FenceArgs) : FenceDecision := fenceDecision args.procs args.info

def FenceArgs.collects (args : FenceArgs) : Bool := args.info.any PmixInfo.collects

/-- What the call gives to the others. -/
def FenceArgs.blob (args : FenceArgs) : Option (List UInt8) := if args.collects then some args.data else none

def encodedBlob (data : List UInt8) : Json := .string (base64EncodeText .rfc4648 data)

def Reply.To (reply : Reply) (args : FenceArgs) : Prop := reply.cbfunc = args.cbfunc ∧ reply.cbdata = args.cbdata

/-- A fence over the whole job enters with its data if it collects, and is called back with what the
exit callback makes of the session. One that is not over the whole job or has attributes that cannot be
met is refused for that reason, and one that comes while another is inside with an error. -/
def fenceRules : Rules FenceArgs (Option Json) (Session Nat) Reply where
  enters args data := args.decision = .entering args.collects ∧ data = args.blob.map encodedBlob
  earns args ses reply := reply.To args ∧ exchangeExitData {} ses = .ok (reply.status, reply.out)
  refuses args reply := reply.To args ∧ reply.out = ⟨none, 0⟩ ∧ args.decision = .rejected reply.status
  crowds args reply := reply.To args ∧ reply.out = ⟨none, 0⟩ ∧
    args.decision = .entering args.collects ∧ reply.status = pmixError

section
variable {trace more : List FenceEffect} {effects : List (Effect Nat)} {taken : List FenceArgs} {inside : Option Nat}

/-- What is read of the notes can be read of the effects. -/
theorem fenceLog_filterMap {B : Type} {ofNote : Note (Option Json) (Session Nat) Reply → Option B}
    {ofEffect : FenceEffect → Option B} (same : ∀ e, (FenceEffect.note e).bind ofNote = ofEffect e) :
    (fenceLog trace).filterMap ofNote = trace.filterMap ofEffect := by
  rw [fenceLog, List.filterMap_filterMap]
  exact congrArg (List.filterMap · trace) (funext same)

theorem bookOf_entries : (bookOf taken trace inside).entries = fenceEntries trace := by
  refine fenceLog_filterMap fun e => ?_
  cases e with
  | exchange e => cases e <;> rfl
  | _ => rfl

theorem bookOf_exits : (bookOf taken trace inside).exits = fenceExits trace := by
  refine fenceLog_filterMap fun e => ?_
  cases e with
  | exchange e => cases e <;> rfl
  | _ => rfl

theorem bookOf_answers : (bookOf taken trace inside).answers = fenceReplies trace := by
  refine fenceLog_filterMap fun e => ?_
  cases e with
  | exchange e => cases e <;> rfl
  | _ => rfl

theorem fenceLog_append (trace more : List FenceEffect) : fenceLog (trace ++ more) = fenceLog trace ++ fenceLog more :=
  List.filterMap_append

@[simp] theorem fenceLog_exchange (effects : List (Effect Nat)) :
    fenceLog (effects.map .exchange) = effects.filterMap Effect.note := by
  rw [fenceLog, List.filterMap_map]
  rfl

/-- Of effects that no one leaves by, the ledger has who entered. -/
theorem notes_plain (plain : Plain effects) :
    effects.filterMap Effect.note = (effects.filterMap Effect.enters).map fun e => .entered e.1 e.2 := by
  rw [List.map_filterMap]
  refine List.filterMap_congr fun e member => ?_
  obtain ⟨stays, _⟩ := plain e member
  cases e with
  | exit => cases stays
  | _ => rfl

/-- Effects that the ledger has nothing of change nothing. -/
theorem bookOf_quiet (silent : fenceLog more = []) :
    bookOf taken (trace ++ more) inside = bookOf taken trace inside := by
  rw [bookOf, fenceLog_append, silent, List.append_nil]
  rfl

end

/-! ### Who enters -/

section
variable {A : Type} {xcg : Exchange} {fault : Faults} {shell : Shell A} {ses : Session A}

theorem enters_responses (requests : List Request) (data : Json) :
    (requests.map (Effect.respond (A := A) · (some data) true)).filterMap Effect.enters = [] := by
  rw [List.filterMap_map, List.filterMap_eq_nil_iff]
  exact fun _ _ => rfl

theorem Processed.enters (processed : Processed xcg fault shell ses result) :
    result.2.filterMap Effect.enters = [] := by
  cases processed with
  | waits | unsent | unregistered | sent | refused => rfl
  | answered cb data =>
    rw [List.filterMap_append, enters_responses]
    rfl
  | broken cb data =>
    rw [List.filterMap_append, enters_responses]
    rfl

/-- Only an entry enters. -/
theorem Stepped.unentering (stepped : Stepped xcg shell (event, fault) result)
    (elsewhere : ∀ data cb, event ≠ .enter data cb) : result.2.filterMap Effect.enters = [] := by
  cases stepped with
  | unentered data exitCb => exact absurd rfl (elsewhere data exitCb)
  | unappended data cb => exact absurd rfl (elsewhere (some data) (some cb))
  | entered data cb => exact absurd rfl (elsewhere data (some cb))
  | unopened | rejected | fulfilled | undispatched => rfl
  | accepted _ _ _ _ _ _ _ processed => exact processed.enters
  | completed _ _ _ _ _ processed => exact processed.enters

/-- Without failures a string enters a shell that is not in a session. -/
theorem exchangeEnter_outside (sound : shell.Sound xcg) (outside : shell.hook = none) (string : data.all Json.isString)
    (cb : A) : ∃ rest, (exchangeEnterBase64String xcg {} shell data (some cb)).2 = .entered cb data :: rest := by
  have admitted : data.any (fun data => !data.isString) = false := by
    cases data with
    | none => rfl
    | some data => simpa using string
  obtain ⟨ses, opened, fresh⟩ : ∃ ses, shell.ensureSession {} = some ses ∧ ses.isLocal = false := by
    cases live : shell.session with
    | none => exact ⟨sessionCreate, by simp [Shell.ensureSession, live], rfl⟩
    | some ses =>
      have opened : shell.ensureSession {} = some ses := by rw [Shell.ensureSession, live]
      have hooked := (sound.opened opened).hooked
      rw [Shell.hook, live, Option.bind_some] at outside
      rw [outside] at hooked
      exact ⟨ses, opened, hooked.symm⟩
  rw [exchangeEnterBase64String]
  simp [admitted, opened, fresh]

/-- Without failures an entry is refused as a whole, or the session has its callback, or it is over. -/
theorem Stepped.entering (stepped : Stepped xcg shell (.enter data (some cb), {}) result) (sound : shell.Sound xcg) :
    (∃ errno, result = (shell, [.enterFailed (some cb) errno])) ∨
    (shell.hook = none ∧ result.2.filterMap Effect.enters = [(cb, data)] ∧
      (result.1.hook = some cb ∧ Plain result.2 ∨ Exits cb result)) := by
  cases stepped with
  | unentered _ _ errno => exact .inl ⟨errno, rfl⟩
  | unappended _ _ _ _ _ fails => cases fails
  | @entered _ ses result _ _ _ opened fresh _ processed =>
    have hooked := (sound.opened opened).hooked
    rw [fresh, Option.isSome_eq_false_iff, Option.isNone_iff_eq_none] at hooked
    refine .inr ⟨(Shell.hook_opened opened).trans hooked, ?_, ?_⟩
    · exact congrArg ((cb, data) :: ·) processed.enters
    · rcases processed.hook with ⟨same, plain⟩ | ⟨own, hook, exits⟩
      · exact .inl ⟨same, plain.cons _ ⟨rfl, rfl⟩⟩
      · cases hook
        exact .inr (exits.cons _ ⟨rfl, rfl⟩)

end

/-! ### What a step does to the ledger -/

/-- The `fence_call` a session holds is that of a call that was taken up. -/
def Fence.Holds (fx : Fence) (taken : List FenceArgs) : Prop :=
  ∀ id, fx.exchange.hook = some id → ∃ args call, taken[id]? = some args ∧ fx.calls id = some call ∧
    call.cbfunc = args.cbfunc ∧ call.cbdata = args.cbdata

structure Fence.Kept (xcg : Exchange) (taken : List FenceArgs) (trace : List FenceEffect) (fx : Fence) : Prop where
  sound : fx.exchange.Sound xcg
  seq : fx.exchangeSeq = taken.length
  valid : Valid fenceRules (bookOf taken trace fx.exchange.hook)
  held : fx.Holds taken

theorem Fence.initial_kept (xcg : Exchange) : Fence.initial.Kept xcg [] [] :=
  ⟨Shell.idle_sound, rfl, valid_empty, nofun⟩

section
variable {xcg : Exchange} {fx : Fence} {trace : List FenceEffect} {taken : List FenceArgs} {args : FenceArgs}
  {before : List (Effect Nat)} {ses : Session Nat} {call : FenceCall} {id : Nat} {status : Int32} {out : DataOutputs}

/-- What a session that ends means for its call. -/
def exitBook (b : Book FenceArgs (Option Json) (Session Nat) Reply) (id : Nat) (ses : Session Nat)
    (call : FenceCall) : Book FenceArgs (Option Json) (Session Nat) Reply :=
  match exchangeExitData {} ses with
  | .ok (status, out) => b.leave id ses ⟨call.cbfunc, call.cbdata, status, out⟩
  | .error _ => b.abandon id ses

theorem exitBook_valid (ses : Session Nat) (call : FenceCall)
    {b : Book FenceArgs (Option Json) (Session Nat) Reply} (valid : Valid fenceRules b) (inside : b.inside = some id)
    (found : b.taken[id]? = some args) (own : call.cbfunc = args.cbfunc ∧ call.cbdata = args.cbdata) :
    Valid fenceRules (exitBook b id ses call) := by
  rw [exitBook]
  cases data : exchangeExitData {} ses with
  | ok result =>
    have earned : fenceRules.earns args ses ⟨call.cbfunc, call.cbdata, result.1, result.2⟩ := ⟨own, data⟩
    exact valid.leave inside found earned
  | error fault =>
    refine valid.abandon inside ?_
    rintro caller answer ⟨_, earned⟩
    rw [data] at earned
    cases earned

/-- The end of a session in the log, around what its exit callback did. -/
theorem fenceLog_exit (before : List (Effect Nat)) (called : List FenceEffect) (id : Nat) (ses : Session Nat) :
    fenceLog (before.map .exchange ++ .exchange (.exit id ses) :: called ++ [.exchange .destroy]) =
      before.filterMap Effect.note ++ .left id ses :: fenceLog called := by
  have exit : fenceLog (.exchange (.exit id ses) :: called) = .left id ses :: fenceLog called := rfl
  have last : fenceLog [.exchange .destroy] = [] := rfl
  rw [fenceLog_append, fenceLog_append, fenceLog_exchange, exit, last, List.append_nil]

/-- A session that ends calls back the `fence_call` it has, once it has made sense of the data. -/
theorem Fence.exits_book (plain : Plain before) (live : fx.calls id = some call) (ses : Session Nat)
    (taken : List FenceArgs) (trace : List FenceEffect) (inside : Option Nat) :
    (Fence.exits {} fx (before ++ [.exit id ses, .destroy])).1.exchange = fx.exchange ∧
    (Fence.exits {} fx (before ++ [.exit id ses, .destroy])).1.exchangeSeq = fx.exchangeSeq ∧
    bookOf taken (trace ++ (Fence.exits {} fx (before ++ [.exit id ses, .destroy])).2) none =
      exitBook ⟨taken, fenceLog trace ++ before.filterMap Effect.note, inside⟩ id ses call := by
  obtain ⟨exchange, seq⟩ := @exchangeExitCb_frame {} fx id ses
  rw [Fence.exits_last plain]
  refine ⟨exchange, seq, ?_⟩
  rw [bookOf, fenceLog_append, fenceLog_exit, ← List.append_assoc, exitBook]
  cases data : exchangeExitData {} ses with
  | ok result =>
    have called : (exchangeExitCb {} fx id ses).2 =
        [.cbfunc id call.cbfunc call.cbdata result.1 result.2, .destroy id] := by
      simp only [exchangeExitCb, live, data]
    rw [called]
    rfl
  | error fault =>
    have called : (exchangeExitCb {} fx id ses).2 = [.undefined] := by
      simp only [exchangeExitCb, live, data]
    rw [called]
    rfl

theorem Fence.Kept.fresh (kept : fx.Kept xcg taken trace) : fx.exchange.hook ≠ some fx.exchangeSeq := by
  intro hook
  obtain ⟨args, call, found, _⟩ := kept.held _ hook
  have within := (List.getElem?_eq_some_iff.mp found).1
  rw [kept.seq] at within
  omega

/-- What is held stays what it is when another `fence_call` changes. -/
theorem Fence.Holds.update (held : fx.Holds taken) (exchange : Shell Nat) (same : exchange.hook = fx.exchange.hook)
    (fresh : fx.exchange.hook ≠ some new) (seq : Nat) (value : Option FenceCall) (args : FenceArgs) :
    Fence.Holds ⟨exchange, seq, Function.update fx.calls new value⟩ (taken ++ [args]) := by
  intro id hook
  rw [same] at hook
  obtain ⟨asked, call, found, live, pointers⟩ := held id hook
  have other : id ≠ new := by
    rintro rfl
    exact fresh hook
  exact ⟨asked, call, taken_early found _, (Function.update_of_ne other _ _).trans live, pointers⟩

/-- A callback of the exchange lets no one in. -/
theorem Fence.Kept.callback (kept : fx.Kept xcg taken trace) (event : Event Nat)
    (elsewhere : ∀ data cb, event ≠ .enter data cb) :
    (fx.callback xcg {} event).1.Kept xcg taken (trace ++ (fx.callback xcg {} event).2) := by
  obtain ⟨sound, seq, valid, held⟩ := kept
  have stepped := Shell.next_stepped sound (event, {})
  have after := stepped.sound sound
  have unentering := stepped.unentering elsewhere
  rw [Fence.callback]
  generalize Shell.next xcg fx.exchange (event, {}) = result at stepped after unentering
  obtain ⟨shell, effects⟩ := result
  rcases stepped.hook elsewhere with ⟨same, _, plain⟩ | ⟨_, id, hook, gone, before, ses, rfl, plain⟩
  · simp only [Fence.exits_plain plain]
    refine ⟨after, seq, ?_, ?_⟩
    · have silent : fenceLog (effects.map .exchange) = [] := by
        rw [fenceLog_exchange, notes_plain plain, unentering]
        rfl
      simp only at same
      rw [same, bookOf_quiet silent]
      exact valid
    · intro id hook
      exact held id (same.symm.trans hook)
  · obtain ⟨args, call, found, live, own⟩ := held id hook
    have silent : before.filterMap Effect.note = [] := by
      rw [List.filterMap_append] at unentering
      rw [notes_plain plain, (List.append_eq_nil_iff.mp unentering).1]
      rfl
    have outside : shell.hook = none := by
      simp only at gone
      rw [Shell.hook, gone]
      rfl
    have left := exitBook_valid ses call valid hook found own
    obtain ⟨exchange, number, book⟩ :=
      @Fence.exits_book { fx with exchange := shell } before call id plain live ses taken
      trace fx.exchange.hook
    refine ⟨?_, ?_, ?_, ?_⟩
    · rw [exchange]
      exact after
    · rw [number]
      exact seq
    · rw [exchange, outside, book, silent, List.append_nil]
      exact left
    · intro other hooked
      rw [exchange, outside] at hooked
      cases hooked

/-! ### Upcalls -/

variable [CFloat] {msg : InterthreadMsg}

/-- The shell's thread decides about the call that was made. -/
theorem fenceAdmit_args (sound : args.Sound) (packed : args.pack = .ok msg) :
    fenceAdmit {} msg.payload = args.decision.admission args.call (encodedBlob args.data) := by
  obtain ⟨xprocs, xinfo, xdata, procsEncoded, infoEncoded, dataEncoded, rfl⟩ := fenceUpcallPack_ok.mp packed
  have unpacked := @fenceUpcallUnpack_pack _ args.info args.cbfunc args.cbdata xprocs xinfo xdata args.procs
    sound.cbfunc sound.info procsEncoded infoEncoded
  have counted := (encodeArray_ok.mp ⟨_, infoEncoded⟩).2
  have length := codecDataLength_encode sound.data dataEncoded
  have within : xdata.overruns = false := by
    rw [← Bool.not_eq_true, ← codecDataLength_undefined, length]
    exact nofun
  obtain ⟨_, rfl⟩ := (codecDataEncode_ok sound.data).mp dataEncoded
  have guarded : admissionGuarded true args.call (encodedBlob args.data) = true := by
    obtain ⟨procs, info, data, cbfunc, cbdata⟩ := args
    cases procs with
    | nil => exact absurd rfl sound.procs
    | cons proc others =>
      cases others with
      | cons => rfl
      | nil =>
        have within : (encodedBlob data).overruns = false := within
        have counted : info.length ≤ intMax := counted
        simp [admissionGuarded, FenceArgs.call, within, counted]
  have decided := @fenceAdmit_decides _ args.call (encodedBlob args.data) {} _ rfl unpacked
  rw [decided, guarded, if_pos rfl]
  rfl

omit [CFloat] in
theorem decision_collects (entering : args.decision = .entering collect) : collect = args.collects := by
  obtain ⟨procs, info, data, cbfunc, cbdata⟩ := args
  cases procs with
  | nil => cases entering
  | cons proc others =>
    cases others with
    | cons => cases entering
    | nil =>
      simp only [FenceArgs.decision, fenceDecision] at entering
      split at entering
      · cases entering
      · split at entering
        · exact (FenceDecision.entering.inj entering).symm
        · cases entering

omit [CFloat] in
/-- A refused call is called back at once. -/
theorem Fence.Kept.refused (kept : fx.Kept xcg taken trace) (call : FenceCall)
    (own : call.cbfunc = args.cbfunc ∧ call.cbdata = args.cbdata)
    (reason : args.decision = .rejected rc ∨
      (args.decision = .entering args.collects ∧ rc = pmixError) ∧ ∃ other, fx.exchange.hook = some other)
    (first : List (Effect Nat)) (silent : first.filterMap Effect.note = [])
    (calls : Option FenceCall) :
    (Fence.fail ⟨fx.exchange, fx.exchangeSeq + 1, Function.update fx.calls fx.exchangeSeq calls⟩
        fx.exchangeSeq call rc).1.Kept xcg (taken ++ [args])
      (trace ++ (first.map .exchange ++ (Fence.fail ⟨fx.exchange, fx.exchangeSeq + 1,
        Function.update fx.calls fx.exchangeSeq calls⟩ fx.exchangeSeq call rc).2)) := by
  have fresh := kept.fresh
  obtain ⟨sound, seq, valid, held⟩ := kept
  have refuses := reason.imp (fun rejected => (⟨own, rfl, rejected⟩ :
      fenceRules.refuses args ⟨call.cbfunc, call.cbdata, rc, ⟨none, 0⟩⟩))
    (And.imp_left fun entering => (⟨own, rfl, entering⟩ :
      fenceRules.crowds args ⟨call.cbfunc, call.cbdata, rc, ⟨none, 0⟩⟩))
  refine ⟨sound, ?_, ?_, ?_⟩
  · simp [Fence.fail, seq]
  · have book := @Valid.refuse _ _ _ _ _ (bookOf taken trace fx.exchange.hook) _ _ valid refuses
    have one : fenceLog [FenceEffect.cbfunc fx.exchangeSeq call.cbfunc call.cbdata rc ⟨none, 0⟩,
        .destroy fx.exchangeSeq] = [.answered taken.length ⟨call.cbfunc, call.cbdata, rc, ⟨none, 0⟩⟩] := by
      rw [← seq]
      rfl
    simp only [Fence.fail, bookOf, fenceLog_append, fenceLog_exchange, silent, one, List.nil_append]
    exact book
  · simp only [Fence.fail, Function.update_idem]
    exact held.update fx.exchange rfl fresh _ none args

theorem Fence.Kept.upcall (kept : fx.Kept xcg taken trace) (callSound : args.Sound) (packed : args.pack = .ok msg) :
    (fenceShellCb xcg {} fx msg.payload).1.Kept xcg (taken ++ [args])
      (trace ++ (fenceShellCb xcg {} fx msg.payload).2) := by
  have fresh := kept.fresh
  have admitted := fenceAdmit_args callSound packed
  rw [fenceShellCb]
  simp only [Bool.false_eq_true, if_false, admitted]
  cases decided : args.decision with
  | rejected rc =>
    have refused := kept.refused args.call ⟨rfl, rfl⟩ (.inl decided) [] rfl (fx.calls fx.exchangeSeq)
    rw [Function.update_eq_self] at refused
    exact refused
  | entering collect =>
    obtain rfl := decision_collects decided
    simp only [FenceDecision.admission]
    have given : (if args.collects then some (encodedBlob args.data) else none) = args.blob.map encodedBlob := by
      rw [FenceArgs.blob]
      split <;> rfl
    rw [given]
    have stepped := Shell.next_stepped kept.sound (.enter (args.blob.map encodedBlob) (some fx.exchangeSeq), {})
    have after := stepped.sound kept.sound
    have entering := stepped.entering kept.sound
    have string : (args.blob.map encodedBlob).all Json.isString := by
      cases args.blob <;> rfl
    have outsideEnters := fun outside => exchangeEnter_outside kept.sound outside string fx.exchangeSeq
    rw [Shell.next] at after entering
    rw [Fence.enter]
    generalize exchangeEnterBase64String xcg {} fx.exchange (args.blob.map encodedBlob) (some fx.exchangeSeq) = result
      at after entering outsideEnters
    rcases entering with ⟨errno, rfl⟩ | ⟨outside, enters, ⟨hook, plain⟩ | exits⟩
    · have busy : ∃ other, fx.exchange.hook = some other := by
        refine Option.ne_none_iff_exists'.mp fun outside => ?_
        obtain ⟨rest, entered⟩ := outsideEnters outside
        cases entered
      exact kept.refused _ ⟨rfl, rfl⟩ (.inr ⟨⟨decided, rfl⟩, busy⟩) [.enterFailed (some fx.exchangeSeq) errno] rfl _
    · obtain ⟨shell, effects⟩ := result
      simp only at hook plain enters
      simp only [Fence.exits_plain plain, plain.accepted, Bool.false_eq_true, if_false]
      refine ⟨after, by simp [kept.seq], ?_, ?_⟩
      · have entered := kept.valid.enter outside (⟨decided, rfl⟩ : fenceRules.enters args (args.blob.map encodedBlob))
        rw [hook, bookOf, fenceLog_append, fenceLog_exchange, notes_plain plain, enters, kept.seq]
        exact entered
      · intro id hooked
        obtain rfl := Option.some.inj (hook.symm.trans hooked)
        exact ⟨args, _, by simp [kept.seq], Function.update_self _ _ _, rfl, rfl⟩
    · have accepted := exits.accepted
      obtain ⟨shell, effects⟩ := result
      obtain ⟨gone, before, ses, rfl, plain⟩ := exits
      simp only at gone enters accepted
      simp only [accepted, Bool.false_eq_true, if_false]
      have live : Function.update fx.calls fx.exchangeSeq (some { args.call with collect := args.collects })
          fx.exchangeSeq = some { args.call with collect := args.collects } := Function.update_self ..
      have brought : before.filterMap Effect.enters = [(fx.exchangeSeq, args.blob.map encodedBlob)] := by
        have last : [Effect.exit fx.exchangeSeq ses, .destroy].filterMap Effect.enters = [] := rfl
        rwa [List.filterMap_append, last, List.append_nil] at enters
      have left : shell.hook = none := by
        rw [Shell.hook, gone]
        rfl
      have enters : fenceRules.enters args (args.blob.map encodedBlob) := ⟨decided, rfl⟩
      have entered := kept.valid.enter outside enters
      have asked : ((bookOf taken trace fx.exchange.hook).enter args (args.blob.map encodedBlob)).taken[taken.length]? =
          some args := by simp [bookOf, Book.enter]
      have done := exitBook_valid ses { args.call with collect := args.collects } entered rfl asked ⟨rfl, rfl⟩
      obtain ⟨exchange, number, book⟩ := @Fence.exits_book ⟨shell, fx.exchangeSeq + 1, Function.update fx.calls
        fx.exchangeSeq (some { args.call with collect := args.collects })⟩ before _ fx.exchangeSeq plain live ses
        (taken ++ [args]) trace (some taken.length)
      refine ⟨?_, ?_, ?_, ?_⟩
      · rw [exchange]
        exact after
      · rw [number]
        simp [kept.seq]
      · rw [exchange, left, book, notes_plain plain, brought, kept.seq]
        exact done
      · intro id hooked
        rw [exchange, left] at hooked
        cases hooked

end
end FluxPmix

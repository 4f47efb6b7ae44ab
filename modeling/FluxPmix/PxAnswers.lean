import FluxPmix.Px

/-! The upcalls other than fences. Whatever else the two threads do, each of them that was accepted is
answered once, in turn, as its arguments say. -/
namespace FluxPmix
open Mealy Handoff

/-- The shell rank that the lookup finds, for the log. -/
def dmodexShellRank (map : TaskMap) (proc : PmixProc) : Int32 :=
  (lookupShellRank map.shellInfo proc.rank.toInt32).toOption.getD (-1)

/-- The procs of the job are known but there is no way yet to ask for them. -/
def dmodexStatus (map : TaskMap) (proc : PmixProc) : DmodexStatus :=
  if map.nodeids.length ≤ proc.rank.toNat then .procEntryNotFound else .notImplemented

/-- One fatal exception, and the caller is released. -/
def abortAnswers (proc : PmixProc) (status : Int32) (msg : Option CString) (procs : List PmixProc)
    (cbfunc cbdata : UInt64) : List AbortEffect :=
  .raise "exec" 0 ⟨proc.nspace.bytes, proc.rank.toInt32, status, abortMessage msg⟩ ::
    (if cbfunc ≠ 0 then [.cbfunc cbfunc pmixSuccess cbdata] else []) ++ [.free procs]

def dmodexAnswers (map : TaskMap) (proc : PmixProc) (cbfunc cbdata : UInt64) : List DmodexEffect :=
  .warn proc.nspace.bytes proc.rank.toInt32 (dmodexShellRank map proc) (dmodexStatus map proc) ::
    if cbfunc ≠ 0 then [.cbfunc cbfunc (dmodexStatus map proc) cbdata] else []

/-- An event is logged, and its `cbfunc` never called. -/
def Upcall.answers (map : TaskMap) : Upcall → List PxEffect
  | .fence _ => []
  | .abort proc _ status msg procs cbfunc cbdata =>
    (abortAnswers proc status msg procs cbfunc cbdata).map .abort
  | .dmodex proc _ cbfunc cbdata =>
    (dmodexAnswers map proc cbfunc cbdata).map .dmodex
  | .notify _ status source info _ _ _ =>
    [.notify (some ⟨source.nspace.bytes, source.rank.toInt32, status, notifyMessage info⟩)]

/-- What a trace shows beside the fences. -/
def PxEffect.others (effects : List PxEffect) : List PxEffect := effects.filter fun e => e.fenceEffect.isNone

theorem PxEffect.others_fence (effects : List FenceEffect) : others (effects.map .fence) = [] := by
  rw [others, List.filter_eq_nil_iff]
  intro e member
  obtain ⟨inner, _, rfl⟩ := List.mem_map.mp member
  exact Bool.false_ne_true

theorem PxEffect.others_all {effects : List PxEffect} (none : ∀ e ∈ effects, e.fenceEffect = none) :
    others effects = effects := by
  rw [others, List.filter_eq_self]
  intro e member
  rw [none e member]
  rfl

theorem PxEffect.others_append (effects more : List PxEffect) :
    others (effects ++ more) = others effects ++ others more :=
  List.filter_append ..

section
variable [CFloat] {xcg : Exchange} {map : TaskMap}

theorem dmodexShellCb_answers (unpacked : dmodexUnpack false msg = .ok (proc, cbfunc, cbdata)) :
    dmodexShellCb false map.shellInfo msg = .ok (dmodexAnswers map proc cbfunc cbdata) := by
  obtain ⟨shellRank, rc, answered, known⟩ := dmodexShellCb_found map unpacked
  obtain ⟨found, looked, _⟩ := lookupShellRank_spec map proc.rank.toInt32
  have status : rc = dmodexStatus map proc := by
    rw [dmodexStatus]
    split
    · exact known.mpr ‹_›
    · cases rc with
      | procEntryNotFound => exact absurd (known.mp rfl) ‹_›
      | notImplemented => rfl
  have shell : shellRank = dmodexShellRank map proc := by
    rw [dmodexShellRank, looked]
    simp only [dmodexShellCb, unpacked, looked, ok_bind] at answered
    obtain ⟨logged, _⟩ := List.cons.inj (Except.ok.inj answered)
    exact (DmodexEffect.warn.inj logged).2.2.1.symm
  rw [answered, status, shell]
  rfl

theorem Px.handle_answers {upcall : Upcall} (packed : upcall.pack = .ok msg) (sound : upcall.Sound)
    {fault : PxFaults} (reads : PxInput.Sound (.receive fault)) (px : Px) :
    PxEffect.others (px.handle xcg map.shellInfo fault msg.payload upcall.handler).2 = upcall.answers map := by
  obtain ⟨_, callocs, infos, results⟩ := reads
  cases upcall with
  | fence args => exact PxEffect.others_fence _
  | abort proc serverObject status text procs cbfunc cbdata =>
    have raised : abortShellCb msg.payload = abortAnswers proc status text procs cbfunc cbdata :=
      abortShellCb_pack packed
    simp only [Px.handle, Upcall.handler, raised]
    apply PxEffect.others_all
    intro e member
    obtain ⟨inner, _, rfl⟩ := List.mem_map.mp member
    rfl
  | dmodex proc info cbfunc cbdata =>
    have unpacked := dmodexUnpack_pack sound.2 packed
    simp only [Px.handle, Upcall.handler, callocs, dmodexShellCb_answers unpacked]
    apply PxEffect.others_all
    intro e member
    obtain ⟨inner, _, rfl⟩ := List.mem_map.mp member
    rfl
  | notify id status source info results cbfunc cbdata =>
    obtain ⟨_, _, _, _, encoded, _, _⟩ := notifyUpcallPack_ok.mp packed
    have counted := (encodeArray_ok.mp ⟨_, encoded⟩).2
    simp only [Px.handle, Upcall.handler, infos, ‹fault.notifyResults = false›,
      notifyShellCb_pack sound.2 packed counted]
    rfl

/-- What was taken up was answered. -/
def UpcallsAnswered (map : TaskMap) (trace : List PxOutput) (st : PxState) : Prop :=
  ∃ taken waiting, Account taken waiting trace st ∧
    PxEffect.others (results trace) = taken.flatMap (Upcall.answers map)

theorem UpcallsAnswered.step (answered : UpcallsAnswered map trace st) (input : PxInput) (sound : input.Sound) :
    UpcallsAnswered map (trace ++ (pxStep xcg map.shellInfo st input).2) (pxStep xcg map.shellInfo st input).1 := by
  obtain ⟨taken, waiting, account, same⟩ := answered
  rcases @Account.step_cases _ xcg map.shellInfo _ _ _ _ account input sound with
    ⟨call, rfl, stepped, after⟩ | ⟨call, msg, rfl, _, stepped, after⟩ | ⟨fault, rfl, _, stepped⟩ |
    ⟨fault, upcall, later, msg, queue, rfl, _, _, packed, upcallSound, stepped, after⟩ |
    ⟨event, fault, rfl, stepped, after⟩
  · rw [stepped]
    refine ⟨taken, waiting, after, ?_⟩
    rw [results_append, PxEffect.others_append, same]
    exact List.append_nil _
  · rw [stepped]
    refine ⟨taken, _, after, ?_⟩
    rw [results_append, PxEffect.others_append, same]
    exact List.append_nil _
  · rw [stepped, List.append_nil]
    exact ⟨taken, waiting, account, same⟩
  · rw [stepped]
    refine ⟨_, later, after, ?_⟩
    rw [results_append_machine, PxEffect.others_append, same, Px.handle_answers packed upcallSound sound,
      List.flatMap_append, List.flatMap_singleton]
  · rw [stepped]
    refine ⟨taken, waiting, after, ?_⟩
    rw [results_append_machine, PxEffect.others_append, same]
    simp only [Px.next, PxEffect.others_fence, List.append_nil]

/-- In every run of sound upcalls that the shell's thread has the memory to read, with whatever fences and exchange
messages among them, the upcalls that were accepted are taken up in order, and what the shell's thread does beside
the fences is to answer each of them as it should. -/
theorem px_upcalls_answered (xcg : Exchange) (map : TaskMap) (inputs : List PxInput)
    (sound : ∀ input ∈ inputs, PxInput.Sound input) :
    let final := exec (pxStep xcg map.shellInfo) PxState.initial inputs
    ∃ taken waiting, acceptedUpcalls final.2 = taken ++ waiting ∧ waiting.length = final.1.queue.length ∧
      PxEffect.others (results final.2) = taken.flatMap (Upcall.answers map) := by
  intro final
  have admitted : Along (pxStep xcg map.shellInfo) (fun _ input => PxInput.Sound input) PxState.initial inputs :=
    along_forall sound _
  obtain ⟨taken, waiting, account, same⟩ := exec_invariant_nil (P := UpcallsAnswered map)
    (fun _ _ input answered sound => answered.step input sound) ⟨[], [], initial_account, rfl⟩ admitted
  exact ⟨taken, waiting, account.accepted, account.queue.length_eq, same⟩

end

/-- An abort and a direct modex are called, and taken up in turn. -/
def abortingRun : List PxInput :=
  [.offer ⟨.abort abortingProc 0 42 none [] 1 7, false⟩, .receive {}, .offer ⟨.dmodex abortingProc [] 1 9, false⟩,
    .receive {}]

theorem px_upcalls_answered_sample : ∃ taken waiting : List Upcall, waiting.length = 0 ∧
    PxEffect.others (results (exec (@pxStep .verbatim (exchangeCreate 1 0 0) cyclicMap.shellInfo) PxState.initial
      abortingRun).2) = taken.flatMap (Upcall.answers cyclicMap) := by
  obtain ⟨msg, abort⟩ : ∃ msg, @Upcall.pack .verbatim (.abort abortingProc 0 42 none [] 1 7) = .ok msg := ⟨_, rfl⟩
  obtain ⟨msg', dmodex⟩ : ∃ msg, @Upcall.pack .verbatim (.dmodex abortingProc [] 1 9) = .ok msg := ⟨_, rfl⟩
  have sound : ∀ input ∈ abortingRun, @PxInput.Sound .verbatim input := by
    simp only [abortingRun, List.forall_mem_cons]
    refine ⟨⟨fun undefined => ?_, trivial⟩, ⟨rfl, rfl, rfl, rfl⟩, ⟨fun undefined => ?_, ?_⟩, ⟨rfl, rfl, rfl, rfl⟩, ?_⟩
    · cases abort.symm.trans undefined
    · cases dmodex.symm.trans undefined
    · exact List.forall_mem_nil _
    · exact List.forall_mem_nil _
  obtain ⟨taken, waiting, _, queue, same⟩ :=
    @px_upcalls_answered .verbatim (exchangeCreate 1 0 0) cyclicMap abortingRun sound
  exact ⟨taken, waiting, queue, same⟩

end FluxPmix

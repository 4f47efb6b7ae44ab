import FluxPmix.Exchange.DataProofs
import FluxPmix.Exchange.Rounds
import FluxPmix.Job
import FluxPmix.PxFences
import Mathlib.Algebra.Order.BigOperators.Group.Finset
import Mathlib.Algebra.Order.BigOperators.Group.List

/-! The fences of a job. The `n`th fence call to enter at one shell meets the `n`th at every other: it is
called back only once all of them have entered, with what all of them gave, and at rest none is left
without its callback. -/
namespace FluxPmix
open Mealy Handoff Ledger

/-! ### The data of a round -/

section
variable {A B : Type} {f : A → Option B} {l : List A} {n : Nat} {b : B} {size r s : Nat} {net : Net}

/-- An item of a filtered list has a place in the list. -/
theorem filterMap_split (found : (l.filterMap f)[n]? = some b) :
    ∃ before a after, l = before ++ a :: after ∧ f a = some b ∧ (before.filterMap f).length = n := by
  obtain ⟨within, found⟩ := List.getElem?_eq_some_iff.mp found
  have cut : l.filterMap f = (l.filterMap f).take n ++ b :: (l.filterMap f).drop (n + 1) := by
    rw [← found, List.cons_getElem_drop_succ, List.take_append_drop]
  obtain ⟨first, rest, rfl, early, late⟩ := List.filterMap_eq_append_iff.mp cut
  obtain ⟨skipped, a, after, rfl, none, here, _⟩ := List.filterMap_eq_cons_iff.mp late
  refine ⟨first ++ skipped, a, after, by simp, here, ?_⟩
  rw [List.filterMap_append, List.filterMap_eq_nil_iff.mpr none, List.append_nil, early, List.length_take]
  omega

/-- What a round's exit callback finds at any shell. -/
theorem Agreeing.round {trace : List (Nat × Effect Unit)} (agreeing : Agreeing size trace net)
    (exits : (exitsOf r trace)[n]? = some ses) : (∀ s < size, n < (entriesOf s trace).length) ∧
      ses.hasError = false ∧ ∃ items, ses.dataOut = some (.array items) ∧
        (items : Multiset Json) = roundData size n trace := by
  obtain ⟨before, ⟨rank, e⟩, after, split, here, rfl⟩ := filterMap_split exits
  simp only [Option.ite_none_right_eq_some] at here
  obtain ⟨rfl, exited⟩ := here
  obtain ⟨entered, clean, items, output, data⟩ := agreeing.agreed before (rank, e) after split ses exited
  have early (s : Nat) (inside : s < size) : (entriesOf s trace)[(exitsOf rank before).length]? =
      (entriesOf s before)[(exitsOf rank before).length]? := by
    rw [split]
    exact entriesOf_early (entered s inside) _
  refine ⟨fun s inside => ?_, clean, items, output, data.trans ?_⟩
  · have present := List.getElem?_eq_getElem (entered s inside)
    rw [← early s inside] at present
    exact (List.getElem?_eq_some_iff.mp present).1
  · refine Finset.sum_congr rfl fun s member => ?_
    exact congrArg (fun data : Option (Option Json) => ((data.elim [] Option.toList : List Json) : Multiset Json))
      (early s (Finset.mem_range.mp member)).symm

end

/-- The blobs that callers `0` to `size - 1` gave, in no order. -/
def gathered (size : Nat) (given : Nat → Option (List UInt8)) : Multiset (List UInt8) :=
  ∑ s ∈ Finset.range size, ((given s).toList : Multiset (List UInt8))

section
variable {size n : Nat} {given : Nat → Option (List UInt8)} {trace : List (Nat × Effect Unit)} {items : List Json}
  {blobs : List (List UInt8)} {ses : Session Nat}

/-- The round's array holds the encoded blobs. -/
theorem gathered_encoded (data : (items : Multiset Json) = roundData size n trace)
    (each : ∀ s < size, (entriesOf s trace)[n]? = some ((given s).map encodedBlob)) :
    ∃ blobs : List (List UInt8), (blobs : Multiset (List UInt8)) = gathered size given ∧
      items = blobs.map encodedBlob := by
  have same : roundData size n trace = (gathered size given).map encodedBlob := by
    rw [roundData, gathered, ← Multiset.coe_mapAddMonoidHom, map_sum]
    refine Finset.sum_congr rfl fun s member => ?_
    rw [each s (Finset.mem_range.mp member)]
    cases given s <;> rfl
  obtain ⟨listed, all⟩ := Quot.exists_rep (gathered size given)
  have permuted : items.Perm (listed.map encodedBlob) := by
    rw [← Multiset.coe_eq_coe, data, same, ← all]
    rfl
  obtain ⟨blobs, encoded, order⟩ : Relation.Comp (· = List.map encodedBlob ·) List.Perm items listed := by
    rw [List.eq_map_comp_perm]
    exact permuted
  exact ⟨blobs, (Multiset.coe_eq_coe.mpr order).trans all, encoded⟩

theorem gathered_few (listed : (blobs : Multiset (List UInt8)) = gathered size given) : blobs.length ≤ size := by
  have each (s : Nat) : ((given s).toList : Multiset (List UInt8)).card ≤ 1 := by
    cases given s <;> simp
  calc blobs.length = (gathered size given).card := by rw [← listed, Multiset.coe_card]
    _ = ∑ s ∈ Finset.range size, ((given s).toList : Multiset (List UInt8)).card := by
      rw [gathered, Multiset.card_sum]
    _ ≤ (Finset.range size).card • 1 := Finset.sum_le_card_nsmul _ _ _ fun s _ => each s
    _ = size := by simp

theorem mem_gathered (listed : (blobs : Multiset (List UInt8)) = gathered size given) (member : blob ∈ blobs) :
    ∃ s < size, given s = some blob := by
  rw [← Multiset.mem_coe, listed, gathered, Multiset.mem_sum] at member
  obtain ⟨s, inside, mine⟩ := member
  exact ⟨s, Finset.mem_range.mp inside, by simpa using mine⟩

/-- A blob that the codec can encode. -/
def Encodable (blob : List UInt8) : Prop := (blob.length + 2) / 3 * 4 + 1 < 2 ^ 31

/-- The exit callback decodes them again, one behind the other. -/
theorem exchangeExitData_blobs (clean : ses.hasError = false)
    (output : ses.dataOut = some (.array (blobs.map encodedBlob))) (encodable : ∀ blob ∈ blobs, Encodable blob)
    (few : blobs.length < 2 ^ 31) : ∃ data count, exchangeExitData {} ses = .ok (pmixSuccess, ⟨some data, count⟩) ∧
      count.toNat = blobs.flatten.length ∧ data.take count.toNat = blobs.flatten := by
  have encoded : List.Forall₂ (fun blob s => codecDataEncode blob = .ok s) blobs (blobs.map encodedBlob) := by
    rw [List.forall₂_map_right_iff, List.forall₂_same]
    intro blob member
    have room := encodable blob member
    exact (codecDataEncode_ok (by unfold Encodable at room; omega)).mpr ⟨room, rfl⟩
  have bounded : ∀ blob ∈ blobs, blob.length < 2 ^ 63 := by
    intro blob member
    have room := encodable blob member
    unfold Encodable at room
    omega
  have fits : gatherBound blobs < 2 ^ 63 := by
    have each : ∀ bound ∈ blobs.map fun blob => (blob.length + 2) / 3 * 3, bound ≤ 2 ^ 31 := by
      intro bound member
      obtain ⟨blob, inside, rfl⟩ := List.mem_map.mp member
      have room := encodable blob inside
      unfold Encodable at room
      omega
    have total := List.sum_le_card_nsmul _ _ each
    rw [List.length_map, Nat.nsmul_eq_mul] at total
    rw [gatherBound]
    omega
  obtain ⟨_, data, count, _, gathered, counted, kept, _⟩ := exchangeGetData_encoded ⟨none, 0⟩ bounded encoded fits
  refine ⟨data, count, ?_, ?_, kept⟩
  · rw [exchangeExitData, clean, output]
    simp only [Bool.false_eq_true, if_false, gathered]
    rfl
  · rw [counted, List.length_flatten]

end

/-! ### The shells of a job -/

section
variable (s : Nat) (trace : List (Nat × PxOutput))

def outputsAt : List PxOutput := trace.filterMap fun m => if m.1 = s then some m.2 else none

def fencesAt : List FenceEffect := fenceTrace (outputsAt s trace)

/-- The fence calls of the server of a shell that were accepted, in order. -/
def fencesMade : List FenceArgs := (acceptedUpcalls (outputsAt s trace)).filterMap Upcall.fenceArgs

/-- The `n`th of them to enter. -/
def enteredFence (n : Nat) : Option FenceArgs :=
  (fenceEntries (fencesAt s trace))[n]?.bind fun e => (fencesMade s trace)[e.1]?

theorem outputsAt_append (more : List (Nat × PxOutput)) :
    outputsAt s (trace ++ more) = outputsAt s trace ++ outputsAt s more :=
  List.filterMap_append

theorem outputsAt_shell (rank : Nat) (outputs : List PxOutput) :
    outputsAt s (outputs.map (rank, ·)) = if rank = s then outputs else [] := by
  rw [outputsAt, List.filterMap_map]
  split
  · rename_i same
    subst same
    simp
  · rename_i other
    simp [other]

/-- What the network shows of a shell is what its fences show. -/
theorem exchangeTrace_at {V : Type} (look : Effect Unit → Option V) :
    ((exchangeTrace trace).filterMap fun m => if m.1 = s then look m.2 else none) =
      (fencesAt s trace).filterMap fun e => e.inner.bind fun e => look (e.map fun _ => ()) := by
  simp only [exchangeTrace, fencesAt, fenceTrace, outputsAt, results, List.filterMap_filterMap]
  refine congrArg (List.filterMap · trace) (funext fun m => ?_)
  obtain ⟨rank, output⟩ := m
  dsimp only
  by_cases same : rank = s
  · subst same
    rw [if_pos rfl]
    cases output with
    | accepted | refused => rfl
    | machine e =>
      cases e with
      | fence e =>
        cases e with
        | exchange e => exact if_pos rfl
        | _ => rfl
      | _ => rfl
  · rw [if_neg same]
    cases output.result.bind PxEffect.inner with
    | none => rfl
    | some e => exact if_neg same

/-- A shell enters the network with what its fence calls enter with. -/
theorem entriesOf_exchangeTrace :
    entriesOf s (exchangeTrace trace) = (fenceEntries (fencesAt s trace)).map Prod.snd := by
  rw [entriesOf, exchangeTrace_at, fenceEntries, List.map_filterMap]
  refine congrArg (List.filterMap · _) (funext fun e => ?_)
  rw [Option.map_bind]
  refine congrArg (e.inner.bind ·) (funext fun e => ?_)
  cases e <;> rfl

theorem exitsOf_exchangeTrace : exitsOf s (exchangeTrace trace) =
    (fenceExits (fencesAt s trace)).map fun e => e.2.map fun _ => () := by
  rw [exitsOf, exchangeTrace_at, fenceExits, List.map_filterMap]
  refine congrArg (List.filterMap · _) (funext fun e => ?_)
  rw [Option.map_bind]
  refine congrArg (e.inner.bind ·) (funext fun e => ?_)
  cases e <;> rfl

end

/-! ### Runs -/

section Runs
variable [CFloat]

/-- Sound upcalls, and nothing fails on any shell's thread. -/
def Healthy (input : JobAction × PxFaults) : Prop :=
  input.2 = {} ∧
    match input.1 with
    | .upcall _ call => call.upcall.Sound
    | _ => True

structure Job.Kept (size : Nat) (trace : List (Nat × PxOutput)) (job : Job) : Prop where
  agreeing : Agreeing size (exchangeTrace trace) job.net
  keeps : ∀ s, Px.Keeps (fenceExchange size s) (outputsAt s trace) (job.shells s)

section
variable {size n id : Nat} {shell : ShellInfo} {trace : List (Nat × PxOutput)} {job : Job}
  {input : JobAction × PxFaults}
  {net : Net} {args : FenceArgs} {data : Option Json}

theorem Job.initial_kept : Job.Kept size [] Job.initial := ⟨initial_agreeing size, fun _ => Px.initial_keeps⟩

omit [CFloat] in
theorem Agreeing.exec {trace : List (Nat × Effect Unit)} (agreeing : Agreeing size trace net) (small : size < 2 ^ 31)
    (actions : List (Action × Faults)) (fine : ∀ a ∈ actions, a.2 = {}) :
    Agreeing size (trace ++ (Mealy.exec (Net.next size) net actions).2) (Mealy.exec (Net.next size) net actions).1 := by
  refine exec_invariant (P := Agreeing size) ?_ agreeing (along_forall fine net)
  rintro trace net ⟨action, fault⟩ agreeing rfl
  exact agreeing.next small action

/-- In a healthy step of the job the shell it concerns takes one. -/
theorem Job.input_healthy (acts : job.input size input.2 input.1 = some (rank, given)) (healthy : Healthy input) :
    PxInput.Healthy given := by
  obtain ⟨action, fault⟩ := input
  obtain ⟨unfailing, sound⟩ := healthy
  obtain rfl : fault = {} := unfailing
  cases action with
  | upcall rank call =>
    simp only [Job.input, Option.ite_none_right_eq_some, Option.some.injEq, Prod.mk.injEq] at acts
    obtain ⟨_, rfl, rfl⟩ := acts
    exact sound
  | receive rank =>
    simp only [Job.input, Option.ite_none_right_eq_some, Option.some.injEq, Prod.mk.injEq] at acts
    obtain ⟨_, rfl, rfl⟩ := acts
    rfl
  | deliverRequest i | deliverResponse i =>
    obtain ⟨m, _, same⟩ := Option.map_eq_some_iff.mp acts
    cases same
    rfl
  | dispatch rank matchtag =>
    simp only [Job.input, Option.ite_none_right_eq_some, Option.some.injEq, Prod.mk.injEq] at acts
    obtain ⟨_, rfl, rfl⟩ := acts
    rfl

omit [CFloat] in
theorem Job.deliver_shells (job : Job) (action : JobAction) : (job.deliver action).shells = job.shells := by
  cases action <;> rfl

theorem Job.Kept.next (kept : Job.Kept size trace job) (small : size < 2 ^ 31) (healthy : Healthy input) :
    Job.Kept size (trace ++ (job.next size shell input).2) (job.next size shell input).1 := by
  obtain ⟨agreeing, keeps⟩ := kept
  constructor
  · obtain ⟨actions, failures, ran⟩ := job.next_simulates shell input
    have after := agreeing.exec small actions fun a member => by
      rw [failures a member, healthy.1]
    rw [ran] at after
    rw [exchangeTrace_append]
    exact after
  · intro s
    rw [outputsAt_append]
    cases acts : job.input size input.2 input.1 with
    | none =>
      simp only [Job.next, acts]
      exact (List.append_nil (outputsAt s trace)).symm ▸ keeps s
    | some given =>
      obtain ⟨rank, given⟩ := given
      simp only [Job.next, acts, outputsAt_shell, Job.post, Job.deliver_shells]
      by_cases same : rank = s
      · subst same
        have here : (fenceExchange size rank).rank = rank := rfl
        rw [if_pos rfl, here, Function.update_self]
        exact (keeps rank).step given (Job.input_healthy acts healthy)
      · have elsewhere : s ≠ (fenceExchange size rank).rank := Ne.symm same
        rw [if_neg same, Function.update_of_ne elsewhere, List.append_nil]
        exact keeps s

theorem exec_kept (small : size < 2 ^ 31) (inputs : List (JobAction × PxFaults))
    (healthy : ∀ input ∈ inputs, Healthy input) :
    Job.Kept size (exec (Job.next size shell) Job.initial inputs).2
      (exec (Job.next size shell) Job.initial inputs).1 :=
  exec_invariant_nil (P := Job.Kept size) (fun _ _ _ kept fine => kept.next small fine) Job.initial_kept
    (along_forall healthy _)

/-! ### What a fence is called back with -/

theorem FenceArgs.Sound.encodable (sound : FenceArgs.Sound args) (packed : args.pack = .ok msg) :
    Encodable args.data := by
  obtain ⟨_, _, xdata, _, _, encoded, _⟩ := fenceUpcallPack_ok.mp packed
  exact ((codecDataEncode_ok sound.data).mp encoded).1

/-- The ledger of a shell in a job. -/
theorem Job.Kept.ledger (kept : Job.Kept size trace job) (s : Nat) : ∃ taken later,
    fencesMade s trace = taken ++ later ∧ later.length ≤ (job.shells s).queue.length ∧
    Valid fenceRules (bookOf taken (fencesAt s trace) (job.shells s).machine.fence.exchange.hook) ∧
    ∀ args ∈ taken, Encodable args.data := by
  obtain ⟨taken, waiting, account, fences, good⟩ := kept.keeps s
  refine ⟨taken.filterMap Upcall.fenceArgs, waiting.filterMap Upcall.fenceArgs, ?_, ?_, fences.valid, ?_⟩
  · rw [fencesMade, account.accepted, List.filterMap_append]
  · rw [← account.queue.length_eq]
    exact List.length_filterMap_le _ _
  · intro args member
    obtain ⟨upcall, inside, same⟩ := List.mem_filterMap.mp member
    obtain ⟨⟨_, sound⟩, msg, packed⟩ := good upcall inside
    cases upcall with
    | fence asked =>
      cases same
      exact sound.encodable packed
    | _ => cases same

/-- Whoever enters is admitted, and brings the blob it has to give. -/
theorem Job.Kept.entered (kept : Job.Kept size trace job) (s : Nat)
    (entry : (fenceEntries (fencesAt s trace))[n]? = some (id, data)) :
    ∃ args, enteredFence s trace n = some args ∧ (fencesMade s trace)[id]? = some args ∧
      args.decision = .entering args.collects ∧ data = args.blob.map encodedBlob ∧ Encodable args.data := by
  obtain ⟨taken, later, made, _, valid, encodable⟩ := kept.ledger s
  rw [← bookOf_entries] at entry
  obtain ⟨args, asked, admitted, brought⟩ := valid.entered _ (List.mem_of_getElem? entry)
  rw [bookOf_entries] at entry
  have own : (fencesMade s trace)[id]? = some args := by
    rw [made]
    exact taken_early asked later
  refine ⟨args, ?_, own, admitted, brought, encodable args (List.mem_of_getElem? asked)⟩
  rw [enteredFence, entry]
  exact own

/-- The `n`th fence call to enter at a shell is called back so. -/
def CalledBack (s : Nat) (trace : List (Nat × PxOutput)) (n : Nat) (reply : Reply) : Prop :=
  ∃ e, (fenceEntries (fencesAt s trace))[n]? = some e ∧ (e.1, reply) ∈ fenceReplies (fencesAt s trace)

/-- It is called back with what the `n`th session of the shell's exchange ends with. -/
theorem Job.Kept.answered (kept : Job.Kept size trace job) (called : CalledBack s trace n reply) :
    ∃ args ses, enteredFence s trace n = some args ∧ reply.To args ∧
      exchangeExitData {} ses = .ok (reply.status, reply.out) ∧
      (exitsOf s (exchangeTrace trace))[n]? = some (ses.map fun _ => ()) := by
  obtain ⟨⟨id, data⟩, entry, answer⟩ := called
  obtain ⟨taken, later, made, _, valid, _⟩ := kept.ledger s
  rw [← bookOf_answers] at answer
  rw [← bookOf_entries] at entry
  obtain ⟨args, ses, asked, exit, own, earned⟩ := valid.answer_exit entry answer
  rw [bookOf_entries] at entry
  rw [bookOf_exits] at exit
  refine ⟨args, ses, ?_, own, earned, ?_⟩
  · rw [enteredFence, entry, made]
    exact taken_early asked later
  · rw [exitsOf_exchangeTrace, List.getElem?_map]
    exact congrArg (Option.map fun e => e.2.map fun _ => ()) exit

/-- A session that ends has the blobs of all the fence calls of its round. -/
theorem Job.Kept.met (kept : Job.Kept size trace job) (small : size < 2 ^ 31) {ses : Session Nat}
    (exit : (exitsOf r (exchangeTrace trace))[n]? = some (ses.map fun _ => ())) :
    (∀ s < size, ∃ args, enteredFence s trace n = some args ∧ args.decision = .entering args.collects) ∧
    ∃ blobs data count, exchangeExitData {} ses = .ok (pmixSuccess, ⟨some data, count⟩) ∧
      ((blobs : List (List UInt8)) : Multiset (List UInt8)) =
        gathered size (fun s => (enteredFence s trace n).bind FenceArgs.blob) ∧
      count.toNat = blobs.flatten.length ∧ data.take count.toNat = blobs.flatten := by
  obtain ⟨barrier, clean, items, output, content⟩ := kept.agreeing.round exit
  have entries (s : Nat) (inside : s < size) : ∃ args, enteredFence s trace n = some args ∧
      args.decision = .entering args.collects ∧ Encodable args.data ∧
      (entriesOf s (exchangeTrace trace))[n]? = some (args.blob.map encodedBlob) := by
    have within := barrier s inside
    rw [entriesOf_exchangeTrace, List.length_map] at within
    obtain ⟨args, mine, _, admitted, brought, encodable⟩ := kept.entered s (List.getElem?_eq_getElem within)
    refine ⟨args, mine, admitted, encodable, ?_⟩
    rw [entriesOf_exchangeTrace, List.getElem?_map, List.getElem?_eq_getElem within, ← brought]
    rfl
  obtain ⟨blobs, listed, encoded⟩ : ∃ blobs : List (List UInt8), (blobs : Multiset (List UInt8)) =
      gathered size (fun s => (enteredFence s trace n).bind FenceArgs.blob) ∧ items = blobs.map encodedBlob := by
    refine gathered_encoded content fun s inside => ?_
    obtain ⟨args, mine, _, _, entry⟩ := entries s inside
    rw [entry, mine]
    rfl
  have encodable : ∀ blob ∈ blobs, Encodable blob := by
    intro blob member
    obtain ⟨s, inside, given⟩ := mem_gathered listed member
    obtain ⟨args, mine, _, room, _⟩ := entries s inside
    simp only [mine, Option.bind_some, FenceArgs.blob, Option.ite_none_right_eq_some, Option.some.injEq] at given
    exact given.2 ▸ room
  have few := gathered_few listed
  rw [encoded] at output
  obtain ⟨data, count, decoded, counted, kept⟩ := exchangeExitData_blobs clean output encodable (by omega)
  refine ⟨fun s inside => ?_, blobs, data, count, decoded, listed, counted, kept⟩
  obtain ⟨args, mine, admitted, _⟩ := entries s inside
  exact ⟨args, mine, admitted⟩

omit [CFloat] in
/-- Two sessions with the same array end alike. -/
theorem exchangeExitData_same {one two : Session Nat} (clean : one.hasError = two.hasError)
    (same : one.dataOut = two.dataOut) : exchangeExitData {} one = exchangeExitData {} two := by
  rw [exchangeExitData, exchangeExitData, clean, same]

theorem Job.Kept.alike (kept : Job.Kept size trace job) {one two : Session Nat}
    (first : (exitsOf r (exchangeTrace trace))[n]? = some (one.map fun _ => ()))
    (second : (exitsOf s (exchangeTrace trace))[n]? = some (two.map fun _ => ())) :
    exchangeExitData {} one = exchangeExitData {} two := by
  obtain ⟨_, clean, _⟩ := kept.agreeing.round first
  obtain ⟨_, clean', _⟩ := kept.agreeing.round second
  exact exchangeExitData_same (clean.trans clean'.symm) (kept.agreeing.outputs first second)

/-- Once no message is on its way, no upcall waits and the shells have entered equally often, every fence call
that was accepted has been called back once. -/
theorem Job.Kept.settled (kept : Job.Kept size trace job) (small : size < 2 ^ 31) (quiet : job.net.Quiet)
    (level : ∀ s < size, (fenceEntries (fencesAt s trace)).length = n) (inside : r < size)
    (idle : (job.shells r).queue = []) (within : id < (fencesMade r trace).length) :
    ((fenceReplies (fencesAt r trace)).map Prod.fst).count id = 1 := by
  obtain ⟨taken, later, made, waiting, valid, _⟩ := kept.ledger r
  have entered : ∀ s < size, (entriesOf s (exchangeTrace trace)).length = n := by
    intro s below
    rw [entriesOf_exchangeTrace, List.length_map]
    exact level s below
  have ended := (kept.agreeing.quiescent small quiet entered inside).2
  have outside : (job.shells r).machine.fence.exchange.session = none := by
    simpa [Job.net, Shell.map] using ended
  have none : later = [] := by
    rw [idle] at waiting
    exact List.eq_nil_of_length_eq_zero (Nat.le_zero.mp waiting)
  rw [made, none, List.append_nil] at within
  rw [← bookOf_answers]
  refine valid.settled ?_ ?_ within
  · exact congrArg (Option.bind · Session.exitCb) outside
  · intro e left
    rw [bookOf_exits] at left
    obtain ⟨k, found⟩ := List.mem_iff_getElem?.mp left
    have exit : (exitsOf r (exchangeTrace trace))[k]? = some (e.2.map fun _ => ()) := by
      rw [exitsOf_exchangeTrace, List.getElem?_map]
      exact congrArg (Option.map fun e => e.2.map fun _ => ()) found
    obtain ⟨_, blobs, data, count, decoded, _⟩ := kept.met small exit
    exact ⟨⟨[], [], [], 0, 0⟩, ⟨0, 0, pmixSuccess, ⟨some data, count⟩⟩, ⟨rfl, rfl⟩, decoded⟩

end

/-- An allgather. In every run of a job with sound upcalls in which nothing fails, whatever the order of the
upcalls and of the messages, the `n`th fence call to enter at a shell is called back only once every shell has
entered its `n`th, with success, and with the data of those of them that collect, one behind the other and the
same at every shell. -/
theorem job_allgather (size : Nat) (small : size < 2 ^ 31) (shell : ShellInfo) (inputs : List (JobAction × PxFaults))
    (healthy : ∀ input ∈ inputs, Healthy input) :
    let trace := (exec (Job.next size shell) Job.initial inputs).2
    ∀ r n reply, CalledBack r trace n reply →
      (∃ args, enteredFence r trace n = some args ∧ reply.To args) ∧
      (∀ s < size, ∃ args, enteredFence s trace n = some args ∧ args.decision = .entering args.collects) ∧
      reply.status = pmixSuccess ∧
      (∃ blobs data, reply.out.data = some data ∧
        ((blobs : List (List UInt8)) : Multiset (List UInt8)) =
          gathered size (fun s => (enteredFence s trace n).bind FenceArgs.blob) ∧
        reply.out.size.toNat = blobs.flatten.length ∧ data.take blobs.flatten.length = blobs.flatten) ∧
      ∀ s other, CalledBack s trace n other → other.status = reply.status ∧ other.out = reply.out := by
  intro trace r n reply called
  have kept : Job.Kept size trace (exec (Job.next size shell) Job.initial inputs).1 := exec_kept small inputs healthy
  obtain ⟨args, ses, mine, own, earned, exit⟩ := kept.answered called
  obtain ⟨all, blobs, data, count, decoded, listed, counted, content⟩ := kept.met small exit
  have same := earned.symm.trans decoded
  injection same with same
  injection same with status out
  refine ⟨⟨args, mine, own⟩, all, status, ⟨blobs, data, ?_, listed, ?_, ?_⟩, fun s other theirs => ?_⟩
  · rw [out]
  · rw [out]
    exact counted
  · rw [← counted]
    exact content
  · obtain ⟨_, ses', _, _, earned', exit'⟩ := kept.answered theirs
    have alike := (earned'.symm.trans (kept.alike exit' exit)).trans earned
    injection alike with alike
    injection alike with status' out'
    exact ⟨status', out'⟩

end Runs

/-- A fence over the whole job that collects. -/
def collecting (data : List UInt8) : ServerCall :=
  ⟨.fence ⟨[sampleProc], [⟨pmixCollect, 1, .bool true⟩], data, 1, 7⟩, false⟩

/-- Two shells, one fence each. -/
def fencingPair : List (JobAction × PxFaults) :=
  [.upcall 0 (collecting [1, 2]), .upcall 1 (collecting [3]), .receive 1, .receive 0, .deliverRequest 0,
    .deliverResponse 0, .dispatch 1 0].map (·, {})

theorem collecting_sound {data : List UInt8} (packed : @Upcall.pack .verbatim (collecting data).upcall = .ok msg)
    (bounded : data.length < 2 ^ 63) : @Upcall.Sound .verbatim (collecting data).upcall := by
  have timeless : Timeless [⟨pmixCollect, 1, .bool true⟩] := List.forall_mem_singleton.mpr (by decide)
  have hooked : (1 : UInt64) ≠ 0 := by decide
  refine ⟨fun undefined => ?_, List.cons_ne_nil _ _, hooked, timeless, bounded⟩
  cases packed.symm.trans undefined

theorem fencingPair_healthy : ∀ input ∈ fencingPair, @Healthy .verbatim input := by
  simp only [fencingPair, List.map_cons, List.map_nil, List.forall_mem_cons]
  obtain ⟨msg, first⟩ : ∃ msg, @Upcall.pack .verbatim (collecting [1, 2]).upcall = .ok msg := ⟨_, rfl⟩
  obtain ⟨msg', second⟩ : ∃ msg, @Upcall.pack .verbatim (collecting [3]).upcall = .ok msg := ⟨_, rfl⟩
  refine ⟨⟨rfl, collecting_sound first (by decide)⟩, ⟨rfl, collecting_sound second (by decide)⟩, ⟨rfl, trivial⟩,
    ⟨rfl, trivial⟩, ⟨rfl, trivial⟩, ⟨rfl, trivial⟩, ⟨rfl, trivial⟩, ?_⟩
  exact List.forall_mem_nil _

theorem job_allgather_sample : ∃ reply,
    CalledBack 1 (exec (@Job.next .verbatim 2 cyclicMap.shellInfo) Job.initial fencingPair).2 0 reply ∧
      reply.status = pmixSuccess := by
  obtain ⟨reply, called⟩ : ∃ reply,
      CalledBack 1 (exec (@Job.next .verbatim 2 cyclicMap.shellInfo) Job.initial fencingPair).2 0 reply :=
    ⟨_, _, rfl, List.mem_cons_self⟩
  obtain ⟨_, _, success, _⟩ := @job_allgather .verbatim 2 (by decide) cyclicMap.shellInfo fencingPair
    fencingPair_healthy 1 0 reply called
  exact ⟨reply, called, success⟩

end FluxPmix

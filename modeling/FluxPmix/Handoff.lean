import FluxPmix.Mealy

/-! A machine fed by two threads. One thread puts messages into a queue, the other takes them out in
order and also has inputs of its own. Whatever the interleaving, the machine runs as if it had been
given its inputs one by one. -/
namespace Handoff
open Mealy
variable {S M F J P E : Type}

/-- The machine and the messages it has not been given. -/
structure State (S M : Type) where
  machine : S
  queue : List M

/-- A message is offered on one thread, and received on the other together with `F`, what the
environment decides at that moment. The rest are the machine's direct inputs. -/
inductive Input (P F J : Type) where
  | offer (offer : P)
  | receive (env : F)
  | direct (input : J)

inductive Output (P E : Type) where
  | accepted (offer : P)
  | refused (offer : P)
  | machine (output : E)

def Output.acceptance : Output P E → Option P
  | .accepted offer => some offer
  | _ => none

def Output.result : Output P E → Option E
  | .machine output => some output
  | _ => none

/-- What the machine itself is given: a message or a direct input. -/
abbrev Given (M F J : Type) := M × F ⊕ J

def Given.message : Given M F J → Option M
  | .inl given => some given.1
  | .inr _ => none

variable (pack : P → Option M) (next : S → Given M F J → S × List E)

/-- An offer becomes a message or is refused. Without messages there is nothing to receive. -/
def step (st : State S M) : Input P F J → State S M × List (Output P E)
  | .offer offer =>
    match pack offer with
    | some msg => ({ st with queue := st.queue ++ [msg] }, [.accepted offer])
    | none => (st, [.refused offer])
  | .receive env =>
    match st.queue with
    | [] => (st, [])
    | msg :: rest => (⟨(next st.machine (.inl (msg, env))).1, rest⟩, (next st.machine (.inl (msg, env))).2.map .machine)
  | .direct input => ({ st with machine := (next st.machine (.inr input)).1 },
      (next st.machine (.inr input)).2.map .machine)

/-- What a trace shows of the machine. -/
def results (trace : List (Output P E)) : List E := trace.filterMap Output.result

/-- The messages that were accepted, in order. -/
def sent (trace : List (Output P E)) : List M := trace.filterMap fun e => e.acceptance.bind pack

/-- The machine's own inputs of a run. -/
def directs (inputs : List (Input P F J)) : List J :=
  inputs.filterMap fun
    | .direct input => some input
    | _ => none

/-- From `start` the machine was given `given`, in an order that takes the messages as they came and its
own inputs as they came. What it was not given waits. -/
structure Serial (start : State S M) (inputs : List (Input P F J)) (final : State S M)
    (trace : List (Output P E)) (given : List (Given M F J)) : Prop where
  machine : final.machine = (exec next start.machine given).1
  outputs : results trace = (exec next start.machine given).2
  order : start.queue ++ sent pack trace = given.filterMap Given.message ++ final.queue
  own : given.filterMap Sum.getRight? = directs inputs

variable {pack next}

theorem results_machine (outputs : List E) (trace : List (Output P E)) :
    results (outputs.map .machine ++ trace) = outputs ++ results trace := by
  have all : (outputs.map (Output.machine (P := P))).filterMap Output.result = outputs := by
    rw [List.filterMap_map]
    exact List.filterMap_some
  rw [results, List.filterMap_append, all]
  rfl

theorem sent_machine (outputs : List E) (trace : List (Output P E)) :
    sent pack (outputs.map .machine ++ trace) = sent pack trace := by
  have none : (outputs.map (Output.machine (P := P))).filterMap (fun e => e.acceptance.bind pack) = [] := by
    rw [List.filterMap_map, List.filterMap_eq_nil_iff]
    exact fun _ _ => rfl
  rw [sent, List.filterMap_append, none]
  rfl

@[simp] theorem results_accepted (offer : P) (trace : List (Output P E)) :
    results (.accepted offer :: trace) = results trace := rfl

@[simp] theorem results_refused (offer : P) (trace : List (Output P E)) :
    results (.refused offer :: trace) = results trace := rfl

@[simp] theorem sent_refused (offer : P) (trace : List (Output P E)) :
    sent pack (.refused offer :: trace) = sent pack trace := rfl

theorem sent_accepted (packed : pack offer = some msg) (trace : List (Output P E)) :
    sent pack (.accepted offer :: trace) = msg :: sent pack trace :=
  List.filterMap_cons_some packed

/-- Every interleaving is a serial run. -/
theorem exec_serial (start : State S M) (inputs : List (Input P F J)) :
    ∃ given, Serial pack next start inputs (exec (step pack next) start inputs).1
      (exec (step pack next) start inputs).2 given := by
  induction inputs generalizing start with
  | nil => exact ⟨[], rfl, rfl, by simp [exec, sent], rfl⟩
  | cons input rest ih =>
    cases input with
    | offer offer =>
      cases packed : pack offer with
      | none =>
        obtain ⟨given, serial⟩ := ih start
        obtain ⟨machine, outputs, order, own⟩ := serial
        refine ⟨given, ?_⟩
        constructor
        · simpa [exec, step, packed] using machine
        · simpa [exec, step, packed] using outputs
        · simpa [exec, step, packed] using order
        · exact own
      | some msg =>
        obtain ⟨given, serial⟩ := ih { start with queue := start.queue ++ [msg] }
        obtain ⟨machine, outputs, order, own⟩ := serial
        refine ⟨given, ?_⟩
        constructor
        · simpa [exec, step, packed] using machine
        · simpa [exec, step, packed] using outputs
        · simpa [exec, step, packed, sent_accepted packed] using order
        · exact own
    | receive env =>
      obtain ⟨s, queue⟩ := start
      cases queue with
      | nil =>
        obtain ⟨given, serial⟩ := ih ⟨s, []⟩
        obtain ⟨machine, outputs, order, own⟩ := serial
        exact ⟨given, machine, outputs, order, own⟩
      | cons msg waiting =>
        obtain ⟨given, serial⟩ := ih ⟨(next s (.inl (msg, env))).1, waiting⟩
        obtain ⟨machine, outputs, order, own⟩ := serial
        refine ⟨.inl (msg, env) :: given, machine, ?_, ?_, own⟩
        · simp only [exec, step, results_machine, outputs]
        · simp only [exec, step, sent_machine] at order ⊢
          exact congrArg (msg :: ·) order
    | direct input =>
      obtain ⟨given, serial⟩ := ih { start with machine := (next start.machine (.inr input)).1 }
      obtain ⟨machine, outputs, order, own⟩ := serial
      refine ⟨.inr input :: given, machine, ?_, ?_, ?_⟩
      · simp only [exec, step, results_machine, outputs]
      · simp only [exec, step, sent_machine] at order ⊢
        exact order
      · exact congrArg (input :: ·) own

end Handoff

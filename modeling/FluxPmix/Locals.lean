import Mathlib.Data.List.Infix
import Mathlib.Data.List.Nodup

/-! The local variables of a C function along one path through it: what is set, used and released.
A condition that stops at its first failing operand leaves a prefix of its full trace. -/
namespace Locals
variable {V ε α β : Type}

/-- `acquire` sets a variable to what has to be released; `pass` and `release` are the arguments
of the cleanup, which an initial value is good enough for. -/
inductive Access (V : Type) where
  | initialise (v : V)
  | assign (v : V)
  | acquire (v : V)
  | use (v : V)
  | pass (v : V)
  | release (v : V)
  deriving DecidableEq, Repr

namespace Access

def sets : Access V → List V
  | initialise v => [v]
  | assign v => [v]
  | acquire v => [v]
  | _ => []

def writes : Access V → List V
  | assign v => [v]
  | acquire v => [v]
  | _ => []

def acquires : Access V → List V
  | acquire v => [v]
  | _ => []

def uses : Access V → List V
  | use v => [v]
  | _ => []

def passes : Access V → List V
  | pass v => [v]
  | release v => [v]
  | _ => []

/-- It uses no more than is known, and leaves the cleanup no more to do. -/
def Plain (known : List V) (e : Access V) : Prop := e.acquires = [] ∧ e.passes = [] ∧ e.uses ⊆ known

theorem Plain.mono {e : Access V} (plain : e.Plain known) (wider : known ⊆ more) : e.Plain more :=
  ⟨plain.1, plain.2.1, List.Subset.trans plain.2.2 wider⟩

end Access

/-- Whatever is needed has been provided before. -/
def Before (provides needs : Access V → List V) (known : List V) : List (Access V) → Prop
  | [] => True
  | e :: rest => needs e ⊆ known ∧ Before provides needs (known ++ provides e) rest

instance decidableBefore [DecidableEq V] (provides needs : Access V → List V) :
    (known : List V) → (trace : List (Access V)) → Decidable (Before provides needs known trace)
  | _, [] => .isTrue trivial
  | known, e :: rest =>
    have := decidableBefore provides needs (known ++ provides e) rest
    inferInstanceAs (Decidable (needs e ⊆ known ∧ Before provides needs (known ++ provides e) rest))

/-- Whatever is acquired is released once after that, and not acquired again. -/
def ReleasedOnce [DecidableEq V] : List (Access V) → Prop
  | [] => True
  | e :: rest => (∀ v ∈ e.acquires, rest.count (.release v) = 1 ∧ v ∉ rest.flatMap Access.acquires) ∧
      ReleasedOnce rest

section
variable {provides needs : Access V → List V}

theorem before_append (known : List V) (trace more : List (Access V)) :
    Before provides needs known (trace ++ more) ↔
      Before provides needs known trace ∧ Before provides needs (known ++ trace.flatMap provides) more := by
  induction trace generalizing known with
  | nil => simp [Before]
  | cons e rest ih => simp [Before, ih, and_assoc]

theorem Before.of_front {trace full : List (Access V)} (before : Before provides needs known full)
    (front : trace <+: full) : Before provides needs known trace := by
  obtain ⟨more, rfl⟩ := front
  exact ((before_append known trace more).mp before).1

/-- Accesses that need no more than is known are fine wherever they stand. -/
theorem Before.of_known {trace : List (Access V)} (all : ∀ e ∈ trace, needs e ⊆ known) :
    Before provides needs known trace := by
  induction trace generalizing known with
  | nil => trivial
  | cons e rest ih =>
    obtain ⟨first, others⟩ := List.forall_mem_cons.mp all
    refine ⟨first, ih fun e member => ?_⟩
    exact List.Subset.trans (others e member) (List.subset_append_left _ _)

/-- Accesses that provide nothing need what is known before them. -/
theorem before_passive {trace : List (Access V)} (passive : ∀ e ∈ trace, provides e = []) (known : List V) :
    Before provides needs known trace ↔ ∀ e ∈ trace, needs e ⊆ known := by
  induction trace with
  | nil => simp [Before]
  | cons e rest ih =>
    obtain ⟨first, others⟩ := List.forall_mem_cons.mp passive
    rw [Before, first, List.append_nil, ih others, List.forall_mem_cons]

end

/-- Acquisitions cost a path nothing when a cleanup follows that releases each of them once. -/
theorem releasedOnce_cleanup [DecidableEq V] {trace cleanup : List (Access V)}
    (distinct : (trace.flatMap Access.acquires).Nodup) (held : ∀ v, Access.release v ∉ trace)
    (once : ∀ v ∈ trace.flatMap Access.acquires, cleanup.count (.release v) = 1)
    (last : cleanup.flatMap Access.acquires = []) : ReleasedOnce (trace ++ cleanup) := by
  induction trace with
  | nil =>
    clear distinct held once
    induction cleanup with
    | nil => trivial
    | cons e rest ih =>
      obtain ⟨first, others⟩ := List.append_eq_nil_iff.mp last
      exact ⟨by simp [first], ih others⟩
  | cons e rest ih =>
    obtain ⟨_, later, apart⟩ := List.nodup_append.mp distinct
    have rested : ∀ v, Access.release v ∉ rest := fun v released => held v (List.mem_cons_of_mem _ released)
    have after := ih later rested fun v acquired => once v (List.mem_append_right _ acquired)
    refine ⟨fun v acquired => ⟨?_, ?_⟩, after⟩
    · have counted : (rest ++ cleanup).count (.release v) = cleanup.count (.release v) := by
        rw [List.count_append, List.count_eq_zero.mpr (rested v), Nat.zero_add]
      exact counted.trans (once v (List.mem_append_left _ acquired))
    · have kept : (rest ++ cleanup).flatMap Access.acquires = rest.flatMap Access.acquires := by
        rw [List.flatMap_append, last, List.append_nil]
      intro again
      exact apart v acquired v ((congrArg (v ∈ ·) kept).mp again) rfl

/-! ### Paths -/

/-- A path so far, and what came of it. -/
structure Path (V ε α : Type) where
  trace : List (Access V)
  result : Except ε α

instance : Monad (Path V ε) where
  pure a := ⟨[], .ok a⟩
  bind p f :=
    match p.result with
    | .ok a => ⟨p.trace ++ (f a).trace, (f a).result⟩
    | .error e => ⟨p.trace, .error e⟩

/-- An operand of a condition: it uses its arguments, and sets its outputs when it succeeds. -/
def attempt (args : List V) (outcome : Except ε α) (outputs : List (Access V)) : Path V ε α where
  trace := args.map .use ++ (match outcome with
    | .ok _ => outputs
    | .error _ => [])
  result := outcome

@[simp] theorem pure_result (a : α) : (pure a : Path V ε α).result = .ok a := rfl

theorem attempt_ok (args : List V) (a : α) (outputs : List (Access V)) (f : α → Path V ε β) :
    attempt args (.ok a) outputs >>= f = ⟨args.map .use ++ outputs ++ (f a).trace, (f a).result⟩ := rfl

theorem attempt_error (args : List V) (e : ε) (outputs : List (Access V)) (f : α → Path V ε β) :
    attempt args (.error e) outputs >>= f = ⟨args.map .use ++ [], .error e⟩ := rfl

/-- A function that ends in `cleanup`, also when its body failed, unless the failure halts it. -/
def Path.finish (halts : ε → Bool) (setup cleanup : List (Access V)) (body : Path V ε α) :
    Path V ε (Option α) :=
  match body.result with
  | .ok a => ⟨setup ++ body.trace ++ cleanup, .ok (some a)⟩
  | .error e =>
    if halts e then ⟨setup ++ body.trace, .error e⟩ else ⟨setup ++ body.trace ++ cleanup, .ok none⟩

/-- The path comes to its end. What its cleanup passes on has been set, what it uses elsewhere has
been assigned, and what it acquires is released once. -/
def CleansUp [DecidableEq V] (p : Path V ε α) : Prop :=
  (∃ a, p.result = .ok a) ∧ Before Access.sets Access.passes [] p.trace ∧
    Before Access.writes Access.uses [] p.trace ∧ ReleasedOnce p.trace

/-- A trace that is in order itself, and is followed by a cleanup for whatever it acquires. -/
structure Orderly [DecidableEq V] (trace cleanup : List (Access V)) : Prop where
  assigned : Before Access.writes Access.uses [] trace
  held : ∀ e ∈ trace, e.passes = []
  distinct : (trace.flatMap Access.acquires).Nodup
  once : ∀ v ∈ trace.flatMap Access.acquires, cleanup.count (.release v) = 1
  last : ∀ e ∈ cleanup, e.passes ≠ []

theorem bind_result (p : Path V ε α) (f : α → Path V ε β) :
    (p >>= f).result = p.result >>= fun a => (f a).result := by
  obtain ⟨trace, result⟩ := p
  cases result <;> rfl

theorem attempt_sets {args : List V} {outcome : Except ε α} {outputs : List (Access V)} {f : α → Path V ε β} :
    v ∈ (attempt args outcome outputs >>= f).trace.flatMap Access.sets ↔
      ∃ a, outcome = .ok a ∧ (v ∈ outputs.flatMap Access.sets ∨ v ∈ (f a).trace.flatMap Access.sets) := by
  have reading : (args.map Access.use).flatMap Access.sets = [] := by simp [Access.sets]
  cases outcome with
  | ok a => simp [attempt_ok, reading]
  | error e => simp [attempt_error, reading]

theorem attempt_sets_here {args : List V} {outcome : Except ε α} {outputs : List (Access V)}
    {f : α → Path V ε β}
    (output : v ∈ outputs.flatMap Access.sets) (accepts : (∃ a, outcome = .ok a) ↔ A) :
    v ∈ (attempt args outcome outputs >>= f).trace.flatMap Access.sets ↔ A := by
  rw [attempt_sets, ← accepts]
  constructor
  · rintro ⟨a, ended, _⟩
    exact ⟨a, ended⟩
  · rintro ⟨a, ended⟩
    exact ⟨a, ended, .inl output⟩

theorem attempt_sets_later {args : List V} {outcome : Except ε α} {outputs : List (Access V)}
    {f : α → Path V ε β}
    (other : v ∉ outputs.flatMap Access.sets) (accepts : (∃ a, outcome = .ok a) ↔ A)
    (rest : ∀ a, outcome = .ok a → (v ∈ (f a).trace.flatMap Access.sets ↔ R)) :
    v ∈ (attempt args outcome outputs >>= f).trace.flatMap Access.sets ↔ A ∧ R := by
  rw [attempt_sets, ← accepts]
  constructor
  · rintro ⟨a, ended, here | later⟩
    · exact absurd here other
    · exact ⟨⟨a, ended⟩, (rest a ended).mp later⟩
  · rintro ⟨⟨a, ended⟩, later⟩
    exact ⟨a, ended, .inr ((rest a ended).mpr later)⟩

theorem bind_forall {P : Access V → Prop} {p : Path V ε α} {f : α → Path V ε β} (here : ∀ e ∈ p.trace, P e)
    (rest : ∀ a, ∀ e ∈ (f a).trace, P e) : ∀ e ∈ (p >>= f).trace, P e := by
  obtain ⟨trace, result⟩ := p
  cases result with
  | ok a =>
    intro e member
    rcases List.mem_append.mp member with now | later
    · exact here e now
    · exact rest a e later
  | error _ => exact here

theorem attempt_forall {P : Access V → Prop} {args : List V} {outputs : List (Access V)}
    (here : ∀ e ∈ args.map .use ++ outputs, P e) (outcome : Except ε α) :
    ∀ e ∈ (attempt args outcome outputs).trace, P e := by
  cases outcome with
  | ok a => exact here
  | error _ =>
    intro e member
    rw [attempt, List.append_nil] at member
    exact here e (List.mem_append_left _ member)

/-- The trace is `full`, or the part of it before the failure. -/
structure Path.Follows (p : Path V ε α) (full : List (Access V)) : Prop where
  front : p.trace <+: full
  whole : ∀ a, p.result = .ok a → p.trace = full

theorem pure_follows (a : α) : (pure a : Path V ε α).Follows [] where
  front := List.nil_prefix
  whole _ _ := rfl

theorem attempt_front (args : List V) (outcome : Except ε α) (outputs : List (Access V)) {f : α → Path V ε β}
    (rest : ∀ a, (f a).trace <+: full) :
    (attempt args outcome outputs >>= f).trace <+: args.map .use ++ outputs ++ full := by
  cases outcome with
  | ok a => exact (List.prefix_append_right_inj _).mpr (rest a)
  | error e =>
    rw [attempt_error, List.append_nil, List.append_assoc]
    exact List.prefix_append _ _

theorem attempt_follows (args : List V) (outcome : Except ε α) (outputs : List (Access V)) {f : α → Path V ε β}
    (rest : ∀ a, (f a).Follows full) :
    (attempt args outcome outputs >>= f).Follows (args.map .use ++ outputs ++ full) := by
  refine ⟨attempt_front args outcome outputs fun a => (rest a).front, ?_⟩
  cases outcome with
  | ok a =>
    intro b ended
    exact congrArg (args.map .use ++ outputs ++ ·) ((rest a).whole b ended)
  | error e => exact nofun

theorem bind_trace_error {p : Path V ε α} (failed : p.result = .error e) (f : α → Path V ε β) :
    (p >>= f).trace = p.trace := by
  obtain ⟨trace, result⟩ := p
  cases failed
  rfl

theorem bind_trace_ok {p : Path V ε α} (ended : p.result = .ok a) (f : α → Path V ε β) :
    (p >>= f).trace = p.trace ++ (f a).trace := by
  obtain ⟨trace, result⟩ := p
  cases ended
  rfl

section
variable [DecidableEq V] {trace cleanup : List (Access V)}

theorem Orderly.of_front (orderly : Orderly full cleanup) (front : trace <+: full) : Orderly trace cleanup where
  assigned := orderly.assigned.of_front front
  held e member := orderly.held e (front.subset member)
  distinct := orderly.distinct.sublist (front.flatMap _).sublist
  once v acquired := orderly.once v ((front.flatMap _).subset acquired)
  last := orderly.last

/-- Accesses that acquire nothing and use what is assigned already. -/
theorem Orderly.extend (orderly : Orderly trace cleanup) {more : List (Access V)}
    (plain : ∀ e ∈ more, e.Plain (trace.flatMap Access.writes)) :
    Orderly (trace ++ more) cleanup := by
  have kept : (trace ++ more).flatMap Access.acquires = trace.flatMap Access.acquires := by
    have nothing : more.flatMap Access.acquires = [] := by
      rw [List.flatMap_eq_nil_iff]
      exact fun e member => (plain e member).1
    rw [List.flatMap_append, nothing, List.append_nil]
  constructor
  · refine (before_append [] trace more).mpr ⟨orderly.assigned, Before.of_known fun e member => ?_⟩
    exact (plain e member).2.2
  · intro e member
    rcases List.mem_append.mp member with earlier | later
    · exact orderly.held e earlier
    · exact (plain e later).2.1
  · exact kept ▸ orderly.distinct
  · exact kept ▸ orderly.once
  · exact orderly.last

/-- After an orderly path all depends on whether the cleanup finds its arguments set. -/
theorem Orderly.cleansUp (orderly : Orderly trace cleanup) (a : α) :
    CleansUp (⟨trace ++ cleanup, .ok a⟩ : Path V ε α) ↔
      ∀ e ∈ cleanup, e.passes ⊆ trace.flatMap Access.sets := by
  have passing : ∀ e ∈ cleanup, e.sets = [] ∧ e.uses = [] ∧ e.acquires = [] := by
    intro e member
    have passes := orderly.last e member
    cases e <;> simp_all [Access.passes, Access.sets, Access.uses, Access.acquires]
  have assigned : Before Access.writes Access.uses [] (trace ++ cleanup) := by
    refine (before_append _ _ _).mpr ⟨orderly.assigned, Before.of_known fun e member => ?_⟩
    rw [(passing e member).2.1]
    exact List.nil_subset _
  have released : ReleasedOnce (trace ++ cleanup) := by
    refine releasedOnce_cleanup orderly.distinct (fun v member => ?_) orderly.once ?_
    · exact absurd (orderly.held _ member) (List.cons_ne_nil _ _)
    · rw [List.flatMap_eq_nil_iff]
      exact fun e member => (passing e member).2.2
  have untouched : Before Access.sets Access.passes [] trace :=
    Before.of_known fun e member => by simp [orderly.held e member]
  have cleaned : Before Access.sets Access.passes [] (trace ++ cleanup) ↔
      ∀ e ∈ cleanup, e.passes ⊆ trace.flatMap Access.sets := by
    rw [before_append, List.nil_append, before_passive (fun e member => (passing e member).1)]
    exact and_iff_right untouched
  constructor
  · rintro ⟨_, passed, _, _⟩
    exact cleaned.mp passed
  · intro passed
    exact ⟨⟨a, rfl⟩, cleaned.mpr passed, assigned, released⟩

theorem Path.finish_cleansUp {halts : ε → Bool} {setup : List (Access V)} {body : Path V ε α}
    (orderly : Orderly (setup ++ body.trace) cleanup) : CleansUp (body.finish halts setup cleanup) ↔
      (∀ e, body.result = .error e → halts e = false) ∧
      ∀ e ∈ cleanup, e.passes ⊆ (setup ++ body.trace).flatMap Access.sets := by
  rw [Path.finish]
  cases outcome : body.result with
  | ok a => simpa using orderly.cleansUp (some a)
  | error e =>
    cases halted : halts e with
    | true =>
      refine iff_of_false ?_ (fun ended => by simp [ended.1 e rfl] at halted)
      rintro ⟨⟨a, ended⟩, _⟩
      simp [halted] at ended
    | false => simpa [halted] using orderly.cleansUp none

end

end Locals

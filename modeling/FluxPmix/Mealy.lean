import Mathlib.Data.List.Basic
import Mathlib.Data.List.Induction

/-! Input-driven machines and the traces they leave. A run is a list of inputs, so every
claim about all runs is an induction on that list and every concrete run evaluates. -/
namespace Mealy
variable {S I E : Type}

/-- Final state and complete trace of a run from `s`. -/
def exec (next : S → I → S × List E) (s : S) : List I → S × List E
  | [] => (s, [])
  | i :: rest =>
    let first := next s i
    let last := exec next first.1 rest
    (last.1, first.2 ++ last.2)

/-- Every step of the run meets `ok`, judged on the state before the step and its input. -/
def Along (next : S → I → S × List E) (ok : S → I → Prop) (s : S) : List I → Prop
  | [] => True
  | i :: rest => ok s i ∧ Along next ok (next s i).1 rest

variable {next : S → I → S × List E} {ok : S → I → Prop}

instance decidableAlong [∀ s i, Decidable (ok s i)] :
    (s : S) → (inputs : List I) → Decidable (Along next ok s inputs)
  | _, [] => .isTrue trivial
  | s, i :: rest => @instDecidableAnd _ _ (inferInstanceAs (Decidable (ok s i))) (decidableAlong _ rest)

theorem along_true (s : S) (inputs : List I) : Along next (fun _ _ => True) s inputs := by
  induction inputs generalizing s with
  | nil => trivial
  | cons i rest ih => exact ⟨trivial, ih _⟩

theorem along_forall {admits : I → Prop} (all : ∀ i ∈ inputs, admits i) (s : S) :
    Along next (fun _ i => admits i) s inputs := by
  induction inputs generalizing s with
  | nil => trivial
  | cons i rest ih =>
    obtain ⟨first, others⟩ := List.forall_mem_cons.mp all
    exact ⟨first, ih others _⟩

theorem Along.mono {weaker : S → I → Prop} (weaken : ∀ s i, ok s i → weaker s i)
    (along : Along next ok s inputs) : Along next weaker s inputs := by
  induction inputs generalizing s with
  | nil => trivial
  | cons i rest ih => exact ⟨weaken _ _ along.1, ih along.2⟩

/-- The run rule: what one admitted step preserves of the trace so far and the state
holds at the end of every admitted run. -/
theorem exec_invariant {P : List E → S → Prop}
    (step : ∀ trace s i, P trace s → ok s i → P (trace ++ (next s i).2) (next s i).1)
    (initial : P trace s) (along : Along next ok s inputs) :
    P (trace ++ (exec next s inputs).2) (exec next s inputs).1 := by
  induction inputs generalizing trace s with
  | nil => simpa [exec] using initial
  | cons i rest ih =>
    have after := ih (step trace s i initial along.1) along.2
    simpa only [exec, List.append_assoc] using after

theorem exec_invariant_nil {P : List E → S → Prop}
    (step : ∀ trace s i, P trace s → ok s i → P (trace ++ (next s i).2) (next s i).1)
    (initial : P [] s) (along : Along next ok s inputs) :
    P (exec next s inputs).2 (exec next s inputs).1 := by
  simpa using exec_invariant step initial along

theorem Along.and {other : S → I → Prop} (one : Along next ok s inputs) (two : Along next other s inputs) :
    Along next (fun s i => ok s i ∧ other s i) s inputs := by
  induction inputs generalizing s with
  | nil => trivial
  | cons i rest ih => exact ⟨⟨one.1, two.1⟩, ih one.2 two.2⟩

theorem exec_append (s : S) (inputs more : List I) :
    exec next s (inputs ++ more) =
      ((exec next (exec next s inputs).1 more).1,
        (exec next s inputs).2 ++ (exec next (exec next s inputs).1 more).2) := by
  induction inputs generalizing s with
  | nil => rfl
  | cons i rest ih => simp only [List.cons_append, exec, ih, List.append_assoc]

/-- The simulation rule: where every step is a run of another machine, on inputs it admits and seen
through a view of states and traces, so is every run. -/
theorem exec_simulates {T J F : Type} (abstract : T → J → T × List F) (admits : J → Prop) (state : S → T)
    (view : List E → List F) (none : view [] = []) (joins : ∀ a b, view (a ++ b) = view a ++ view b)
    (step : ∀ s i, ok s i → ∃ js, (∀ j ∈ js, admits j) ∧
      exec abstract (state s) js = (state (next s i).1, view (next s i).2))
    (along : Along next ok s inputs) : ∃ js, (∀ j ∈ js, admits j) ∧
      exec abstract (state s) js = (state (exec next s inputs).1, view (exec next s inputs).2) := by
  induction inputs generalizing s with
  | nil => exact ⟨[], nofun, by simp only [exec, none]⟩
  | cons i rest ih =>
    obtain ⟨first, firstAdmitted, stepped⟩ := step s i along.1
    obtain ⟨others, othersAdmitted, ran⟩ := ih along.2
    refine ⟨first ++ others, ?_, ?_⟩
    · intro j member
      exact (List.mem_append.mp member).elim (firstAdmitted j) (othersAdmitted j)
    · rw [exec_append, stepped]
      simp only [exec, ran, joins]

/-- The progress rule: where every move takes something off a measure, a run of moves is no longer than it. -/
theorem along_lowers {P : S → Prop} (measure : S → Nat) (keeps : ∀ s i, P s → ok s i → P (next s i).1)
    (lowers : ∀ s i, P s → ok s i → measure (next s i).1 < measure s) (start : P s) (along : Along next ok s inputs) :
    inputs.length + measure (exec next s inputs).1 ≤ measure s := by
  induction inputs generalizing s with
  | nil => exact Nat.le_of_eq (Nat.zero_add _)
  | cons i rest ih =>
    have less := lowers s i start along.1
    have others := ih (keeps s i start along.1) along.2
    simp only [List.length_cons, exec]
    omega

/-- A run that does not end in a state that cannot be left never entered one. -/
theorem along_avoids {stuck : S → Prop} (stays : ∀ s i, stuck s → stuck (next s i).1)
    (free : ¬ stuck (exec next s inputs).1) : Along next (fun s i => ¬ stuck (next s i).1) s inputs := by
  have remains : ∀ inputs s, stuck s → stuck (exec next s inputs).1 := by
    intro inputs
    induction inputs with
    | nil => exact fun _ entered => entered
    | cons i rest ih => exact fun s entered => ih _ (stays s i entered)
  induction inputs generalizing s with
  | nil => trivial
  | cons i rest ih => exact ⟨fun entered => free (remains rest _ entered), ih free⟩

/-- Every event of the trace stands in relation `Q` to the events before it. -/
def Whenever (Q : List E → E → Prop) (trace : List E) : Prop :=
  ∀ before e after, trace = before ++ e :: after → Q before e

section Whenever
variable {Q : List E → E → Prop}

theorem whenever_nil : Whenever Q [] := by
  intro before e after same
  simp at same

theorem whenever_snoc_iff (trace : List E) (last : E) :
    Whenever Q (trace ++ [last]) ↔ Whenever Q trace ∧ Q trace last := by
  constructor
  · intro all
    refine ⟨?_, all trace last [] rfl⟩
    intro before e after same
    exact all before e (after ++ [last]) (by simp [same])
  · rintro ⟨old, new⟩ before e after same
    rcases List.eq_nil_or_concat after with rfl | ⟨rest, x, rfl⟩
    · obtain ⟨rfl, single⟩ := List.append_inj' same rfl
      cases single
      exact new
    · have split : trace ++ [last] = (before ++ e :: rest) ++ [x] := by simpa using same
      obtain ⟨rfl, _⟩ := List.append_inj' split rfl
      exact old before e rest rfl

/-- Events that meet `Q` whatever came before them can be appended at once. -/
theorem Whenever.append (old : Whenever Q trace) (free : ∀ e ∈ body, ∀ before, Q before e) :
    Whenever Q (trace ++ body) := by
  induction body using List.reverseRecOn with
  | nil => simpa using old
  | append_singleton body last ih =>
    rw [← List.append_assoc, whenever_snoc_iff]
    exact ⟨ih (fun e member => free e (by simp [member])), free last (by simp) _⟩

end Whenever

/-! ### Windows

A `cut` event ends a window: what follows it is judged without what went before. -/

section Windows
variable {cut : E → Bool} {Q : List E → E → Prop}

/-- The window that `body` leaves behind when it starts in `window`. -/
def windowAfter (cut : E → Bool) (window body : List E) : List E :=
  body.foldl (fun window e => if cut e then [] else window ++ [e]) window

/-- The part of a trace after its last `cut` event. -/
def sinceLast (cut : E → Bool) (trace : List E) : List E := windowAfter cut [] trace

/-- Every event of the trace stands in relation `Q` to its window so far. -/
def InWindows (cut : E → Bool) (Q : List E → E → Prop) : List E → Prop :=
  Whenever (fun before e => Q (sinceLast cut before) e)

/-- The same for a trace that continues an open window. -/
def Continues (cut : E → Bool) (Q : List E → E → Prop) : List E → List E → Prop
  | _, [] => True
  | window, e :: body => Q window e ∧ Continues cut Q (if cut e then [] else window ++ [e]) body

@[simp] theorem windowAfter_nil (window : List E) : windowAfter cut window [] = window := rfl

@[simp] theorem windowAfter_cons (window body : List E) (e : E) :
    windowAfter cut window (e :: body) =
      windowAfter cut (if cut e then [] else window ++ [e]) body := rfl

theorem windowAfter_append (window first rest : List E) :
    windowAfter cut window (first ++ rest) = windowAfter cut (windowAfter cut window first) rest :=
  List.foldl_append

theorem sinceLast_append (trace body : List E) :
    sinceLast cut (trace ++ body) = windowAfter cut (sinceLast cut trace) body :=
  List.foldl_append

theorem windowAfter_uncut (uncut : ∀ e ∈ body, cut e = false) (window : List E) :
    windowAfter cut window body = window ++ body := by
  induction body generalizing window with
  | nil => simp
  | cons e body ih =>
    have tail := ih (fun e' h => uncut e' (List.mem_cons_of_mem _ h)) (window ++ [e])
    simpa [uncut e List.mem_cons_self] using tail

@[simp] theorem continues_nil (window : List E) : Continues cut Q window [] := trivial

@[simp] theorem continues_cons (window body : List E) (e : E) : Continues cut Q window (e :: body) ↔
    Q window e ∧ Continues cut Q (if cut e then [] else window ++ [e]) body := Iff.rfl

theorem continues_append (window first rest : List E) : Continues cut Q window (first ++ rest) ↔
    Continues cut Q window first ∧ Continues cut Q (windowAfter cut window first) rest := by
  induction first generalizing window with
  | nil => simp
  | cons e first ih => simp [ih, and_assoc]

theorem continues_free (free : ∀ e ∈ body, ∀ window, Q window e) (window : List E) :
    Continues cut Q window body := by
  induction body generalizing window with
  | nil => trivial
  | cons e body ih =>
    exact ⟨free e List.mem_cons_self window, ih (fun e' h => free e' (List.mem_cons_of_mem _ h)) _⟩

theorem inWindows_append (trace body : List E) : InWindows cut Q (trace ++ body) ↔
    InWindows cut Q trace ∧ Continues cut Q (sinceLast cut trace) body := by
  induction body generalizing trace with
  | nil => simp
  | cons e body ih =>
    have head := whenever_snoc_iff (Q := fun before e => Q (sinceLast cut before) e) trace e
    rw [List.append_cons, ih, continues_cons, sinceLast_append]
    simp only [InWindows, head, windowAfter_cons, windowAfter_nil, and_assoc]

theorem inWindows_nil : InWindows cut Q [] := whenever_nil

end Windows
end Mealy

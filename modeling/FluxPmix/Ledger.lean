import Mathlib.Data.List.Nodup

/-! The calls of a service that lets one caller in at a time. Calls are numbered as they are taken up.
Each is refused at once, or enters and is answered when it leaves, unless nothing can be made of what it
finds there. The book says what the calls asked for, and has a log of what they brought in, what they found
on leaving, and how they were answered, as it came. -/
namespace Ledger
variable {A D S R : Type}

inductive Note (D S R : Type) where
  | entered (id : Nat) (data : D)
  | left (id : Nat) (found : S)
  | answered (id : Nat) (answer : R)

namespace Note

def entry : Note D S R → Option (Nat × D)
  | .entered id data => some (id, data)
  | _ => none

def exit : Note D S R → Option (Nat × S)
  | .left id found => some (id, found)
  | _ => none

def answer : Note D S R → Option (Nat × R)
  | .answered id answer => some (id, answer)
  | _ => none

end Note

/-- Who has entered and not left. -/
def Occupied (log : List (Note D S R)) : Prop :=
  ∃ other ∈ (log.filterMap Note.entry).map Prod.fst, other ∉ (log.filterMap Note.exit).map Prod.fst

structure Book (A D S R : Type) where
  taken : List A
  log : List (Note D S R)
  inside : Option Nat

namespace Book

def entries (b : Book A D S R) : List (Nat × D) := b.log.filterMap Note.entry

def exits (b : Book A D S R) : List (Nat × S) := b.log.filterMap Note.exit

def answers (b : Book A D S R) : List (Nat × R) := b.log.filterMap Note.answer

/-- A call was answered while another one was inside. -/
def Crowded (b : Book A D S R) (id : Nat) (answer : R) : Prop :=
  ∃ before after, b.log = before ++ .answered id answer :: after ∧ Occupied before

def empty : Book A D S R := ⟨[], [], none⟩

def refuse (b : Book A D S R) (call : A) (answer : R) : Book A D S R :=
  { b with taken := b.taken ++ [call], log := b.log ++ [.answered b.taken.length answer] }

def enter (b : Book A D S R) (call : A) (data : D) : Book A D S R :=
  ⟨b.taken ++ [call], b.log ++ [.entered b.taken.length data], some b.taken.length⟩

def leave (b : Book A D S R) (id : Nat) (found : S) (answer : R) : Book A D S R :=
  ⟨b.taken, b.log ++ [.left id found, .answered id answer], none⟩

def abandon (b : Book A D S R) (id : Nat) (found : S) : Book A D S R :=
  ⟨b.taken, b.log ++ [.left id found], none⟩

end Book

/-- With what a call may enter, how it is answered after what it found, how it may be refused, and how it may be
where another one is inside. -/
structure Rules (A D S R : Type) where
  enters : A → D → Prop
  earns : A → S → R → Prop
  refuses : A → R → Prop
  crowds : A → R → Prop

/-- Calls leave in the order they entered, the last one may be inside, and every other call has been
answered once, by the rules, where they let it be. -/
structure Valid (rules : Rules A D S R) (b : Book A D S R) : Prop where
  order : b.exits.map Prod.fst ++ b.inside.toList = b.entries.map Prod.fst
  distinct : (b.entries.map Prod.fst).Nodup
  entered : ∀ e ∈ b.entries, ∃ call, b.taken[e.1]? = some call ∧ rules.enters call e.2
  answered : ∀ r ∈ b.answers, ∃ call, b.taken[r.1]? = some call ∧
    ((∃ found, (r.1, found) ∈ b.exits ∧ rules.earns call found r.2) ∨
      (r.1 ∉ b.entries.map Prod.fst ∧ (rules.refuses call r.2 ∨ rules.crowds call r.2 ∧ b.Crowded r.1 r.2)))
  once : (b.answers.map Prod.fst).Nodup
  due : ∀ id < b.taken.length, b.inside = some id ∨ id ∈ b.answers.map Prod.fst ∨
    ∃ found, (id, found) ∈ b.exits ∧ ∀ call answer, ¬ rules.earns call found answer

variable {rules : Rules A D S R} {b : Book A D S R} {id n : Nat} {call : A} {data : D} {found : S} {answer r : R}

theorem valid_empty : Valid rules (Book.empty : Book A D S R) :=
  ⟨rfl, List.nodup_nil, nofun, nofun, List.nodup_nil, nofun⟩

/-! ### What is written down -/

section
variable (b : Book A D S R) (call : A) (data : D) (found : S) (answer : R) (id : Nat)

@[simp] theorem refuse_entries : (b.refuse call answer).entries = b.entries := by
  simp [Book.entries, Book.refuse, Note.entry]

@[simp] theorem refuse_exits : (b.refuse call answer).exits = b.exits := by
  simp [Book.exits, Book.refuse, Note.exit]

@[simp] theorem refuse_answers : (b.refuse call answer).answers = b.answers ++ [(b.taken.length, answer)] := by
  simp [Book.answers, Book.refuse, Note.answer]

@[simp] theorem enter_entries : (b.enter call data).entries = b.entries ++ [(b.taken.length, data)] := by
  simp [Book.entries, Book.enter, Note.entry]

@[simp] theorem enter_exits : (b.enter call data).exits = b.exits := by
  simp [Book.exits, Book.enter, Note.exit]

@[simp] theorem enter_answers : (b.enter call data).answers = b.answers := by
  simp [Book.answers, Book.enter, Note.answer]

@[simp] theorem leave_entries : (b.leave id found answer).entries = b.entries := by
  simp [Book.entries, Book.leave, Note.entry]

@[simp] theorem leave_exits : (b.leave id found answer).exits = b.exits ++ [(id, found)] := by
  simp [Book.exits, Book.leave, Note.exit]

@[simp] theorem leave_answers : (b.leave id found answer).answers = b.answers ++ [(id, answer)] := by
  rw [Book.answers, Book.leave, List.filterMap_append]
  rfl

@[simp] theorem abandon_entries : (b.abandon id found).entries = b.entries := by
  simp [Book.entries, Book.abandon, Note.entry]

@[simp] theorem abandon_exits : (b.abandon id found).exits = b.exits ++ [(id, found)] := by
  simp [Book.exits, Book.abandon, Note.exit]

@[simp] theorem abandon_answers : (b.abandon id found).answers = b.answers := by
  simp [Book.answers, Book.abandon, Note.answer]

end

/-- Who came while another was inside stays in the log. -/
theorem Book.Crowded.mono {c : Book A D S R} (crowded : b.Crowded id answer) (grown : c.log = b.log ++ more) :
    c.Crowded id answer := by
  obtain ⟨before, after, split, occupied⟩ := crowded
  exact ⟨before, after ++ more, by rw [grown, split, List.append_assoc, List.cons_append], occupied⟩

/-- What an answer rests on stays in the log, as long as the call itself does not enter. -/
theorem Book.reason_mono {c : Book A D S R} {reply : Nat × R} (grown : c.log = b.log ++ more)
    (outside : reply.1 ∉ b.entries.map Prod.fst → reply.1 ∉ c.entries.map Prod.fst)
    (reason : (∃ found, (reply.1, found) ∈ b.exits ∧ rules.earns call found reply.2) ∨
      (reply.1 ∉ b.entries.map Prod.fst ∧
        (rules.refuses call reply.2 ∨ rules.crowds call reply.2 ∧ b.Crowded reply.1 reply.2))) :
    (∃ found, (reply.1, found) ∈ c.exits ∧ rules.earns call found reply.2) ∨
      (reply.1 ∉ c.entries.map Prod.fst ∧
        (rules.refuses call reply.2 ∨ rules.crowds call reply.2 ∧ c.Crowded reply.1 reply.2)) := by
  have exits : c.exits = b.exits ++ more.filterMap Note.exit := by
    rw [Book.exits, grown, List.filterMap_append]
    rfl
  rcases reason with ⟨found, left, earns⟩ | ⟨unentered, refused⟩
  · refine .inl ⟨found, ?_, earns⟩
    rw [exits]
    exact List.mem_append_left _ left
  · exact .inr ⟨outside unentered, refused.imp_right fun ⟨crowds, crowded⟩ => ⟨crowds, crowded.mono grown⟩⟩

theorem taken_early {taken : List A} (found : taken[id]? = some call) (more : List A) :
    (taken ++ more)[id]? = some call := by
  have within : id < taken.length := (List.getElem?_eq_some_iff.mp found).1
  rw [List.getElem?_append_left within]
  exact found

theorem nodup_snoc {l : List Nat} (distinct : l.Nodup) (absent : id ∉ l) : (l ++ [id]).Nodup := by
  rw [← List.concat_eq_append]
  exact distinct.concat absent

/-- The next number is new. -/
theorem Valid.fresh_entry (valid : Valid rules b) : b.taken.length ∉ b.entries.map Prod.fst := by
  intro member
  obtain ⟨e, entry, same⟩ := List.mem_map.mp member
  obtain ⟨call, found, _⟩ := valid.entered e entry
  have within := (List.getElem?_eq_some_iff.mp found).1
  omega

theorem Valid.fresh_answer (valid : Valid rules b) : b.taken.length ∉ b.answers.map Prod.fst := by
  intro member
  obtain ⟨r, answer, same⟩ := List.mem_map.mp member
  obtain ⟨call, found, _⟩ := valid.answered r answer
  have within := (List.getElem?_eq_some_iff.mp found).1
  omega

/-- Whoever is inside has not left. -/
theorem Valid.inside_apart (valid : Valid rules b) (inside : b.inside = some id) :
    id ∈ b.entries.map Prod.fst ∧ id ∉ b.exits.map Prod.fst := by
  have order := valid.order
  have distinct := valid.distinct
  rw [inside, Option.toList_some] at order
  rw [← order] at distinct ⊢
  constructor
  · exact List.mem_append_right _ List.mem_cons_self
  · intro left
    exact (List.nodup_append.mp distinct).2.2 id left id List.mem_cons_self rfl

/-- Nor has it been answered. -/
theorem Valid.inside_unanswered (valid : Valid rules b) (inside : b.inside = some id) :
    id ∉ b.answers.map Prod.fst := by
  obtain ⟨entered, unleft⟩ := valid.inside_apart inside
  intro member
  obtain ⟨r, answer, rfl⟩ := List.mem_map.mp member
  obtain ⟨call, _, ⟨found, left, _⟩ | ⟨outside, _⟩⟩ := valid.answered r answer
  · exact unleft (List.mem_map_of_mem left)
  · exact outside entered

theorem Valid.occupied (valid : Valid rules b) (inside : b.inside = some id) : Occupied b.log :=
  ⟨id, valid.inside_apart inside⟩

/-- A call is refused for its own sake, or because another one is inside. -/
theorem Valid.refuse (valid : Valid rules b)
    (refused : rules.refuses call answer ∨ rules.crowds call answer ∧ ∃ other, b.inside = some other) :
    Valid rules (b.refuse call answer) := by
  have reason : rules.refuses call answer ∨ rules.crowds call answer ∧
      (b.refuse call answer).Crowded b.taken.length answer :=
    refused.imp_right fun ⟨crowds, other, inside⟩ => ⟨crowds, b.log, [], rfl, valid.occupied inside⟩
  have freshEntry := valid.fresh_entry
  have freshAnswer := valid.fresh_answer
  obtain ⟨order, distinct, entered, answered, once, due⟩ := valid
  refine ⟨?_, ?_, ?_, ?_, ?_, ?_⟩
  · rw [refuse_exits, refuse_entries]
    exact order
  · rw [refuse_entries]
    exact distinct
  · intro e entry
    rw [refuse_entries] at entry
    obtain ⟨asked, found, enters⟩ := entered e entry
    exact ⟨asked, taken_early found _, enters⟩
  · intro r member
    rw [refuse_answers] at member
    have outside (id : Nat) : id ∉ b.entries.map Prod.fst → id ∉ (b.refuse call answer).entries.map Prod.fst := by
      rw [refuse_entries]
      exact fun unentered => unentered
    rcases List.mem_append.mp member with old | new
    · obtain ⟨asked, found, before⟩ := answered r old
      exact ⟨asked, taken_early found _, Book.reason_mono rfl (outside r.1) before⟩
    · obtain rfl := List.mem_singleton.mp new
      exact ⟨call, by simp [Book.refuse], .inr ⟨outside _ freshEntry, reason⟩⟩
  · rw [refuse_answers, List.map_append]
    exact nodup_snoc once freshAnswer
  · intro id within
    simp only [Book.refuse, List.length_append, List.length_singleton] at within
    rw [refuse_exits, refuse_answers, List.map_append]
    by_cases last : id = b.taken.length
    · subst last
      exact .inr (.inl (List.mem_append_right _ List.mem_cons_self))
    · exact (due id (by omega)).imp_right (Or.imp_left (List.mem_append_left _))

theorem Valid.enter (valid : Valid rules b) (empty : b.inside = none) (enters : rules.enters call data) :
    Valid rules (b.enter call data) := by
  have freshEntry := valid.fresh_entry
  have freshAnswer := valid.fresh_answer
  obtain ⟨order, distinct, entered, answered, once, due⟩ := valid
  rw [empty, Option.toList_none, List.append_nil] at order
  refine ⟨?_, ?_, ?_, ?_, ?_, ?_⟩
  · rw [enter_exits, enter_entries, order, List.map_append]
    rfl
  · rw [enter_entries, List.map_append]
    exact nodup_snoc distinct freshEntry
  · intro e member
    rw [enter_entries] at member
    rcases List.mem_append.mp member with old | new
    · obtain ⟨asked, found, brings⟩ := entered e old
      exact ⟨asked, taken_early found _, brings⟩
    · obtain rfl := List.mem_singleton.mp new
      exact ⟨call, by simp [Book.enter], enters⟩
  · intro r member
    rw [enter_answers] at member
    obtain ⟨asked, found, reason⟩ := answered r member
    refine ⟨asked, taken_early found _, Book.reason_mono rfl (fun outside entry => ?_) reason⟩
    rw [enter_entries, List.map_append] at entry
    rcases List.mem_append.mp entry with old | new
    · exact outside old
    · have same : r.1 = b.taken.length := List.mem_singleton.mp new
      exact freshAnswer (same ▸ List.mem_map_of_mem member)
  · rw [enter_answers]
    exact once
  · intro id within
    simp only [Book.enter, List.length_append, List.length_singleton] at within
    rw [enter_exits, enter_answers]
    by_cases last : id = b.taken.length
    · exact .inl (congrArg some last.symm)
    · rcases due id (by omega) with inside | answer
      · rw [empty] at inside
        cases inside
      · exact .inr answer

theorem Valid.leave (valid : Valid rules b) (inside : b.inside = some id) (asked : b.taken[id]? = some call)
    (earned : rules.earns call found answer) : Valid rules (b.leave id found answer) := by
  have unanswered := valid.inside_unanswered inside
  obtain ⟨order, distinct, entered, answered, once, due⟩ := valid
  refine ⟨?_, ?_, ?_, ?_, ?_, ?_⟩
  · rw [leave_exits, leave_entries, ← order, inside, List.map_append]
    exact List.append_nil _
  · rw [leave_entries]
    exact distinct
  · rw [leave_entries]
    exact entered
  · intro r member
    rw [leave_answers] at member
    rcases List.mem_append.mp member with old | new
    · obtain ⟨caller, told, reason⟩ := answered r old
      refine ⟨caller, told, Book.reason_mono rfl (fun outside => ?_) reason⟩
      rw [leave_entries]
      exact outside
    · obtain rfl := List.mem_singleton.mp new
      rw [leave_exits]
      exact ⟨call, asked, .inl ⟨found, List.mem_append_right _ List.mem_cons_self, earned⟩⟩
  · rw [leave_answers, List.map_append]
    exact nodup_snoc once unanswered
  · intro other within
    rw [leave_answers, leave_exits, List.map_append]
    rcases due other within with here | answer | ⟨saw, left, nothing⟩
    · rw [inside] at here
      obtain rfl := Option.some.inj here
      exact .inr (.inl (List.mem_append_right _ List.mem_cons_self))
    · exact .inr (.inl (List.mem_append_left _ answer))
    · exact .inr (.inr ⟨saw, List.mem_append_left _ left, nothing⟩)

theorem Valid.abandon (valid : Valid rules b) (inside : b.inside = some id)
    (nothing : ∀ call answer, ¬ rules.earns call found answer) : Valid rules (b.abandon id found) := by
  obtain ⟨order, distinct, entered, answered, once, due⟩ := valid
  refine ⟨?_, ?_, ?_, ?_, ?_, ?_⟩
  · rw [abandon_exits, abandon_entries, ← order, inside, List.map_append]
    exact List.append_nil _
  · rw [abandon_entries]
    exact distinct
  · rw [abandon_entries]
    exact entered
  · intro r member
    rw [abandon_answers] at member
    obtain ⟨caller, told, reason⟩ := answered r member
    refine ⟨caller, told, Book.reason_mono rfl (fun outside => ?_) reason⟩
    rw [abandon_entries]
    exact outside
  · rw [abandon_answers]
    exact once
  · intro other within
    rw [abandon_answers, abandon_exits]
    rcases due other within with here | answer | ⟨saw, left, still⟩
    · rw [inside] at here
      obtain rfl := Option.some.inj here
      exact .inr (.inr ⟨found, List.mem_append_right _ List.mem_cons_self, nothing⟩)
    · exact .inr (.inl answer)
    · exact .inr (.inr ⟨saw, List.mem_append_left _ left, still⟩)

/-- The answer to the `n`th call that entered follows from what the `n`th to leave found. -/
theorem Valid.answer_exit (valid : Valid rules b) (entry : b.entries[n]? = some (id, data))
    (answer : (id, r) ∈ b.answers) :
    ∃ call found, b.taken[id]? = some call ∧ b.exits[n]? = some (id, found) ∧ rules.earns call found r := by
  have member : id ∈ b.entries.map Prod.fst := List.mem_map_of_mem (List.mem_of_getElem? entry)
  obtain ⟨call, asked, ⟨found, left, earned⟩ | ⟨outside, _⟩⟩ := valid.answered _ answer
  · obtain ⟨k, exit⟩ := List.mem_iff_getElem?.mp left
    have below : k < (b.exits.map Prod.fst).length := by
      rw [List.length_map]
      exact (List.getElem?_eq_some_iff.mp exit).1
    have atK : (b.entries.map Prod.fst)[k]? = some id := by
      rw [← valid.order, List.getElem?_append_left below, List.getElem?_map, exit]
      rfl
    have atN : (b.entries.map Prod.fst)[n]? = some id := by
      rw [List.getElem?_map, entry]
      rfl
    have within := (List.getElem?_eq_some_iff.mp atN).1
    obtain rfl := (List.getElem?_inj within valid.distinct).mp (atN.trans atK.symm)
    exact ⟨call, found, asked, exit, earned⟩
  · exact absurd member outside

/-- With no one inside, and something made of whatever was found, every call has been answered once. -/
theorem Valid.settled (valid : Valid rules b) (empty : b.inside = none)
    (earnable : ∀ e ∈ b.exits, ∃ call answer, rules.earns call e.2 answer) (within : id < b.taken.length) :
    (b.answers.map Prod.fst).count id = 1 := by
  rcases valid.due id within with inside | answer | ⟨found, left, nothing⟩
  · rw [empty] at inside
    cases inside
  · exact List.count_eq_one_of_mem valid.once answer
  · obtain ⟨call, answer, earned⟩ := earnable _ left
    exact absurd earned (nothing call answer)

end Ledger

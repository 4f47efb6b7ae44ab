import FluxPmix.Handoff
import FluxPmix.Upcall

/-! The message channel from the server's thread to the shell's. Handlers are kept in a table of 32 with
their topics cut to 31 bytes; a message goes to the first whose topic it has. -/
namespace FluxPmix
open Mealy Handoff

def maxHandlers : Nat := 32

/-- `cb` stands for a callback together with its argument. -/
structure Handler (C : Type) where
  topic : CharArray (31 + 1)
  cb : C

structure Interthread (C : Type) where
  handlers : List (Handler C)
  bounded : handlers.length ≤ maxHandlers

variable {C : Type}

def interthreadCreate : Interthread C := ⟨[], Nat.zero_le _⟩

/-- A full table refuses with ENOSPC. -/
def interthreadRegister (it : Interthread C) (topic : String) (cb : C) : Int32 × Interthread C :=
  if full : it.handlers.length = maxHandlers then (-1, it)
  else
    (0, {
      handlers := it.handlers ++ [⟨strlcpy 31 (literal topic), cb⟩]
      bounded := by
        rw [List.length_append, List.length_singleton]
        exact Nat.lt_of_le_of_ne it.bounded full })

/-- The first handler of a topic. -/
def Interthread.find (it : Interthread C) (topic : String) : Option C :=
  (it.handlers.find? fun handler => handler.topic.bytes = literal topic).map Handler.cb

/-- What became of a message on the shell thread. `undecoded` is a message without a topic. -/
inductive Dispatched (C : Type) where
  | handled (cb : C) (msg : InterthreadMsg)
  | unhandled (msg : InterthreadMsg)
  | undecoded (msg : InterthreadMsg)

def Dispatched.msg : Dispatched C → InterthreadMsg
  | handled _ msg => msg
  | unhandled msg => msg
  | undecoded msg => msg

/-- `interthread_recv` on a message it received. -/
def interthreadRecv (it : Interthread C) (topicFails : Bool) (msg : InterthreadMsg) : Dispatched C :=
  if topicFails then .undecoded msg
  else
    match it.find msg.topic with
    | some cb => .handled cb msg
    | none => .unhandled msg

/-! ### The channel -/

/-- A call of `interthread_send_pack`. Creating the message or sending it may fail. -/
structure SendPack where
  name : String
  items : List (String × PackItem)
  fails : Bool := false

def SendPack.message (call : SendPack) : Option InterthreadMsg :=
  if call.fails then none else (interthreadSendPack call.name call.items).toOption

/-- A call of `interthread_register`. -/
structure Registration (C : Type) where
  topic : String
  cb : C

inductive ChannelEffect (C : Type) where
  | registered (registration : Registration C) (rc : Int32)
  | dispatched (outcome : Dispatched C)

/-- The shell thread's end: a message with whether its topic can be read, or a registration. -/
def channelNext (it : Interthread C) : Given InterthreadMsg Bool (Registration C) →
    Interthread C × List (ChannelEffect C)
  | .inl (msg, topicFails) => (it, [.dispatched (interthreadRecv it topicFails msg)])
  | .inr registration =>
    let (rc, it) := interthreadRegister it registration.topic registration.cb
    (it, [.registered registration rc])

/-- Sends and receives on the two threads, interleaved. -/
abbrev channelStep := step SendPack.message (channelNext (C := C))

def channelCreate : State (Interthread C) InterthreadMsg := ⟨interthreadCreate, []⟩

/-! ### The table -/

/-- The registrations a trace shows that were accepted. -/
def registrations (trace : List (ChannelEffect C)) : List (Registration C) :=
  trace.filterMap fun
    | .registered registration rc => if rc = 0 then some registration else none
    | .dispatched _ => none

def Registration.handler (registration : Registration C) : Handler C :=
  ⟨strlcpy 31 (literal registration.topic), registration.cb⟩

/-- A registration is accepted while fewer than 32 were. A message with a topic goes to the first
registration accepted before whose topic's first 31 bytes are all of it, and to none if there is none. -/
def Routed (before : List (ChannelEffect C)) : ChannelEffect C → Prop
  | .registered _ rc => rc = if (registrations before).length < maxHandlers then 0 else -1
  | .dispatched (.undecoded _) => True
  | .dispatched (.handled cb msg) =>
    ((registrations before).find? fun r => (strlcpy 31 (literal r.topic)).bytes = literal msg.topic).map
      Registration.cb = some cb
  | .dispatched (.unhandled msg) =>
    ∀ r ∈ registrations before, (strlcpy 31 (literal r.topic)).bytes ≠ literal msg.topic

theorem registrations_append (trace more : List (ChannelEffect C)) :
    registrations (trace ++ more) = registrations trace ++ registrations more :=
  List.filterMap_append

/-- The table lists the accepted registrations. -/
structure Table (trace : List (ChannelEffect C)) (it : Interthread C) : Prop where
  handlers : it.handlers = (registrations trace).map Registration.handler
  lawful : Whenever Routed trace

variable {trace : List (ChannelEffect C)} {it : Interthread C}

theorem interthreadFind_table (table : Table trace it) (topic : String) : it.find topic =
    ((registrations trace).find? fun r => (strlcpy 31 (literal r.topic)).bytes = literal topic).map
      Registration.cb := by
  rw [Interthread.find, table.handlers, List.find?_map, Option.map_map]
  rfl

theorem Table.recv (table : Table trace it) (topicFails : Bool) (msg : InterthreadMsg) :
    Routed trace (.dispatched (interthreadRecv it topicFails msg)) := by
  rw [interthreadRecv]
  cases topicFails with
  | true => trivial
  | false =>
    have found := interthreadFind_table table msg.topic
    cases handler : it.find msg.topic with
    | some cb =>
      rw [handler] at found
      exact found.symm
    | none =>
      rw [handler, eq_comm, Option.map_eq_none_iff, List.find?_eq_none] at found
      intro r member
      simpa using found r member

theorem Table.next (table : Table trace it) (given : Given InterthreadMsg Bool (Registration C)) :
    Table (trace ++ (channelNext it given).2) (channelNext it given).1 := by
  obtain ⟨handlers, lawful⟩ := table
  have count : it.handlers.length = (registrations trace).length := by rw [handlers, List.length_map]
  cases given with
  | inl received =>
    refine ⟨?_, (whenever_snoc_iff _ _).mpr ⟨lawful, Table.recv ⟨handlers, lawful⟩ _ _⟩⟩
    rw [registrations_append]
    simpa [channelNext, registrations] using handlers
  | inr registration =>
    have bounded := it.bounded
    by_cases full : it.handlers.length = maxHandlers
    · have refused : interthreadRegister it registration.topic registration.cb = (-1, it) := dif_pos full
      simp only [channelNext, refused]
      refine ⟨?_, (whenever_snoc_iff _ _).mpr ⟨lawful, ?_⟩⟩
      · rw [registrations_append]
        simpa [registrations] using handlers
      · rw [Routed, if_neg (by omega)]
    · have accepted : interthreadRegister it registration.topic registration.cb = (0, _) := dif_neg full
      simp only [channelNext, accepted]
      refine ⟨?_, (whenever_snoc_iff _ _).mpr ⟨lawful, ?_⟩⟩
      · rw [registrations_append, List.map_append, ← handlers]
        rfl
      · rw [Routed, if_pos (by omega)]

/-- The messages a trace shows on the shell thread. -/
def dispatches (trace : List (ChannelEffect C)) : List InterthreadMsg :=
  trace.filterMap fun
    | .dispatched outcome => some outcome.msg
    | .registered _ _ => none

theorem interthreadRecv_msg (it : Interthread C) (topicFails : Bool) (msg : InterthreadMsg) :
    (interthreadRecv it topicFails msg).msg = msg := by
  rw [interthreadRecv]
  split
  · rfl
  · split <;> rfl

theorem exec_dispatches (it : Interthread C) (given : List (Given InterthreadMsg Bool (Registration C))) :
    dispatches (exec channelNext it given).2 = given.filterMap Given.message := by
  induction given generalizing it with
  | nil => rfl
  | cons first rest ih =>
    cases first with
    | inl received =>
      have head : dispatches (channelNext it (.inl received)).2 = [received.1] :=
        congrArg (fun msg => [msg]) (interthreadRecv_msg it received.2 received.1)
      rw [exec, dispatches, List.filterMap_append]
      exact congrArg₂ (· ++ ·) head (ih _)
    | inr registration =>
      rw [exec, dispatches, List.filterMap_append]
      exact congrArg₂ (· ++ ·) rfl (ih _)

/-- In every interleaving of sends, receives and registrations, the messages that were sent come out on
the shell thread once each and in order, those still queued apart, and every registration and dispatch
is as the ones accepted before it have it. -/
theorem interthread_channel (inputs : List (Input SendPack Bool (Registration C))) :
    let final := exec channelStep channelCreate inputs
    sent SendPack.message final.2 = dispatches (results final.2) ++ final.1.queue ∧
    Whenever Routed (results final.2) ∧
    ∀ cb msg, .dispatched (.handled cb msg) ∈ results final.2 → (literal msg.topic).length ≤ 31 := by
  intro final
  obtain ⟨given, serial⟩ := @exec_serial _ _ _ _ _ _ SendPack.message channelNext (@channelCreate C) inputs
  have table : Table (exec channelNext interthreadCreate given).2 (exec channelNext interthreadCreate given).1 :=
    exec_invariant_nil (P := Table) (fun _ _ given table _ => table.next given) ⟨rfl, whenever_nil⟩
      (along_true _ _)
  have lawful : Whenever Routed (results final.2) := by
    rw [serial.outputs]
    exact table.lawful
  refine ⟨?_, lawful, ?_⟩
  · rw [serial.outputs]
    exact serial.order.trans (congrArg (· ++ final.1.queue) (exec_dispatches interthreadCreate given).symm)
  · intro cb msg member
    obtain ⟨before, after, split⟩ := List.append_of_mem member
    obtain ⟨r, found, _⟩ := Option.map_eq_some_iff.mp (lawful before _ after split)
    have same := List.find?_some found
    rw [← of_decide_eq_true same]
    exact Nat.le_of_lt_succ (strlcpy 31 (literal r.topic)).fits

end FluxPmix

import FluxPmix.Exchange.Session
import FluxPmix.Exchange.Topology
import FluxPmix.Mealy
import Mathlib.Logic.Function.Basic

/-! All shells of a job and the `pmix-exchange` messages between them. A run is any sequence
of entries, deliveries and completions: messages in flight are delivered once each, unmodified,
in any order. -/
namespace FluxPmix
open Mealy
variable {A : Type}

/-- Requests are in flight to the parent they were sent to, responses to a sender and its
matchtag. -/
structure Net where
  shells : Nat → Shell Unit
  requests : List (Nat × Request)
  responses : List (Nat × Nat × Response)

def Net.initial : Net where
  shells _ := .idle
  requests := []
  responses := []

/-- The request an effect puts in flight. -/
def Effect.posted (xcg : Exchange) : Effect A → Option (Nat × Request)
  | .rpc tag payload => some (xcg.parentRank.toNat, ⟨xcg.rank, tag, payload⟩)
  | _ => none

/-- The response an effect puts in flight. -/
def Effect.replied : Effect A → Option (Nat × Nat × Response)
  | .respond msg (some data) true => some (msg.sender, msg.matchtag, .payload (packData data))
  | .respondError msg errno errstr true => some (msg.sender, msg.matchtag, .error errno errstr)
  | _ => none

/-- What can happen next: a local entry, the delivery of the `i`th request or response in
flight, or the completion of a ready future. -/
inductive Action where
  | enter (rank : Nat) (data : Option Json)
  | deliverRequest (i : Nat)
  | deliverResponse (i : Nat)
  | dispatch (rank matchtag : Nat)

/-- The shells and messages after one shell's callback. -/
def Net.post (net : Net) (xcg : Exchange) (result : Shell Unit × List (Effect Unit)) : Net where
  shells := Function.update net.shells xcg.rank result.1
  requests := net.requests ++ result.2.filterMap (Effect.posted xcg)
  responses := net.responses ++ result.2.filterMap Effect.replied

/-- The callback an action runs, and on which shell. -/
def Net.event (size : Nat) (net : Net) : Action → Option (Nat × Event Unit)
  | .enter rank data => if rank < size then some (rank, .enter data (some ())) else none
  | .deliverRequest i => net.requests[i]?.map (fun m => (m.1, .request m.2))
  | .deliverResponse i => net.responses[i]?.map (fun m => (m.1, .fulfill m.2.1 m.2.2))
  | .dispatch rank matchtag => if rank < size then some (rank, .dispatch matchtag) else none

/-- A delivered message is no longer in flight. -/
def Net.deliver (net : Net) : Action → Net
  | .deliverRequest i => { net with requests := net.requests.eraseIdx i }
  | .deliverResponse i => { net with responses := net.responses.eraseIdx i }
  | _ => net

def Net.next (size : Nat) (net : Net) (input : Action × Faults) : Net × List (Nat × Effect Unit) :=
  match net.event size input.1 with
  | none => (net, [])
  | some (rank, event) =>
    let xcg := fenceExchange size rank
    let result := Shell.next xcg (net.shells rank) (event, input.2)
    ((net.deliver input.1).post xcg result, result.2.map (rank, ·))

theorem Net.post_self (net : Net) (size r : Nat) (result : Shell Unit × List (Effect Unit)) :
    (net.post (fenceExchange size r) result).shells r = result.1 :=
  Function.update_self _ _ _

theorem Net.post_ne (different : s ≠ r) (net : Net) (size : Nat)
    (result : Shell Unit × List (Effect Unit)) :
    (net.post (fenceExchange size r) result).shells s = net.shells s :=
  Function.update_of_ne different _ _

def Effect.entry : Effect A → Option (Option Json)
  | .entered _ data => some data
  | _ => none

def Effect.exited : Effect A → Option (Session A)
  | .exit _ ses => some ses
  | _ => none

/-- The data of a shell's accepted entries, in order. -/
def entriesOf (rank : Nat) (trace : List (Nat × Effect A)) : List (Option Json) :=
  trace.filterMap (fun m => if m.1 = rank then m.2.entry else none)

/-- A shell's sessions as its exit callbacks found them, in order. -/
def exitsOf (rank : Nat) (trace : List (Nat × Effect A)) : List (Session A) :=
  trace.filterMap (fun m => if m.1 = rank then m.2.exited else none)

theorem entriesOf_append (s : Nat) (trace : List (Nat × Effect A)) (rank : Nat)
    (effects : List (Effect A)) : entriesOf s (trace ++ effects.map (rank, ·)) =
      entriesOf s trace ++ if rank = s then effects.filterMap Effect.entry else [] := by
  rw [entriesOf, List.filterMap_append, List.filterMap_map]
  by_cases same : rank = s
  · simp [entriesOf, same]
  · simp [entriesOf, same]

theorem exitsOf_append (s : Nat) (trace : List (Nat × Effect A)) (rank : Nat)
    (effects : List (Effect A)) : exitsOf s (trace ++ effects.map (rank, ·)) =
      exitsOf s trace ++ if rank = s then effects.filterMap Effect.exited else [] := by
  rw [exitsOf, List.filterMap_append, List.filterMap_map]
  by_cases same : rank = s
  · simp [exitsOf, same]
  · simp [exitsOf, same]

theorem entriesOf_silent (s : Nat) (trace : List (Nat × Effect A)) (rank : Nat)
    (effects : List (Effect A)) (silent : effects.filterMap Effect.entry = []) :
    entriesOf s (trace ++ effects.map (rank, ·)) = entriesOf s trace := by
  rw [entriesOf_append, silent, ite_self, List.append_nil]

theorem exitsOf_silent (s : Nat) (trace : List (Nat × Effect A)) (rank : Nat)
    (effects : List (Effect A)) (silent : effects.filterMap Effect.exited = []) :
    exitsOf s (trace ++ effects.map (rank, ·)) = exitsOf s trace := by
  rw [exitsOf_append, silent, ite_self, List.append_nil]

theorem entriesOf_snoc (s : Nat) (trace : List (Nat × Effect A)) (rank : Nat) (e : Effect A)
    (silent : e.entry = none) : entriesOf s (trace ++ [(rank, e)]) = entriesOf s trace :=
  entriesOf_silent s trace rank [e] (by simp [silent])

theorem exitsOf_snoc (s : Nat) (trace : List (Nat × Effect A)) (rank : Nat) (e : Effect A)
    (silent : e.exited = none) : exitsOf s (trace ++ [(rank, e)]) = exitsOf s trace :=
  exitsOf_silent s trace rank [e] (by simp [silent])

end FluxPmix

import FluxPmix.CodecHeap
import FluxPmix.Namespace
import FluxPmix.Px
import Mathlib.Data.Multiset.Range

/-! From the plugin's first allocation to its last free. What has to be given back is a block: memory, a handle,
a watcher, the PMIx server and its registration of an event handler. A context that is partly made is destroyed,
and what `px_init` leaves on any of its ways out is freed by `px_destroy`. What a fence holds that still waits for
the other shells then is not. -/
namespace FluxPmix.Owned
open Blocks

structure FenceCall where
  block : Block
  procs : Option Block
  info : Option (Block × List DecodedInfo)

/-- `exitCbArg` is the fence that waits, from when the shell enters. A call that is destroyed already is none. -/
structure Session where
  block : Block
  exitCbArg : Option FenceCall
  requests : Option Block
  f : Option Block
  dataIn : Option Block
  dataOut : Option Block

structure Exchange where
  block : Block
  session : Option Session

structure Fence where
  block : Block
  exchange : Option Exchange

/-- `handler` is there if the id is not negative. -/
structure Notify where
  block : Block
  handler : Option Block

structure Handles where
  block : Block
  send : Option Block
  recv : Option Block
  w : Option Block

/-- A callback with its argument. -/
abbrev Table := FluxPmix.Interthread (PxHandler × Block)

/-- `table` is that of `it`, and `server` is there while the PMIx server runs. The global contexts are those here. -/
structure Px where
  block : Block
  it : Option Handles
  table : Table
  fence : Option Fence
  abort : Option Block
  dmodex : Option Block
  server : Option Block
  notify : Option Notify

def Px.fresh (block : Block) : Px := ⟨block, none, interthreadCreate, none, none, none, none, none⟩

/-! ### What is held -/

def FenceCall.owned (fxcall : FenceCall) : Multiset Block :=
  held fxcall.procs + (fxcall.info.elim 0 (fun info => ownedInfos info.2 + {info.1}) + {fxcall.block})

/-- What the session is destroyed with. -/
def Session.owned (ses : Session) : Multiset Block :=
  held ses.requests + (held ses.f + (held ses.dataIn + (held ses.dataOut + {ses.block})))

def Exchange.owned (xcg : Exchange) : Multiset Block := xcg.session.elim 0 Session.owned + {xcg.block}

def Fence.owned (fx : Fence) : Multiset Block := fx.exchange.elim 0 Exchange.owned + {fx.block}

def Notify.owned (notify : Notify) : Multiset Block := held notify.handler + {notify.block}

def Handles.owned (it : Handles) : Multiset Block := held it.w + (held it.send + (held it.recv + {it.block}))

def Px.owned (px : Px) : Multiset Block :=
  px.notify.elim 0 Notify.owned + (held px.server + (held px.abort + (px.fence.elim 0 Fence.owned +
    (held px.dmodex + (px.it.elim 0 Handles.owned + {px.block})))))

def Fence.session (fx : Fence) : Option Session := fx.exchange.bind Exchange.session

/-- The fence that waits. -/
def Px.pending (px : Px) : Option FenceCall := (px.fence.bind Fence.session).bind Session.exitCbArg

/-! ### Destruction -/

def fenceCallDestroy : Option FenceCall → Prog Unit
  | none => pure ()
  | some fxcall => do
    freeNullable fxcall.procs
    codecInfoArrayDestroy fxcall.info
    free fxcall.block

/-- Whoever waits for the session goes on waiting. -/
def sessionDestroy : Option Session → Prog Unit
  | none => pure ()
  | some ses => do
    freeNullable ses.requests
    freeNullable ses.f
    freeNullable ses.dataIn
    freeNullable ses.dataOut
    free ses.block

def exchangeDestroy : Option Exchange → Prog Unit
  | none => pure ()
  | some xcg => do
    sessionDestroy xcg.session
    free xcg.block

def fenceDestroy : Option Fence → Prog Unit
  | none => pure ()
  | some fx => do
    exchangeDestroy fx.exchange
    free fx.block

/-- A context with nothing of its own. -/
def contextDestroy : Option Block → Prog Unit := freeNullable

def abortDestroy : Option Block → Prog Unit := contextDestroy

def dmodexDestroy : Option Block → Prog Unit := contextDestroy

def notifyDestroy : Option Notify → Prog Unit
  | none => pure ()
  | some notify => do
    freeNullable notify.handler
    free notify.block

def interthreadDestroy : Option Handles → Prog Unit
  | none => pure ()
  | some it => do
    freeNullable it.w
    freeNullable it.send
    freeNullable it.recv
    free it.block

/-- Where no server runs, `PMIx_server_finalize` only warns. -/
def pxDestroy : Option Px → Prog Unit
  | none => pure ()
  | some px => do
    notifyDestroy px.notify
    freeNullable px.server
    abortDestroy px.abort
    fenceDestroy px.fence
    dmodexDestroy px.dmodex
    interthreadDestroy px.it
    free px.block

/-! ### Creation -/

/-- Which of the calls fail that leave nothing behind, and what is read about the job, if it can be. -/
structure PxCalls where
  auxSet : Bool := false
  job : Option Job
  exchangeInfo : Bool := false
  service : Bool := false
  registers : Bool := true

section

def interthreadCreate : Prog (Option Handles) := do
  let some block ← Blocks.malloc | return none
  let some send ← Blocks.malloc | do
    interthreadDestroy (some ⟨block, none, none, none⟩)
    return none
  let some recv ← Blocks.malloc | do
    interthreadDestroy (some ⟨block, some send, none, none⟩)
    return none
  let some w ← Blocks.malloc | do
    interthreadDestroy (some ⟨block, some send, some recv, none⟩)
    return none
  return some ⟨block, some send, some recv, some w⟩

/-- A context that only registers its handler. -/
def contextCreate (topic : String) (cb : PxHandler) (table : Table) : Prog (Option Block × Table) := do
  let some context ← Blocks.malloc | return (none, table)
  let (rc, table) := interthreadRegister table topic (cb, context)
  if rc < 0 then
    contextDestroy (some context)
    return (none, table)
  return (some context, table)

def abortCreate (table : Table) : Prog (Option Block × Table) := contextCreate "abort_upcall" .abort table

def dmodexCreate (table : Table) : Prog (Option Block × Table) := contextCreate "dmodex_upcall" .dmodex table

def exchangeCreate (calls : PxCalls) : Prog (Option Exchange) := do
  let some block ← Blocks.malloc | return none
  if calls.exchangeInfo || calls.service then
    exchangeDestroy (some ⟨block, none⟩)
    return none
  return some ⟨block, none⟩

/-- The handler stays registered where the exchange fails. -/
def fenceCreate (calls : PxCalls) (table : Table) : Prog (Option Fence × Table) := do
  let some block ← Blocks.malloc | return (none, table)
  let (rc, table) := interthreadRegister table "fence_upcall" (.fence, block)
  if rc < 0 then
    fenceDestroy (some ⟨block, none⟩)
    return (none, table)
  let some exchange ← exchangeCreate calls | do
    fenceDestroy (some ⟨block, none⟩)
    return (none, table)
  return (some ⟨block, some exchange⟩, table)

def notifyCreate (table : Table) : Prog (Option Notify × Table) := do
  let some block ← Blocks.malloc | return (none, table)
  let some handler ← Blocks.malloc | do
    notifyDestroy (some ⟨block, none⟩)
    return (none, table)
  let (rc, table) := interthreadRegister table "notify_upcall" (.notify, block)
  if rc < 0 then
    notifyDestroy (some ⟨block, some handler⟩)
    return (none, table)
  return (some ⟨block, some handler⟩, table)

/-- The return code, what the plugin holds, and the infos that were registered. -/
def pxInit [Hostlist] (lib : Libraries) (calls : PxCalls) :
    Prog (Int32 × Option Px × Option (List InfovecEntry)) := do
  let some block ← Blocks.malloc | return (-1, none, none)
  let px := Px.fresh block
  if calls.auxSet then
    pxDestroy (some px)
    return (-1, none, none)
  let some job := calls.job | return (-1, some px, none)
  let some it ← interthreadCreate | return (-1, some px, none)
  let px := { px with it := some it }
  let (fence, table) ← fenceCreate calls px.table
  let px := { px with fence := fence, table := table }
  if fence.isNone then
    return (-1, some px, none)
  let (abort, table) ← abortCreate px.table
  let px := { px with abort := abort, table := table }
  if abort.isNone then
    return (-1, some px, none)
  let (dmodex, table) ← dmodexCreate px.table
  let px := { px with dmodex := dmodex, table := table }
  if dmodex.isNone then
    return (-1, some px, none)
  let server ← Blocks.malloc
  let px := { px with server := server }
  if server.isNone then
    return (-1, some px, none)
  let (notify, table) ← notifyCreate px.table
  let px := { px with notify := notify, table := table }
  if notify.isNone then
    return (-1, some px, none)
  let (rc, infos) ← registerNspace lib job calls.registers
  return (rc, some px, infos)

end

/-! ### Destruction frees what is held -/

theorem fenceCallDestroy_owned (fxcall : Option FenceCall) :
    Triple lack (fxcall.elim 0 FenceCall.owned) (fenceCallDestroy fxcall) fun _ own => own = 0 := by
  cases fxcall with
  | none => exact Triple.pure rfl
  | some fxcall =>
    have infos : Triple lack (fxcall.info.elim 0 fun info => ownedInfos info.2 + {info.1})
        (codecInfoArrayDestroy fxcall.info) fun _ own => own = 0 := by
      cases fxcall.info with
      | none => exact Triple.pure rfl
      | some info => exact codecInfoArrayDestroy_owned info.1 info.2
    exact (Triple.freeNullable _).release (infos.release Triple.free)

/-- A call has at least its own block. -/
theorem pending_owned (fxcall : Option FenceCall) : fxcall.elim 0 FenceCall.owned = 0 ↔ fxcall = none := by
  cases fxcall with
  | none => exact ⟨fun _ => rfl, fun _ => rfl⟩
  | some fxcall =>
    refine ⟨fun none => ?_, fun same => by cases same⟩
    have own : fxcall.block ∈ fxcall.owned :=
      Multiset.mem_add.mpr (.inr (Multiset.mem_add.mpr (.inr (Multiset.mem_singleton_self _))))
    have none : fxcall.owned = 0 := none
    rw [none] at own
    cases own

theorem sessionDestroy_owned (ses : Option Session) :
    Triple lack (ses.elim 0 Session.owned) (sessionDestroy ses) fun _ own => own = 0 := by
  cases ses with
  | none => exact Triple.pure rfl
  | some ses =>
    exact (Triple.freeNullable _).release ((Triple.freeNullable _).release ((Triple.freeNullable _).release
      ((Triple.freeNullable _).release Triple.free)))

theorem exchangeDestroy_owned (xcg : Option Exchange) :
    Triple lack (xcg.elim 0 Exchange.owned) (exchangeDestroy xcg) fun _ own => own = 0 := by
  cases xcg with
  | none => exact Triple.pure rfl
  | some xcg => exact (sessionDestroy_owned _).release Triple.free

theorem fenceDestroy_owned (fx : Option Fence) :
    Triple lack (fx.elim 0 Fence.owned) (fenceDestroy fx) fun _ own => own = 0 := by
  cases fx with
  | none => exact Triple.pure rfl
  | some fx => exact (exchangeDestroy_owned _).release Triple.free

theorem notifyDestroy_owned (notify : Option Notify) :
    Triple lack (notify.elim 0 Notify.owned) (notifyDestroy notify) fun _ own => own = 0 := by
  cases notify with
  | none => exact Triple.pure rfl
  | some notify => exact (Triple.freeNullable _).release Triple.free

theorem interthreadDestroy_owned (it : Option Handles) :
    Triple lack (it.elim 0 Handles.owned) (interthreadDestroy it) fun _ own => own = 0 := by
  cases it with
  | none => exact Triple.pure rfl
  | some it =>
    exact (Triple.freeNullable _).release ((Triple.freeNullable _).release
      ((Triple.freeNullable _).release Triple.free))

theorem pxDestroy_owned (px : Option Px) :
    Triple lack (px.elim 0 Px.owned) (pxDestroy px) fun _ own => own = 0 := by
  cases px with
  | none => exact Triple.pure rfl
  | some px =>
    exact (notifyDestroy_owned _).release ((Triple.freeNullable _).release ((Triple.freeNullable _).release
      ((fenceDestroy_owned _).release ((Triple.freeNullable _).release ((interthreadDestroy_owned _).release
        Triple.free)))))

/-! ### Who serves the upcalls -/

def topicOf : PxHandler → String
  | .fence => "fence_upcall"
  | .abort => "abort_upcall"
  | .dmodex => "dmodex_upcall"
  | .notify => "notify_upcall"

def handlerOf (context : PxHandler × Block) : Handler (PxHandler × Block) :=
  ⟨strlcpy 31 (literal (topicOf context.1)), context⟩

/-- The contexts that are there, in the order they are made. -/
def Px.contexts (px : Px) : List (PxHandler × Block) :=
  (px.fence.map fun fx => (.fence, fx.block)).toList ++ ((px.abort.map (.abort, ·)).toList ++
    ((px.dmodex.map (.dmodex, ·)).toList ++ (px.notify.map fun notify => (.notify, notify.block)).toList))

/-- The handlers are those of the contexts there are, and these include all the server calls back for. -/
structure Px.Serving (px : Px) : Prop where
  handlers : px.table.handlers = px.contexts.map handlerOf
  contexts : [.fence, .abort, .dmodex] <+: px.contexts.map Prod.fst

/-- Why `px_init` may fail. -/
inductive Excused [Hostlist] (lack : Prop) (lib : Libraries) (calls : PxCalls) : Prop where
  | memory (failed : lack)
  | auxSet (refused : calls.auxSet = true)
  | job (unread : calls.job = none)
  | exchangeInfo (refused : calls.exchangeInfo = true)
  | service (refused : calls.service = true)
  | register (refused : calls.registers = false)
  | text (job : Job) (nodeMap : Option CString) (read : calls.job = some job)
      (possible : nodeMap ∈ nodeMaps lack job.info) (unmade : namespaceEntries lib job nodeMap = none)

/-! ### Creation -/

section
variable {lack : Prop}

theorem interthreadCreate_spec : Triple lack 0 interthreadCreate fun it own =>
    own = it.elim 0 Handles.owned ∧ (it = none → lack) := by
  have abandoned {own : Multiset Block} (it : Handles) (failed : lack)
      (made : own = it.owned) : Triple lack own (interthreadDestroy (some it) >>= fun _ => pure none) fun it own =>
        own = it.elim 0 Handles.owned ∧ (it = none → lack) := by
    rw [made]
    refine (interthreadDestroy_owned (some it)).bind ?_
    rintro _ _ rfl
    exact Triple.pure ⟨rfl, fun _ => failed⟩
  refine Triple.malloc.bind ?_
  rintro block _ ⟨rfl, failed⟩
  cases block with
  | none => exact Triple.pure ⟨rfl, fun _ => failed rfl⟩
  | some block =>
    refine Triple.malloc.step (zero_add _).symm ?_
    rintro send _ ⟨rfl, failed⟩
    cases send with
    | none => exact abandoned ⟨block, none, none, none⟩ (failed rfl) rfl
    | some send =>
      refine Triple.malloc.step (zero_add _).symm ?_
      rintro recv _ ⟨rfl, failed⟩
      cases recv with
      | none =>
        refine abandoned ⟨block, some send, none, none⟩ (failed rfl) ?_
        simp only [Handles.owned, held]
        ac_rfl
      | some recv =>
        refine Triple.malloc.step (zero_add _).symm ?_
        rintro w _ ⟨rfl, failed⟩
        cases w with
        | none =>
          refine abandoned ⟨block, some send, some recv, none⟩ (failed rfl) ?_
          simp only [Handles.owned, held]
          ac_rfl
        | some w =>
          refine Triple.pure ⟨?_, fun same => by cases same⟩
          change held (some w) + (held (some recv) + (held (some send) + held (some block))) =
            held (some w) + (held (some send) + (held (some recv) + held (some block)))
          ac_rfl

/-- A table with room takes the handler on. -/
theorem interthreadRegister_room {table : Table} (topic : String) (cb : PxHandler × Block)
    (room : table.handlers.length < maxHandlers) : ∃ after, interthreadRegister table topic cb = (0, after) ∧
      after.handlers = table.handlers ++ [⟨strlcpy 31 (literal topic), cb⟩] :=
  ⟨_, dif_neg (Nat.ne_of_lt room), rfl⟩

theorem contextCreate_spec (table : Table) (topic : String) (cb : PxHandler)
    (room : table.handlers.length < maxHandlers) : Triple lack 0 (contextCreate topic cb table) fun out own =>
      own = held out.1 ∧ (out.1 = none ∧ lack ∨ ∃ context, out.1 = some context ∧
        out.2.handlers = table.handlers ++ [⟨strlcpy 31 (literal topic), (cb, context)⟩]) := by
  refine Triple.malloc.bind ?_
  rintro context _ ⟨rfl, failed⟩
  cases context with
  | none => exact Triple.pure ⟨rfl, .inl ⟨rfl, failed rfl⟩⟩
  | some context =>
    obtain ⟨after, registered, handlers⟩ := interthreadRegister_room topic (cb, context) room
    simp only [registered]
    exact Triple.pure ⟨rfl, .inr ⟨context, rfl, handlers⟩⟩

theorem exchangeCreate_spec (calls : PxCalls) : Triple lack 0 (exchangeCreate calls) fun xcg own =>
    own = xcg.elim 0 Exchange.owned ∧ xcg.bind Exchange.session = none ∧
      (xcg = none → lack ∨ (calls.exchangeInfo || calls.service) = true) := by
  refine Triple.malloc.bind ?_
  rintro block _ ⟨rfl, failed⟩
  cases block with
  | none => exact Triple.pure ⟨rfl, rfl, fun _ => .inl (failed rfl)⟩
  | some block =>
    have made : held (some block) = Exchange.owned ⟨block, none⟩ := (zero_add _).symm
    rw [made]
    cases refused : calls.exchangeInfo || calls.service with
    | true =>
      refine (exchangeDestroy_owned (some ⟨block, none⟩)).bind ?_
      rintro _ _ rfl
      exact Triple.pure ⟨rfl, rfl, fun _ => .inr rfl⟩
    | false => exact Triple.pure ⟨rfl, rfl, fun same => by cases same⟩

theorem fenceCreate_spec (table : Table) (calls : PxCalls) (room : table.handlers.length < maxHandlers) :
    Triple lack 0 (fenceCreate calls table) fun out own => own = out.1.elim 0 Fence.owned ∧
      (out.1 = none ∧ (lack ∨ (calls.exchangeInfo || calls.service) = true) ∨
        ∃ fx, out.1 = some fx ∧ fx.session = none ∧
          out.2.handlers = table.handlers ++ [handlerOf (.fence, fx.block)]) := by
  refine Triple.malloc.bind ?_
  rintro block _ ⟨rfl, failed⟩
  cases block with
  | none => exact Triple.pure ⟨rfl, .inl ⟨rfl, .inl (failed rfl)⟩⟩
  | some block =>
    obtain ⟨after, registered, handlers⟩ := interthreadRegister_room "fence_upcall" (.fence, block) room
    simp only [registered]
    refine (exchangeCreate_spec calls).step (zero_add _).symm ?_
    rintro xcg _ ⟨rfl, fresh, why⟩
    cases xcg with
    | none =>
      refine (fenceDestroy_owned (some ⟨block, none⟩)).bind ?_
      rintro _ _ rfl
      exact Triple.pure ⟨rfl, .inl ⟨rfl, why rfl⟩⟩
    | some xcg => exact Triple.pure ⟨rfl, .inr ⟨_, rfl, fresh, handlers⟩⟩

theorem notifyCreate_spec (table : Table) (room : table.handlers.length < maxHandlers) :
    Triple lack 0 (notifyCreate table) fun out own => own = out.1.elim 0 Notify.owned ∧
      (out = (none, table) ∧ lack ∨ ∃ notify, out.1 = some notify ∧
        out.2.handlers = table.handlers ++ [handlerOf (.notify, notify.block)]) := by
  refine Triple.malloc.bind ?_
  rintro block _ ⟨rfl, failed⟩
  cases block with
  | none => exact Triple.pure ⟨rfl, .inl ⟨rfl, failed rfl⟩⟩
  | some block =>
    refine Triple.malloc.step (zero_add _).symm ?_
    rintro handler _ ⟨rfl, failed⟩
    cases handler with
    | none =>
      refine (notifyDestroy_owned (some ⟨block, none⟩)).bind ?_
      rintro _ _ rfl
      exact Triple.pure ⟨rfl, .inl ⟨rfl, failed rfl⟩⟩
    | some handler =>
      obtain ⟨after, registered, handlers⟩ := interthreadRegister_room "notify_upcall" (.notify, block) room
      simp only [registered]
      exact Triple.pure ⟨rfl, .inr ⟨_, rfl, handlers⟩⟩

/-! ### The whole of it -/

/-- What `px_init` leaves: a plugin in which no fence waits, whose handlers serve once the server runs, in full if
it succeeds. -/
structure Left [Hostlist] (lack : Prop) (lib : Libraries) (calls : PxCalls) (rc : Int32) (px : Option Px)
    (infos : Option (List InfovecEntry)) : Prop where
  waiting : ∀ p, px = some p → p.pending = none
  serving : ∀ p, px = some p → p.server.isSome → p.Serving
  result : rc = -1 ∧ Excused lack lib calls ∨ rc = 0 ∧ ∃ p job nodeMap, px = some p ∧ calls.job = some job ∧
    p.server.isSome ∧ p.table.handlers.map (fun handler => ⟨handler.topic, handler.cb.1⟩) = pxHandlers.handlers ∧
    nodeMap ∈ nodeMaps lack job.info ∧ infos.isSome ∧ infos = namespaceEntries lib job nodeMap

variable [Hostlist] {lib : Libraries} {calls : PxCalls}

/-- A way out before the server is started. -/
theorem Left.early {own : Multiset Block} (px : Px) (idle : px.server = none) (fresh : px.pending = none)
    (holds : own = px.owned) (excused : Excused lack lib calls) :
    Triple lack own (pure ((-1 : Int32), some px, none)) fun out own =>
      own = out.2.1.elim 0 Px.owned ∧ Left lack lib calls out.1 out.2.1 out.2.2 := by
  refine Triple.pure ⟨holds, fun p same => ?_, fun p same started => ?_, .inl ⟨rfl, excused⟩⟩
  · cases same
    exact fresh
  · cases same
    rw [idle] at started
    cases started

theorem Excused.ofExchange (refused : lack ∨ (calls.exchangeInfo || calls.service) = true) :
    Excused lack lib calls := by
  rcases refused with failed | refused
  · exact .memory failed
  · rcases (Bool.or_eq_true _ _).mp refused with info | service
    · exact .exchangeInfo info
    · exact .service service

/-- The registration succeeds with the whole namespace, or there is a reason. -/
theorem Registered.result {job : Job} {out : Int32 × Option (List InfovecEntry)} (read : calls.job = some job)
    (registered : Registered lib job calls.registers lack out) : out.1 = -1 ∧ Excused lack lib calls ∨
      out.1 = 0 ∧ ∃ nodeMap ∈ nodeMaps lack job.info, out.2.isSome ∧ out.2 = namespaceEntries lib job nodeMap := by
  obtain ⟨nodeMap, possible, ⟨rfl, unmade | failed⟩ | ⟨made, entries, rfl, _⟩⟩ := registered
  · exact .inl ⟨rfl, .text job nodeMap read possible unmade⟩
  · exact .inl ⟨rfl, .memory failed⟩
  · cases registers : calls.registers with
    | false => exact .inl ⟨rfl, .register registers⟩
    | true => exact .inr ⟨rfl, nodeMap, possible, rfl, entries.symm⟩

theorem pxInit_spec (room : ∀ job, calls.job = some job → 11 + job.totalNprocs.toNatClampNeg ≤ infovecMax) :
    Triple lack 0 (pxInit lib calls) fun out own =>
      own = out.2.1.elim 0 Px.owned ∧ Left lack lib calls out.1 out.2.1 out.2.2 := by
  refine Triple.malloc.bind ?_
  rintro (_ | block) _ ⟨rfl, failed⟩
  · have excused : Excused lack lib calls := .memory (failed rfl)
    exact Triple.pure ⟨rfl, (fun _ same => by cases same), (fun _ same => by cases same), .inl ⟨rfl, excused⟩⟩
  have fresh : held (some block) = (Px.fresh block).owned := by simp [Px.owned, Px.fresh, held]
  rw [fresh]
  rcases auxSet : calls.auxSet with _ | _
  case true =>
    refine (pxDestroy_owned (some (Px.fresh block))).bind ?_
    rintro _ _ rfl
    exact Triple.pure ⟨rfl, (fun _ same => by cases same), (fun _ same => by cases same), .inl ⟨rfl, .auxSet auxSet⟩⟩
  rcases read : calls.job with _ | job
  · exact Left.early _ rfl rfl rfl (.job read)
  refine interthreadCreate_spec.step (zero_add _).symm ?_
  rintro (_ | it) _ ⟨rfl, why⟩
  · exact Left.early _ rfl rfl (zero_add _) (.memory (why rfl))
  refine (fenceCreate_spec FluxPmix.interthreadCreate calls (Nat.zero_lt_succ 31)).step (zero_add _).symm ?_
  rintro ⟨_, table⟩ _ ⟨rfl, ⟨rfl, refused⟩ | ⟨fx, rfl, fresh, withFence⟩⟩
  · refine Left.early _ rfl rfl ?_ (.ofExchange refused)
    simp only [Px.owned, Px.fresh, held, Option.elim, zero_add]
  have waiting : fx.session.bind Session.exitCbArg = none := by
    rw [fresh]
    rfl
  have fenced : table.handlers = [handlerOf (.fence, fx.block)] := withFence
  have roomAbort : table.handlers.length < maxHandlers := by simp [fenced, maxHandlers]
  refine (contextCreate_spec table "abort_upcall" .abort roomAbort).step (zero_add _).symm ?_
  rintro ⟨_, table⟩ _ ⟨rfl, ⟨rfl, failed⟩ | ⟨abort, rfl, withAbort⟩⟩
  · refine Left.early _ rfl waiting ?_ (.memory failed)
    simp only [Px.owned, Px.fresh, held, Option.elim, zero_add]
  have aborting : table.handlers = [handlerOf (.fence, fx.block), handlerOf (.abort, abort)] := by
    rw [withAbort, fenced]
    rfl
  have roomDmodex : table.handlers.length < maxHandlers := by simp [aborting, maxHandlers]
  refine (contextCreate_spec table "dmodex_upcall" .dmodex roomDmodex).step (zero_add _).symm ?_
  rintro ⟨_, table⟩ _ ⟨rfl, ⟨rfl, failed⟩ | ⟨dmodex, rfl, withDmodex⟩⟩
  · refine Left.early _ rfl waiting ?_ (.memory failed)
    simp only [Px.owned, Px.fresh, held, Option.elim, zero_add]
  have looking : table.handlers =
      [handlerOf (.fence, fx.block), handlerOf (.abort, abort), handlerOf (.dmodex, dmodex)] := by
    rw [withDmodex, aborting]
    rfl
  refine Triple.malloc.step (zero_add _).symm ?_
  rintro (_ | server) _ ⟨rfl, failed⟩
  · refine Left.early _ rfl waiting ?_ (.memory (failed rfl))
    simp only [Px.owned, Px.fresh, held, Option.elim, zero_add]
    ac_rfl
  have roomNotify : table.handlers.length < maxHandlers := by simp [looking, maxHandlers]
  refine (notifyCreate_spec table roomNotify).step (zero_add _).symm ?_
  rintro ⟨_, after⟩ _ ⟨rfl, ⟨same, failed⟩ | ⟨notify, rfl, withNotify⟩⟩
  · cases same
    refine Triple.pure ⟨?_, fun p same => ?_, fun p same _ => ?_, .inl ⟨rfl, .memory failed⟩⟩
    · simp only [Px.owned, Px.fresh, held, Option.elim, zero_add]
      ac_rfl
    · cases same
      exact waiting
    · cases same
      exact ⟨looking, List.prefix_rfl⟩
  have notified : after.handlers = [handlerOf (.fence, fx.block), handlerOf (.abort, abort),
      handlerOf (.dmodex, dmodex), handlerOf (.notify, notify.block)] := by
    rw [withNotify, looking]
    rfl
  refine (registerNspace_spec lib job calls.registers (room job read)).step (zero_add _).symm ?_
  rintro ⟨rc, infos⟩ _ ⟨rfl, registered⟩
  refine Triple.pure ⟨?_, fun p same => ?_, fun p same _ => ?_, ?_⟩
  · simp only [Px.owned, Px.fresh, held, Option.elim, zero_add]
    ac_rfl
  · cases same
    exact waiting
  · cases same
    exact ⟨notified, ⟨[.notify], rfl⟩⟩
  · rcases registered.result read with refused | ⟨ended, nodeMap, possible, made, entries⟩
    · exact .inl refused
    · refine .inr ⟨ended, _, job, nodeMap, rfl, read, rfl, ?_, possible, made, entries⟩
      simp only [notified]
      rfl

end

/-- A context is among what the plugin holds. -/
theorem Px.contexts_owned (px : Px) : ∀ context ∈ px.contexts, context.2 ∈ px.owned := by
  intro context member
  simp only [Px.contexts, List.mem_append, Option.mem_toList, Option.map_eq_some_iff] at member
  simp only [Px.owned, Multiset.mem_add]
  rcases member with ⟨fx, here, rfl⟩ | ⟨abort, here, rfl⟩ | ⟨dmodex, here, rfl⟩ | ⟨notify, here, rfl⟩ <;> rw [here]
  · exact .inr (.inr (.inr (.inl (Multiset.mem_add.mpr (.inr (Multiset.mem_singleton_self _))))))
  · exact .inr (.inr (.inl (Multiset.mem_singleton_self _)))
  · exact .inr (.inr (.inr (.inr (.inl (Multiset.mem_singleton_self _)))))
  · exact .inl (Multiset.mem_add.mpr (.inr (Multiset.mem_singleton_self _)))

/-- Whatever fails while the plugin starts, it holds exactly what is not given back yet, and once the server runs
every handler has an argument that is there. When it ends, whatever it holds is given back, once, but for a fence
that still waits: destroying that too would give back the rest. -/
theorem px_lifecycle [Hostlist] (lib : Libraries) (calls : PxCalls) (heap : Heap)
    (room : ∀ job, calls.job = some job → 11 + job.totalNprocs.toNatClampNeg ≤ infovecMax) :
    ∃ rc px infos started, pxInit lib calls heap = some ((rc, px, infos), started) ∧
      started.live = heap.live + px.elim 0 Px.owned ∧ Left (heap.Refused started) lib calls rc px infos ∧
      (∀ p, px = some p → p.server.isSome → ∀ handler ∈ p.table.handlers, handler.cb.2 ∈ started.live) ∧
      ∀ (now : Option Px) (later : Heap),
        later.live = heap.live + (now.bind Px.pending).elim 0 FenceCall.owned + now.elim 0 Px.owned →
        ∃ after, pxDestroy now later = some ((), after) ∧
          after.live = heap.live + (now.bind Px.pending).elim 0 FenceCall.owned ∧
          (after.live = heap.live ↔ now.bind Px.pending = none) ∧
          ∃ final, fenceCallDestroy (now.bind Px.pending) after = some ((), final) ∧ final.live = heap.live := by
  obtain ⟨⟨rc, px, infos⟩, started, own, ran, live, rfl, left⟩ :=
    Triple.attempted (fun lack => @pxInit_spec lack _ lib calls room) (add_zero heap.live).symm
  refine ⟨rc, px, infos, started, ran, live, left, ?_, ?_⟩
  · rintro p rfl server handler member
    rw [(left.serving p rfl server).handlers] at member
    obtain ⟨context, inside, rfl⟩ := List.mem_map.mp member
    rw [live]
    exact Multiset.mem_add.mpr (.inr (p.contexts_owned context inside))
  · intro now later holds
    obtain ⟨_, after, _, ended, given, rfl⟩ := (pxDestroy_owned now).run holds
    rw [add_zero] at given
    obtain ⟨_, final, _, destroyed, rest, rfl⟩ := (fenceCallDestroy_owned (now.bind Px.pending)).run given
    refine ⟨after, ended, given, ?_, final, destroyed, rest.trans (add_zero _)⟩
    rw [given, add_eq_left, pending_owned]

/-- A fence with one info, whose text has a block. -/
def waitingCall : FenceCall where
  block := 14
  procs := some 15
  info := some (16, [⟨strlcpy pmixMaxKeylen (literal "note"), 0, .string 17 (cString [97])⟩])

def waitingPx : Px :=
  { Px.fresh 0 with
    it := some ⟨1, some 2, some 3, some 4⟩
    fence := some ⟨5, some ⟨6, some ⟨7, some waitingCall, some 12, none, some 13, none⟩⟩⟩
    abort := some 8
    dmodex := some 9
    server := some 10
    notify := some ⟨11, none⟩ }

def waitingHeap : Heap where
  live := Multiset.range 18
  next := 18
  fails _ := false
  below _ := Multiset.mem_range.mp
  distinct := Multiset.nodup_range 18

/-- A plugin that starts, serves a job of four tasks and ends, and one that ends while a fence waits. -/
theorem px_lifecycle_sample :
    (∃ px infos started after,
      @pxInit singleHosts cyclicLibraries { job := some cyclicJob } (.empty fun _ => false) =
        some ((0, some px, some infos), started) ∧
      pxDestroy (some px) started = some ((), after) ∧ after.live = 0) ∧
    ∃ after, pxDestroy (some waitingPx) waitingHeap = some ((), after) ∧ after.live = {14, 15, 16, 17} := by
  have room : ∀ job, some cyclicJob = some job → 11 + job.totalNprocs.toNatClampNeg ≤ infovecMax := by
    rintro _ ⟨⟩
    decide
  obtain ⟨rc, px, infos, started, ran, live, left, _, ends⟩ :=
    @px_lifecycle singleHosts cyclicLibraries { job := some cyclicJob } (.empty fun _ => false) room
  constructor
  · rcases left with ⟨waiting, _, ⟨_, excused⟩ | ⟨rfl, p, _, _, rfl, _, _, _, _, some, _⟩⟩
    · cases excused with
      | memory failed =>
        obtain ⟨_, _, _, failed⟩ := failed
        cases failed
      | auxSet refused => cases refused
      | job unread => cases unread
      | exchangeInfo refused => cases refused
      | service refused => cases refused
      | register refused => cases refused
      | text job nodeMap read possible unmade =>
        cases read
        obtain ⟨copyFails, _, rfl⟩ := possible
        have made := cyclicEntries_made copyFails
        rw [unmade] at made
        cases made
    · obtain ⟨infos, rfl⟩ := Option.isSome_iff_exists.mp some
      have nothing : p.pending = none := waiting p rfl
      have holds : started.live = 0 + p.pending.elim 0 FenceCall.owned + p.owned := by
        rw [nothing]
        exact live
      obtain ⟨after, ended, _, given, _⟩ := ends p started holds
      exact ⟨p, infos, started, after, ran, ended, given.mpr nothing⟩
  · obtain ⟨after, ended, given, _⟩ := ends waitingPx waitingHeap (by decide +kernel)
    exact ⟨after, ended, given.trans (by decide +kernel)⟩

end FluxPmix.Owned

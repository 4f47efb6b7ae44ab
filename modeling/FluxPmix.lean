import FluxPmix.Mealy
import FluxPmix.Blocks
import FluxPmix.ParentTree
import FluxPmix.TreeGather
import FluxPmix.Locals
import FluxPmix.Placement
import FluxPmix.Sweep
import FluxPmix.Handoff
import FluxPmix.CInt
import FluxPmix.Jansson
import FluxPmix.Base64Proofs
import FluxPmix.CodecProofs
import FluxPmix.CodecDataProofs
import FluxPmix.CodecDataLimits
import FluxPmix.Base64Alphabet
import FluxPmix.CodecFormat
import FluxPmix.Exchange.SessionProofs
import FluxPmix.Exchange.Hooks
import FluxPmix.Exchange.Lifecycle
import FluxPmix.Exchange.Topology
import FluxPmix.Exchange.KaryTree
import FluxPmix.Exchange.Answers
import FluxPmix.Exchange.Network
import FluxPmix.Exchange.Senders
import FluxPmix.Exchange.Simulation
import FluxPmix.Exchange.Agreement
import FluxPmix.Exchange.Rounds
import FluxPmix.Exchange.Progress
import FluxPmix.Exchange.Refusal
import FluxPmix.Exchange.DataProofs
import FluxPmix.Upcall
import FluxPmix.Interthread
import FluxPmix.Abort
import FluxPmix.Fence
import FluxPmix.FenceProofs
import FluxPmix.FenceUpcall
import FluxPmix.FenceAdmission
import FluxPmix.Notify
import FluxPmix.UpcallCleanup
import FluxPmix.Taskmap
import FluxPmix.Dmodex
import FluxPmix.Infovec
import FluxPmix.InfovecContents
import FluxPmix.ProcInfos
import FluxPmix.Maps
import FluxPmix.UnsetenvGlob
import FluxPmix.Px
import FluxPmix.PxAnswers
import FluxPmix.FenceLedger
import FluxPmix.Job
import FluxPmix.JobProgress
import FluxPmix.PxFences
import FluxPmix.Lifecycle
import FluxPmix.TaskInit
import FluxPmix.Strlcpy
import FluxPmix.CodecHeap

import Vmctx.PageTransfer.Exclusion
import Vmctx.PageTransfer.Settled
import Vmctx.Custody.Recall
import Vmctx.Custody.Faults
import Vmctx.Custody.Transit
import Vmctx.Custody.Replay
import Vmctx.Custody.PokeContract
import Vmctx.Journal.Contract
import Vmctx.Gate.NoWedge
import Vmctx.Connection.Contract
import Vmctx.Execution.Fenced
import Vmctx.Registry.History
import Vmctx.Slots.Quiesce
import Vmctx.Slots.Lifetime
import Vmctx.SharedFile.Reclaim
import Vmctx.Layout.Access
import Vmctx.Layout.Covering
import Vmctx.Pulls
import Vmctx.Events.Delivery
import Vmctx.Ownership.Service
import Vmctx.Ownership.Futex
import Vmctx.Execution.MmCallers
import Vmctx.Execution.Replacement
import Vmctx.Lineage
import Vmctx.SharedFile.Pages
import Vmctx.Installed
import Vmctx.Retained
import Vmctx.CpuModel
import Vmctx.Runtime.Charging
import Vmctx.ExtendedState
import Vmctx.ChildPages

import ObjectRuntime.Frame.Transcript
import ObjectRuntime.Hierarchy.Transcript
import ObjectRuntime.Interner.Transcript
import ObjectRuntime.Proofs.Collector.Audit
import ObjectRuntime.Proofs.Collector.Guards
import ObjectRuntime.Proofs.Collector.Handles
import ObjectRuntime.Proofs.Collector.Pruning
import ObjectRuntime.Proofs.Dispatch.Direct
import ObjectRuntime.Proofs.Dispatch.Editing
import ObjectRuntime.Proofs.Dispatch.Identities
import ObjectRuntime.Proofs.Dispatch.Including
import ObjectRuntime.Proofs.Dispatch.Integers
import ObjectRuntime.Proofs.Dispatch.ObjectIds
import ObjectRuntime.Proofs.Dispatch.Receivers
import ObjectRuntime.Proofs.Dispatch.Replies
import ObjectRuntime.Proofs.Dispatch.SuperOrder
import ObjectRuntime.Proofs.Frame.Assignment
import ObjectRuntime.Proofs.Hierarchy.Inherits
import ObjectRuntime.Proofs.Hierarchy.SuperWalk
import ObjectRuntime.Proofs.Interner.Sharing
import ObjectRuntime.Proofs.Machine.Constants
import ObjectRuntime.Proofs.Machine.Depth
import ObjectRuntime.Proofs.Machine.Frozen
import ObjectRuntime.Proofs.Machine.Literals
import ObjectRuntime.Proofs.Numbered.Sessions
import ObjectRuntime.Proofs.Settings.CallDepth
import ObjectRuntime.Proofs.Unwind.Backtraces
import ObjectRuntime.Proofs.Unwind.Openings
import ObjectRuntime.Proofs.Unwind.Programs
import ObjectRuntime.Session
import ObjectRuntime.Store.Transcript
import ObjectRuntime.Trial

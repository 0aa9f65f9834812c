import NpuRuntime.Main
import NpuRuntime.Proofs.Creation.Repetition
import NpuRuntime.Proofs.Slice.Made
import NpuRuntime.Proofs.Selection.Devices
import NpuRuntime.Proofs.Selection.Options
import NpuRuntime.Proofs.Creation.Allocating
import NpuRuntime.Proofs.Query.Scripted
import NpuRuntime.Proofs.Creation.Rewritten
import NpuRuntime.Proofs.Host.Leading
import NpuRuntime.Proofs.Trust.Resolution
import NpuRuntime.Proofs.Query.Ranges
import NpuRuntime.Proofs.Slice.Freed
import NpuRuntime.Proofs.Host.Passing
import NpuRuntime.Proofs.Trust.Acceptance
import NpuRuntime.Proofs.Creation.Writing
import NpuRuntime.Proofs.Query.Enumeration
import NpuRuntime.Proofs.Slice.Placed
import NpuRuntime.Proofs.Bundle.Growth
import NpuRuntime.Proofs.Creation.Adding
import NpuRuntime.Proofs.Creation.Protocol
import NpuRuntime.Proofs.Creation.Appending
import NpuRuntime.Proofs.Query.Sessions
import NpuRuntime.Proofs.Creation.Sessions
import NpuRuntime.Proofs.Query.Handles
import NpuRuntime.Proofs.Bundle.Fitting
import NpuRuntime.Proofs.Creation.Storing
import NpuRuntime.Proofs.Creation.Counting
import NpuRuntime.Proofs.Command.Stopped
import NpuRuntime.Proofs.Trust.Alike
import NpuRuntime.Proofs.Mount.Flags
import NpuRuntime.Proofs.Creation.Taking
import NpuRuntime.Proofs.Creation.Rereading
import NpuRuntime.Proofs.Creation.Unrelated
import NpuRuntime.Proofs.Creation.Injecting
import NpuRuntime.Proofs.Mount.Confined
import NpuRuntime.Proofs.Bundle.Access
import NpuRuntime.Proofs.Selection.Grammar
import NpuRuntime.Proofs.Trust.Canonical
import NpuRuntime.Proofs.Trust.Normalized
import NpuRuntime.Proofs.Query.Metadata
import NpuRuntime.Proofs.Launch.Hits
import NpuRuntime.Proofs.Environment.Setting
import NpuRuntime.Proofs.Creation.Scanning
import NpuRuntime.Proofs.Mount.Whole
import NpuRuntime.Proofs.Mount.Orders
import NpuRuntime.Proofs.Environment.Extending
import NpuRuntime.Proofs.Selection.Listing
import NpuRuntime.Proofs.Slice.Named
import NpuRuntime.Proofs.Query.Buffers
import NpuRuntime.Proofs.Slice.Bounded

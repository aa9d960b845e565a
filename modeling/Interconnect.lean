import Interconnect.Document.Values
import Interconnect.Pci.Routing
import Interconnect.System.Gates
import Interconnect.System.Targets
import Interconnect.Proofs.Bus
import Interconnect.Proofs.Bus.Map
import Interconnect.Proofs.Bus.Translation
import Interconnect.Proofs.Clock
import Interconnect.Proofs.Memory
import Interconnect.Proofs.Monitor
import Interconnect.Proofs.Monitor.Carving
import Interconnect.Proofs.Monitor.History
import Interconnect.Proofs.Range.Text
import Interconnect.Proofs.Range.Render
import Interconnect.Proofs.Range.Sets
import Interconnect.Proofs.Window.Pointer
import Interconnect.Proofs.Window.Cache
import Interconnect.Proofs.Window.Tidy
import Interconnect.Proofs.Window.Offers
import Interconnect.Proofs.Window.Limit
import Interconnect.Proofs.Window.Canonical
import Interconnect.Proofs.Window.Recency
import Interconnect.Proofs.Window.Eviction
import Interconnect.Proofs.Withdrawal.Reach
import Interconnect.Proofs.Withdrawal.Exact
import Interconnect.Proofs.Withdrawal.Circles
import Interconnect.Proofs.Withdrawal.Relay
import Interconnect.Proofs.Transfer.Plan
import Interconnect.Proofs.Transfer.Patch
import Interconnect.Proofs.Gate.Effect
import Interconnect.Proofs.Gate.Access
import Interconnect.Proofs.Gate.Null
import Interconnect.Proofs.Gate.Exclusion
import Interconnect.Proofs.Gate.Backing
import Interconnect.Proofs.Gate.Contiguous
import Interconnect.Proofs.Gate.Transport
import Interconnect.Proofs.Gate.Calls
import Interconnect.Proofs.Gate.Admission
import Interconnect.Proofs.Gate.Shortcut
import Interconnect.Proofs.Gate.History
import Interconnect.Proofs.Gate.Response
import Interconnect.Proofs.Gate.Course
import Interconnect.Proofs.Gate.Report
import Interconnect.Proofs.Gate.Streaming
import Interconnect.Proofs.Gate.Burst
import Interconnect.Proofs.Gate.Cycles
import Interconnect.Proofs.Gate.Completion
import Interconnect.Proofs.Gate.Eligibility
import Interconnect.Proofs.Gate.Debug
import Interconnect.Proofs.Pci.Registers
import Interconnect.Proofs.Pci.Grant
import Interconnect.Proofs.Pci.Bridge
import Interconnect.Proofs.Pci.History
import Interconnect.Proofs.Pci.Lines
import Interconnect.Proofs.Pci.Calls
import Interconnect.Proofs.Pci.Decode
import Interconnect.Proofs.Pci.Configuration
import Interconnect.Proofs.Pci.Conversion
import Interconnect.Proofs.System.Routing
import Interconnect.Proofs.System.Run
import Interconnect.Proofs.System.Wiring
import Interconnect.Proofs.System.Growth
import Interconnect.Proofs.System.Loss
import Interconnect.Proofs.System.Coherence
import Interconnect.Proofs.System.Direct
import Interconnect.Proofs.System.Refusal
import Interconnect.Proofs.System.Assembly
import Interconnect.Proofs.System.Ports
import Interconnect.Proofs.System.Update
import Interconnect.Proofs.System.Levels
import Interconnect.Proofs.System.Buses
import Interconnect.Proofs.System.Hosts
import Interconnect.Proofs.System.Keeping
import Interconnect.Proofs.System.Relays

import OwnedHandles.ExitCode
import OwnedHandles.Proofs.World
import OwnedHandles.Session.Run
import OwnedHandles.Tracing.Subscriber
import OwnedHandles.Proofs.Calls
import OwnedHandles.Proofs.Ownership
import OwnedHandles.Proofs.Leaks
import OwnedHandles.Proofs.Runs
import OwnedHandles.Proofs.Reaping
import OwnedHandles.Proofs.Table
import OwnedHandles.Proofs.Wiring
import OwnedHandles.Proofs.Exchange
import OwnedHandles.Proofs.Capture
import OwnedHandles.Proofs.Encoding
import OwnedHandles.Proofs.Marshalling
import OwnedHandles.Proofs.Launches
import OwnedHandles.Proofs.ExecutedPaths
import OwnedHandles.Proofs.Signals
import OwnedHandles.Proofs.Inheritance
import OwnedHandles.Proofs.Attempt
import OwnedHandles.Proofs.ExecFailure
import OwnedHandles.Proofs.Arrivals
import OwnedHandles.Proofs.Privacy
import OwnedHandles.Proofs.Refusals
import OwnedHandles.Proofs.Descendants
import OwnedHandles.Proofs.Lifecycle
import OwnedHandles.Proofs.Mappings
import OwnedHandles.Proofs.Redirection
import OwnedHandles.Proofs.Forgetting
import OwnedHandles.Proofs.Storage
import OwnedHandles.Proofs.MapAttempts
import OwnedHandles.Proofs.Zeroing
import OwnedHandles.Proofs.Rewiring
import OwnedHandles.Proofs.Arrays
import OwnedHandles.Proofs.Allocation
import OwnedHandles.Proofs.Boundaries
import OwnedHandles.Proofs.Conservation
import OwnedHandles.Proofs.Extents
import OwnedHandles.Proofs.Unopened
import OwnedHandles.Proofs.Interference
import OwnedHandles.Proofs.ShortWrites
import OwnedHandles.Proofs.Starting
import OwnedHandles.Proofs.Connections
import OwnedHandles.Proofs.StatusWords
import OwnedHandles.Proofs.Addressing
import OwnedHandles.Proofs.ExitCodes
import OwnedHandles.Proofs.Identities
import OwnedHandles.Proofs.Interchange
import OwnedHandles.Proofs.Terminations
import OwnedHandles.Proofs.Handovers
import OwnedHandles.Proofs.Gatherings

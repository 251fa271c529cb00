import CellReplay.Classifier
import CellReplay.Context
import CellReplay.Reply
import CellReplay.Client.Arguments
import CellReplay.Client.Exchange
import CellReplay.Config.Environment
import CellReplay.Config.Layers
import CellReplay.Config.Server
import CellReplay.Decimal.Places
import CellReplay.Host.Launch
import CellReplay.Host.Machine
import CellReplay.Server
import CellReplay.Proofs.Text.Sorting
import CellReplay.Proofs.Text.Digits
import CellReplay.Proofs.Store.Rows
import CellReplay.Proofs.Store.Lookup
import CellReplay.Proofs.Store.Orders
import CellReplay.Proofs.Store.Upgrade
import CellReplay.Proofs.Store.Agreement
import CellReplay.Proofs.Store.Seeding
import CellReplay.Proofs.Store.Reliable
import CellReplay.Proofs.Locks.Alone
import CellReplay.Proofs.Locks.Coherent
import CellReplay.Proofs.Locks.Holders
import CellReplay.Proofs.Locks.Runs
import CellReplay.Proofs.Service.Courses
import CellReplay.Proofs.Service.History
import CellReplay.Proofs.Service.Launch
import CellReplay.Proofs.Service.Discipline
import CellReplay.Proofs.Service.Meaning
import CellReplay.Proofs.Service.Interleaving
import CellReplay.Proofs.Service.Completion
import CellReplay.Proofs.Service.Serial
import CellReplay.Proofs.Locks.Turns
import CellReplay.Proofs.Locks.Entries
import CellReplay.Proofs.Store.Atomic
import CellReplay.Proofs.Server.Bootstrap
import CellReplay.Proofs.Pattern.Positions
import CellReplay.Proofs.Pattern.Rests
import CellReplay.Proofs.Pattern.Counts
import CellReplay.Proofs.Pattern.Remains
import CellReplay.Proofs.Pattern.Classes
import CellReplay.Proofs.Pattern.Enclosing
import CellReplay.Proofs.Pattern.FullMatch
import CellReplay.Proofs.Service.Isolation
import CellReplay.Proofs.Service.Admission
import CellReplay.Proofs.Service.Upshot
import CellReplay.Proofs.Service.Advice
import CellReplay.Proofs.Service.Retry
import CellReplay.Proofs.Rpc.Transparent
import CellReplay.Proofs.Json.RoundTrip
import CellReplay.Proofs.Client.Exchange
import CellReplay.Proofs.Text.Blanks
import CellReplay.Proofs.Pattern.Grammar
import CellReplay.Proofs.Store.Growth
import CellReplay.Proofs.Service.Ways
import CellReplay.Proofs.Service.Findings
import CellReplay.Proofs.Service.Status
import CellReplay.Proofs.Service.Kind
import CellReplay.Proofs.Service.Parentage
import CellReplay.Proofs.Server.Integrity
import CellReplay.Proofs.Service.Custody
import CellReplay.Proofs.Server.Launches
import CellReplay.Proofs.Registry.Instances
import CellReplay.Proofs.Config.Leaves
import CellReplay.Proofs.Config.Merging
import CellReplay.Proofs.Config.Names
import CellReplay.Proofs.Config.Precedence
import CellReplay.Proofs.Service.Excluded
import CellReplay.Proofs.Text.Encoding
import CellReplay.Proofs.Server.Location
import CellReplay.Proofs.Service.Confined
import CellReplay.Proofs.Text.Spelled
import CellReplay.Proofs.Json.Numbers
import CellReplay.Proofs.Rpc.SessionField
import CellReplay.Proofs.Toml.Printing
import CellReplay.Proofs.Config.Settings
import CellReplay.Proofs.Cell.NormalForm
import CellReplay.Proofs.Outcome.Endings
import CellReplay.Proofs.Store.TwoSteps
import CellReplay.Proofs.Wire.Records
import CellReplay.Proofs.Store.Consistent
import CellReplay.Proofs.Host.Merging
import CellReplay.Proofs.Text.Halves
import CellReplay.Proofs.Host.Torn

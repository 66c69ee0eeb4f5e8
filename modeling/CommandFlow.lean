import CommandFlow.Flow.Walk
import CommandFlow.Saved.Snapshot
import CommandFlow.Journal.Catalog
import CommandFlow.Journal.Loader
import CommandFlow.Main
import CommandFlow.Proofs.Edit
import CommandFlow.Proofs.Flow.Wiring
import CommandFlow.Proofs.Flow.Rewiring
import CommandFlow.Proofs.Flow.Consistent
import CommandFlow.Proofs.Catalog
import CommandFlow.Proofs.Command.Effect
import CommandFlow.Proofs.Flow.Numbered
import CommandFlow.Proofs.Command.Stranding
import CommandFlow.Proofs.Command.FreeName
import CommandFlow.Proofs.Command.Settled
import CommandFlow.Proofs.Project.Orderly
import CommandFlow.Proofs.Saved.Reload
import CommandFlow.Proofs.Number.Rounding
import CommandFlow.Proofs.Number.Scaled
import CommandFlow.Proofs.Json.Numeral
import CommandFlow.Proofs.Json.NumberText
import CommandFlow.Proofs.Json.Lexing
import CommandFlow.Proofs.Json.Parsing
import CommandFlow.Proofs.Saved.Reading
import CommandFlow.Proofs.Saved.Reopen
import CommandFlow.Proofs.Command.InStep
import CommandFlow.Proofs.Command.Shadowing
import CommandFlow.Proofs.Saved.Normal
import CommandFlow.Proofs.Entries
import CommandFlow.Proofs.Json.Rereading
import CommandFlow.Proofs.Saved.Written
import CommandFlow.Proofs.Saved.Rereading
import CommandFlow.Proofs.Catalog.Listing
import CommandFlow.Proofs.Saved.Faultless
import CommandFlow.Proofs.Catalog.Declared
import CommandFlow.Proofs.Flow.Handles
import CommandFlow.Proofs.Project.Editing
import CommandFlow.Proofs.Saved.FanOut
import CommandFlow.Proofs.Saved.Republish
import CommandFlow.Proofs.Flow.Repair
import CommandFlow.Proofs.Command.Refusal
import CommandFlow.Proofs.Saved.Renaming
import CommandFlow.Proofs.Saved.Coordinates
import CommandFlow.Proofs.Flow.Rechecking
import CommandFlow.Proofs.Flow.UpToDate
import CommandFlow.Proofs.Flow.Toggle
import CommandFlow.Proofs.Command.Replacing
import CommandFlow.Proofs.Command.Undoing
import CommandFlow.Proofs.Command.Removing
import CommandFlow.Proofs.Saved.RoundTrip
import CommandFlow.Proofs.Flow.Report
import CommandFlow.Proofs.Flow.Walks
import CommandFlow.Proofs.Saved.UidLookup
import CommandFlow.Proofs.Saved.OpenEnds
import CommandFlow.Proofs.Flow.Following
import CommandFlow.Proofs.Command.Naming
import CommandFlow.Proofs.Flow.DeclaredValues
import CommandFlow.Proofs.Flow.BulkRemoval
import CommandFlow.Proofs.Saved.Disconnecting
import CommandFlow.Proofs.Project.Focusing
import CommandFlow.Proofs.Saved.LeavingOut
import CommandFlow.Proofs.Port.Fitting
import CommandFlow.Proofs.Port.Declaring
import CommandFlow.Proofs.Catalog.Loading

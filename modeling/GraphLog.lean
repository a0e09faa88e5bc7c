import GraphLog.Number
import GraphLog.Text.Basic
import GraphLog.Text.Quoted
import GraphLog.Json.Reader
import GraphLog.Json.Basic
import GraphLog.Label.Basic
import GraphLog.Label.Visibility
import GraphLog.Element
import GraphLog.Record.Mutation
import GraphLog.Record.Slot
import GraphLog.Record.Basic
import GraphLog.Record.Document
import GraphLog.Wire.Frame
import GraphLog.Fold.Basic
import GraphLog.Fold.Document
import GraphLog.History
import GraphLog.Intake
import GraphLog.Log
import GraphLog.Toml.Reader
import GraphLog.Record.Listing
import GraphLog.Command.Input
import GraphLog.Command.Run
import GraphLog.Command.Help
import GraphLog.Main
import GraphLog.Proofs.ArrivalOrder
import GraphLog.Proofs.Noninterference
import GraphLog.Proofs.Lifecycle
import GraphLog.Proofs.Recreation
import GraphLog.Proofs.Wire.Frame
import GraphLog.Proofs.Label.Meaning
import GraphLog.Proofs.Log.Rereading
import GraphLog.Proofs.Histories
import GraphLog.Proofs.Paging
import GraphLog.Proofs.Endpoints
import GraphLog.Proofs.Label.Printer
import GraphLog.Proofs.SharedCache
import GraphLog.Proofs.Deliveries
import GraphLog.Proofs.Metadata
import GraphLog.Proofs.Hides
import GraphLog.Proofs.Attempts
import GraphLog.Proofs.Withholding
import GraphLog.Proofs.Coherence
import GraphLog.Proofs.Wire.Refusals
import GraphLog.Proofs.Wire.Endings
import GraphLog.Proofs.Wire.Faults
import GraphLog.Proofs.IntakeRuns
import GraphLog.Proofs.Label.Complaints
import GraphLog.Proofs.RecordFile
import GraphLog.Proofs.Label.Unbalanced
import GraphLog.Proofs.Wire.Requests
import GraphLog.Proofs.Wire.Delimiting
import GraphLog.Proofs.Json.Arrangement
import GraphLog.Proofs.Json.Structure
import GraphLog.Proofs.Documents
import GraphLog.Proofs.Json.Text

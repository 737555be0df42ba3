import Quarry.Handler.Script
import Quarry.Session.Table
import Quarry.Main
import Quarry.Proofs.Sql.JsonTestText
import Quarry.Proofs.Sql.FilterText
import Quarry.Proofs.Outcome
import Quarry.Proofs.Sql.ConditionTree
import Quarry.Proofs.Sql.Parameters
import Quarry.Proofs.Sql.Unset
import Quarry.Proofs.Handler.Watched
import Quarry.Proofs.Handler.Stages
import Quarry.Proofs.Handler.Acquiring
import Quarry.Proofs.Handler.Runs
import Quarry.Proofs.Handler.Lifecycle
import Quarry.Proofs.Handler.Clean
import Quarry.Proofs.Sql.ClauseText
import Quarry.Proofs.Repository.Alignment
import Quarry.Proofs.Repository.StatementParts
import Quarry.Proofs.Repository.SameText
import Quarry.Proofs.Repository.Encoding
import Quarry.Proofs.Json.Proper
import Quarry.Proofs.Value.Steady
import Quarry.Proofs.Repository.Children
import Quarry.Proofs.Row.Object
import Quarry.Proofs.Repository.JoinedRow
import Quarry.Proofs.Repository.Regrouping
import Quarry.Proofs.Handler.Discarded
import Quarry.Proofs.Handler.Accounted
import Quarry.Proofs.Row.Rewriting
import Quarry.Proofs.Row.RoundTrip
import Quarry.Proofs.Handler.Mirrored
import Quarry.Proofs.Handler.Transcript
import Quarry.Proofs.Handler.Agreement
import Quarry.Proofs.Session.BulkWrite
import Quarry.Proofs.Session.Sequential
import Quarry.Proofs.Repository.Filtered
import Quarry.Proofs.Session.Unfiltered
import Quarry.Proofs.Handler.Escaping
import Quarry.Proofs.Row.Held
import Quarry.Proofs.Repository.Batch
import Quarry.Proofs.Row.Reading
import Quarry.Proofs.Repository.Matching
import Quarry.Proofs.Database.Exchanges
import Quarry.Proofs.Database.Reported
import Quarry.Proofs.Repository.OneToOne
import Quarry.Proofs.Repository.Unambiguous
import Quarry.Proofs.Repository.Surviving
import Quarry.Proofs.Database.Waiting
import Quarry.Proofs.Settings.Masked
import Quarry.Proofs.Settings.Concealed
import Quarry.Proofs.Repository.Templates
import Quarry.Proofs.Number.Equal
import Quarry.Proofs.Value.Transitive
import Quarry.Proofs.Repository.Reference
import Quarry.Proofs.Repository.Grouping
import Quarry.Proofs.Repository.Merging
import Quarry.Proofs.Repository.Ownership
import Quarry.Proofs.Repository.Adding
import Quarry.Proofs.Time.Utc
import Quarry.Proofs.Text.Trim
import Quarry.Proofs.Time.Standard
import Quarry.Proofs.Time.Order
import Quarry.Proofs.Json.Recognized
import Quarry.Proofs.Value.Recognized
import Quarry.Proofs.Session.Answered
import Quarry.Proofs.Repository.Paging
import Quarry.Proofs.Sql.Wildcard
import Quarry.Proofs.Sql.Containment
import Quarry.Proofs.Number.Nearest
import Quarry.Proofs.Number.Written
import Quarry.Proofs.Sql.AggregateNumbers
import Quarry.Proofs.Handler.Schedule
import Quarry.Proofs.Repository.Refining
import Quarry.Proofs.Text.Encoded
import Quarry.Proofs.Settings.Written
import Quarry.Proofs.Sql.Mentioned
import Quarry.Proofs.Repository.Referring
import Quarry.Proofs.Repository.Qualified
import Quarry.Proofs.Repository.OneName
import Quarry.Proofs.Row.Moments
import Quarry.Proofs.Database.Flags
import Quarry.Proofs.Database.Sweeping
import Quarry.Proofs.Database.OnePool
import Quarry.Proofs.Sql.Quoted
import Quarry.Proofs.Text.Camel
import Quarry.Proofs.Database.ShuttingDown

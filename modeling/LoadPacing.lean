import LoadPacing.Session.Start
import LoadPacing.Session.Step
import LoadPacing.JsonText.SettingsForm
import LoadPacing.JsonText.ReportForm
import LoadPacing.Proofs.Binary64.Order
import LoadPacing.Proofs.Binary64.Value
import LoadPacing.Proofs.Binary64.Nearest
import LoadPacing.Proofs.Bucket.Steps
import LoadPacing.Proofs.Bucket.Ledger
import LoadPacing.Proofs.Bucket.Admission
import LoadPacing.Proofs.Regulator.Rounds
import LoadPacing.Proofs.Regulator.Cooldown
import LoadPacing.Proofs.Session.Openings
import LoadPacing.Proofs.Session.Moves
import LoadPacing.Proofs.Session.OnSpot
import LoadPacing.Proofs.Session.Books
import LoadPacing.Proofs.Session.Control
import LoadPacing.Proofs.Session.Chronicle
import LoadPacing.Proofs.Session.Permits
import LoadPacing.Proofs.Session.Admission
import LoadPacing.Proofs.Bucket.Tickets
import LoadPacing.Proofs.Session.Schedule
import LoadPacing.Proofs.Relay.Items
import LoadPacing.Proofs.Session.Frame
import LoadPacing.Proofs.Session.Streams
import LoadPacing.Proofs.Session.Transparency
import LoadPacing.Proofs.Session.Calling
import LoadPacing.Proofs.Session.CallPolls
import LoadPacing.Proofs.Session.Docket
import LoadPacing.Proofs.Session.Calls
import LoadPacing.Proofs.Session.Omission
import LoadPacing.Proofs.Session.Staff
import LoadPacing.Proofs.Session.Routing
import LoadPacing.Proofs.Regulator.Tallies
import LoadPacing.Proofs.Session.Hearings
import LoadPacing.Proofs.Binary64.Rounding
import LoadPacing.Proofs.Bucket.Solvency
import LoadPacing.Proofs.Session.Solvency
import LoadPacing.Proofs.Binary64.Neighbours
import LoadPacing.Proofs.Load.Busiest
import LoadPacing.Proofs.Load.Law
import LoadPacing.Proofs.Regulator.Readings
import LoadPacing.Proofs.Session.Missed
import LoadPacing.Proofs.Binary64.Error
import LoadPacing.Proofs.Bucket.Waiting
import LoadPacing.Proofs.Session.Waits
import LoadPacing.Proofs.Binary64.Complement
import LoadPacing.Proofs.Binary64.Monotone
import LoadPacing.Proofs.Bucket.Comparison
import LoadPacing.Proofs.Session.GivingBack
import LoadPacing.Proofs.Session.FirstPolls
import LoadPacing.Proofs.Bucket.Abandoning
import LoadPacing.Proofs.Session.Abandoned
import LoadPacing.Proofs.Session.Ways
import LoadPacing.Proofs.Bucket.Retuning
import LoadPacing.Proofs.Session.RateChanges
import LoadPacing.Proofs.Binary64.Signs
import LoadPacing.Proofs.Bucket.Refusing
import LoadPacing.Proofs.Regulator.Rulings
import LoadPacing.Proofs.Session.Windows
import LoadPacing.Proofs.Session.Waking
import LoadPacing.Proofs.Session.Alike
import LoadPacing.Proofs.Session.Refusals
import LoadPacing.Proofs.Bucket.Bursts
import LoadPacing.Proofs.Session.Bursts
import LoadPacing.Proofs.Settings.Checks
import LoadPacing.Proofs.Session.Construction
import LoadPacing.Proofs.Regulator.Cuts
import LoadPacing.Proofs.Session.Targets
import LoadPacing.Proofs.Session.Cuts
import LoadPacing.Proofs.Binary64.Decimal
import LoadPacing.Proofs.JsonText.Grammar
import LoadPacing.Proofs.JsonText.Lexemes
import LoadPacing.Proofs.JsonText.Durations
import LoadPacing.Proofs.JsonText.Rows
import LoadPacing.Proofs.JsonText.Given
import LoadPacing.Proofs.JsonText.SettingsText
import LoadPacing.Proofs.Bucket.Sanity
import LoadPacing.Proofs.JsonText.Passing
import LoadPacing.Proofs.Regulator.Samples
import LoadPacing.Proofs.JsonText.Alone
import LoadPacing.Proofs.JsonText.Members
import LoadPacing.Proofs.JsonText.ReadingText
import LoadPacing.Proofs.JsonText.ReportText

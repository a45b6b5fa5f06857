import SplitHorizon.Files.Tree
import SplitHorizon.Main
import SplitHorizon.Proofs.Answers.Entries
import SplitHorizon.Proofs.Answers.Order
import SplitHorizon.Server.Schedule
import SplitHorizon.Proofs.Answers.Resolve
import SplitHorizon.Proofs.Server.Steps
import SplitHorizon.Proofs.Server.Snapshots
import SplitHorizon.Proofs.Number.Places
import SplitHorizon.Proofs.Recursion.Walk
import SplitHorizon.Proofs.Answers.Targets
import SplitHorizon.Proofs.Recursion.Order
import SplitHorizon.Proofs.Wire.Reader
import SplitHorizon.Proofs.Wire.Name
import SplitHorizon.Proofs.Message.Options
import SplitHorizon.Proofs.Message.Header
import SplitHorizon.Proofs.Message.Decoded
import SplitHorizon.Proofs.Message.Query
import SplitHorizon.Proofs.Server.Forwarding
import SplitHorizon.Proofs.Answers.Isolation
import SplitHorizon.Proofs.Answers.Reordering
import SplitHorizon.Proofs.Record.Body
import SplitHorizon.Proofs.Record.Reading
import SplitHorizon.Proofs.Answers.Kinds
import SplitHorizon.Proofs.Server.LocalAnswers
import SplitHorizon.Proofs.Name.Canonical
import SplitHorizon.Proofs.Name.HostNames
import SplitHorizon.Proofs.Name.Form
import SplitHorizon.Proofs.Answers.Contents
import SplitHorizon.Proofs.Answers.Invariant
import SplitHorizon.Proofs.Json.Written
import SplitHorizon.Proofs.Server.Responses
import SplitHorizon.Proofs.Answers.Presence
import SplitHorizon.Proofs.Name.Spelling
import SplitHorizon.Proofs.Name.Questions
import SplitHorizon.Proofs.Transport.Failures
import SplitHorizon.Proofs.Transport.Visits
import SplitHorizon.Proofs.Server.Headers
import SplitHorizon.Proofs.Transport.Datagrams
import SplitHorizon.Proofs.Server.Classes
import SplitHorizon.Proofs.Recursion.Course
import SplitHorizon.Proofs.Answers.Servers
import SplitHorizon.Proofs.Address.Dotted
import SplitHorizon.Proofs.Answers.Spellings
import SplitHorizon.Proofs.Address.Endpoint
import SplitHorizon.Proofs.Text.Cuts
import SplitHorizon.Proofs.Selector
import SplitHorizon.Proofs.Target
import SplitHorizon.Proofs.Transport.Frames
import SplitHorizon.Proofs.Text.Boundaries
import SplitHorizon.Proofs.Text.Letters
import SplitHorizon.Proofs.Record.Fewest
import SplitHorizon.Proofs.Record.RoundTrip
import SplitHorizon.Proofs.Answers.Faults
import SplitHorizon.Proofs.Answers.Counts
import SplitHorizon.Proofs.Json.Texts
import SplitHorizon.Proofs.Settings.Listening

import Instinct.Assembly
import Instinct.Json.Reader
import Instinct.Main
import Instinct.Node.Kinds
import Instinct.Rehearsal.Run
import Instinct.Rehearsal.View
import Instinct.Text.Glance
import Instinct.Proofs.Coupling
import Instinct.Proofs.Coupling.Kinds
import Instinct.Proofs.Coupling.Nodes
import Instinct.Proofs.Coupling.Alike
import Instinct.Proofs.Coupling.Exact
import Instinct.Proofs.Duality
import Instinct.Proofs.Delay
import Instinct.Proofs.Settling
import Instinct.Proofs.Clean
import Instinct.Proofs.Assembly.Agreement
import Instinct.Proofs.Assembly.RoundTrip
import Instinct.Proofs.Repertoire
import Instinct.Proofs.Selection
import Instinct.Proofs.Selection.Spaced
import Instinct.Proofs.Notices
import Instinct.Proofs.Selection.Fresh
import Instinct.Proofs.Unwatched
import Instinct.Proofs.Conclusions
import Instinct.Proofs.Forgetting
import Instinct.Proofs.Cadence
import Instinct.Proofs.Aim
import Instinct.Proofs.Assembly.DrawSites
import Instinct.Proofs.Indices
import Instinct.Proofs.Uniform
import Instinct.Proofs.Selection.Traced
import Instinct.Proofs.Flattening.Nested
import Instinct.Proofs.Isolation
import Instinct.Proofs.Registration
import Instinct.Proofs.Assembly.Reuse
import Instinct.Proofs.Digits
import Instinct.Proofs.Json.Lexeme
import Instinct.Proofs.Json.RoundTrip
import Instinct.Proofs.Record.Fields
import Instinct.Proofs.Record.RoundTrip
import Instinct.Proofs.Tuning
import Instinct.Proofs.Selection.Resetting
import Instinct.Proofs.Embedding
import Instinct.Proofs.Calls
import Instinct.Proofs.Running
import Instinct.Proofs.Diary
import Instinct.Proofs.Tally
import Instinct.Proofs.Succession
import Instinct.Proofs.Cooldown
import Instinct.Proofs.Trail
import Instinct.Proofs.Logbook
import Instinct.Proofs.Timeout
import Instinct.Proofs.Rounds
import Instinct.Proofs.Relay
import Instinct.Proofs.Weights
import Instinct.Proofs.Weights.Rounded
import Instinct.Proofs.Weights.Shares
import Instinct.Proofs.Commitment
import Instinct.Proofs.Commitment.Weights
import Instinct.Proofs.Preference
import Instinct.Proofs.Seeds
import Instinct.Proofs.Salts
import Instinct.Proofs.Warnings
import Instinct.Proofs.Reports
import Instinct.Proofs.Stagger
import Instinct.Proofs.Slots
import Instinct.Proofs.Outlines
import Instinct.Proofs.Health
import Instinct.Proofs.Executions
import Instinct.Proofs.Enemies
import Instinct.Proofs.Accounts

import FirewallRollout.Api.Handler
import FirewallRollout.Json.Writer
import FirewallRollout.Main
import FirewallRollout.Rebuild.Simulation
import FirewallRollout.Proofs.Keyed
import FirewallRollout.Proofs.Registry.Lookup
import FirewallRollout.Proofs.Rebuild.Effect
import FirewallRollout.Proofs.Rebuild.Coherence
import FirewallRollout.Proofs.Rebuild.TaskLife
import FirewallRollout.Proofs.Rebuild.SingleFlight
import FirewallRollout.Proofs.Rule.Argument
import FirewallRollout.Proofs.Script.Fingerprint
import FirewallRollout.Proofs.Rebuild.Jobs
import FirewallRollout.Proofs.Rebuild.AppliedRules
import FirewallRollout.Proofs.Rebuild.FailedFlush
import FirewallRollout.Proofs.Text.Pieces
import FirewallRollout.Proofs.Rule.Words
import FirewallRollout.Proofs.Script.Lines
import FirewallRollout.Proofs.Rule.NormalForm
import FirewallRollout.Proofs.Storage.Row
import FirewallRollout.Proofs.Registry.Reopen
import FirewallRollout.Proofs.Registry.Stored
import FirewallRollout.Proofs.Registry.Listing
import FirewallRollout.Proofs.Registry.Restart
import FirewallRollout.Proofs.Storage.Database
import FirewallRollout.Proofs.Registry.LastWrite
import FirewallRollout.Proofs.Rebuild.Drain
import FirewallRollout.Proofs.Rebuild.Cause
import FirewallRollout.Proofs.Inventory.Reading
import FirewallRollout.Proofs.Rebuild.Snapshot
import FirewallRollout.Proofs.Api.Answer
import FirewallRollout.Proofs.Rebuild.Accounting
import FirewallRollout.Proofs.Script.Order
import FirewallRollout.Proofs.Script.Preview
import FirewallRollout.Proofs.Script.Identity
import FirewallRollout.Proofs.Rebuild.Isolation
import FirewallRollout.Proofs.Rule.Acceptance
import FirewallRollout.Proofs.Executor.Cancellation
import FirewallRollout.Proofs.Registry.Paging
import FirewallRollout.Proofs.Task.Driven
import FirewallRollout.Proofs.Registry.Change
import FirewallRollout.Proofs.Registry.StoredCounters
import FirewallRollout.Proofs.Inventory.Statistics
import FirewallRollout.Proofs.Json.Tokens
import FirewallRollout.Proofs.Json.Reading
import FirewallRollout.Proofs.Datum.Layout
import FirewallRollout.Proofs.Rule.Record
import FirewallRollout.Proofs.Task.Record
import FirewallRollout.Proofs.Json.Records
import FirewallRollout.Proofs.Rule.Respelling
import FirewallRollout.Proofs.Text.Percent
import FirewallRollout.Proofs.Api.Target
import FirewallRollout.Proofs.Api.ServerName
import FirewallRollout.Proofs.Registry.Activity

import AccessRegistry.Main
import AccessRegistry.Mint
import AccessRegistry.Describe
import AccessRegistry.Http.Document
import AccessRegistry.Http.Service
import AccessRegistry.Program.Script
import AccessRegistry.Rules.Provisioning
import AccessRegistry.Sql.Peer
import AccessRegistry.Sql.Setup
import AccessRegistry.Store.World
import AccessRegistry.Text.Utf8
import AccessRegistry.Proofs.Traffic
import AccessRegistry.Proofs.Outcome
import AccessRegistry.Proofs.Writes
import AccessRegistry.Proofs.Operation
import AccessRegistry.Proofs.History
import AccessRegistry.Proofs.Refusal
import AccessRegistry.Proofs.Ledger
import AccessRegistry.Proofs.Authorization
import AccessRegistry.Proofs.Authentication
import AccessRegistry.Proofs.Trace
import AccessRegistry.Proofs.Trial
import AccessRegistry.Proofs.Durability
import AccessRegistry.Proofs.Acceptance
import AccessRegistry.Proofs.Gate
import AccessRegistry.Proofs.Serial
import AccessRegistry.Proofs.Contest
import AccessRegistry.Proofs.Founding
import AccessRegistry.Proofs.ReadBack
import AccessRegistry.Proofs.TokenViews
import AccessRegistry.Proofs.Issuing
import AccessRegistry.Proofs.Discretion
import AccessRegistry.Proofs.Borders
import AccessRegistry.Proofs.RoundTrip
import AccessRegistry.Proofs.RecordGrammar
import AccessRegistry.Proofs.Lifecycle
import AccessRegistry.Proofs.Admission
import AccessRegistry.Proofs.Renaming
import AccessRegistry.Proofs.Allocation
import AccessRegistry.Proofs.Cascade
import AccessRegistry.Proofs.Relocation
import AccessRegistry.Proofs.Replacement
import AccessRegistry.Proofs.Revocation
import AccessRegistry.Proofs.Minting
import AccessRegistry.Proofs.Attempts
import AccessRegistry.Proofs.Precedence
import AccessRegistry.Proofs.Expiry
import AccessRegistry.Proofs.Enrichment
import AccessRegistry.Proofs.Display
import AccessRegistry.Proofs.Protocol
import AccessRegistry.Proofs.Reading
import AccessRegistry.Proofs.Numbering
import AccessRegistry.Proofs.Restoration
import AccessRegistry.Proofs.SchemaName
import AccessRegistry.Proofs.Binding

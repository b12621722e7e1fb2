import Untangle.Lib.Dict
import Untangle.Lib.Subsets
import Untangle.Lib.Decimal
import Untangle.Lib.BranchBound
import Untangle.Lib.Components
import Untangle.Lib.Printed
import Untangle.Lib.Fallible
import Untangle.Lib.Json
import Untangle.Lib.Binary64
import Untangle.Lib.PrintedOrder
import Untangle.Engine.BoundedSubsets
import Untangle.Engine.Text
import Untangle.Engine.Models
import Untangle.Engine.Format
import Untangle.Engine.Covered
import Untangle.Engine.Report
import Untangle.Engine.Packs
import Untangle.Engine.Evidence
import Untangle.Engine.Challenger
import Untangle.Engine.Attribute
import Untangle.Engine.Reconcile
import Untangle.Engine.CandidateGraph
import Untangle.Engine.Solver
import Untangle.Engine.Rules
import Untangle.Engine.Narrate
import Untangle.Engine.FeeGst
import Untangle.Engine.Journal
import Untangle.Engine.Exceptions
import Untangle.Engine.Investigate
import Untangle.Engine.Ledger
import Untangle.Engine.Recovery
import Untangle.Engine.Provenance
import Untangle.Engine.Proof
import Untangle.Engine.RunReport
import Untangle.Engine.Verifier
import Untangle.Engine.Certificate
import Untangle.Webapp.Presentation
import Untangle.Engine.Persistence
import Untangle.Correctness.BoundedSubsets
import Untangle.Correctness.Report
import Untangle.Correctness.Covered
import Untangle.Correctness.Reconcile.Index
import Untangle.Correctness.Reconcile.Passes
import Untangle.Correctness.Reconcile.Ownership
import Untangle.Correctness.Reconcile.Conservation
import Untangle.Correctness.Reconcile.Order
import Untangle.Correctness.Journal
import Untangle.Correctness.Ledger
import Untangle.Correctness.Investigate
import Untangle.Correctness.Narrate
import Untangle.Correctness.Attribute.Score
import Untangle.Correctness.Attribute.Line
import Untangle.Correctness.Attribute.Pipeline
import Untangle.Correctness.Attribute.ProofGate
import Untangle.Correctness.Attribute.Combination
import Untangle.Correctness.Evidence
import Untangle.Correctness.Attribute.Threshold
import Untangle.Correctness.Attribute.Splits
import Untangle.Correctness.Attribute.Margin
import Untangle.Correctness.Attribute.SameReport
import Untangle.Correctness.Attribute.Consulted
import Untangle.Correctness.Attribute.Sensitive
import Untangle.Correctness.Attribute.Order
import Untangle.Correctness.Presentation
import Untangle.Correctness.RunReport
import Untangle.Correctness.Setsum
import Untangle.Correctness.Attribute.Once
import Untangle.Correctness.Attribute.Groups
import Untangle.Correctness.Solver.Graph
import Untangle.Correctness.Solver.Component
import Untangle.Correctness.Solver.Run
import Untangle.Correctness.Solver.Optimal
import Untangle.Correctness.Solver.Consistent
import Untangle.Correctness.Solver.Margin
import Untangle.Correctness.Solver.ProofGate
import Untangle.Correctness.Solver.Threshold
import Untangle.Correctness.Solver.Represented
import Untangle.Correctness.Debit
import Untangle.Correctness.Rules
import Untangle.Correctness.Verdicts
import Untangle.Correctness.Totals
import Untangle.Correctness.Completes
import Untangle.Correctness.Audit
import Untangle.Correctness.Verifier
import Untangle.Correctness.Certificate
import Untangle.Correctness.Tamper
import Untangle.Correctness.Jobs.Absorbing
import Untangle.Correctness.Jobs.Emulation
import Untangle.Correctness.Jobs.Fencing
import Untangle.Correctness.Jobs.Stuck
import Untangle.Correctness.Jobs.Agreement
import Untangle.Persistence.Run
import Untangle.Persistence.Idempotency
import Untangle.Correctness.Lifecycle
import Untangle.Auth.Tables
import Untangle.Auth.Sessions
import Untangle.Auth.Service
import Untangle.Auth.System
import Untangle.Correctness.Auth.Effects
import Untangle.Correctness.Auth.Acceptance
import Untangle.Correctness.Auth.Shrinking
import Untangle.Lib.UnitOfWork
import Untangle.Auth.Oidc
import Untangle.Correctness.Auth.Oidc
import Untangle.Lib.Locks
import Untangle.Auth.Interleaving
import Untangle.Correctness.Auth.Statements
import Untangle.Correctness.Auth.Invitations
import Untangle.Correctness.Auth.Owners
import Untangle.Correctness.Auth.BackEnds
import Untangle.Correctness.LegacySubsets
import Untangle.Correctness.Malformed
import Untangle.Correctness.UtrTies
import Untangle.Correctness.RowIdentity
import Untangle.Correctness.Closure
import Untangle.Correctness.Vouchers
import Untangle.Auth.Federation
import Untangle.Correctness.Auth.Federation
import Untangle.Persistence.Comparison
import Untangle.Correctness.Comparison
import Untangle.Lib.JsonOrder
import Untangle.Correctness.Projection
import Untangle.Lib.Base64
import Untangle.Lib.Keyset
import Untangle.Lib.Timestamp
import Untangle.Persistence.Listing
import Untangle.Correctness.Listing
import Untangle.Correctness.Dates
import Untangle.Correctness.RecoveryPlan
import Untangle.Correctness.Idempotency
import Untangle.Lib.PrefixCode
import Untangle.Lib.DecimalDigits
import Untangle.Engine.Tally
import Untangle.Correctness.Tally
import Untangle.Lib.DecimalContext
import Untangle.Engine.BankAdapters
import Untangle.Correctness.BankAdapters
import Untangle.Correctness.Solver.UtrEdges
import Untangle.Lib.Occurrences
import Untangle.Correctness.LineKeys
import Untangle.Lib.Files
import Untangle.Persistence.Storage
import Untangle.Correctness.Storage
import Untangle.Engine.Conversions
import Untangle.Engine.Ingest
import Untangle.Correctness.Ingest
import Untangle.Lib.Csv
import Untangle.Engine.ProofCsv
import Untangle.Correctness.ProofCsv
import Untangle.Lib.HashChain
import Untangle.Lib.JsonRead
import Untangle.Lib.JsonRoundTrip
import Untangle.Engine.Audit
import Untangle.Correctness.AuditChain
import Untangle.Persistence.Worker
import Untangle.Correctness.Jobs.Attempts
import Untangle.Correctness.Jobs.Artifacts
import Untangle.Correctness.Jobs.Refinement
import Untangle.Persistence.Submitting
import Untangle.Correctness.Submitting
import Untangle.Lib.Permits
import Untangle.Webapp.Slots
import Untangle.Correctness.Webapp.Slots
import Untangle.Webapp.RateLimit
import Untangle.Correctness.Webapp.RateLimit
import Untangle.Lib.Noninterference
import Untangle.Persistence.Tenancy
import Untangle.Correctness.Tenancy
import Untangle.Correctness.History
import Untangle.Lib.Lru
import Untangle.McpServer
import Untangle.Correctness.McpServer
import Untangle.Webapp.Middleware
import Untangle.Correctness.Webapp.Middleware
import Untangle.Persistence.Maintenance
import Untangle.Correctness.Maintenance.Service
import Untangle.Correctness.Maintenance.Invisible

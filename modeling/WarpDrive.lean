import WarpDrive.Library.Transition
import WarpDrive.Library.Timeline
import WarpDrive.Library.Totals
import WarpDrive.Library.Transfer
import WarpDrive.Library.Script
import WarpDrive.Interfaces
import WarpDrive.Shared.VecHistory
import WarpDrive.Shared.Admin
import WarpDrive.Security.Operations
import WarpDrive.Security.Registry
import WarpDrive.Security.Invariant
import WarpDrive.Security.Guarantees
import WarpDrive.Verification.Contract
import WarpDrive.Multisig.Account
import WarpDrive.Verification.Compression
import WarpDrive.Verification.Recovery
import WarpDrive.Handler.Contract
import WarpDrive.ProjectRoot.Contract
import WarpDrive.Handler.Acceptance
import WarpDrive.Handler.Replay
import WarpDrive.Verification.Quorum
import WarpDrive.ProjectRoot.Gate
import WarpDrive.ProjectRoot.Forwarders
import WarpDrive.System.World
import WarpDrive.System.Journal
import WarpDrive.System.Members
import WarpDrive.System.Calls
import WarpDrive.Guarantees.Window
import WarpDrive.Guarantees.Quorum
import WarpDrive.Guarantees.Verdict
import WarpDrive.Guarantees.Acceptance
import WarpDrive.Guarantees.Provenance
import WarpDrive.Guarantees.Forwarding
import WarpDrive.Guarantees.EventLog
import WarpDrive.Guarantees.Lockout
import WarpDrive.Guarantees.Ownership
import WarpDrive.Shared.Checkpoint
import WarpDrive.Shared.Refinement
import WarpDrive.Shared.Search
import WarpDrive.Security.Histories
import WarpDrive.ProjectRoot.Handlers
import WarpDrive.Guarantees.Resend
import WarpDrive.Guarantees.Arithmetic
import WarpDrive.Guarantees.Agreement
import WarpDrive.Guarantees.Unanimity
import WarpDrive.System.Administration
import WarpDrive.Deployer.Manifest
import WarpDrive.Deployer.Commands
import WarpDrive.Deployer.Site
import WarpDrive.Deployer.Custody
import WarpDrive.Deployer.Adoption
import WarpDrive.Deployer.Pipeline
import WarpDrive.Deployer.Resume
import WarpDrive.Deployer.Rehearsal
import WarpDrive.Deployer.Handover
import WarpDrive.Deployer.Belonging
import WarpDrive.Deployer.Networks
import WarpDrive.Client.Acceptance
import WarpDrive.Library.Quorums
import WarpDrive.Library.Attestation
import WarpDrive.System.Commits
import WarpDrive.Guarantees.Attestation
import WarpDrive.Guarantees.Evidence
import WarpDrive.Guarantees.Availability
import WarpDrive.Guarantees.Tracking
import WarpDrive.Library.Sequenced
import WarpDrive.Client.Execute
import WarpDrive.Client.Delivery
import WarpDrive.Library.Hex
import WarpDrive.Deployer.Signers
import WarpDrive.Guarantees.Repeats
import WarpDrive.Deployer.Membership
import WarpDrive.Deployer.HandlerCommands
import WarpDrive.Deployer.HandlerResume
import WarpDrive.Deployer.Identity
import WarpDrive.Deployer.Keyfile
import WarpDrive.Deployer.Keygen
import WarpDrive.Client.Arrival

import DirectoryReconcile.Directory
import DirectoryReconcile.Endpoint
import DirectoryReconcile.Main
import DirectoryReconcile.Proofs.Candidates
import DirectoryReconcile.Proofs.Command.Assignments
import DirectoryReconcile.Proofs.Creating
import DirectoryReconcile.Proofs.Directory.Form
import DirectoryReconcile.Proofs.Flagging
import DirectoryReconcile.Proofs.Interleaving
import DirectoryReconcile.Proofs.Interruption
import DirectoryReconcile.Proofs.Gate
import DirectoryReconcile.Proofs.Naming
import DirectoryReconcile.Proofs.Recovery
import DirectoryReconcile.Proofs.Repetition
import DirectoryReconcile.Proofs.Reporting
import DirectoryReconcile.Proofs.Showing
import DirectoryReconcile.Proofs.Frame
import DirectoryReconcile.Proofs.Tracing
import DirectoryReconcile.Proofs.Differences.Application
import DirectoryReconcile.Proofs.Differences.Keys
import DirectoryReconcile.Proofs.Differences.Requested
import DirectoryReconcile.Proofs.Differences.Restatement
import DirectoryReconcile.Proofs.Config.Overriding
import DirectoryReconcile.Proofs.Config.Password
import DirectoryReconcile.Proofs.Filter.Address
import DirectoryReconcile.Proofs.Filter.Certificate
import DirectoryReconcile.Proofs.Filter.Template
import DirectoryReconcile.Proofs.Filter.UnitName
import DirectoryReconcile.Proofs.Masking
import DirectoryReconcile.Proofs.Schema.Writing

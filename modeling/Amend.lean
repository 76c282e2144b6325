import Amend.Unicode.Letter
import Amend.Unicode.Folding
import Amend.Unicode.Query
import Amend.Invocation.Reader
import Amend.Performance
import Amend.Shell.Run
import Amend.Main
import Amend.Proofs.FileTree.Walk
import Amend.Proofs.Path
import Amend.Proofs.FileTree.Alteration
import Amend.Proofs.FileTree.Site
import Amend.Proofs.Run.AllOrNothing
import Amend.Proofs.FileTree.Overlay
import Amend.Proofs.Run.Schedule
import Amend.Proofs.Run.Interleaving
import Amend.Proofs.Landing
import Amend.Proofs.Run.Bounded
import Amend.Proofs.Run.RewrittenOnce
import Amend.Proofs.Pattern.Code
import Amend.Proofs.Pattern.Exploration
import Amend.Proofs.Pattern.Scan
import Amend.Proofs.Rule.Access
import Amend.Proofs.Rule.AccessPattern
import Amend.Proofs.Pattern.Context
import Amend.Proofs.Rule.Deletion
import Amend.Proofs.FileTree.Interruption
import Amend.Proofs.FileTree.Stays
import Amend.Proofs.Spelling
import Amend.Proofs.Run.Respelling
import Amend.Proofs.Run.ExitCode
import Amend.Proofs.Catalog.Validity
import Amend.Proofs.Catalog.Lookup
import Amend.Proofs.Console.Listing
import Amend.Proofs.Toml.Text
import Amend.Proofs.Toml.Document
import Amend.Proofs.FileTree.Writing
import Amend.Proofs.Run.SavedConfig
import Amend.Proofs.Run.InOrder
import Amend.Proofs.Run.Isolation
import Amend.Proofs.Run.DryRun
import Amend.Proofs.FileTree.Relative
import Amend.Proofs.Run.ReportFormat
import Amend.Proofs.Diagnosis.Ready
import Amend.Proofs.Diagnosis.CleanRun
import Amend.Proofs.Diagnosis.CheckProgram
import Amend.Proofs.Pattern.Succession
import Amend.Proofs.Rule.Splicing
import Amend.Proofs.Rule.Accessor
import Amend.Proofs.Rule.AccessRule
import Amend.Proofs.Rule.FieldRules
import Amend.Proofs.Rule.AccessScan
import Amend.Proofs.Catalog.Insertion
import Amend.Proofs.Catalog.Index
import Amend.Proofs.Run.Treatment
import Amend.Proofs.Run.BoundSets
import Amend.Proofs.Rule.Replay
import Amend.Proofs.Rule.Arrangement
import Amend.Proofs.Rule.PlainText
import Amend.Proofs.Rule.Template
import Amend.Proofs.Catalog.SoundRules
import Amend.Proofs.Catalog.StatusArm
import Amend.Proofs.Rule.Seams
import Amend.Proofs.Catalog.SecondPass
import Amend.Proofs.NormalForm
import Amend.Proofs.Run.Consistency
import Amend.Proofs.Run.Rooted
import Amend.Proofs.Run.StartingPlace

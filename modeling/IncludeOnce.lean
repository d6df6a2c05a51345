import IncludeOnce.Main
import IncludeOnce.Proofs.Outline
import IncludeOnce.Script
import IncludeOnce.Proofs.Actions
import IncludeOnce.Proofs.Group
import IncludeOnce.Proofs.Walk
import IncludeOnce.Proofs.Records
import IncludeOnce.Proofs.Moves
import IncludeOnce.Proofs.History
import IncludeOnce.Proofs.Reachable
import IncludeOnce.Proofs.GuardSkip
import IncludeOnce.Proofs.Paths
import IncludeOnce.Proofs.Wrapping
import IncludeOnce.Proofs.Twins
import IncludeOnce.Proofs.Lockstep
import IncludeOnce.Proofs.OnceOrGuard
import IncludeOnce.Proofs.OnceGraph
import IncludeOnce.Proofs.Units
import IncludeOnce.Proofs.Beside
import IncludeOnce.Proofs.Failure
import IncludeOnce.Proofs.Preorder
import IncludeOnce.Proofs.Bookkeeping
import IncludeOnce.Proofs.Spelling
import IncludeOnce.Proofs.Respelling
import IncludeOnce.Proofs.Growth
import IncludeOnce.Proofs.AnyOrder
import IncludeOnce.Proofs.Numbering
import IncludeOnce.Proofs.Warnings
import IncludeOnce.Proofs.Splicing
import IncludeOnce.Proofs.GuardForm
import IncludeOnce.Proofs.Skipped
import IncludeOnce.Proofs.Grammar
import IncludeOnce.Proofs.Comments
import IncludeOnce.Proofs.SearchOrder
import IncludeOnce.Proofs.RoundTrip
import IncludeOnce.Proofs.Literals
import IncludeOnce.Proofs.OnceLines

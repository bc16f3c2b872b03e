import Offside.Main
import Offside.Proofs.Expression.Complete
import Offside.Proofs.Statement.Course
import Offside.Proofs.Statement.Grammar
import Offside.Proofs.Statement.Sound
import Offside.Proofs.Statement.Complete
import Offside.Proofs.Nesting
import Offside.Proofs.Evaluation.Lockstep
import Offside.Proofs.Scope.Store
import Offside.Proofs.Evaluation.Ends
import Offside.Proofs.Scope.Names
import Offside.Proofs.Evaluation.Twins
import Offside.Proofs.Scope.Privacy
import Offside.Proofs.Expression.Budget
import Offside.Proofs.Statement.Budget
import Offside.Proofs.Statement.Total
import Offside.Proofs.Seam.Layout
import Offside.Proofs.Statement.Continuation
import Offside.Proofs.Statement.Retold
import Offside.Proofs.Statement.Sequel
import Offside.Proofs.Evaluation.Scripts
import Offside.Proofs.Seam.Session
import Offside.Proofs.Lexeme.Scan
import Offside.Proofs.Evaluation.Echo
import Offside.Proofs.Evaluation.Jump
import Offside.Proofs.Scope.Session
import Offside.Proofs.Scope.Chain
import Offside.Proofs.Indent.Depth
import Offside.Proofs.Seam.Recovery
import Offside.Proofs.Report.Diagnostics
import Offside.Proofs.Report.Numbering
import Offside.Proofs.Indent.Blank
import Offside.Proofs.Scope.Rounds
import Offside.Proofs.Statement.Guarded
import Offside.Proofs.Statement.Spoilt
import Offside.Proofs.Indent.Carriage
import Offside.Proofs.Number.Nearest
import Offside.Proofs.Number.Reading
import Offside.Proofs.Report.Order
import Offside.Proofs.Listing.Nest
import Offside.Proofs.Listing.Spelled
import Offside.Proofs.Listing.Tree
import Offside.Proofs.Seam.Joint
import Offside.Proofs.Seam.FinalBreak
import Offside.Proofs.Text
import Offside.Proofs.Report.Excerpt
import Offside.Proofs.Entry
import Offside.Proofs.Passage
import Offside.Proofs.Number.Printed

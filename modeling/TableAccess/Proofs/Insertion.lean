import TableAccess.Proofs.AlikeStatements
import TableAccess.Proofs.Placeholders
import TableAccess.Proofs.Preparation

/-!
# Insertions

An insertion executes one statement and asks for one generated key. The statement has the columns
of the prepared row with a place for the value of each, and the key is put into that row.
-/
namespace TableAccess

namespace Sql

end Sql

namespace Row
variable {row row' : Row} {primaryKey : String} {key : Value}

end Row

namespace Writer
variable {σ : Type} (w : Writer σ) {row : Row}

end Writer

end TableAccess

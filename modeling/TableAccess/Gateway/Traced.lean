import TableAccess.Gateway.Basic
import TableAccess.Text.Truncated

/-!
# Gateways that report statements

A traced gateway sends every statement on unchanged. It reports a statement before it is sent
and again when it is answered; long texts are cut in the report.
-/
namespace TableAccess

/-- How statements are reported: at which level, and up to how many bytes of text. -/
structure Tracing where
  level : Level := .debug
  maxLength : Option Nat := some 200

namespace Gateway
variable {σ : Type}

def traceStatement {α : Type} (t : Tracing) (sql : String) (params : List Value)
    (send : Action σ α) (rows : α → Nat) : Action σ α := do
  let kind := StatementKind.ofSql sql
  let text := Text.shown t.maxLength sql
  Action.report [.executing t.level kind params.length text]
  let result ← (ExceptT.lift send.run : Action σ (Except Error α))
  match result with
  | .ok a =>
    Action.report [.finished t.level kind (rows a)]
    return a
  | .error e =>
    Action.report [.failed kind e text]
    throw e

/-- The gateway that reports what goes through another one. A question for a generated key is
reported once it is answered, and not at all if it fails. -/
def traced (t : Tracing) (g : Gateway σ) : Gateway σ where
  dialect := g.dialect
  quote := g.quote
  query sql params := traceStatement t sql params (g.query sql params) List.length
  execute sql params := traceStatement t sql params (g.execute sql params) id
  lastKey sequence := do
    let key ← g.lastKey sequence
    Action.report [.generatedKey t.level sequence key]
    return key

end Gateway

end TableAccess

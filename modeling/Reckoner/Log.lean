import Reckoner.Expr.Evaluate

/-! The log of a run: what was scanned, parsed, applied and declared, in order. -/

namespace Reckoner

/-- How detailed a log record is. -/
inductive LogLevel
  | debug
  | trace
  deriving DecidableEq, Repr

/-- One event of a run. -/
inductive LogRecord
  | scanned (tokens : Nat)
  | parsed (statements : Nat)
  | applied (application : Application)
  | declared (name : String) (value : Value)
  deriving DecidableEq

namespace LogRecord

/-- Applications are details; everything else concerns a whole stage or statement. -/
def level : LogRecord → LogLevel
  | applied _ => .trace
  | scanned _ | parsed _ | declared .. => .debug

/-- The text of a record. -/
def message : LogRecord → String
  | scanned tokens => s!"lexed {tokens} tokens"
  | parsed statements => s!"parsed {statements} statements"
  | applied a => s!"{a.left.text} {a.op.symbol} {a.right.text} = {a.result.text}"
  | declared name value => s!"declared {name} = {value.text}"

end LogRecord
end Reckoner

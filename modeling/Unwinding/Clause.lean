import Unwinding.Operand

/-! # Clauses: what a landing pad tests an exception against -/
namespace Unwinding

inductive ClauseKind
  | catching
  | filtering
  deriving DecidableEq, Repr

inductive Clause
  /-- Matches exceptions that the type catches, and every exception if the type is null. -/
  | catching (type : Operand)
  /-- Matches exceptions that none of the types catches. -/
  | filtering (types : List Operand)
  deriving DecidableEq, Repr

namespace Clause

def catchAll : Clause := catching .null

def kind : Clause → ClauseKind
  | catching _ => .catching
  | filtering _ => .filtering

def types : Clause → List Operand
  | catching type => [type]
  | filtering types => types

/-- The type is null as written; an operand that happens to resolve to null does not count. -/
def isCatchAll (c : Clause) : Bool := c == catchAll

end Clause

end Unwinding

import Unwinding.Frame
import Unwinding.Operand
import Unwinding.Table

/-!
# Collaborators

Clauses ask two parties that they do not own: a resolver, which turns operands into addresses, and
a type matcher, which says whether a type catches an exception. Both are known by handles; what
stands behind a handle may change between two uses, and either may fail.
-/
namespace Unwinding

structure MatcherId where
  index : Nat
  deriving DecidableEq, Repr

structure ResolverId where
  index : Nat
  deriving DecidableEq, Repr

/-- The question whether an exception in flight on a stack is caught by a type. -/
structure Query where
  stack : Address
  header : Address
  type : Address
  deriving DecidableEq, Repr

/-- What all handles stand for at one moment. -/
structure Collaborators where
  resolve : ResolverId → Frame → Operand → Except Fault Address
  canCatch : MatcherId → Query → Except Fault Bool

/-- The matchers that the clauses of a pad hold on to, by the index of the clause. -/
abbrev Holdings := Table Nat MatcherId

end Unwinding

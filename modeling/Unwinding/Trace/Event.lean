import Unwinding.Clause
import Unwinding.Selector

/-! # Trace events: what happens in a dispatch, and the categories by which it is selected -/
namespace Unwinding

inductive Event
  | entered (pad : String) (header : Address) (clauseCount : Nat) (cleanup : Bool)
  | evaluated (pad : String) (index : Nat) (kind : ClauseKind) (selector : Selector)
  | fired (pad : String) (selector : Selector) (record : Address)
  | propagated (pad : String) (header : Address)
  deriving DecidableEq, Repr

inductive Category
  | dispatch
  | clauses
  deriving DecidableEq, Repr

def Event.category : Event → Category
  | entered .. | fired .. | propagated .. => .dispatch
  | evaluated .. => .clauses

/-- A set of categories as a bit mask. Bits that stand for no category are kept. -/
structure Categories where
  bits : UInt32
  deriving DecidableEq, Repr

def Category.bit : Category → UInt32
  | dispatch => 1
  | clauses => 2

namespace Categories

def none : Categories := ⟨0⟩

def all : Categories := ⟨Category.dispatch.bit ||| Category.clauses.bit⟩

def isEmpty (cs : Categories) : Bool := cs == none

def contains (cs : Categories) (c : Category) : Bool := cs.bits &&& c.bit != 0

end Categories

end Unwinding

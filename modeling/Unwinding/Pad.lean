import Unwinding.Clause

/-! # Landing pads and their assembly from single settings -/
namespace Unwinding

structure Pad where
  name : String
  exceptionSlot : Nat
  stackSlot : Nat
  destination : Operand
  clauses : List Clause
  /-- A cleanup pad is entered also when no clause matches. -/
  cleanup : Bool
  deriving DecidableEq, Repr

namespace Pad

/-- One step in the assembly of a pad. -/
inductive Setting
  | name (s : String)
  | exceptionSlot (slot : Nat)
  | stackSlot (slot : Nat)
  | destination (o : Operand)
  | clause (c : Clause)
  | clauses (cs : List Clause)
  | cleanup (b : Bool)
  deriving DecidableEq, Repr

/-- A pad in the making. -/
structure Draft where
  name : String := "landingpad"
  exceptionSlot : Option Nat := none
  stackSlot : Option Nat := none
  destination : Option Operand := none
  clauses : List Clause := []
  cleanup : Bool := false
  deriving DecidableEq, Repr

/-- What a draft still lacks. -/
inductive Missing
  | exceptionSlot
  | stackSlot
  | destination
  | clauses
  deriving DecidableEq, Repr

def Missing.message : Missing → String
  | exceptionSlot => "landing pad needs an exception slot"
  | stackSlot => "landing pad needs a stack slot"
  | destination => "landing pad needs a destination"
  | clauses => "landing pad without clauses must be a cleanup pad"

namespace Draft

/-- Clauses add up; of every other setting the last one counts. -/
def apply (d : Draft) : Setting → Draft
  | .name s => { d with name := s }
  | .exceptionSlot slot => { d with exceptionSlot := some slot }
  | .stackSlot slot => { d with stackSlot := some slot }
  | .destination o => { d with destination := some o }
  | .clause c => { d with clauses := d.clauses ++ [c] }
  | .clauses cs => { d with clauses := d.clauses ++ cs }
  | .cleanup b => { d with cleanup := b }

def finish (d : Draft) : Except Missing Pad := do
  let some exceptionSlot := d.exceptionSlot | throw .exceptionSlot
  let some stackSlot := d.stackSlot | throw .stackSlot
  let some destination := d.destination | throw .destination
  if d.clauses.isEmpty && !d.cleanup then throw .clauses
  else return ⟨d.name, exceptionSlot, stackSlot, destination, d.clauses, d.cleanup⟩

end Draft

def assemble (settings : List Setting) : Except Missing Pad :=
  (settings.foldl Draft.apply {}).finish

end Pad

end Unwinding

import Unwinding.Frame
import Unwinding.Operand
import Unwinding.Table

/-! # Symbol tables: names of addresses, and the resolution of operands with them -/
namespace Unwinding

structure SymbolTable where
  symbols : Table String Address := {}
  deriving DecidableEq, Repr, Inhabited

namespace SymbolTable

def empty : SymbolTable := {}

def define (s : SymbolTable) (name : String) (a : Address) : SymbolTable :=
  ⟨s.symbols.insert name a⟩

def lookup (s : SymbolTable) (name : String) : Option Address := s.symbols.find? name

/-- How many names are defined. -/
def size (s : SymbolTable) : Nat := s.symbols.size

/-- Literals stand for themselves, names for what they were last defined as, slots for the pointer
that the frame holds there. -/
def resolve (s : SymbolTable) (frame : Frame) : Operand → Except Fault Address
  | .null => .ok .null
  | .address a => .ok a
  | .symbol name =>
    match s.lookup name with
    | none => .error (.unresolvedSymbol name)
    | some a => .ok a
  | .slot index => frame.pointer index

end SymbolTable

end Unwinding

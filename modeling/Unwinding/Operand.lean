import Unwinding.Address

/-! # Operands: the four ways in which code names a native address -/
namespace Unwinding

inductive Operand
  | null
  | address (a : Address)
  | symbol (name : String)
  | slot (index : Nat)
  deriving DecidableEq, Repr

namespace Operand

def text : Operand → String
  | null => "null"
  | address a => a.shortText
  | symbol name => "@" ++ name
  | slot index => String.ofList ('%' :: Numeral.decimal index)

end Operand

end Unwinding

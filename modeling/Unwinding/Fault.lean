import Unwinding.Address

/-! # Faults: one constructor for each way an operation can fail, and its message -/
namespace Unwinding

inductive Fault
  | missingException (slot : Nat)
  | slotTypeMismatch (slot : Nat) (expected found : String)
  | slotOutOfBounds (slot count : Nat)
  | unresolvedSymbol (name : String)
  | unknownUnwindHeader (header : Address)
  | invalidPointer (address : Address) (reason : String)
  | addressOutOfRange (address : Address) (pointerBits : Nat)
  | memoryLimitExceeded (current limit : Nat)
  | internal (description : String)
  deriving DecidableEq, Repr

namespace Fault

/-- The faults that reading or writing a slot of a frame can raise. -/
def isFrameFault : Fault → Bool
  | missingException .. | slotTypeMismatch .. | slotOutOfBounds .. => true
  | _ => false

private def count (n : Nat) : String := String.ofList (Numeral.decimal n)

def message : Fault → String
  | missingException slot => "no in-flight exception in slot " ++ count slot
  | slotTypeMismatch slot expected found =>
    "slot " ++ count slot ++ " type mismatch: expected " ++ expected ++ ", found " ++ found
  | slotOutOfBounds slot n =>
    "slot " ++ count slot ++ " out of bounds (count: " ++ count n ++ ")"
  | unresolvedSymbol name => "unresolved symbol: " ++ name
  | unknownUnwindHeader header => "unknown unwind header " ++ header.text
  | invalidPointer address reason => "invalid pointer " ++ address.text ++ ": " ++ reason
  | addressOutOfRange address bits =>
    "address " ++ address.text ++ " does not fit a " ++ count bits ++ "-bit pointer"
  | memoryLimitExceeded current limit =>
    "native memory limit exceeded: " ++ count current ++ " bytes (limit: " ++ count limit ++ ")"
  | internal description => "internal emulation error: " ++ description

end Fault

end Unwinding

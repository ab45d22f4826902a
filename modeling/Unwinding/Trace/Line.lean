import Unwinding.Trace.Event

/-!
# Trace lines

An event is written as one JSON object on one line: a flat list of named texts, numbers and truth
values. Every control character of a text is escaped, so a line holds no line break.
-/
namespace Unwinding

/-- A value in a trace line. -/
inductive Scalar
  | text (s : String)
  | number (n : Int)
  | flag (b : Bool)
  deriving DecidableEq, Repr

namespace Line

/-- The control characters: both blocks of controls, and delete. -/
def isControl (c : Char) : Bool := c.toNat < 0x20 || (0x7F ≤ c.toNat && c.toNat < 0xA0)

def escapeChar (c : Char) : List Char :=
  if c = '"' then ['\\', '"']
  else if c = '\\' then ['\\', '\\']
  else if c = '\n' then ['\\', 'n']
  else if c = '\r' then ['\\', 'r']
  else if c = '\t' then ['\\', 't']
  else if isControl c then '\\' :: 'u' :: Numeral.paddedHex 4 c.toNat
  else [c]

def escape (cs : List Char) : List Char := cs.flatMap escapeChar

def quoted (s : String) : List Char := '"' :: escape s.toList ++ ['"']

def scalar : Scalar → List Char
  | .text s => quoted s
  | .number n => Numeral.signed n
  | .flag b => (if b then "true" else "false").toList

def field (f : String × Scalar) : List Char := quoted f.1 ++ ':' :: scalar f.2

/-- An object with its fields in the order given, without blanks. -/
def object (fields : List (String × Scalar)) : List Char :=
  '\x7b' :: [','].intercalate (fields.map field) ++ ['\x7d']

end Line

def ClauseKind.text : ClauseKind → String
  | catching => "catch"
  | filtering => "filter"

namespace Event

def fields : Event → List (String × Scalar)
  | entered pad header clauseCount cleanup =>
    [("type", .text "landingpad_enter"), ("pad", .text pad),
      ("unwind_header", .text header.shortText), ("clause_count", .number clauseCount),
      ("cleanup", .flag cleanup)]
  | evaluated pad index kind selector =>
    [("type", .text "clause"), ("pad", .text pad), ("index", .number index),
      ("kind", .text kind.text), ("selector", .number selector.code.toInt)]
  | fired pad selector record =>
    [("type", .text "landingpad_fired"), ("pad", .text pad),
      ("selector", .number selector.code.toInt), ("record", .text record.shortText)]
  | propagated pad header =>
    [("type", .text "propagate"), ("pad", .text pad), ("unwind_header", .text header.shortText)]

/-- The line of an event. A label, where there is one, comes first. -/
def line (label : Option String) (e : Event) : String :=
  String.ofList (Line.object ((label.map fun s => ("context", .text s)).toList ++ e.fields))

end Event

end Unwinding

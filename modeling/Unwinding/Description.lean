import Unwinding.Context

/-!
# Descriptions

One-line texts that show the make-up of a value, for reading and not for parsing back: a name and
the fields in braces, options as `Some` and `None`, strings in quotes.
-/
namespace Unwinding.Description

def number (n : Nat) : String := String.ofList (Numeral.decimal n)

def flag (b : Bool) : String := if b then "true" else "false"

/-- Quotes and backslashes are escaped; the rest of a string is shown as it is. -/
def quoted (s : String) : String :=
  String.ofList ('"' :: s.toList.flatMap (fun c => if c = '"' || c = '\\' then ['\\', c] else [c]) ++
    ['"'])

def optional {α : Type} (describe : α → String) : Option α → String
  | none => "None"
  | some a => "Some(" ++ describe a ++ ")"

def list {α : Type} (describe : α → String) (xs : List α) : String :=
  "[" ++ ", ".intercalate (xs.map describe) ++ "]"

/-- A name and its fields. A text that stands for fields left out comes last. -/
def record (name : String) (fields : List (String × String)) (rest : List String := []) : String :=
  name ++ " \x7b " ++ ", ".intercalate (fields.map (fun f => f.1 ++ ": " ++ f.2) ++ rest) ++ " \x7d"

def address (a : Address) : String := "NativeAddress(" ++ a.shortText ++ ")"

def stackHandle (a : Address) : String := "StackPointer(" ++ address a ++ ")"

def operand : Operand → String
  | .null => "Null"
  | .address a => "Address(" ++ number a.toNat ++ ")"
  | .symbol name => "Symbol(" ++ quoted name ++ ")"
  | .slot index => "Local(" ++ number index ++ ")"

def clauseKind : ClauseKind → String
  | .catching => "Catch"
  | .filtering => "Filter"

def clause (c : Clause) (hasMatcher : Bool) : String :=
  record "Clause" [("kind", clauseKind c.kind), ("type_infos", list operand c.types),
    ("has_matcher", flag hasMatcher)]

def writer (w : Writer) : String :=
  let (isFile, maxEntries) := match w.sink with
    | .window held => (false, held.capacity)
    | .file _ => (true, 0)
  record "TraceWriter" [("is_file_based", flag isFile), ("max_entries", number maxEntries),
    ("event_count", number w.eventCount)] [".."]

def layout (l : Layout) : String :=
  let width := match l.width with | .bits32 => "Bits32" | .bits64 => "Bits64"
  let endian := match l.endian with | .little => "Little" | .big => "Big"
  record "DataLayout" [("pointer_width", width), ("endian", endian)]

def memoryConfig (c : MemoryConfig) : String :=
  record "MemoryConfig" [("max_unmanaged_bytes", number c.maxBytes.toNat),
    ("base_address", number c.base.toNat)]

/-- The names of the categories in the set, then the bits that stand for none as one number. -/
def categories (cs : Categories) : String :=
  let names :=
    [(Category.dispatch, "DISPATCH"), (.clauses, "CLAUSES")].filterMap fun (c, name) =>
      if cs.contains c then some name else none
  let unknown := cs.bits &&& ~~~Categories.all.bits
  let hex (n : Nat) := String.ofList ('0' :: 'x' :: Numeral.lowerHex n)
  let parts := if unknown = 0 then names else names ++ [hex unknown.toNat]
  "TraceCategories(" ++ (if parts.isEmpty then hex 0 else " | ".intercalate parts) ++ ")"

def tracingConfig (c : TracingConfig) : String :=
  record "TracingConfig" [("categories", categories c.categories),
    ("max_trace_entries", number c.maxEntries), ("output_path", optional quoted c.output),
    ("context_prefix", optional quoted c.label)]

def config (c : Config) : String :=
  record "EmulationConfig" [("layout", layout c.layout), ("memory", memoryConfig c.memory),
    ("tracing", tracingConfig c.tracing)]

def context (c : Context) : String :=
  record "RuntimeContext" [("config", config c.environment.config),
    ("tracer", optional writer c.tracer), ("matcher_acquisitions", number c.acquisitions)] [".."]

end Unwinding.Description

import Unwinding.Context
import Unwinding.TypeGraph

/-!
# Commands and answers of a session

A client works on named objects: memories, frames, type graphs, symbol tables, contexts, trace
writers, pads and files. Each command names the object it is for.
-/
namespace Unwinding

inductive MemoryCommand
  | new (c : MemoryConfig)
  | clone (copy : String)
  | alloc (size : UInt64)
  | allocRecord (l : Layout)
  | free (a : Address)
  | read (a : Address) (length : Nat)
  | write (a : Address) (data : List UInt8)
  | isValid (a : Address)
  | readPointer (l : Layout) (a : Address)
  | writePointer (l : Layout) (a value : Address)
  | readInt32 (l : Layout) (a : Address)
  | writeInt32 (l : Layout) (a : Address) (value : Int32)
  | writeRecord (l : Layout) (a : Address) (r : Record)
  | readRecord (l : Layout) (a : Address)

/-- What a client puts into a slot. An exception becomes a new one with the header given. -/
inductive SlotInput
  | exception (header : Address)
  | stack (handle : Address)
  | pointer (a : Address)
  | int32 (v : Int32)
  | int64 (v : Int64)

inductive FrameCommand
  | new (count : Nat)
  | clone (copy : String)
  | set (slot : Nat) (v : SlotInput)
  | clear (slot : Nat)
  | get (slot : Nat)
  | exception (slot : Nat)
  | stack (slot : Nat)
  | pointer (slot : Nat)

inductive GraphCommand
  | new
  | registerType (type : Address) (bases : List Address)
  | registerException (header type : Address)
  | forgetException (header : Address)
  | thrownType (header : Address)
  | isDerivedFrom (derived base : Address)
  | canCatch (header type : Address)

inductive SymbolsCommand
  | new
  | define (name : String) (a : Address)
  | lookup (name : String)
  | resolve (frame : String) (o : Operand)

/-- How the matcher of a new context answers. -/
inductive MatcherInput
  /-- As a type graph does, with a log of the questions or without. -/
  | graph (name : String) (logged : Bool)
  /-- With a fault for some types, with yes for others, and with no for the rest. -/
  | listed (accepted refused : List Address)

inductive ContextCommand
  | new (c : Config) (symbols : String) (m : MatcherInput)
  | drop
  | resolve (frame : String) (o : Operand)
  | acquireMatcher (q : Query)
  | acquisitions
  | calls
  | describe

/-- The writer that a trace command is for. -/
inductive TraceTarget
  | writer (name : String)
  | contextTracer (name : String)

inductive TraceCommand
  | write (e : Event)
  | count
  | flush
  | take
  | describe

inductive WriterCommand
  | inMemory (label : Option String) (capacity : Nat)
  | toFile (label : Option String) (path : String)
  | drop

inductive FileCommand
  | write (text : String)
  | read

inductive PadCommand
  | build (settings : List Pad.Setting)
  | info
  | clone (copy : String)
  | equals (other : String)
  | describeClause (index : Nat)
  | evaluate (frame context : String) (index : Nat) (stack header : Address)
  | dispatch (frame context memory : String)

inductive Command
  | memory (name : String) (c : MemoryCommand)
  | frame (name : String) (c : FrameCommand)
  | graph (name : String) (c : GraphCommand)
  | symbols (name : String) (c : SymbolsCommand)
  | context (name : String) (c : ContextCommand)
  | trace (target : TraceTarget) (c : TraceCommand)
  | writer (name : String) (c : WriterCommand)
  | file (path : String) (c : FileCommand)
  | pad (name : String) (c : PadCommand)

/-- A pad together with the matchers that its clauses hold. -/
structure BuiltPad where
  pad : Pad
  held : Holdings := {}
  deriving DecidableEq

namespace BuiltPad

/-- For each clause whether it holds a matcher. -/
def matchers (p : BuiltPad) : List Bool := (List.range p.pad.clauses.length).map p.held.contains

end BuiltPad

inductive Answer
  | nothing
  | flag (b : Bool)
  | number (n : Nat)
  | int32 (v : Int32)
  | address (a : Option Address)
  | bytes (bs : List UInt8)
  | slot (v : Option SlotValue)
  | text (s : String)
  | texts (ss : Option (List String))
  | record (r : Record)
  | budget (limit : Nat)
  | symbols (size : Nat)
  | symbol (a : Option Address) (size : Nat)
  | context (c : Config) (traced : Bool)
  | queries (qs : Option (List Query))
  | label (s : Option String)
  | pad (p : BuiltPad)
  | selector (s : Selector)
  /-- `same` says of a resumed exception whether it is the one that the frame holds. -/
  | outcome (o : Outcome) (same : Bool)

/-- Why a command was refused. -/
inductive Refusal
  | fault (f : Fault)
  | incomplete (m : Pad.Missing)
  | file (f : FileFault)
  /-- It names an object that is not there. -/
  | unknownObject
  deriving DecidableEq

def Refusal.message : Refusal → String
  | fault f => f.message
  | incomplete m => m.message
  | file f => f.message
  | unknownObject => "unknown object"

/-- The answer to a command, and the state of the objects it worked on where that belongs to it. -/
structure Reply where
  result : Except Refusal Answer
  memory : Option Memory := none
  acquisitions : Option Nat := none
  matchers : Option (List Bool) := none

end Unwinding

import Unwinding.Session.Command
import Unwinding.SymbolTable

/-!
# The objects of a session

Type graphs, symbol tables and matchers are shared: a name and the contexts that use it refer to one
object by a handle, and the object stays when the name is given to another. All else belongs to its
name alone.
-/
namespace Unwinding

/-- Shared objects, each under the handle that it got when it was added. -/
structure Pool (α : Type) where
  items : List α := []

namespace Pool
variable {α : Type}

def add (p : Pool α) (a : α) : Nat × Pool α := (p.items.length, ⟨p.items ++ [a]⟩)

def get? (p : Pool α) (handle : Nat) : Option α := p.items[handle]?

def set (p : Pool α) (handle : Nat) (a : α) : Pool α := ⟨p.items.set handle a⟩

def update (p : Pool α) (handle : Nat) (f : α → α) : Pool α := ⟨p.items.modify handle f⟩

end Pool

/-- How a matcher comes to its answers. -/
inductive MatcherRule
  | graph (handle : Nat)
  | listed (accepted refused : List Address)

structure Matcher where
  rule : MatcherRule
  /-- The questions since the log was last taken, oldest first; a matcher may keep no log. -/
  log : Option (List Query)

/-- Enters a question into the log of a matcher that keeps one. -/
def Matcher.note (m : Matcher) (q : Query) : Matcher := { m with log := m.log.map (· ++ [q]) }

structure Session where
  memories : Table String Memory := {}
  frames : Table String Frame := {}
  graphNames : Table String Nat := {}
  graphs : Pool TypeGraph := {}
  symbolNames : Table String Nat := {}
  symbolTables : Pool SymbolTable := {}
  matchers : Pool Matcher := {}
  contexts : Table String Context := {}
  pads : Table String BuiltPad := {}
  writers : Table String Writer := {}
  scratch : Scratch := {}
  /-- How many exceptions were thrown so far; the serial number of the next. -/
  thrown : Nat := 0

namespace Session

def empty : Session := {}

def graph? (s : Session) (name : String) : Option (Nat × TypeGraph) := do
  let handle ← s.graphNames.find? name
  return (handle, ← s.graphs.get? handle)

def symbols? (s : Session) (name : String) : Option (Nat × SymbolTable) := do
  let handle ← s.symbolNames.find? name
  return (handle, ← s.symbolTables.get? handle)

/-- The answer of a matcher as things stand. Every handle in use leads to an object; one that did
not would stand for an empty graph. -/
def answer (s : Session) (m : Matcher) (q : Query) : Except Fault Bool :=
  match m.rule with
  | .graph handle => ((s.graphs.get? handle).getD .empty).canCatch q.header q.type
  | .listed accepted refused =>
    if q.type ∈ refused then .error (.internal ("oracle failed on " ++ q.type.text))
    else .ok (q.type ∈ accepted)

/-- What the handles stand for now. -/
def world (s : Session) : Collaborators where
  resolve id frame o := ((s.symbolTables.get? id.index).getD .empty).resolve frame o
  canCatch id q :=
    match s.matchers.get? id.index with
    | some m => s.answer m q
    | none => .ok false

/-- Enters questions into the logs of the matchers that they were put to. -/
def logQueries (s : Session) (asked : List (MatcherId × Query)) : Session :=
  let note (ms : Pool Matcher) (a : MatcherId × Query) := ms.update a.1.index (Matcher.note · a.2)
  { s with matchers := asked.foldl note s.matchers }

/-- Puts a context under a name. The tracer of one that was there before is closed. -/
def putContext (s : Session) (name : String) (c : Context) (d : Scratch) : Session :=
  let d := match s.contexts.find? name with
    | some old => old.close d
    | none => d
  { s with contexts := s.contexts.insert name c, scratch := d }

def putWriter (s : Session) (name : String) (w : Writer) (d : Scratch) : Session :=
  let d := match s.writers.find? name with
    | some old => old.close d
    | none => d
  { s with writers := s.writers.insert name w, scratch := d }

end Session

end Unwinding

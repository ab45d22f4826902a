import Unwinding.Scratch
import Unwinding.Trace.Line

/-!
# Trace writers

A writer keeps the newest events in memory, or appends a line per event to a file. Text for a file
is gathered in a buffer first and reaches the file when the buffer runs full, on a flush, and when
the writer is closed. Several writers may append to one file.
-/
namespace Unwinding

/-- Text on its way to an open file. -/
structure FileSink where
  file : Location
  pending : String := ""
  deriving DecidableEq, Repr

namespace FileSink

/-- How many bytes the buffer holds. -/
def capacity : Nat := 8192

def flush (s : FileSink) (d : Scratch) : FileSink × Scratch :=
  if s.pending.isEmpty then (s, d) else ({ s with pending := "" }, d.append s.file s.pending)

/-- Adds text that stays in one piece: where it does not fit behind what waits, that goes first, and
a text as large as the buffer is not buffered at all. -/
def push (text : String) (s : FileSink) (d : Scratch) : FileSink × Scratch :=
  let (s, d) :=
    if capacity < s.pending.utf8ByteSize + text.utf8ByteSize then s.flush d else (s, d)
  if capacity ≤ text.utf8ByteSize then (s, d.append s.file text)
  else ({ s with pending := s.pending ++ text }, d)

/-- A line and its line break are two pieces. -/
def pushLine (line : String) (s : FileSink) (d : Scratch) : FileSink × Scratch :=
  let (s, d) := s.push line d
  s.push "\n" d

end FileSink

/-- The newest events, oldest first; with a capacity of zero all of them. -/
structure Window where
  capacity : Nat
  events : List Event := []
  deriving DecidableEq, Repr

namespace Window

/-- Makes room by dropping the oldest event, then adds the new one. -/
def push (w : Window) (e : Event) : Window :=
  let kept := if 0 < w.capacity ∧ w.capacity ≤ w.events.length then w.events.tail else w.events
  { w with events := kept ++ [e] }

end Window

inductive Sink
  | window (w : Window)
  | file (s : FileSink)
  deriving DecidableEq, Repr

structure Writer where
  label : Option String
  sink : Sink
  /-- How many events were written so far; a counter of 64 bits shows the number modulo 2^64. -/
  eventCount : Nat := 0
  deriving DecidableEq, Repr

namespace Writer

def inMemory (label : Option String) (capacity : Nat) : Writer := ⟨label, .window ⟨capacity, []⟩, 0⟩

/-- A writer that appends to a file; the file is there as soon as the writer is. -/
def toFile (label : Option String) (path : String) (d : Scratch) :
    Except FileFault (Writer × Scratch) := do
  let (file, d) ← d.openToAppend path
  return (⟨label, .file ⟨file, ""⟩, 0⟩, d)

def write (e : Event) (w : Writer) (d : Scratch) : Writer × Scratch :=
  match w.sink with
  | .window held => ({ w with sink := .window (held.push e), eventCount := w.eventCount + 1 }, d)
  | .file s =>
    let (s, d) := s.pushLine (e.line w.label) d
    ({ w with sink := .file s, eventCount := w.eventCount + 1 }, d)

def writeAll : List Event → Writer → Scratch → Writer × Scratch
  | [], w, d => (w, d)
  | e :: es, w, d =>
    let (w, d) := w.write e d
    w.writeAll es d

/-- Brings all text to the file. A writer in memory has nothing to bring. -/
def flush (w : Writer) (d : Scratch) : Writer × Scratch :=
  match w.sink with
  | .window _ => (w, d)
  | .file s =>
    let (s, d) := s.flush d
    ({ w with sink := .file s }, d)

/-- What is in the file after the writer is gone. -/
def close (w : Writer) (d : Scratch) : Scratch := (w.flush d).2

/-- Takes out the events held in memory. A writer to a file holds none that could be taken. -/
def take (w : Writer) : Option (List Event) × Writer :=
  match w.sink with
  | .window held => (some held.events, { w with sink := .window { held with events := [] } })
  | .file _ => (none, w)

end Writer

end Unwinding

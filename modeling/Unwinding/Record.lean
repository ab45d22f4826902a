import Unwinding.Memory
import Unwinding.Selector

/-!
# Records

What a landing pad leaves in memory: the unwind header of the exception, pointer-wide, and right
behind it the selector. A record is stored in one piece, so a place too small for it stays as it was.
-/
namespace Unwinding

structure Record where
  header : Address
  selector : Selector
  deriving DecidableEq, Repr

namespace Record

def size (l : Layout) : Nat := l.pointerSize + 4

/-- Where the selector stands in a record. -/
def selectorOffset (l : Layout) : UInt64 := UInt64.ofNat l.pointerSize

def encode (r : Record) (l : Layout) : Except Fault (List UInt8) := do
  return (← l.encodePointer r.header) ++ l.encodeInt32 r.selector.code

def allocate (l : Layout) : Action Memory Address := Memory.alloc (UInt64.ofNat (size l))

/-- Stores a record at `destination`, and returns that address. -/
def write (r : Record) (l : Layout) (destination : Address) : Action Memory Address := do
  Memory.write destination (← Action.settle (r.encode l))
  return destination

def read (m : Memory) (l : Layout) (a : Address) : Except Fault Record := do
  let header ← m.readPointer l a
  let code ← m.readInt32 l (a.offset (selectorOffset l))
  return ⟨header, ⟨code⟩⟩

theorem write_apply (r : Record) (l : Layout) (destination : Address) (m : Memory) :
    r.write l destination m =
      match l.encodePointer r.header with
      | .error f => .error f m
      | .ok bs =>
        match Memory.write destination (bs ++ l.encodeInt32 r.selector.code) m with
        | .error f m => .error f m
        | .ok () m => .ok destination m := by
  rw [write, encode]
  cases l.encodePointer r.header with
  | error f => rfl
  | ok bs =>
    have hs : Action.settle (do return (← Except.ok bs) ++ l.encodeInt32 r.selector.code) m =
        .ok (bs ++ l.encodeInt32 r.selector.code) m := rfl
    rw [Action.bind_of_ok hs]
    cases hw : Memory.write destination (bs ++ l.encodeInt32 r.selector.code) m with
    | error f m' => simp only [Action.bind_of_error hw, hw]
    | ok u m' => simp only [Action.bind_of_ok hw, hw]; rfl

end Record

end Unwinding

import Unwinding.Fault

/-!
# Frames

A frame is a row of slots, each empty or holding one typed value. A typed read fails on an empty
slot and on a value of another kind.
-/
namespace Unwinding

/-- An exception in flight. The serial number tells two throws with one header apart. -/
structure ThrownException where
  serial : Nat
  header : Address
  deriving DecidableEq, Repr

inductive SlotValue
  | exception (e : ThrownException)
  | stack (handle : Address)
  | pointer (a : Address)
  | int32 (v : Int32)
  | int64 (v : Int64)
  deriving DecidableEq, Repr

def SlotValue.kind : SlotValue → String
  | exception _ => "exception"
  | stack _ => "stack"
  | pointer _ => "pointer"
  | int32 _ => "i32"
  | int64 _ => "i64"

structure Frame where
  slots : List (Option SlotValue)
  deriving DecidableEq, Repr

namespace Frame

/-- A frame of empty slots. -/
def new (count : Nat) : Frame := ⟨List.replicate count none⟩

def count (f : Frame) : Nat := f.slots.length

def get (f : Frame) (slot : Nat) : Except Fault (Option SlotValue) :=
  match f.slots[slot]? with
  | some v => .ok v
  | none => .error (.slotOutOfBounds slot f.count)

/-- Replaces what a slot holds. -/
def put (f : Frame) (slot : Nat) (v : Option SlotValue) : Except Fault Frame :=
  if slot < f.count then .ok ⟨f.slots.set slot v⟩ else .error (.slotOutOfBounds slot f.count)

def set (f : Frame) (slot : Nat) (v : SlotValue) : Except Fault Frame := f.put slot (some v)

/-- Empties a slot and says what it held. -/
def clear (f : Frame) (slot : Nat) : Except Fault (Option SlotValue × Frame) := do
  let old ← f.get slot
  return (old, ← f.put slot none)

private def mismatch (slot : Nat) (expected : String) (v : Option SlotValue) : Fault :=
  .slotTypeMismatch slot expected (v.elim "empty" SlotValue.kind)

/-- An empty slot holds no exception in flight; that is a fault of its own. -/
def exception (f : Frame) (slot : Nat) : Except Fault ThrownException :=
  match f.get slot with
  | .error fault => .error fault
  | .ok (some (.exception e)) => .ok e
  | .ok none => .error (.missingException slot)
  | .ok v => .error (mismatch slot "exception" v)

def stack (f : Frame) (slot : Nat) : Except Fault Address :=
  match f.get slot with
  | .error fault => .error fault
  | .ok (some (.stack handle)) => .ok handle
  | .ok v => .error (mismatch slot "stack" v)

def pointer (f : Frame) (slot : Nat) : Except Fault Address :=
  match f.get slot with
  | .error fault => .error fault
  | .ok (some (.pointer a)) => .ok a
  | .ok v => .error (mismatch slot "pointer" v)

end Frame

end Unwinding

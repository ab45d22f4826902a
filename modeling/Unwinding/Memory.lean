import Unwinding.Action
import Unwinding.Layout

/-!
# Memory

An address space that hands out byte regions at growing addresses within a budget, and checks that
each access lies inside one live region. Addresses are never handed out twice, so the newest region
that starts at or below an address is also the nearest one.
-/
namespace Unwinding

/-- A live allocation. The bytes are a function of the offset, so that a large region costs nothing
until it is written. -/
structure Region where
  base : Address
  size : Nat
  byte : Nat → UInt8

namespace Region

def zeroed (base : Address) (size : Nat) : Region := ⟨base, size, fun _ => 0⟩

/-- How far an address lies above the base, if `length` bytes from it stay inside the region. -/
def offset? (r : Region) (a : Address) (length : Nat) : Option Nat :=
  if r.base.toNat ≤ a.toNat ∧ a.toNat - r.base.toNat + length ≤ r.size then
    some (a.toNat - r.base.toNat)
  else none

def slice (r : Region) (offset length : Nat) : List UInt8 :=
  (List.range length).map fun i => r.byte (offset + i)

def overwrite (r : Region) (offset : Nat) (data : List UInt8) : Region :=
  { r with byte := fun i => if i < offset then r.byte i else (data[i - offset]?).getD (r.byte i) }

end Region

structure Memory where
  /-- The live regions, newest first. -/
  regions : List Region := []
  /-- Where the next allocation goes. -/
  next : Address
  /-- The sum of the sizes of the live regions. -/
  used : Nat := 0
  /-- The most that the live regions may take together. -/
  limit : UInt64
  /-- How often bytes were stored or refused since the memory was made. -/
  writes : Nat := 0

namespace Memory

/-- The largest size that can be asked for; sums beyond it count as this one. -/
def maxSize : Nat := UInt64.size - 1

/-- Allocations after the first start at multiples of this. -/
def alignment : Nat := 16

def exhausted : String := "allocation would exceed the address space"
def notAllocated : String := "not a valid allocation or already freed"
def outside : String := "address not in any allocated region"
def beyondBounds : String := "access would exceed region bounds"

/-- An empty region takes up one address, so that its base is its own. -/
def span (size : Nat) : Nat := max size 1

/-- The first multiple of the alignment at or above the end of an allocation. -/
def nextAfter (base : Address) (size : Nat) : Nat :=
  (base.toNat + span size + (alignment - 1)) / alignment * alignment

/-- Reserves a zeroed region. -/
def alloc (size : UInt64) : Action Memory Address := do
  let m ← get
  if m.limit.toNat < min (m.used + size.toNat) maxSize then
    throw (.memoryLimitExceeded m.used m.limit.toNat)
  else if UInt64.size ≤ m.next.toNat + span size.toNat + (alignment - 1) then
    throw (.invalidPointer m.next exhausted)
  else
    set { m with
      regions := .zeroed m.next size.toNat :: m.regions
      next := .ofNat (nextAfter m.next size.toNat)
      used := m.used + size.toNat }
    return m.next

/-- Gives a region back. Only the base of a live region names it. -/
def free (a : Address) : Action Memory Unit := do
  let m ← get
  match m.regions.find? (·.base = a) with
  | none => throw (.invalidPointer a notAllocated)
  | some r => set { m with
      regions := m.regions.filter (·.base ≠ a)
      used := m.used - r.size }

/-- The region that holds all `length` bytes from `a` on, and the offset of `a` in it. -/
def locate (m : Memory) (a : Address) (length : Nat) : Except Fault (Region × Nat) :=
  match m.regions.find? (·.base ≤ a) with
  | none => .error (.invalidPointer a outside)
  | some r =>
    match r.offset? a length with
    | none => .error (.invalidPointer a beyondBounds)
    | some offset => .ok (r, offset)

/-- The address is a byte of a live region. -/
def isValid (m : Memory) (a : Address) : Bool := (m.locate a 1).isOk

def read (m : Memory) (a : Address) (length : Nat) : Except Fault (List UInt8) := do
  let (r, offset) ← m.locate a length
  return r.slice offset length

/-- The bytes of one region replaced from `offset` on. -/
def overwrite (m : Memory) (base : Address) (offset : Nat) (data : List UInt8) : Memory :=
  { m with regions := m.regions.map fun r => if r.base = base then r.overwrite offset data else r }

/-- Stores bytes inside one live region. The attempt counts also where it is refused. -/
def write (a : Address) (data : List UInt8) : Action Memory Unit := do
  modify fun m => { m with writes := m.writes + 1 }
  let m ← get
  let (r, offset) ← Action.settle (m.locate a data.length)
  set (m.overwrite r.base offset data)

def writePointer (l : Layout) (a value : Address) : Action Memory Unit := do
  write a (← Action.settle (l.encodePointer value))

def writeInt32 (l : Layout) (a : Address) (value : Int32) : Action Memory Unit :=
  write a (l.encodeInt32 value)

def readPointer (m : Memory) (l : Layout) (a : Address) : Except Fault Address := do
  l.decodePointer (← m.read a l.pointerSize)

def readInt32 (m : Memory) (l : Layout) (a : Address) : Except Fault Int32 := do
  l.decodeInt32 (← m.read a 4)

theorem alloc_apply (m : Memory) (size : UInt64) : alloc size m =
    if m.limit.toNat < min (m.used + size.toNat) maxSize then
      .error (.memoryLimitExceeded m.used m.limit.toNat) m
    else if UInt64.size ≤ m.next.toNat + span size.toNat + (alignment - 1) then
      .error (.invalidPointer m.next exhausted) m
    else .ok m.next { m with
      regions := .zeroed m.next size.toNat :: m.regions
      next := .ofNat (nextAfter m.next size.toNat)
      used := m.used + size.toNat } := by
  rw [alloc, Action.bind_of_ok (x := get) rfl]
  split
  · rfl
  · split <;> rfl

theorem free_apply (m : Memory) (a : Address) : free a m =
    match m.regions.find? (·.base = a) with
    | none => .error (.invalidPointer a notAllocated) m
    | some r => .ok () { m with
        regions := m.regions.filter (·.base ≠ a)
        used := m.used - r.size } := by
  rw [free, Action.bind_of_ok (x := get) rfl]
  cases m.regions.find? (·.base = a) <;> rfl

theorem write_apply (m : Memory) (a : Address) (data : List UInt8) : write a data m =
    match m.locate a data.length with
    | .error f => .error f { m with writes := m.writes + 1 }
    | .ok (r, offset) =>
      .ok () ({ m with writes := m.writes + 1 }.overwrite r.base offset data) := by
  have h : ({ m with writes := m.writes + 1 } : Memory).locate a data.length =
      m.locate a data.length := rfl
  rw [write, Action.bind_of_ok (x := modify _) rfl, Action.bind_of_ok (x := get) rfl, h]
  cases m.locate a data.length <;> rfl

theorem writePointer_apply (m : Memory) (l : Layout) (a value : Address) :
    writePointer l a value m =
      match l.encodePointer value with
      | .error f => .error f m
      | .ok bs => write a bs m := by
  rw [writePointer]
  cases l.encodePointer value <;> rfl

end Memory

end Unwinding

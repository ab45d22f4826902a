import Unwinding.Layout
import Unwinding.Memory
import Unwinding.Trace.Event

/-! # Settings of a context: data layout, memory and tracing; presets and adjustments -/
namespace Unwinding

structure MemoryConfig where
  maxBytes : UInt64
  base : Address
  deriving DecidableEq, Repr

namespace MemoryConfig

/-- Allocations start below the top of the user half of the address space. The low word of the base
is not zero, so that the base can serve as a selector. -/
def baseFor : Width → Address
  | .bits32 => ⟨0x7FFF1000⟩
  | .bits64 => ⟨0x7FFF00001000⟩

def forWidth (w : Width) : MemoryConfig := ⟨16 * 1024 * 1024, baseFor w⟩

/-- The configuration for a width with other values put in where they are given. -/
def adjusted (width : Option Width) (maxBytes : Option UInt64) (base : Option Address) :
    MemoryConfig :=
  let c := forWidth (width.getD .bits64)
  ⟨maxBytes.getD c.maxBytes, base.getD c.base⟩

end MemoryConfig

def Memory.new (c : MemoryConfig) : Memory := { next := c.base, limit := c.maxBytes }

structure TracingConfig where
  categories : Categories := .none
  /-- The most events that are kept in memory; zero for no bound. -/
  maxEntries : Nat := 0
  /-- The file that events go to; without one they are kept in memory. -/
  output : Option String := none
  /-- A text that every line starts with. -/
  label : Option String := none
  deriving DecidableEq, Repr

namespace TracingConfig

def disabled : TracingConfig := {}

def inMemory (maxEntries : Nat) : TracingConfig :=
  { categories := .all, maxEntries := maxEntries }

def toFile (name : String) : TracingConfig := { categories := .all, output := some name }

/-- The same settings with other values put in where they are given. -/
def adjusted (c : TracingConfig) (maxEntries : Option Nat) (categories : Option Categories)
    (label : Option String) : TracingConfig :=
  { c with
    maxEntries := maxEntries.getD c.maxEntries
    categories := categories.getD c.categories
    label := label.or c.label }

def isEnabled (c : TracingConfig) : Bool := !c.categories.isEmpty

end TracingConfig

structure Config where
  layout : Layout := {}
  memory : MemoryConfig := .forWidth .bits64
  tracing : TracingConfig := .disabled
  deriving DecidableEq, Repr

namespace Config

inductive Preset
  | standard
  | minimal
  | traced
  deriving DecidableEq, Repr

def ofPreset : Preset → Config
  | .standard => {}
  | .minimal => { memory := .adjusted none (some (1024 * 1024)) none }
  | .traced => { tracing := .inMemory 10000 }

/-- Takes a layout, and with it the base address that suits its width. -/
def withLayout (c : Config) (l : Layout) : Config :=
  { c with layout := l, memory := { c.memory with base := MemoryConfig.baseFor l.width } }

/-- One change to a configuration. -/
inductive Adjustment
  | layout (l : Layout)
  | memory (m : MemoryConfig)
  | tracing (t : TracingConfig)
  deriving DecidableEq, Repr

def adjust (c : Config) : Adjustment → Config
  | .layout l => c.withLayout l
  | .memory m => { c with memory := m }
  | .tracing t => { c with tracing := t }

def build (preset : Preset) (adjustments : List Adjustment) : Config :=
  adjustments.foldl adjust (ofPreset preset)

end Config

end Unwinding

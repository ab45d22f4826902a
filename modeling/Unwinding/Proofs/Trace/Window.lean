import Mathlib
import Unwinding.Trace.Writer

/-!
# The window of a memory writer

A writer in memory has a window on what was written to it since the events were last taken out: the
newest events, as many as the capacity allows, oldest first. Taking them out closes the window, and
the next event opens it anew. The count of events runs on all the time.
-/
namespace Unwinding

namespace Window

/-- How many of `n` events a window keeps. A capacity of zero is no bound. -/
def keeps (capacity n : Nat) : Nat := if capacity = 0 then n else min capacity n

/-- The last of the events, as many as a window keeps. -/
def newest (capacity : Nat) (es : List Event) : List Event := es.rtake (keeps capacity es.length)

variable {capacity : Nat} {es : List Event}

theorem newest_nil (capacity : Nat) : newest capacity [] = [] := List.rtake_nil _

theorem newest_zero (es : List Event) : newest 0 es = es := by
  simp [newest, keeps, List.rtake]

theorem newest_of_pos (h : 0 < capacity) :
    newest capacity es = es.drop (es.length - capacity) := by
  rw [newest, keeps, if_neg (Nat.pos_iff_ne_zero.1 h), List.rtake]
  congr 1
  omega

theorem length_newest : (newest capacity es).length = keeps capacity es.length := by
  have hle : keeps capacity es.length ≤ es.length := by
    unfold keeps
    split <;> omega
  rw [newest, List.rtake, List.length_drop]
  omega

/-- The oldest event makes room only where the window is full. -/
theorem push_newest (capacity : Nat) (es : List Event) (e : Event) :
    push ⟨capacity, newest capacity es⟩ e = ⟨capacity, newest capacity (es ++ [e])⟩ := by
  rcases Nat.eq_zero_or_pos capacity with rfl | hpos
  · simp [push, newest_zero]
  · have hlen : (es ++ [e]).length = es.length + 1 := List.length_append
    rw [newest_of_pos hpos, newest_of_pos hpos, hlen]
    simp only [push, List.length_drop, Window.mk.injEq, true_and]
    by_cases hfull : capacity ≤ es.length
    · have hdrop : es.length + 1 - capacity = es.length - capacity + 1 := by omega
      rw [if_pos ⟨hpos, by omega⟩, List.tail_drop, hdrop,
        List.drop_append_of_le_length (by omega)]
    · have hall : es.length - capacity = 0 := by omega
      have hmore : es.length + 1 - capacity = 0 := by omega
      rw [if_neg (by omega), hall, hmore, List.drop_zero, List.drop_zero]

end Window

namespace Writer

inductive Call
  | write (e : Event)
  | take
  | flush
  /-- Asks for the number of events; nothing changes. -/
  | count
  deriving DecidableEq

/-- The writer and the files after a call. -/
def step (s : Writer × Scratch) : Call → Writer × Scratch
  | .write e => s.1.write e s.2
  | .take => (s.1.take.2, s.2)
  | .flush => s.1.flush s.2
  | .count => s

def run (s : Writer × Scratch) (calls : List Call) : Writer × Scratch := calls.foldl step s

def Call.event? : Call → Option Event
  | write e => some e
  | take | flush | count => none

/-- All events that a row of calls writes, in order. -/
def written (calls : List Call) : List Event := calls.filterMap Call.event?

/-- The events that are written behind the last call that takes. -/
def sinceTake (calls : List Call) : List Event := written (calls.rtakeWhile (· ≠ .take))

variable {calls : List Call} {c : Call}

theorem written_concat : written (calls ++ [c]) = written calls ++ c.event?.toList := by
  rw [written, List.filterMap_append, written]
  cases h : c.event? <;> simp [h]

theorem sinceTake_concat_take : sinceTake (calls ++ [.take]) = [] := by
  rw [sinceTake, List.rtakeWhile_concat_neg _ _ _ (by simp), written, List.filterMap_nil]

theorem sinceTake_concat (h : c ≠ .take) :
    sinceTake (calls ++ [c]) = sinceTake calls ++ c.event?.toList := by
  rw [sinceTake, List.rtakeWhile_concat_pos _ _ _ (by simpa using h), written_concat, sinceTake]

theorem run_concat (s : Writer × Scratch) (calls : List Call) (c : Call) :
    run s (calls ++ [c]) = step (run s calls) c := by
  rw [run, List.foldl_append]
  rfl

/-- A writer with `n` events behind it that shows the newest of `es`. -/
def showing (label : Option String) (capacity : Nat) (es : List Event) (n : Nat) : Writer :=
  ⟨label, .window ⟨capacity, Window.newest capacity es⟩, n⟩

theorem write_showing (label : Option String) (capacity : Nat) (es : List Event) (n : Nat)
    (e : Event) (d : Scratch) :
    (showing label capacity es n).write e d = (showing label capacity (es ++ [e]) (n + 1), d) := by
  simp only [write, showing, Window.push_newest]

theorem take_showing (label : Option String) (capacity : Nat) (es : List Event) (n : Nat) :
    (showing label capacity es n).take =
      (some (Window.newest capacity es), showing label capacity [] n) := by
  simp only [take, showing, Window.newest_nil]

/-- What a writer in memory shows depends on nothing but the calls. -/
theorem run_inMemory (label : Option String) (capacity : Nat) (d : Scratch) (calls : List Call) :
    run (inMemory label capacity, d) calls =
      (showing label capacity (sinceTake calls) (written calls).length, d) := by
  induction calls using List.reverseRecOn with
  | nil => simp [run, inMemory, showing, sinceTake, written, Window.newest_nil]
  | append_singleton calls c ih =>
    rw [run_concat, ih, written_concat]
    cases c with
    | write e =>
      rw [step, write_showing, sinceTake_concat (by simp)]
      simp [Call.event?]
    | take =>
      rw [step, take_showing, sinceTake_concat_take]
      simp [Call.event?]
    | flush =>
      rw [step, sinceTake_concat (by simp)]
      simp [Call.event?, flush, showing]
    | count =>
      rw [step, sinceTake_concat (by simp)]
      simp [Call.event?]

/-- Whatever calls went before, taking brings out the last of the events that were written since
events were last taken, as many as the capacity allows, and leaves none. The window never holds more
than that, and the count is that of all events that were ever written. -/
theorem take_yields_newest (label : Option String) (capacity : Nat) (d : Scratch)
    (calls : List Call) :
    let s := run (inMemory label capacity, d) calls
    let es := sinceTake calls
    let kept := es.rtake (if capacity = 0 then es.length else min capacity es.length)
    s.1.take = (some kept, ⟨label, .window ⟨capacity, []⟩, s.1.eventCount⟩) ∧
    s.1.sink = .window ⟨capacity, kept⟩ ∧ (capacity ≠ 0 → kept.length ≤ capacity) ∧
    s.1.eventCount = (written calls).length ∧ s.2 = d := by
  intro s es kept
  have hs : s = (showing label capacity es (written calls).length, d) := run_inMemory ..
  have hempty : showing label capacity [] (written calls).length =
      ⟨label, .window ⟨capacity, []⟩, (written calls).length⟩ := by
    rw [showing, Window.newest_nil]
  rw [hs]
  refine ⟨(take_showing ..).trans (congrArg _ hempty), rfl, fun hbound => ?_, rfl, rfl⟩
  have hlen : kept.length = Window.keeps capacity es.length := Window.length_newest
  rw [hlen, Window.keeps, if_neg hbound]
  exact Nat.min_le_left _ _

end Writer

end Unwinding

import Mathlib
import Unwinding.Proofs.Trace.Delivery

/-!
# Writers one after the other

One writer at a time is open on a file, each with its own label; or each keeps its events in memory.
What the acts tell, round by round, is what the memory writers hold, and what the file holds line by
line, up to a last part that is still on its way: none once a writer is flushed or closed.
-/
namespace Unwinding

/-- The writers that are closed, in order, the one that is open, if any, and the files. -/
structure Relay where
  past : List Writer := []
  current : Option Writer := none
  scratch : Scratch

namespace Relay

inductive Act
  | takeOver (label : Option String)
  | write (e : Event)
  | flush
  | close

/-- How the writer with a given label is opened, if it can be. -/
abbrev Opening := Option String → Scratch → Option (Writer × Scratch)

def toFile (path : String) : Opening := fun label d => (Writer.toFile label path d).toOption

/-- Opens writers that keep all their events. -/
def inMemory : Opening := fun label d => some (.inMemory label 0, d)

/-- Passes a writer's text on. -/
def flush (s : Relay) : Relay :=
  match s.current with
  | none => s
  | some w => { s with current := some (w.flush s.scratch).1, scratch := (w.flush s.scratch).2 }

/-- Lets go of the writer that is open. -/
def close (s : Relay) : Relay :=
  match s.current with
  | none => s
  | some w => ⟨s.past ++ [w], none, w.close s.scratch⟩

/-- A writer that takes over is opened when the one before it is closed. -/
def step (opening : Opening) (s : Relay) : Act → Relay
  | .takeOver label =>
    match opening label s.close.scratch with
    | none => s.close
    | some (w, d) => { s.close with current := some w, scratch := d }
  | .write e =>
    match s.current with
    | none => s
    | some w =>
      { s with current := some (w.write e s.scratch).1, scratch := (w.write e s.scratch).2 }
  | .flush => s.flush
  | .close => s.close

def run (opening : Opening) (s : Relay) (acts : List Act) : Relay := acts.foldl (step opening) s

def writers (s : Relay) : List Writer := s.past ++ s.current.toList

/-- What a close brings to the file is what a flush would bring there. -/
theorem close_eq (s : Relay) : s.close = ⟨s.writers, none, s.flush.scratch⟩ := by
  obtain ⟨past, current, d⟩ := s
  cases current with
  | none => simp [close, flush, writers]
  | some w => rfl

/-! ## What the acts tell -/

/-- The label of a writer and the events that were written while it was open. -/
structure Round where
  label : Option String
  events : List Event := []

def Round.text (r : Round) : String := String.join (r.events.map fun e => e.line r.label ++ "\n")

/-- The writer that holds a round in memory. -/
def Round.held (r : Round) : Writer := ⟨r.label, .window ⟨0, r.events⟩, r.events.length⟩

structure Account where
  past : List Round := []
  current : Option Round := none

namespace Account

def rounds (t : Account) : List Round := t.past ++ t.current.toList

def text (t : Account) : String := String.join (t.rounds.map Round.text)

def step (t : Account) : Act → Account
  | .takeOver label => ⟨t.rounds, some ⟨label, []⟩⟩
  | .write e => { t with current := t.current.map fun r => { r with events := r.events ++ [e] } }
  | .flush => t
  | .close => ⟨t.rounds, none⟩

def ofActs (acts : List Act) : Account := acts.foldl step {}

end Account

variable {s : Relay} {t : Account} {a : Act} {acts : List Act}

theorem Round.text_add (r : Round) (e : Event) :
    Round.text { r with events := r.events ++ [e] } = r.text ++ (e.line r.label ++ "\n") := by
  simp [Round.text, String.join_append]

theorem Account.text_add (rounds : List Round) (r : Round) (e : Event) :
    Account.text ⟨rounds, some { r with events := r.events ++ [e] }⟩ =
      Account.text ⟨rounds, some r⟩ ++ (e.line r.label ++ "\n") := by
  simp [text, Account.rounds, Round.text_add, String.join_append, String.append_assoc]

/-! ## In memory -/

/-- The memory writers hold the rounds. -/
structure Holds (d : Scratch) (t : Account) (s : Relay) : Prop where
  past : s.past = t.past.map Round.held
  current : s.current = t.current.map Round.held
  scratch : s.scratch = d

theorem Holds.flush {d : Scratch} (h : Holds d t s) : s.flush = s := by
  obtain ⟨past, current, d'⟩ := s
  obtain ⟨tpast, tcurrent⟩ := t
  obtain ⟨-, hcurrent, -⟩ := h
  cases tcurrent <;> obtain rfl := hcurrent <;> rfl

theorem Holds.writers {d : Scratch} (h : Holds d t s) :
    s.writers = t.rounds.map Round.held := by
  rw [Relay.writers, h.past, h.current, Account.rounds, List.map_append]
  cases t.current <;> rfl

theorem Holds.close {d : Scratch} (h : Holds d t s) : Holds d ⟨t.rounds, none⟩ s.close := by
  rw [close_eq, h.flush]
  exact ⟨h.writers, rfl, h.scratch⟩

theorem Holds.step {d : Scratch} (h : Holds d t s) (a : Act) :
    Holds d (t.step a) (s.step inMemory a) := by
  cases a with
  | takeOver label => exact ⟨h.close.past, rfl, h.close.scratch⟩
  | write e =>
    obtain ⟨past, current, d'⟩ := s
    obtain ⟨tpast, tcurrent⟩ := t
    obtain ⟨hpast, hcurrent, hd⟩ := h
    cases tcurrent <;> obtain rfl := hcurrent
    · exact ⟨hpast, rfl, hd⟩
    · refine ⟨hpast, ?_, hd⟩
      simp [Relay.step, Account.step, Round.held, Writer.write, Window.push]
  | flush =>
    rw [Relay.step, h.flush]
    exact h
  | close => exact h.close

/-! ## In a file -/

/-- The file holds the text of the rounds but for what waits in the buffer of the open writer. -/
inductive Delivers (file : Location) (d : Scratch) : Account → Relay → Prop
  | idle {rounds writers d'}
      (hcounts : writers.map (fun w => (w.label, w.eventCount)) =
        rounds.map fun r => (r.label, r.events.length))
      (h : d.Grows file (Account.text ⟨rounds, none⟩) d') :
      Delivers file d ⟨rounds, none⟩ ⟨writers, none, d'⟩
  | busy {rounds r writers pending out d'}
      (hcounts : writers.map (fun w => (w.label, w.eventCount)) =
        rounds.map fun r => (r.label, r.events.length))
      (h : d.Grows file out d') (htext : out ++ pending = Account.text ⟨rounds, some r⟩) :
      Delivers file d ⟨rounds, some r⟩
        ⟨writers, some ⟨r.label, .file ⟨file, pending⟩, r.events.length⟩, d'⟩

variable {file : Location} {path : String} {d : Scratch}

theorem Delivers.flush (h : Delivers file d t s) :
    Delivers file d t s.flush ∧ d.Grows file t.text s.flush.scratch := by
  cases h with
  | idle hcounts h => exact ⟨.idle hcounts h, h⟩
  | @busy rounds r writers pending out d' hcounts h htext =>
    obtain ⟨d'', hflush, hgrows⟩ :=
      Writer.flush_grows r.label ⟨file, pending⟩ r.events.length d'
    have hall := htext ▸ h.trans hgrows
    have hrelay : Relay.flush
        ⟨writers, some ⟨r.label, .file ⟨file, pending⟩, r.events.length⟩, d'⟩ =
        ⟨writers, some ⟨r.label, .file ⟨file, ""⟩, r.events.length⟩, d''⟩ := by
      simp only [Relay.flush, hflush]
    rw [hrelay]
    exact ⟨.busy hcounts hall String.append_empty, hall⟩

theorem Delivers.counts (h : Delivers file d t s) :
    s.writers.map (fun w => (w.label, w.eventCount)) =
      t.rounds.map fun r => (r.label, r.events.length) := by
  cases h <;> simp_all [writers, Account.rounds]

theorem Delivers.close (h : Delivers file d t s) : Delivers file d ⟨t.rounds, none⟩ s.close := by
  rw [close_eq]
  refine .idle h.counts ?_
  simpa [Account.text, Account.rounds] using h.flush.2

theorem Delivers.step (h : Delivers file d t s) (hpath : d.locate path = .ok file) (a : Act) :
    Delivers file d (t.step a) (s.step (toFile path) a) := by
  cases a with
  | takeOver label =>
    have hclose := h.close
    generalize hs : s.close = s' at hclose
    cases hclose with
    | @idle _ writers d' hcounts h =>
      obtain ⟨d'', hopen, hgrows⟩ :=
        Writer.toFile_of_locate (Scratch.locate_of_ok hpath h.ownPath) label
      have hrelay : s.step (toFile path) (.takeOver label) =
          ⟨writers, some ⟨label, .file ⟨file, ""⟩, 0⟩, d''⟩ := by
        rw [Relay.step, hs]
        simp only [toFile, hopen, Except.toOption]
      rw [hrelay]
      refine .busy (r := ⟨label, []⟩) hcounts (h.trans hgrows) ?_
      simp [Account.text, Account.rounds, Round.text, String.join_append]
  | write e =>
    cases h with
    | idle hcounts h => exact .idle hcounts h
    | @busy rounds r writers pending out d' hcounts h htext =>
      obtain ⟨⟨file', rest⟩, d'', hwrite, hpushed⟩ :=
        Writer.write_pushed e r.label ⟨file, pending⟩ r.events.length d'
      obtain ⟨more, hgrows, rfl, hrest⟩ := hpushed.delivers
      have hlength : r.events.length + 1 = (r.events ++ [e]).length := by simp
      have hrelay : Relay.step (toFile path)
          ⟨writers, some ⟨r.label, .file ⟨file', pending⟩, r.events.length⟩, d'⟩ (.write e) =
          ⟨writers, some ⟨r.label, .file ⟨file', rest⟩, (r.events ++ [e]).length⟩, d''⟩ := by
        simp only [Relay.step, hwrite, hlength]
      rw [hrelay]
      refine .busy (r := { r with events := r.events ++ [e] }) hcounts (h.trans hgrows) ?_
      calc
        out ++ more ++ rest = out ++ (pending ++ (e.line r.label ++ "\n")) := by
          rw [String.append_assoc]
          exact congrArg (out ++ ·) hrest
        _ = Account.text ⟨rounds, some r⟩ ++ (e.line r.label ++ "\n") := by
          rw [← String.append_assoc, htext]
        _ = _ := (Account.text_add rounds r e).symm
  | flush => exact h.flush.1
  | close => exact h.close

/-! ## Both -/

theorem Holds.run {d : Scratch} (h : Holds d t s) (acts : List Act) :
    Holds d (acts.foldl Account.step t) (s.run inMemory acts) := by
  induction acts generalizing s t with
  | nil => exact h
  | cons a acts ih => exact ih (h.step a)

theorem Delivers.run (h : Delivers file d t s) (hpath : d.locate path = .ok file)
    (acts : List Act) :
    Delivers file d (acts.foldl Account.step t) (s.run (toFile path) acts) := by
  induction acts generalizing s t with
  | nil => exact h
  | cons a acts ih => exact ih (h.step hpath a)

theorem Delivers.contents (h : Delivers file d t s) : ∃ out rest,
    s.scratch.contents file = d.contents file ++ out ∧ out ++ rest = t.text := by
  cases h with
  | idle _ h => exact ⟨_, "", h.contents, String.append_empty⟩
  | busy _ h htext => exact ⟨_, _, h.contents, htext⟩

/-- Writers to a file, one at a time, and writers that keep everything in memory go through the same
acts. The memory writers hold the rounds that the acts tell, and the file holds behind its old
content the text of these rounds, line by line, up to a part that is still to come; of this nothing
is left when a writer has been flushed or closed. Writers of both kinds count the events of their
rounds. -/
theorem file_tells_what_memory_holds (path : String) (file : Location) (d : Scratch)
    (hpath : d.locate path = .ok file) (acts : List Act) :
    let told := Account.ofActs acts
    let s := run (toFile path) { scratch := d } acts
    let m := run inMemory { scratch := d } acts
    (∃ out rest, s.scratch.contents file = d.contents file ++ out ∧ out ++ rest = told.text) ∧
    (∀ a, a = .flush ∨ a = .close →
      (s.step (toFile path) a).scratch.contents file = d.contents file ++ told.text) ∧
    (m.writers = told.rounds.map Round.held ∧ m.scratch = d) ∧
    s.writers.map (fun w => (w.label, w.eventCount)) =
      told.rounds.map fun r => (r.label, r.events.length) := by
  intro told s m
  have hfile : Delivers file d told s :=
    Delivers.run (.idle rfl (.refl d file)) hpath acts
  have hempty : Holds d {} { scratch := d } := ⟨rfl, rfl, rfl⟩
  have hmemory : Holds d told m := hempty.run acts
  refine ⟨hfile.contents, ?_, ⟨hmemory.writers, hmemory.scratch⟩, hfile.counts⟩
  rintro a (rfl | rfl)
  · exact hfile.flush.2.contents
  · rw [step, close_eq]
    exact hfile.flush.2.contents

/-- Two writers append to a file that is not empty; the first is closed by the second one. -/
theorem file_of_two_rounds :
    let file : Location := ⟨.above 0, "t"⟩
    let d : Scratch := { files := ⟨[(file, "old\n")]⟩ }
    let acts : List Act := [.takeOver (some "a"), .write (.propagated "p" ⟨1⟩), .takeOver none,
      .write (.propagated "q" ⟨2⟩)]
    let s := run (toFile "t") { scratch := d } acts
    d.locate "t" = .ok file ∧
      (s.step (toFile "t") .flush).scratch.contents file = "old\n" ++
        ("\x7b\"context\":\"a\",\"type\":\"propagate\",\"pad\":\"p\"," ++
          "\"unwind_header\":\"0x1\"\x7d\n" ++
          "\x7b\"type\":\"propagate\",\"pad\":\"q\",\"unwind_header\":\"0x2\"\x7d\n") ∧
      s.writers.map (fun w => (w.label, w.eventCount)) = [(some "a", 1), (none, 1)] := by
  intro file d acts s
  have hpath : d.locate "t" = .ok file := by cbv
  have hbefore : d.contents file = "old\n" := by cbv
  have htold : (Account.ofActs acts).text =
      "\x7b\"context\":\"a\",\"type\":\"propagate\",\"pad\":\"p\"," ++
        "\"unwind_header\":\"0x1\"\x7d\n" ++
        "\x7b\"type\":\"propagate\",\"pad\":\"q\",\"unwind_header\":\"0x2\"\x7d\n" := by
    cbv
  obtain ⟨-, hwhole, -, hcounts⟩ := file_tells_what_memory_holds "t" file d hpath acts
  have hflush := hwhole .flush (.inl rfl)
  rw [hbefore, htold] at hflush
  exact ⟨hpath, hflush, hcounts⟩

end Relay

end Unwinding

import Mathlib
import Unwinding.Proofs.Trace.Delivery

/-!
# Writers that share a file

Several writers append to one file, each through a buffer of its own. As long as every line fits
into its writer's buffer together with its line break, what a buffer passes on is made of whole
lines, and the file interleaves the lines of the writers. A line that does not fit is passed on
before its line break, and what another writer passes on next stands on the same line.
-/
namespace Unwinding

/-! ## Long lines -/

namespace Line

/-- Each character is written as at least one. -/
theorem length_le_escape (cs : List Char) : cs.length ≤ (escape cs).length := by
  induction cs with
  | nil => exact Nat.zero_le _
  | cons c cs ih =>
    have hone : 1 ≤ (escapeChar c).length := by
      unfold escapeChar
      split_ifs <;> simp
    rw [escape, List.flatMap_cons, List.length_append, List.length_cons, Nat.add_comm]
    exact Nat.add_le_add hone ih

theorem infix_field (name text : String) : escape text.toList <:+: field (name, .text text) :=
  ⟨quoted name ++ [':', '"'], ['"'], by simp [field, scalar, quoted]⟩

theorem infix_object (f : String × Scalar) (fs : List (String × Scalar)) :
    field f <:+: object (f :: fs) := by
  cases fs with
  | nil => exact ⟨['\x7b'], ['\x7d'], by simp [object]⟩
  | cons g gs =>
    refine ⟨['\x7b'], ',' :: [','].intercalate ((g :: gs).map field) ++ ['\x7d'], ?_⟩
    simp [object, List.intercalate_cons_cons]

theorem length_le_utf8Len (cs : List Char) : cs.length ≤ String.utf8Len cs := by
  induction cs with
  | nil => exact Nat.zero_le _
  | cons c cs ih => exact Nat.add_le_add ih c.utf8Size_pos

end Line

theorem Event.length_label_le (label : String) (e : Event) :
    label.length ≤ (e.line (some label)).utf8ByteSize :=
  calc label.length = label.toList.length := String.length_toList.symm
    _ ≤ (Line.escape label.toList).length := Line.length_le_escape _
    _ ≤ String.utf8Len (Line.escape label.toList) := Line.length_le_utf8Len _
    _ ≤ String.utf8Len (Line.object (("context", .text label) :: e.fields)) :=
      String.utf8Len_le_of_infix ((Line.infix_field _ _).trans (Line.infix_object _ _))
    _ = (e.line (some label)).utf8ByteSize := (String.utf8ByteSize_ofList _).symm

/-- A label as long as the buffer leaves no line that fits. -/
theorem FileSink.not_fits_of_label {sink : FileSink} {label : String} {e : Event}
    (h : capacity ≤ label.length) : ¬ sink.Fits (e.line (some label)) := fun hfits =>
  Nat.not_lt.2 (Nat.le_trans h (e.length_label_le label)) hfits.1

/-! ## Writers and what they do -/

/-- Writers that were opened on one file, by number; those that are closed are gone. -/
structure Crew where
  writers : List (Option Writer)
  scratch : Scratch

namespace Crew

/-- Opens a writer for each label. -/
def openAll (path : String) : List (Option String) → Scratch → Except FileFault Crew
  | [], d => .ok ⟨[], d⟩
  | label :: labels, d => do
    let (w, d) ← Writer.toFile label path d
    let s ← openAll path labels d
    return ⟨some w :: s.writers, s.scratch⟩

inductive Act
  | write (i : Nat) (e : Event)
  | flush (i : Nat)
  | close (i : Nat)

def Act.writer : Act → Nat
  | .write i _ | .flush i | .close i => i

def writer? (s : Crew) (i : Nat) : Option Writer := s.writers[i]?.join

def put (s : Crew) (i : Nat) (w : Option Writer) (d : Scratch) : Crew := ⟨s.writers.set i w, d⟩

/-- What an act does. A writer that is gone does nothing. -/
def step (s : Crew) : Act → Crew
  | .write i e =>
    match s.writer? i with
    | none => s
    | some w => s.put i (some (w.write e s.scratch).1) (w.write e s.scratch).2
  | .flush i =>
    match s.writer? i with
    | none => s
    | some w => s.put i (some (w.flush s.scratch).1) (w.flush s.scratch).2
  | .close i =>
    match s.writer? i with
    | none => s
    | some w => s.put i none (w.close s.scratch)

def run (s : Crew) (acts : List Act) : Crew := acts.foldl step s

/-- An event that a writer was given, and the label that it puts to it. -/
structure Entry where
  writer : Nat
  label : Option String
  event : Event
  deriving DecidableEq

def Entry.text (e : Entry) : String := e.event.line e.label ++ "\n"

def text (es : List Entry) : String := String.join (es.map Entry.text)

def ofWriter (i : Nat) (es : List Entry) : List Entry := es.filter (·.writer = i)

/-- What an act gives to a writer that is there. -/
def given? (s : Crew) : Act → Option Entry
  | .write i e => (s.writer? i).map fun w => ⟨i, w.label, e⟩
  | .flush _ | .close _ => none

/-- All that the acts give to the writers. -/
def given (s : Crew) : List Act → List Entry
  | [] => []
  | a :: acts => (s.given? a).toList ++ (s.step a).given acts

/-- The line that an act writes, if it writes one, fits into the buffer as it is then. -/
def Fits (s : Crew) : Act → Prop
  | .write i e => ∀ w ∈ s.writer? i, w.Fits e
  | .flush _ | .close _ => True

def AllFit (s : Crew) : List Act → Prop
  | [] => True
  | a :: acts => s.Fits a ∧ (s.step a).AllFit acts

instance decidableFits (s : Crew) : (a : Act) → Decidable (s.Fits a)
  | .write i e => inferInstanceAs (Decidable (∀ w ∈ s.writer? i, w.Fits e))
  | .flush _ | .close _ => .isTrue trivial

instance decidableAllFit (s : Crew) : (acts : List Act) → Decidable (s.AllFit acts)
  | [] => .isTrue trivial
  | a :: acts =>
    have := decidableAllFit (s.step a) acts
    inferInstanceAs (Decidable (s.Fits a ∧ (s.step a).AllFit acts))

/-- A writer that is closed, or has passed on all that it was given. -/
def Settled (s : Crew) (i : Nat) : Prop := ∀ w ∈ s.writer? i, w.pending = ""

instance (s : Crew) (i : Nat) : Decidable (s.Settled i) :=
  inferInstanceAs (Decidable (∀ w ∈ s.writer? i, w.pending = ""))

variable {s : Crew} {i j : Nat} {w : Writer} {w' : Option Writer} {d d' : Scratch}
variable {es order : List Entry} {waiting : Nat → List Entry} {e : Entry}

theorem writer?_put (h : s.writer? i = some w) :
    (s.put i w' d).writer? j = if j = i then w' else s.writer? j := by
  have hi : i < s.writers.length := by
    by_contra hi
    simp [writer?, List.getElem?_eq_none (Nat.not_lt.1 hi)] at h
  by_cases hj : j = i
  · rw [hj, if_pos rfl, writer?, put, List.getElem?_set_self hi]
    rfl
  · rw [if_neg hj, writer?, put, List.getElem?_set_ne (Ne.symm hj)]
    rfl

theorem step_of_gone {a : Act} (h : s.writer? a.writer = none) : s.step a = s := by
  cases a with
  | write i e | flush i | close i =>
    change s.writer? i = none at h
    simp only [step, h]

theorem given?_of_gone {a : Act} (h : s.writer? a.writer = none) : s.given? a = none := by
  cases a with
  | write i e => exact congrArg (Option.map _) h
  | flush i | close i => rfl

theorem text_append (es fs : List Entry) : text (es ++ fs) = text es ++ text fs := by
  rw [text, List.map_append, String.join_append]
  rfl

theorem text_singleton (e : Entry) : text [e] = e.text := by
  simp [text]

theorem eq_nil_of_text (h : text es = "") : es = [] := by
  cases es with
  | nil => rfl
  | cons e es =>
    have hsize := congrArg String.utf8ByteSize h
    have hbreak : "\n".utf8ByteSize = 1 := rfl
    simp only [text, List.map_cons, String.join_cons, Entry.text, String.utf8ByteSize_append,
      String.utf8ByteSize_empty] at hsize
    omega

theorem ofWriter_append (i : Nat) (es fs : List Entry) :
    ofWriter i (es ++ fs) = ofWriter i es ++ ofWriter i fs := List.filter_append ..

theorem ofWriter_of_forall (h : ∀ e ∈ es, e.writer = i) :
    ofWriter j es = if j = i then es else [] := by
  split
  · rename_i hj
    exact List.filter_eq_self.2 fun e he => by simp [h e he, hj]
  · rename_i hj
    exact List.filter_eq_nil_iff.2 fun e he => by simpa [h e he] using Ne.symm hj

/-! ## What is in the file and what waits -/

/-- The entries of each writer are those in the file, and behind them those that wait. -/
def Parts (es order : List Entry) (waiting : Nat → List Entry) : Prop :=
  ∀ i, ofWriter i es = ofWriter i order ++ waiting i

theorem Parts.writer (h : Parts es order waiting) : ∀ e ∈ waiting i, e.writer = i := by
  intro e he
  have hmem : e ∈ ofWriter i es := h i ▸ List.mem_append_right _ he
  simpa using (List.mem_filter.1 hmem).2

/-- A writer is given a further entry. -/
theorem Parts.give (h : Parts es order waiting) (e : Entry) :
    Parts (es ++ [e]) order (Function.update waiting e.writer (waiting e.writer ++ [e])) := by
  intro i
  rw [ofWriter_append, h i, @ofWriter_of_forall e.writer i [e] (by simp), List.append_assoc,
    Function.update_apply]
  split
  · rename_i hi
    rw [hi]
  · rw [List.append_nil]

/-- A writer passes on all that waits. -/
theorem Parts.passOn (h : Parts es order waiting) (i : Nat) :
    Parts es (order ++ waiting i) (Function.update waiting i []) := by
  intro j
  rw [ofWriter_append, ofWriter_of_forall h.writer, Function.update_apply, h j]
  split
  · rename_i hj
    rw [hj, List.append_nil]
  · rw [List.append_nil]

/-- The buffer of a writer holds these entries; a writer that is gone holds none. -/
def Keeps (file : Location) (es : List Entry) : Option Writer → Prop
  | none => es = []
  | some w => w.sink = .file ⟨file, text es⟩

/-- The file has grown by whole entries, and the buffers hold whole ones, those that wait. -/
structure Whole (file : Location) (d : Scratch) (es order : List Entry)
    (waiting : Nat → List Entry) (s : Crew) : Prop where
  parts : Parts es order waiting
  grows : d.Grows file (text order) s.scratch
  keeps : ∀ i, Keeps file (waiting i) (s.writer? i)

variable {file : Location} {path : String} {labels : List (Option String)} {kept : List Entry}
variable {es' order' : List Entry} {a : Act} {acts : List Act}

theorem Whole.put (h : Whole file d es order waiting s) (hw : s.writer? i = some w)
    (hparts : Parts es' order' (Function.update waiting i kept))
    (hgrows : d.Grows file (text order') d') (hkept : Keeps file kept w') :
    Whole file d es' order' (Function.update waiting i kept) (s.put i w' d') := by
  refine ⟨hparts, hgrows, fun j => ?_⟩
  rw [writer?_put hw, Function.update_apply]
  split
  · exact hkept
  · exact h.keeps j

theorem Whole.sink (h : Whole file d es order waiting s) (hw : s.writer? i = some w) :
    w.sink = .file ⟨file, text (waiting i)⟩ := by
  have hkeeps := h.keeps i
  rwa [hw] at hkeeps

theorem Whole.passOn (h : Whole file d es order waiting s)
    (hgrows : s.scratch.Grows file (text (waiting i)) d') :
    d.Grows file (text (order ++ waiting i)) d' := by
  rw [text_append]
  exact h.grows.trans hgrows

theorem Whole.write (h : Whole file d es order waiting s) (hw : s.writer? i = some w) (e : Event)
    (hfit : s.Fits (.write i e)) : ∃ order' waiting',
      Whole file d (es ++ [⟨i, w.label, e⟩]) order' waiting' (s.step (.write i e)) := by
  have hsink := h.sink hw
  have hfits := hfit w hw
  obtain ⟨label, sink, n⟩ := w
  obtain rfl := hsink
  obtain ⟨sink', d', hwrite, hpushed⟩ :=
    Writer.write_pushed e label ⟨file, text (waiting i)⟩ n s.scratch
  have hstep : s.step (.write i e) = s.put i (some ⟨label, .file sink', n + 1⟩) d' := by
    simp only [step, hw, hwrite]
  rw [hstep]
  cases hpushed with
  | behind =>
    refine ⟨order, _, h.put hw (h.parts.give ⟨i, label, e⟩) h.grows ?_⟩
    simp only [Keeps, text_append, text_singleton, Entry.text]
  | instead _ hgrows =>
    have hparts := (h.parts.passOn i).give ⟨i, label, e⟩
    rw [Function.update_self, Function.update_idem, List.nil_append] at hparts
    refine ⟨_, _, h.put hw hparts (h.passOn hgrows) ?_⟩
    simp only [Keeps, text_singleton, Entry.text]
  | torn hfits' => exact absurd hfits hfits'

theorem Whole.flush (h : Whole file d es order waiting s) (hw : s.writer? i = some w) :
    ∃ order' waiting', Whole file d es order' waiting' (s.step (.flush i)) ∧
      Whole file d es order' waiting' (s.step (.close i)) := by
  have hsink := h.sink hw
  obtain ⟨label, sink, n⟩ := w
  obtain rfl := hsink
  obtain ⟨d', hflush, hgrows⟩ := Writer.flush_grows label ⟨file, text (waiting i)⟩ n s.scratch
  have hstep : s.step (.flush i) = s.put i (some ⟨label, .file ⟨file, ""⟩, n⟩) d' := by
    simp only [step, hw, hflush]
  have hclose : s.step (.close i) = s.put i none d' := by
    simp only [step, hw, Writer.close, hflush]
  rw [hstep, hclose]
  exact ⟨_, _, h.put hw (h.parts.passOn i) (h.passOn hgrows) rfl,
    h.put hw (h.parts.passOn i) (h.passOn hgrows) rfl⟩

theorem Whole.step (h : Whole file d es order waiting s) (a : Act) (hfit : s.Fits a) :
    ∃ order' waiting', Whole file d (es ++ (s.given? a).toList) order' waiting' (s.step a) := by
  cases hw : s.writer? a.writer with
  | none =>
    rw [step_of_gone hw, given?_of_gone hw, Option.toList_none, List.append_nil]
    exact ⟨order, waiting, h⟩
  | some w =>
    cases a with
    | write i e =>
      have hgiven : s.given? (.write i e) = some ⟨i, w.label, e⟩ := congrArg (Option.map _) hw
      rw [hgiven]
      exact h.write hw e hfit
    | flush i =>
      obtain ⟨order', waiting', hflush, -⟩ := h.flush hw
      exact ⟨order', waiting', (List.append_nil es).symm ▸ hflush⟩
    | close i =>
      obtain ⟨order', waiting', -, hclose⟩ := h.flush hw
      exact ⟨order', waiting', (List.append_nil es).symm ▸ hclose⟩

theorem Whole.run (h : Whole file d es order waiting s) (hfit : s.AllFit acts) :
    ∃ order' waiting', Whole file d (es ++ s.given acts) order' waiting' (s.run acts) := by
  induction acts generalizing s es order waiting with
  | nil => exact ⟨order, waiting, by simpa [given, Crew.run] using h⟩
  | cons a acts ih =>
    obtain ⟨order', waiting', hstep⟩ := h.step a hfit.1
    rw [given, ← List.append_assoc]
    exact ih hstep hfit.2

theorem openAll_of_locate (h : d.locate path = .ok file) (labels : List (Option String)) :
    ∃ d', openAll path labels d =
      .ok ⟨labels.map fun label => some ⟨label, .file ⟨file, ""⟩, 0⟩, d'⟩ ∧
        d.Grows file "" d' := by
  induction labels generalizing d with
  | nil => exact ⟨d, rfl, .refl d file⟩
  | cons label labels ih =>
    obtain ⟨d', hopen, hgrows⟩ := Writer.toFile_of_locate h label
    obtain ⟨d'', hrest, hgrows'⟩ := ih (Scratch.locate_of_ok h hgrows.ownPath)
    refine ⟨d'', ?_, hgrows.trans hgrows'⟩
    rw [openAll, hopen]
    simp only [bind, Except.bind, hrest]
    rfl

theorem whole_of_fresh (h : d.Grows file "" d') :
    Whole file d [] [] (fun _ => [])
      ⟨labels.map fun label => some ⟨label, .file ⟨file, ""⟩, 0⟩, d'⟩ := by
  refine ⟨fun _ => rfl, h, fun i => ?_⟩
  rw [writer?, List.getElem?_map]
  cases labels[i]? <;> rfl

/-- Writers that are open on one file write, flush and close in any order. As long as each line fits
into its buffer when it is written, what the file has gained is made of whole lines: those of each
writer in the order in which they were given to it, up to the ones that still wait in its buffer. -/
theorem file_interleaves_fitting_lines (path : String) (file : Location) (d : Scratch)
    (hpath : d.locate path = .ok file) (labels : List (Option String)) (acts : List Act) :
    ∃ s, openAll path labels d = .ok s ∧ (s.AllFit acts →
      ∃ order, (s.run acts).scratch.contents file = d.contents file ++ text order ∧
        ∀ i, ofWriter i order <+: ofWriter i (s.given acts) ∧
          ((s.run acts).Settled i → ofWriter i order = ofWriter i (s.given acts))) := by
  obtain ⟨d', hopen, hgrows⟩ := openAll_of_locate hpath labels
  refine ⟨_, hopen, fun hfit => ?_⟩
  obtain ⟨order, waiting, hwhole⟩ := (whole_of_fresh hgrows).run hfit
  refine ⟨order, hwhole.grows.contents, fun i => ?_⟩
  have hparts := hwhole.parts i
  rw [List.nil_append] at hparts
  refine ⟨hparts ▸ List.prefix_append _ _, fun hsettled => ?_⟩
  have hnone : waiting i = [] := by
    have hkeeps := hwhole.keeps i
    cases hw : (run _ acts).writer? i with
    | none => rwa [hw] at hkeeps
    | some w =>
      rw [hw] at hkeeps
      have hpending : w.pending = text (waiting i) := by rw [Writer.pending, hkeeps]
      exact eq_nil_of_text (hpending.symm.trans (hsettled w hw))
  rw [hparts, hnone, List.append_nil]

/-- The lines of two writers fit, and each is put into the file as a whole. -/
theorem file_of_two_writers :
    let file : Location := ⟨.above 0, "t"⟩
    let s : Crew := ⟨[some ⟨some "a", .file ⟨file, ""⟩, 0⟩, some ⟨none, .file ⟨file, ""⟩, 0⟩],
      { files := ⟨[(file, "")]⟩ }⟩
    let acts : List Act := [.write 0 (.propagated "p" ⟨1⟩), .write 1 (.propagated "q" ⟨2⟩),
      .flush 1, .close 0]
    ({} : Scratch).locate "t" = .ok file ∧ openAll "t" [some "a", none] {} = .ok s ∧
      s.AllFit acts ∧ ∃ order, (s.run acts).scratch.contents file = "" ++ text order ∧
        ofWriter 0 order = [⟨0, some "a", .propagated "p" ⟨1⟩⟩] ∧
        ofWriter 1 order = [⟨1, none, .propagated "q" ⟨2⟩⟩] := by
  intro file s acts
  have hpath : ({} : Scratch).locate "t" = .ok file := by cbv
  have hopen : openAll "t" [some "a", none] {} = .ok s := by cbv
  have hfit : s.AllFit acts := by decide +kernel
  have hsettled : (s.run acts).Settled 0 ∧ (s.run acts).Settled 1 := by decide +kernel
  have hgiven : s.given acts =
      [⟨0, some "a", .propagated "p" ⟨1⟩⟩, ⟨1, none, .propagated "q" ⟨2⟩⟩] := by decide +kernel
  obtain ⟨s', hopen', hall⟩ :=
    file_interleaves_fitting_lines "t" file {} hpath [some "a", none] acts
  obtain rfl := Except.ok.inj (hopen.symm.trans hopen')
  obtain ⟨order, htext, horder⟩ := hall hfit
  refine ⟨hpath, hopen, hfit, order, htext, ?_, ?_⟩
  · rw [(horder 0).2 hsettled.1, hgiven]
    rfl
  · rw [(horder 1).2 hsettled.2, hgiven]
    rfl

/-! ## A line that does not fit -/

/-- A line that does not fit is passed on without its line break, which then waits alone. -/
theorem step_write_of_not_fits {label : Option String} {sink : FileSink} {n : Nat} {e : Event}
    (hw : s.writer? i = some ⟨label, .file sink, n⟩) (h : ¬ sink.Fits (e.line label)) :
    ∃ d', s.step (.write i e) =
        s.put i (some ⟨label, .file { sink with pending := "\n" }, n + 1⟩) d' ∧
      s.scratch.Grows sink.file (sink.pending ++ e.line label) d' := by
  obtain ⟨sink', d', hwrite, hpushed⟩ := Writer.write_pushed e label sink n s.scratch
  cases hpushed with
  | behind hfits => exact absurd hfits h
  | instead hfits => exact absurd hfits h
  | torn _ hgrows => exact ⟨d', by simp only [step, hw, hwrite], hgrows⟩

/-- Whatever another writer passes on next stands on the same line; the line break comes late. -/
theorem contents_after_torn_line (hpath : d.locate path = .ok file) (label label' : Option String)
    (e e' : Event) (h : ¬ (FileSink.mk file "").Fits (e.line label)) :
    ∃ s, openAll path [label, label'] d = .ok s ∧
      let t := s.run [.write 0 e, .write 1 e', .flush 1, .flush 0]
      t.scratch.contents file =
          d.contents file ++ (e.line label ++ (e'.line label' ++ "\n") ++ "\n") ∧
        ∀ i, t.Settled i := by
  obtain ⟨d₀, hopen, hgrows₀⟩ := openAll_of_locate hpath [label, label']
  refine ⟨_, hopen, ?_⟩
  let s₀ : Crew :=
    ⟨[some ⟨label, .file ⟨file, ""⟩, 0⟩, some ⟨label', .file ⟨file, ""⟩, 0⟩], d₀⟩
  obtain ⟨d₁, hstep₁, hgrows₁⟩ := @step_write_of_not_fits s₀ 0 label ⟨file, ""⟩ 0 e rfl h
  obtain ⟨⟨file', rest⟩, d₂, hwrite₂, hpushed₂⟩ := Writer.write_pushed e' label' ⟨file, ""⟩ 0 d₁
  obtain ⟨out, hgrows₂, rfl, hout⟩ := hpushed₂.delivers
  obtain ⟨d₃, hflush₃, hgrows₃⟩ := Writer.flush_grows label' ⟨file', rest⟩ 1 d₂
  obtain ⟨d₄, hflush₄, hgrows₄⟩ := Writer.flush_grows label ⟨file', "\n"⟩ 1 d₃
  have hrun : s₀.run [.write 0 e, .write 1 e', .flush 1, .flush 0] =
      ⟨[some ⟨label, .file ⟨file', ""⟩, 1⟩, some ⟨label', .file ⟨file', ""⟩, 1⟩], d₄⟩ := by
    simp only [run, List.foldl, hstep₁]
    simp [s₀, put, step, writer?, hwrite₂, hflush₃, hflush₄]
  change (s₀.run _).scratch.contents _ = _ ∧ ∀ i, (s₀.run _).Settled i
  rw [hrun]
  refine ⟨?_, fun i w hw => ?_⟩
  · have hgrows := (((hgrows₀.trans hgrows₁).trans hgrows₂).trans hgrows₃).trans hgrows₄
    rw [hgrows.contents, ← String.empty_append (s := e'.line label' ++ "\n"), ← hout]
    simp only [String.empty_append, String.append_assoc]
  · match i with
    | 0 | 1 => cases hw; rfl
    | i + 2 => cases hw

/-- Whole lines end in one line break. -/
theorem text_ne_two_breaks (order : List Entry) (before : String) :
    text order ≠ before ++ "\n" ++ "\n" := by
  intro h
  obtain rfl | ⟨rest, e, rfl⟩ := List.eq_nil_or_concat order
  · have hsize := congrArg String.utf8ByteSize h
    have hbreak : "\n".utf8ByteSize = 1 := rfl
    simp only [text, List.map_nil, String.join_nil, String.utf8ByteSize_append,
      String.utf8ByteSize_empty] at hsize
    omega
  · rw [List.concat_eq_append, text_append, text_singleton, Entry.text, ← String.append_assoc,
      String.append_left_inj] at h
    have hlast := congrArg (·.toList.getLast?) h
    simp only [Event.line, String.toList_append, String.toList_ofList, Line.object] at hlast
    rw [← List.append_assoc, List.getLast?_concat] at hlast
    change some '\x7d' = (before.toList ++ ['\n']).getLast? at hlast
    rw [List.getLast?_concat] at hlast
    cases hlast

/-- Two writers of one event each do not always leave whole lines in a file that was empty. -/
theorem shared_file_with_torn_line :
    let file : Location := ⟨.above 0, "t"⟩
    let label := String.ofList (List.replicate FileSink.capacity 'x')
    let acts : List Act := [.write 0 (.propagated "p" ⟨1⟩), .write 1 (.propagated "q" ⟨2⟩),
      .flush 1, .flush 0]
    ({} : Scratch).locate "t" = .ok file ∧ ({} : Scratch).contents file = "" ∧
      ∃ s, openAll "t" [some label, none] {} = .ok s ∧ (∀ i, (s.run acts).Settled i) ∧
        ¬ ∃ order, (s.run acts).scratch.contents file = text order := by
  intro file label acts
  have hpath : ({} : Scratch).locate "t" = .ok file := by cbv
  have hlong : FileSink.capacity ≤ label.length := by
    rw [String.length_ofList, List.length_replicate]
  obtain ⟨s, hopen, hcontents, hsettled⟩ := contents_after_torn_line hpath (some label) none
    (.propagated "p" ⟨1⟩) (.propagated "q" ⟨2⟩) (FileSink.not_fits_of_label hlong)
  refine ⟨hpath, rfl, s, hopen, hsettled, ?_⟩
  rintro ⟨order, horder⟩
  rw [horder] at hcontents
  simp only [← String.append_assoc] at hcontents
  exact text_ne_two_breaks order _ hcontents

end Crew

end Unwinding

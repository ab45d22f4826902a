import Unwinding.Trace.Writer

/-!
# The way of a line to its file

What is written to a file goes there late, but in order and without loss: a buffer passes its text
on and keeps the rest. A line whose end just fills the buffer, or that is as long as the buffer, is
passed on before its line break; of all other lines the buffer passes on whole ones only.
-/
namespace Unwinding

namespace Scratch

/-- A file has grown by a text; opening files and appending to them changes no paths. -/
structure Grows (d : Scratch) (file : Location) (text : String) (d' : Scratch) : Prop where
  contents : d'.contents file = d.contents file ++ text
  ownPath : d'.ownPath = d.ownPath

variable {d d' d'' : Scratch} {file : Location} {path text text' : String}

theorem Grows.refl (d : Scratch) (file : Location) : d.Grows file "" d :=
  ⟨String.append_empty.symm, rfl⟩

theorem Grows.trans (h : d.Grows file text d') (h' : d'.Grows file text' d'') :
    d.Grows file (text ++ text') d'' :=
  ⟨by rw [h'.contents, h.contents, String.append_assoc], h'.ownPath.trans h.ownPath⟩

theorem grows_append (d : Scratch) (file : Location) (text : String) :
    d.Grows file text (d.append file text) :=
  ⟨by simp [contents, append], rfl⟩

/-- Which files there are decides only how a path is refused. -/
theorem walk_of_ok {endsInSlash : Bool} {dir : Directory} {parts : List String}
    (h : d.walk endsInSlash dir parts = .ok file) : d'.walk endsInSlash dir parts = .ok file := by
  induction parts generalizing dir with
  | nil => simp [walk] at h
  | cons part rest ih =>
    by_cases hdot : part = "."
    · rw [walk, if_pos hdot] at h ⊢
      exact ih h
    by_cases hup : part = ".."
    · rw [walk, if_neg hdot, if_pos hup] at h ⊢
      exact ih h
    rw [walk, if_neg hdot, if_neg hup] at h ⊢
    by_cases hslash : (rest.isEmpty && endsInSlash) = true
    · rw [if_pos hslash] at h
      cases h
    by_cases hlong : maxName < part.utf8ByteSize
    · rw [if_neg hslash, if_pos hlong] at h
      cases h
    by_cases hlast : rest.isEmpty = true
    · rw [if_neg hslash, if_neg hlong, if_pos hlast] at h ⊢
      exact h
    · rw [if_neg hslash, if_neg hlong, if_neg hlast] at h
      cases h

theorem locate_of_ok (h : d.locate path = .ok file) (hd : d'.ownPath = d.ownPath) :
    d'.locate path = .ok file := by
  have hlength : d'.fullLength path = d.fullLength path := by rw [fullLength, fullLength, hd]
  rw [locate] at h ⊢
  rw [hlength]
  by_cases hnul : path.contains '\x00' = true
  · rw [if_pos hnul] at h
    cases h
  by_cases hlong : maxPath < d.fullLength path
  · rw [if_neg hnul, if_pos hlong] at h
    cases h
  rw [if_neg hnul, if_neg hlong] at h ⊢
  exact walk_of_ok h

theorem openToAppend_of_locate (h : d.locate path = .ok file) :
    ∃ d', d.openToAppend path = .ok (file, d') ∧ d.Grows file "" d' := by
  rw [openToAppend, h]
  refine ⟨_, rfl, ?_, ?_⟩
  · rw [String.append_empty]
    split
    · rfl
    · rename_i hnew
      have hnone : d.files.find? file = none := by simpa [Table.contains] using hnew
      simp [contents, hnone]
  · split <;> rfl

end Scratch

namespace FileSink

/-- There is room in the buffer for the line with its line break, behind what waits or instead. -/
def Fits (s : FileSink) (line : String) : Prop :=
  line.utf8ByteSize < capacity ∧ s.pending.utf8ByteSize + line.utf8ByteSize ≠ capacity

instance (s : FileSink) (line : String) : Decidable (s.Fits line) :=
  inferInstanceAs (Decidable (_ ∧ _))

theorem flush_grows (s : FileSink) (d : Scratch) :
    ∃ d', s.flush d = ({ s with pending := "" }, d') ∧ d.Grows s.file s.pending d' := by
  obtain ⟨file, pending⟩ := s
  rw [flush]
  split
  · rename_i hempty
    obtain rfl := String.isEmpty_iff.1 hempty
    exact ⟨d, rfl, .refl d file⟩
  · exact ⟨_, rfl, d.grows_append file pending⟩

variable {s : FileSink} {d : Scratch} {text : String}

theorem push_of_room (ht : text.utf8ByteSize < capacity)
    (h : s.pending.utf8ByteSize + text.utf8ByteSize ≤ capacity) :
    s.push text d = ({ s with pending := s.pending ++ text }, d) := by
  simp only [push, if_neg (Nat.not_lt.2 h), if_neg (Nat.not_le.2 ht)]

theorem push_of_full (ht : text.utf8ByteSize < capacity)
    (h : capacity < s.pending.utf8ByteSize + text.utf8ByteSize) :
    ∃ d', s.push text d = ({ s with pending := text }, d') ∧ d.Grows s.file s.pending d' := by
  obtain ⟨d', hflush, hgrows⟩ := s.flush_grows d
  refine ⟨d', ?_, hgrows⟩
  simp only [push, if_pos h, hflush, if_neg (Nat.not_le.2 ht), String.empty_append]

theorem push_of_long (ht : capacity ≤ text.utf8ByteSize) :
    ∃ d', s.push text d = ({ s with pending := "" }, d') ∧
      d.Grows s.file (s.pending ++ text) d' := by
  by_cases h : capacity < s.pending.utf8ByteSize + text.utf8ByteSize
  · obtain ⟨d', hflush, hgrows⟩ := s.flush_grows d
    refine ⟨d'.append s.file text, ?_, hgrows.trans (d'.grows_append s.file text)⟩
    simp only [push, if_pos h, hflush, if_pos ht]
  · -- a text that just fills the buffer goes to the file even when nothing waits
    have hnone : s.pending = "" := String.utf8ByteSize_eq_zero_iff.1 (by omega)
    refine ⟨d.append s.file text, ?_, ?_⟩
    · simp only [push, if_neg h, if_pos ht, ← hnone]
    · rw [hnone, String.empty_append]
      exact d.grows_append s.file text

/-- All that a buffer can do with a line: keep it behind what waits, keep it instead of what waits,
or pass it on without its line break. -/
inductive Pushed (s : FileSink) (line : String) (d : Scratch) : FileSink → Scratch → Prop
  | behind (h : s.Fits line) : Pushed s line d { s with pending := s.pending ++ (line ++ "\n") } d
  | instead {d'} (h : s.Fits line) (hd : d.Grows s.file s.pending d') :
      Pushed s line d { s with pending := line ++ "\n" } d'
  | torn {d'} (h : ¬ s.Fits line) (hd : d.Grows s.file (s.pending ++ line) d') :
      Pushed s line d { s with pending := "\n" } d'

theorem pushed_pushLine (s : FileSink) (line : String) (d : Scratch) :
    s.Pushed line d (s.pushLine line d).1 (s.pushLine line d).2 := by
  have hbreak : "\n".utf8ByteSize = 1 := rfl
  have hcapacity : 1 < capacity := by decide
  rw [pushLine]
  rcases Nat.lt_or_ge line.utf8ByteSize capacity with hline | hline
  · rcases Nat.lt_trichotomy (s.pending.utf8ByteSize + line.utf8ByteSize) capacity with h | h | h
    · rw [push_of_room hline (Nat.le_of_lt h)]
      dsimp only
      rw [push_of_room (by omega) (by rw [String.utf8ByteSize_append]; omega), String.append_assoc]
      exact .behind ⟨hline, Nat.ne_of_lt h⟩
    · rw [push_of_room hline (Nat.le_of_eq h)]
      dsimp only
      obtain ⟨d', hpush, hgrows⟩ := @push_of_full { s with pending := s.pending ++ line } d "\n"
        (by omega) (by rw [String.utf8ByteSize_append]; omega)
      rw [hpush]
      exact .torn (fun hfits => hfits.2 h) hgrows
    · obtain ⟨d', hpush, hgrows⟩ := @push_of_full s d line hline h
      rw [hpush]
      dsimp only
      rw [push_of_room (by omega) (by dsimp only; omega)]
      exact .instead ⟨hline, Nat.ne_of_gt h⟩ hgrows
  · obtain ⟨d', hpush, hgrows⟩ := @push_of_long s d line hline
    rw [hpush]
    dsimp only
    rw [push_of_room (by omega) (by rw [String.utf8ByteSize_empty]; omega), String.empty_append]
    exact .torn (fun hfits => Nat.not_lt.2 hline hfits.1) hgrows

/-- What was passed on and what waits are, in order, what waited before and the line. -/
theorem Pushed.delivers {line : String} {s' : FileSink} {d' : Scratch} (h : s.Pushed line d s' d') :
    ∃ out, d.Grows s.file out d' ∧ s'.file = s.file ∧
      out ++ s'.pending = s.pending ++ (line ++ "\n") := by
  cases h with
  | behind => exact ⟨"", .refl d s.file, rfl, String.empty_append⟩
  | instead _ hd => exact ⟨_, hd, rfl, rfl⟩
  | torn _ hd => exact ⟨_, hd, rfl, String.append_assoc⟩

end FileSink

namespace Writer

/-- The line of an event fits into the buffer as it is now; memory needs no buffer. -/
def Fits (w : Writer) (e : Event) : Prop :=
  match w.sink with
  | .window _ => True
  | .file s => s.Fits (e.line w.label)

instance decidableFits : (w : Writer) → (e : Event) → Decidable (w.Fits e)
  | ⟨_, .window _, _⟩, _ => .isTrue trivial
  | ⟨label, .file s, _⟩, e => inferInstanceAs (Decidable (s.Fits (e.line label)))

/-- What was written but has not reached the file. -/
def pending (w : Writer) : String :=
  match w.sink with
  | .window _ => ""
  | .file s => s.pending

theorem toFile_of_locate {d : Scratch} {path : String} {file : Location}
    (h : d.locate path = .ok file) (label : Option String) :
    ∃ d', toFile label path d = .ok (⟨label, .file ⟨file, ""⟩, 0⟩, d') ∧ d.Grows file "" d' := by
  obtain ⟨d', hopen, hgrows⟩ := Scratch.openToAppend_of_locate h
  exact ⟨d', by rw [toFile, hopen]; rfl, hgrows⟩

theorem write_pushed (e : Event) (label : Option String) (s : FileSink) (n : Nat) (d : Scratch) :
    ∃ s' d', Writer.write e ⟨label, .file s, n⟩ d = (⟨label, .file s', n + 1⟩, d') ∧
      s.Pushed (e.line label) d s' d' := by
  have hpushed := s.pushed_pushLine (e.line label) d
  cases hline : s.pushLine (e.line label) d with
  | mk s' d' =>
    rw [hline] at hpushed
    exact ⟨s', d', by simp only [write, hline], hpushed⟩

theorem flush_grows (label : Option String) (s : FileSink) (n : Nat) (d : Scratch) :
    ∃ d', Writer.flush ⟨label, .file s, n⟩ d =
      (⟨label, .file { s with pending := "" }, n⟩, d') ∧ d.Grows s.file s.pending d' := by
  obtain ⟨d', hflush, hgrows⟩ := s.flush_grows d
  exact ⟨d', by simp only [flush, hflush], hgrows⟩

end Writer

end Unwinding

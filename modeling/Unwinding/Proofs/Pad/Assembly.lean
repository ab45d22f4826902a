import Mathlib
import Unwinding.Pad

/-!
# Assembly

Of each part of a pad the last setting counts, whatever stands before and behind it, and the clauses
of all settings are strung together in order. So a row of settings comes to a draft that can be told
part by part, `Draft.ofSettings`, and how the settings of different parts are interleaved does not
matter. A draft is a pad unless it lacks something; of what it lacks the first in `Missing.order` is
reported.
-/
namespace Unwinding.Pad

namespace Setting

def name? : Setting → Option String
  | name s => some s
  | _ => none

def exceptionSlot? : Setting → Option Nat
  | exceptionSlot slot => some slot
  | _ => none

def stackSlot? : Setting → Option Nat
  | stackSlot slot => some slot
  | _ => none

def destination? : Setting → Option Operand
  | destination o => some o
  | _ => none

def cleanup? : Setting → Option Bool
  | cleanup b => some b
  | _ => none

/-- The clauses that a setting adds. -/
def added : Setting → List Clause
  | clause c => [c]
  | clauses cs => cs
  | _ => []

end Setting

section Row
variable (settings : List Setting)

/-- What the last setting of a part gives, if there is one. -/
def last? {α : Type} (part? : Setting → Option α) : Option α := settings.reverse.findSome? part?

/-- All clauses that are added, in order. -/
def allAdded : List Clause := settings.flatMap Setting.added

/-- What a row of settings does not give. Clauses are dispensable where the last word on cleanup is
that the pad is for it. -/
def Lacks : Missing → Prop
  | .exceptionSlot => ∀ slot, .exceptionSlot slot ∉ settings
  | .stackSlot => ∀ slot, .stackSlot slot ∉ settings
  | .destination => ∀ o, .destination o ∉ settings
  | .clauses => allAdded settings = [] ∧ last? settings Setting.cleanup? ≠ some true

/-- Two rows that give the same, in whatever order they give different parts. -/
structure Agree (others : List Setting) : Prop where
  name : last? others Setting.name? = last? settings Setting.name?
  exceptionSlot : last? others Setting.exceptionSlot? = last? settings Setting.exceptionSlot?
  stackSlot : last? others Setting.stackSlot? = last? settings Setting.stackSlot?
  destination : last? others Setting.destination? = last? settings Setting.destination?
  cleanup : last? others Setting.cleanup? = last? settings Setting.cleanup?
  clauses : allAdded others = allAdded settings

end Row

namespace Missing

/-- From what is missed first to what is missed last. -/
def order : List Missing := [exceptionSlot, stackSlot, destination, clauses]

def part : Missing → String
  | exceptionSlot => "exception slot"
  | stackSlot => "stack slot"
  | destination => "destination"
  | clauses => "clauses"

/-- A message names what is missing and nothing else. -/
theorem part_infix_message_iff {m x : Missing} :
    x.part.toList <:+: m.message.toList ↔ x = m := by
  cases m <;> cases x <;> decide

end Missing

/-- The first thing in the order that the settings do not give. -/
def FirstLacking (settings : List Setting) (m : Missing) : Prop :=
  ∃ before after, Missing.order = before ++ m :: after ∧ Lacks settings m ∧
    ∀ x ∈ before, ¬ Lacks settings x

variable {settings others : List Setting} {m : Missing} {p : Pad}

/-! ## The last of the settings -/

theorem last?_concat {α : Type} (part? : Setting → Option α) (settings : List Setting)
    (s : Setting) : last? (settings ++ [s]) part? = (part? s).or (last? settings part?) := by
  rw [last?, List.reverse_concat, List.findSome?_cons]
  cases part? s <;> rfl

theorem last?_eq_none_iff {α : Type} {part? : Setting → Option α} {setting : α → Setting}
    (h : ∀ s v, part? s = some v ↔ s = setting v) :
    last? settings part? = none ↔ ∀ v, setting v ∉ settings := by
  rw [last?, List.findSome?_eq_none_iff]
  constructor
  · intro hnone v hv
    have hgiven := hnone _ (List.mem_reverse.2 hv)
    rw [(h _ v).2 rfl] at hgiven
    cases hgiven
  · intro hnot s hs
    rw [Option.eq_none_iff_forall_ne_some]
    intro v hv
    exact hnot v ((h s v).1 hv ▸ List.mem_reverse.1 hs)

theorem allAdded_concat (settings : List Setting) (s : Setting) :
    allAdded (settings ++ [s]) = allAdded settings ++ s.added := by
  simp [allAdded]

/-! ## Drafts -/

namespace Draft

/-- The draft that a row of settings comes to. -/
def ofSettings (settings : List Setting) : Draft where
  name := (last? settings Setting.name?).getD "landingpad"
  exceptionSlot := last? settings Setting.exceptionSlot?
  stackSlot := last? settings Setting.stackSlot?
  destination := last? settings Setting.destination?
  clauses := allAdded settings
  cleanup := (last? settings Setting.cleanup?).getD false

def lacks (d : Draft) : Missing → Bool
  | .exceptionSlot => d.exceptionSlot.isNone
  | .stackSlot => d.stackSlot.isNone
  | .destination => d.destination.isNone
  | .clauses => d.clauses.isEmpty && !d.cleanup

theorem apply_ofSettings (settings : List Setting) (s : Setting) :
    (ofSettings settings).apply s = ofSettings (settings ++ [s]) := by
  simp only [ofSettings, last?_concat, allAdded_concat]
  cases s <;> simp [apply, Setting.name?, Setting.exceptionSlot?, Setting.stackSlot?,
    Setting.destination?, Setting.cleanup?, Setting.added]

theorem foldl_apply (settings : List Setting) : settings.foldl apply {} = ofSettings settings := by
  -- from the end of the row, since the last setting is the one that counts
  induction settings using List.reverseRecOn with
  | nil => rfl
  | append_singleton settings s ih =>
    rw [List.foldl_append, ih]
    exact apply_ofSettings settings s

theorem lacks_ofSettings_iff : (ofSettings settings).lacks m = true ↔ Lacks settings m := by
  cases m with
  | exceptionSlot =>
    rw [lacks, Option.isNone_iff_eq_none]
    exact last?_eq_none_iff fun s v => by cases s <;> simp [Setting.exceptionSlot?]
  | stackSlot =>
    rw [lacks, Option.isNone_iff_eq_none]
    exact last?_eq_none_iff fun s v => by cases s <;> simp [Setting.stackSlot?]
  | destination =>
    rw [lacks, Option.isNone_iff_eq_none]
    exact last?_eq_none_iff fun s v => by cases s <;> simp [Setting.destination?]
  | clauses =>
    simp only [lacks, Lacks, ofSettings, Bool.and_eq_true, List.isEmpty_iff]
    cases last? settings Setting.cleanup? with
    | none => simp
    | some b => simp

theorem finish_eq (d : Draft) : d.finish =
    match d.exceptionSlot, d.stackSlot, d.destination with
    | none, _, _ => .error .exceptionSlot
    | some _, none, _ => .error .stackSlot
    | some _, some _, none => .error .destination
    | some e, some s, some o =>
      if d.clauses.isEmpty && !d.cleanup then .error .clauses
      else .ok ⟨d.name, e, s, o, d.clauses, d.cleanup⟩ := by
  rw [finish]
  cases d.exceptionSlot with
  | none => rfl
  | some e =>
    cases d.stackSlot with
    | none => rfl
    | some s => cases d.destination <;> rfl

theorem finish_error_iff {d : Draft} :
    d.finish = .error m ↔ Missing.order.find? d.lacks = some m := by
  simp only [finish_eq, Missing.order, List.find?_cons, lacks]
  cases d.exceptionSlot with
  | none => simp
  | some e =>
    cases d.stackSlot with
    | none => simp
    | some s =>
      cases d.destination with
      | none => simp
      | some o => cases d.clauses.isEmpty && !d.cleanup <;> simp

theorem finish_ok_iff {d : Draft} : d.finish = .ok p ↔ (∀ m, d.lacks m = false) ∧
    p.name = d.name ∧ some p.exceptionSlot = d.exceptionSlot ∧ some p.stackSlot = d.stackSlot ∧
    some p.destination = d.destination ∧ p.clauses = d.clauses ∧ p.cleanup = d.cleanup := by
  rw [finish_eq]
  constructor
  · intro h
    split at h
    · cases h
    · cases h
    · cases h
    · rename_i he hs ho
      split at h
      · cases h
      · rename_i hc
        cases h
        refine ⟨fun m => ?_, rfl, he.symm, hs.symm, ho.symm, rfl, rfl⟩
        cases m with
        | exceptionSlot => simp [lacks, he]
        | stackSlot => simp [lacks, hs]
        | destination => simp [lacks, ho]
        | clauses => exact Bool.eq_false_iff.2 hc
  · rintro ⟨h, hname, he, hs, ho, hclauses, hcleanup⟩
    have hc : (d.clauses.isEmpty && !d.cleanup) = false := h .clauses
    rw [← he, ← hs, ← ho]
    simp only [hc]
    rw [← hname, ← hclauses, ← hcleanup]
    rfl

end Draft

/-! ## Pads -/

theorem assemble_eq (settings : List Setting) :
    assemble settings = (Draft.ofSettings settings).finish := by
  rw [assemble, Draft.foldl_apply]

theorem Agree.ofSettings (h : Agree settings others) :
    Draft.ofSettings others = Draft.ofSettings settings := by
  rw [Draft.ofSettings, Draft.ofSettings, h.name, h.exceptionSlot, h.stackSlot, h.destination,
    h.cleanup, h.clauses]

theorem firstLacking_iff : FirstLacking settings m ↔
    Missing.order.find? (Draft.ofSettings settings).lacks = some m := by
  simp only [FirstLacking, List.find?_eq_some_iff_append, Bool.not_eq_true', Bool.eq_false_iff,
    ne_eq, Draft.lacks_ofSettings_iff]
  constructor
  · rintro ⟨before, after, horder, hm, hbefore⟩
    exact ⟨hm, before, after, horder, hbefore⟩
  · rintro ⟨hm, before, after, horder, hbefore⟩
    exact ⟨before, after, horder, hm, hbefore⟩

theorem assemble_error_iff : assemble settings = .error m ↔ FirstLacking settings m := by
  rw [assemble_eq, Draft.finish_error_iff, firstLacking_iff]

theorem assemble_ok_iff : assemble settings = .ok p ↔ (∀ m, ¬ Lacks settings m) ∧
    p.name = (last? settings Setting.name?).getD "landingpad" ∧
    some p.exceptionSlot = last? settings Setting.exceptionSlot? ∧
    some p.stackSlot = last? settings Setting.stackSlot? ∧
    some p.destination = last? settings Setting.destination? ∧
    p.clauses = allAdded settings ∧
    p.cleanup = (last? settings Setting.cleanup?).getD false := by
  have hlacks : (∀ m, (Draft.ofSettings settings).lacks m = false) ↔ ∀ m, ¬ Lacks settings m :=
    forall_congr' fun m => by rw [← Draft.lacks_ofSettings_iff, Bool.not_eq_true]
  rw [assemble_eq, Draft.finish_ok_iff, hlacks]
  rfl

theorem exists_assemble_iff :
    (∃ p, assemble settings = .ok p) ↔ ∀ m, ¬ Lacks settings m := by
  constructor
  · rintro ⟨p, hp⟩
    exact (assemble_ok_iff.1 hp).1
  · intro h
    cases hs : assemble settings with
    | ok p => exact ⟨p, rfl⟩
    | error m =>
      obtain ⟨-, -, -, hm, -⟩ := assemble_error_iff.1 hs
      exact absurd hm (h m)

/-- A row of settings makes a pad if it lacks nothing, and otherwise what it lacks first is named. Of
each part the pad has what was set last, and it has all clauses in the order in which they were added.
So rows that agree in these make the same pad, or lack the same. -/
theorem assemble_by_last_settings (settings : List Setting) :
    ((∃ p, assemble settings = .ok p) ↔ ∀ m, ¬ Lacks settings m) ∧
    (∀ m, assemble settings = .error m ↔ FirstLacking settings m) ∧
    (∀ m x : Missing, x.part.toList <:+: m.message.toList ↔ x = m) ∧
    (∀ p, assemble settings = .ok p →
      p.name = (last? settings Setting.name?).getD "landingpad" ∧
      some p.exceptionSlot = last? settings Setting.exceptionSlot? ∧
      some p.stackSlot = last? settings Setting.stackSlot? ∧
      some p.destination = last? settings Setting.destination? ∧
      p.clauses = allAdded settings ∧
      p.cleanup = (last? settings Setting.cleanup?).getD false) ∧
    ∀ others, Agree settings others → assemble others = assemble settings := by
  refine ⟨exists_assemble_iff, fun m => assemble_error_iff, fun m x => Missing.part_infix_message_iff,
    fun p hp => (assemble_ok_iff.1 hp).2, fun others h => ?_⟩
  rw [assemble_eq, assemble_eq, h.ofSettings]

/-- Settings that are repeated and interleaved otherwise, and a row that lacks two parts. -/
theorem assemble_interleaved :
    let first : Clause := .catching (.symbol "T")
    let pad : Pad := ⟨"f", 3, 1, .slot 2, [first, .filtering [], .catchAll], false⟩
    let settings : List Setting :=
      [.cleanup true, .clause first, .exceptionSlot 0, .name "f", .clauses [.filtering [], .catchAll],
        .destination (.slot 2), .exceptionSlot 3, .stackSlot 1, .cleanup false]
    let others : List Setting :=
      [.name "g", .stackSlot 1, .cleanup false, .clauses [first, .filtering []], .clauses [],
        .exceptionSlot 3, .clause .catchAll, .destination (.slot 2), .name "f"]
    Agree settings others ∧ assemble settings = .ok pad ∧ assemble others = .ok pad ∧
      pad.clauses = allAdded settings ∧
      assemble [.exceptionSlot 0, .cleanup false, .clauses []] = .error .stackSlot := by
  intro first pad settings others
  have hagree : Agree settings others := ⟨rfl, rfl, rfl, rfl, rfl, rfl⟩
  have hpad : assemble settings = .ok pad := rfl
  obtain ⟨-, -, -, hparts, hothers⟩ := assemble_by_last_settings settings
  obtain ⟨-, -, -, -, hclauses, -⟩ := hparts pad hpad
  obtain ⟨-, herror, -⟩ :=
    assemble_by_last_settings [.exceptionSlot 0, .cleanup false, .clauses []]
  refine ⟨hagree, hpad, (hothers others hagree).trans hpad, hclauses, (herror _).2 ?_⟩
  exact ⟨[.exceptionSlot], [.destination, .clauses], rfl, by simp [Lacks], by simp [Lacks]⟩

end Unwinding.Pad

import Mathlib
import Unwinding.Proofs.Json.Grammar
import Unwinding.Proofs.Numeral.Digits
import Unwinding.Trace.Line

/-!
# Trace lines can be read back

Every line is one JSON object without a control character, and what the object's members say, looked
up by name, is the label and the event that were written.
-/
namespace Unwinding
open Json (Lexes Quoted Denotes)

/-! ## What a line holds, as JSON -/

def Scalar.atom : Scalar → Json.Atom
  | .text s => .text s
  | .number n => .number (Numeral.signed n)
  | .flag b => .flag b

abbrev Members := List (String × Json.Value)

namespace Line

def member (f : String × Scalar) : String × Json.Value := (f.1, .atom f.2.atom)

theorem isControl_iff {c : Char} :
    isControl c = true ↔ c.toNat < 0x20 ∨ 0x7F ≤ c.toNat ∧ c.toNat < 0xA0 := by
  simp [isControl]

theorem quoted_escapeChar (c : Char) {cs s rest : List Char} (h : Quoted cs s rest) :
    Quoted (escapeChar c ++ cs) (c :: s) rest := by
  have hshort {e : Char} (he : Json.shortEscapes.lookup e = some c) :
      Quoted (['\\', e] ++ cs) (c :: s) rest := .short he h
  rw [escapeChar]
  split_ifs with hquote hslash hnewline hreturn htab hcontrol
  · exact hshort (by rw [hquote]; rfl)
  · exact hshort (by rw [hslash]; rfl)
  · exact hshort (by rw [hnewline]; rfl)
  · exact hshort (by rw [hreturn]; rfl)
  · exact hshort (by rw [htab]; rfl)
  · -- the controls are few enough for four digits
    have hsmall : c.toNat < 16 ^ 4 := by
      have hrange := isControl_iff.1 hcontrol
      omega
    have hlen := Numeral.length_paddedHex (by decide) hsmall
    have hvalue := Numeral.hexValue?_paddedHex 4 c.toNat
    generalize Numeral.paddedHex 4 c.toNat = digits at hlen hvalue ⊢
    obtain ⟨w, x, y, z, rfl⟩ := List.length_eq_four.1 hlen
    exact .unit hvalue h
  · have hrange := mt isControl_iff.2 hcontrol
    exact .plain (by omega) hquote hslash h

theorem quoted_escape (cs rest : List Char) : Quoted (escape cs ++ '"' :: rest) cs rest := by
  induction cs with
  | nil => exact .close
  | cons c cs ih =>
    rw [escape, List.flatMap_cons, List.append_assoc]
    exact quoted_escapeChar c ih

theorem lexes_quoted (s : String) {rest : List Char} {ts : List Json.Token} (h : Lexes rest ts) :
    Lexes (quoted s ++ rest) (.atom (.text s) :: ts) := by
  have hs := Lexes.text (quoted_escape s.toList rest) h
  rw [String.ofList_toList] at hs
  simpa [quoted] using hs

end Line

namespace Json

theorem isWhole_decimal (n : Nat) : isWhole (Numeral.decimal n) = true := by
  have hdigits : isDigits (Numeral.decimal n) = true := by
    simpa [isDigits, Numeral.decimal_ne_nil] using fun c => Numeral.isDigit_of_mem_decimal
  by_cases hzero : (Numeral.decimal n).head? = some '0'
  · obtain rfl := Numeral.eq_zero_of_head?_decimal hzero
    decide
  · simp [isWhole, hdigits, hzero]

theorem isNumber_of_isWhole {cs : List Char} (h : isWhole cs = true) :
    isNumber cs = true ∧ isNumber ('-' :: cs) = true := by
  have hall : ∀ c ∈ cs, c.isDigit = true := by
    simp only [isWhole, isDigits, Bool.and_eq_true, List.all_eq_true] at h
    exact h.1.2
  have htake : cs.takeWhile Char.isDigit = cs := List.takeWhile_eq_self_iff.2 hall
  have hdrop : cs.dropWhile Char.isDigit = [] := List.dropWhile_eq_nil_iff.2 hall
  have hparts :
      (isWhole (cs.takeWhile Char.isDigit) && isScale (cs.dropWhile Char.isDigit)) = true := by
    rw [htake, hdrop, h]; rfl
  refine ⟨?_, hparts⟩
  unfold isNumber
  split
  · exact absurd (hall '-' List.mem_cons_self) (by decide)
  · exact hparts

theorem isNumber_signed (n : Int) : isNumber (Numeral.signed n) = true := by
  cases n with
  | ofNat n => exact (isNumber_of_isWhole (isWhole_decimal n)).1
  | negSucc n => exact (isNumber_of_isWhole (isWhole_decimal (n + 1))).2

theorem word?_of_isNumber {cs : List Char} (h : isNumber cs = true) :
    word? cs = some (.number cs) := by
  have hnull : cs ≠ "null".toList := by rintro rfl; exact absurd h (by decide)
  have htrue : cs ≠ "true".toList := by rintro rfl; exact absurd h (by decide)
  have hfalse : cs ≠ "false".toList := by rintro rfl; exact absurd h (by decide)
  rw [word?, if_neg hnull, if_neg htrue, if_neg hfalse, if_pos h]

theorem isWordChar_of_mem_signed {n : Int} {c : Char} (h : c ∈ Numeral.signed n) :
    isWordChar c = true := by
  have hdigit {k : Nat} (hc : c ∈ Numeral.decimal k) : isWordChar c = true := by
    simp [isWordChar, Char.isAlphanum, Numeral.isDigit_of_mem_decimal hc]
  cases n with
  | ofNat n => exact hdigit h
  | negSucc n =>
    obtain rfl | h := List.mem_cons.1 h
    · decide
    · exact hdigit h

theorem digitsValue?_decimal (n : Nat) : digitsValue? (Numeral.decimal n) = some n := by
  have h := isWhole_decimal n
  simp only [isWhole, Bool.and_eq_true] at h
  rw [digitsValue?, if_pos h.1, Numeral.decimal, Nat.ofDigitChars_ten_toDigits]

private theorem Value.integer?_of_digits {cs : List Char} {n : Nat}
    (h : digitsValue? cs = some n) : Value.integer? (.atom (.number cs)) = some n := by
  unfold Value.integer?
  split
  · rename_i cs heq
    obtain rfl := Atom.number.inj (Value.atom.inj heq)
    simp [digitsValue?, isDigits] at h
  · rename_i heq
    obtain rfl := Atom.number.inj (Value.atom.inj heq)
    rw [h]
    rfl
  · rename_i hother
    exact absurd rfl (hother cs)

theorem Value.integer?_signed (n : Int) :
    Value.integer? (.atom (.number (Numeral.signed n))) = some n := by
  cases n with
  | ofNat n => exact Value.integer?_of_digits (digitsValue?_decimal n)
  | negSucc n =>
    rw [Numeral.signed, Value.integer?, digitsValue?_decimal]
    rfl

end Json

namespace Line

theorem isWordChar_of_mem_flag {b : Bool} {c : Char} (h : c ∈ scalar (.flag b)) :
    Json.isWordChar c = true := by
  have hall : (scalar (.flag b)).all Json.isWordChar = true := by cases b <;> rfl
  exact List.all_eq_true.1 hall c h

theorem lexes_scalar (x : Scalar) {rest : List Char} {ts : List Json.Token}
    (hrest : ∀ c ∈ rest.head?, Json.isWordChar c = false) (h : Lexes rest ts) :
    Lexes (scalar x ++ rest) (.atom x.atom :: ts) := by
  cases x with
  | text s => exact lexes_quoted s h
  | number n =>
    have hne : Numeral.signed n ≠ [] := by
      cases n with
      | ofNat n => exact Numeral.decimal_ne_nil n
      | negSucc n => exact List.cons_ne_nil _ _
    exact .word_append hne (fun _ => Json.isWordChar_of_mem_signed)
      (Json.word?_of_isNumber (Json.isNumber_signed n)) hrest h
  | flag b =>
    have hne : scalar (.flag b) ≠ [] := by cases b <;> decide
    have hword : Json.word? (scalar (.flag b)) = some (.flag b) := by cases b <;> rfl
    exact .word_append hne (fun _ => isWordChar_of_mem_flag) hword hrest h

theorem lexes_field (f : String × Scalar) {rest : List Char} {ts : List Json.Token}
    (hrest : ∀ c ∈ rest.head?, Json.isWordChar c = false) (h : Lexes rest ts) :
    Lexes (field f ++ rest) (.atom (.text f.1) :: .mark ':' :: .atom f.2.atom :: ts) := by
  have hvalue := Lexes.mark (c := ':') (by decide) (lexes_scalar f.2 hrest h)
  simpa [field] using lexes_quoted f.1 hvalue

theorem lexes_fields : ∀ fs : List (String × Scalar),
    Lexes ([','].intercalate (fs.map field) ++ ['\x7d']) (Json.memberTokens (fs.map member))
  | [] => .mark (by decide) .done
  | [f] => by
    have h := lexes_field f (by simp; decide) (.mark (c := '\x7d') (by decide) .done)
    simpa [member, Json.memberTokens, Json.Value.tokens] using h
  | f :: g :: fs => by
    have h := lexes_field f (by simp; decide)
      (.mark (c := ',') (by decide) (lexes_fields (g :: fs)))
    simpa [member, Json.memberTokens, Json.Value.tokens] using h

theorem denotes_object (fs : List (String × Scalar)) :
    Denotes (object fs) (.object (fs.map member)) :=
  .mark (by decide) (lexes_fields fs)

end Line

/-! ## No control character -/

namespace Line

/-- No control character, neither of the two blocks nor delete. -/
def Prints (c : Char) : Prop := 0x20 ≤ c.toNat ∧ (c.toNat < 0x7F ∨ 0xA0 ≤ c.toNat)

instance (c : Char) : Decidable (Prints c) := inferInstanceAs (Decidable (_ ∧ _))

theorem prints_of_hexDigit {c : Char} (h : (Numeral.hexDigit? c).isSome = true) : Prints c := by
  have hrange {a b : Char} (ha : 0x20 ≤ a.toNat) (hb : b.toNat < 0x7F) (h : a ≤ c ∧ c ≤ b) :
      Prints c := ⟨le_trans ha h.1, .inl (lt_of_le_of_lt h.2 hb)⟩
  rw [Numeral.hexDigit?] at h
  split_ifs at h with hdigit hlower hupper
  · exact hrange (by decide) (by decide) hdigit
  · exact hrange (by decide) (by decide) hlower
  · exact hrange (by decide) (by decide) hupper
  · exact absurd h (by decide)

theorem prints_of_mem_escapeChar {c d : Char} (h : d ∈ escapeChar c) : Prints d := by
  have hshort {e : Char} (he : Prints e) (h : d ∈ ['\\', e]) : Prints d := by
    obtain rfl | rfl : d = '\\' ∨ d = e := by simpa using h
    · decide
    · exact he
  rw [escapeChar] at h
  split_ifs at h with _ _ _ _ _ hcontrol
  · exact hshort (by decide) h
  · exact hshort (by decide) h
  · exact hshort (by decide) h
  · exact hshort (by decide) h
  · exact hshort (by decide) h
  · obtain rfl | rfl | h : d = '\\' ∨ d = 'u' ∨ d ∈ Numeral.paddedHex 4 c.toNat := by simpa using h
    · decide
    · decide
    · exact prints_of_hexDigit
        (Numeral.hexDigit?_isSome_of_mem (Numeral.hexValue?_paddedHex 4 c.toNat) h)
  · obtain rfl := List.mem_singleton.1 h
    have hrange := mt isControl_iff.2 hcontrol
    exact ⟨by omega, by omega⟩

theorem prints_of_mem_quoted {s : String} {d : Char} (h : d ∈ quoted s) : Prints d := by
  obtain rfl | ⟨c, -, h⟩ : d = '"' ∨ ∃ c ∈ s.toList, d ∈ escapeChar c := by
    simpa [quoted, escape, or_comm] using h
  · decide
  · exact prints_of_mem_escapeChar h

theorem prints_of_isWordChar {c : Char} (h : Json.isWordChar c = true) : Prints c := by
  have hrange {a b : UInt32} (ha : 0x20 ≤ a.toNat) (hb : b.toNat < 0x7F)
      (h : a ≤ c.val ∧ c.val ≤ b) : Prints c := ⟨le_trans ha h.1, .inl (lt_of_le_of_lt h.2 hb)⟩
  simp only [Json.isWordChar, Char.isAlphanum, Char.isAlpha, Char.isUpper, Char.isLower,
    Char.isDigit, Bool.or_eq_true, Bool.and_eq_true, decide_eq_true_eq] at h
  obtain (((((hupper | hlower) | hdigit) | rfl) | rfl) | rfl) := h
  · exact hrange (by decide) (by decide) hupper
  · exact hrange (by decide) (by decide) hlower
  · exact hrange (by decide) (by decide) hdigit
  all_goals decide

theorem prints_of_mem_scalar {x : Scalar} {d : Char} (h : d ∈ scalar x) : Prints d := by
  cases x with
  | text s => exact prints_of_mem_quoted h
  | number n => exact prints_of_isWordChar (Json.isWordChar_of_mem_signed h)
  | flag b => exact prints_of_isWordChar (isWordChar_of_mem_flag h)

theorem prints_of_mem_field {f : String × Scalar} {d : Char} (h : d ∈ field f) : Prints d := by
  obtain h | rfl | h : d ∈ quoted f.1 ∨ d = ':' ∨ d ∈ scalar f.2 := by simpa [field] using h
  · exact prints_of_mem_quoted h
  · decide
  · exact prints_of_mem_scalar h

theorem prints_of_mem_fields {d : Char} :
    ∀ {fs : List (String × Scalar)}, d ∈ [','].intercalate (fs.map field) → Prints d
  | [f], h => prints_of_mem_field (by simpa using h)
  | f :: g :: fs, h => by
    obtain h | rfl | h : d ∈ field f ∨ d = ',' ∨ d ∈ [','].intercalate ((g :: fs).map field) := by
      simpa using h
    · exact prints_of_mem_field h
    · decide
    · exact prints_of_mem_fields h

theorem prints_of_mem_object {fs : List (String × Scalar)} {d : Char} (h : d ∈ object fs) :
    Prints d := by
  obtain rfl | h | rfl : d = '\x7b' ∨ d ∈ [','].intercalate (fs.map field) ∨ d = '\x7d' := by
    simpa [object] using h
  · decide
  · exact prints_of_mem_fields h
  · decide

end Line

/-! ## From the object back to the event -/

namespace Members

/-- What the member of the name says, read in the way it is meant. -/
def read? {α : Type} (ms : Members) (name : String) (meaning : Json.Value → Option α) : Option α :=
  (ms.lookup name).bind meaning

/-- The label, where a member gives one. -/
def label? (ms : Members) : Option (Option String) :=
  match ms.lookup "context" with
  | none => some none
  | some v => v.text?.map some

def address? (v : Json.Value) : Option Address := v.text?.bind Address.ofText?

def selector? (v : Json.Value) : Option Selector := do
  let n ← v.integer?
  if -2 ^ 31 ≤ n ∧ n < 2 ^ 31 then some ⟨Int32.ofInt n⟩ else none

def clauseKind? (v : Json.Value) : Option ClauseKind := do
  match ← v.text? with
  | "catch" => some .catching
  | "filter" => some .filtering
  | _ => none

def event? (ms : Members) : Option Event := do
  let pad ← ms.read? "pad" Json.Value.text?
  match ← ms.read? "type" Json.Value.text? with
  | "landingpad_enter" =>
    return .entered pad (← ms.read? "unwind_header" address?)
      (← ms.read? "clause_count" Json.Value.natural?) (← ms.read? "cleanup" Json.Value.flag?)
  | "clause" =>
    return .evaluated pad (← ms.read? "index" Json.Value.natural?) (← ms.read? "kind" clauseKind?)
      (← ms.read? "selector" selector?)
  | "landingpad_fired" =>
    return .fired pad (← ms.read? "selector" selector?) (← ms.read? "record" address?)
  | "propagate" => return .propagated pad (← ms.read? "unwind_header" address?)
  | _ => none

@[simp] theorem text?_text (s : String) : Json.Value.text? (.atom (Scalar.text s).atom) = some s :=
  rfl

@[simp] theorem flag?_flag (b : Bool) : Json.Value.flag? (.atom (Scalar.flag b).atom) = some b :=
  rfl

@[simp] theorem natural?_number (n : Nat) :
    Json.Value.natural? (.atom (Scalar.number n).atom) = some n := by
  rw [Json.Value.natural?, Scalar.atom, Json.Value.integer?_signed]
  rfl

@[simp] theorem address?_shortText (a : Address) :
    address? (.atom (Scalar.text a.shortText).atom) = some a :=
  a.ofText?_shortText

@[simp] theorem selector?_code (sel : Selector) :
    selector? (.atom (Scalar.number sel.code.toInt).atom) = some sel := by
  have hlow : -2 ^ 31 ≤ sel.code.toInt := sel.code.le_toInt
  have hhigh : sel.code.toInt < 2 ^ 31 := sel.code.toInt_lt
  rw [selector?, Scalar.atom, Json.Value.integer?_signed]
  simp only [Option.bind_eq_bind, Option.bind_some, if_pos (And.intro hlow hhigh),
    Int32.ofInt_toInt]

@[simp] theorem clauseKind?_text (kind : ClauseKind) :
    clauseKind? (.atom (Scalar.text kind.text).atom) = some kind := by
  cases kind <;> rfl

end Members

namespace Event

def labelMember (label : Option String) : Members :=
  (label.map fun s => ("context", .atom (.text s))).toList

def members (e : Event) : Members := e.fields.map Line.member

theorem label?_members (label : Option String) (e : Event) :
    Members.label? (labelMember label ++ e.members) = some label := by
  cases label <;> cases e <;> rfl

/-- The member that holds the label does not stand before another one. -/
theorem read?_labelMember {α : Type} {meaning : Json.Value → Option α} {name : String}
    (label : Option String) (ms : Members) (h : name ≠ "context") :
    Members.read? (labelMember label ++ ms) name meaning = ms.read? name meaning := by
  cases label with
  | none => rfl
  | some s =>
    have hname : (name == "context") = false := beq_false_of_ne h
    simp [Members.read?, labelMember, List.lookup_cons, hname]

theorem event?_members (e : Event) : Members.event? e.members = some e := by
  cases e <;> simp [Members.event?, Members.read?, members, fields, Line.member, List.lookup]

theorem event?_labelMember (label : Option String) (ms : Members) :
    Members.event? (labelMember label ++ ms) = Members.event? ms := by
  simp [Members.event?, read?_labelMember]

theorem nodup_members (label : Option String) (e : Event) :
    ((labelMember label ++ e.members).map Prod.fst).Nodup := by
  cases label <;> cases e <;> simp [labelMember, members, fields, Line.member]

theorem denotes_line (label : Option String) (e : Event) :
    Denotes (e.line label).toList (.object (labelMember label ++ e.members)) := by
  have hfields : labelMember label ++ e.members =
      ((label.map fun s => ("context", Scalar.text s)).toList ++ e.fields).map Line.member := by
    cases label <;> rfl
  rw [hfields, line, String.toList_ofList]
  exact Line.denotes_object _

/-- What a line denotes tells its label and its event. -/
theorem line_inj {label label' : Option String} {e e' : Event} (h : e.line label = e'.line label') :
    label = label' ∧ e = e' := by
  have hv := Json.Value.object.inj ((denotes_line label e).unique (h ▸ denotes_line label' e'))
  constructor
  · exact Option.some.inj (by rw [← label?_members label e, hv, label?_members])
  · exact Option.some.inj
      (by rw [← event?_members e, ← event?_labelMember label, hv, event?_labelMember,
        event?_members])

/-- A line has no control character. It denotes one object, with the label in front of what it holds
without one, and the object's members, none of them named twice, tell the label and the event. So no
two labels or events have one line. -/
theorem line_decodes (e : Event) :
    ∃ plain : Members, ∀ label : Option String,
      let ms := (label.map fun s => ("context", .atom (.text s))).toList ++ plain
      (∀ c ∈ (e.line label).toList, Line.Prints c) ∧
        (∀ v, Denotes (e.line label).toList v ↔ v = .object ms) ∧ (ms.map Prod.fst).Nodup ∧
        Members.label? ms = some label ∧ Members.event? ms = some e ∧
        ∀ label' e', e'.line label' = e.line label ↔ label' = label ∧ e' = e := by
  refine ⟨e.members, fun label => ⟨fun c hc => ?_, fun v => ?_, nodup_members label e,
    label?_members label e, ?_, fun label' e' => ⟨line_inj, ?_⟩⟩⟩
  · rw [line, String.toList_ofList] at hc
    exact Line.prints_of_mem_object hc
  · exact ⟨fun h => h.unique (denotes_line label e), fun h => h ▸ denotes_line label e⟩
  · exact (event?_labelMember label e.members).trans (event?_members e)
  · rintro ⟨rfl, rfl⟩
    rfl

example : (Event.propagated "a\"b" ⟨0xAB⟩).line (some "\n\u0085") =
    "\x7b\"context\":\"\\n\\u0085\",\"type\":\"propagate\",\"pad\":\"a\\\"b\"," ++
      "\"unwind_header\":\"0xAB\"\x7d" := by
  cbv

end Event

end Unwinding

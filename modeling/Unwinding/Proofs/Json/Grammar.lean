import Mathlib
import Unwinding.Numeral

/-!
# What a JSON text denotes

The rules of JSON as relations, with no reader behind them: which text a string in quotes stands
for, into which tokens a text falls apart, and which tokens a value is written with. A text denotes
at most one value.

A number is kept as it is spelled. A string is kept unescaped, so an escape that stands for half of
a surrogate pair without the other half makes a text denote nothing.
-/
namespace Unwinding.Json

/-- A value without parts. -/
inductive Atom
  | null
  | flag (b : Bool)
  | number (spelling : List Char)
  | text (s : String)
  deriving DecidableEq, Repr

inductive Value
  | atom (a : Atom)
  | array (elements : List Value)
  | object (members : List (String × Value))

inductive Token
  | atom (a : Atom)
  | mark (c : Char)
  deriving DecidableEq, Repr

/-! ## Characters, numbers and words -/

def isBlank (c : Char) : Bool := c = ' ' || c = '\t' || c = '\n' || c = '\r'

def isMark (c : Char) : Bool :=
  c = '[' || c = ']' || c = '\x7b' || c = '\x7d' || c = ':' || c = ','

def isWordChar (c : Char) : Bool := c.isAlphanum || c = '+' || c = '-' || c = '.'

def isDigits (cs : List Char) : Bool := !cs.isEmpty && cs.all Char.isDigit

/-- Digits without a leading zero, or that zero alone. -/
def isWhole (cs : List Char) : Bool := isDigits cs && (cs.head? != some '0' || cs.length = 1)

def isExponent : List Char → Bool
  | [] => true
  | c :: '+' :: cs | c :: '-' :: cs | c :: cs => (c = 'e' || c = 'E') && isDigits cs

/-- A fraction, an exponent, one behind the other, or neither. -/
def isScale : List Char → Bool
  | '.' :: cs => isDigits (cs.takeWhile Char.isDigit) && isExponent (cs.dropWhile Char.isDigit)
  | cs => isExponent cs

def isNumber : List Char → Bool
  | '-' :: cs | cs => isWhole (cs.takeWhile Char.isDigit) && isScale (cs.dropWhile Char.isDigit)

/-- What stands for itself, outside of quotes. -/
def word? (cs : List Char) : Option Atom :=
  if cs = "null".toList then some .null
  else if cs = "true".toList then some (.flag true)
  else if cs = "false".toList then some (.flag false)
  else if isNumber cs then some (.number cs)
  else none

/-! ## Strings -/

/-- The escapes of one character. -/
def shortEscapes : List (Char × Char) :=
  [('"', '"'), ('\\', '\\'), ('/', '/'), ('b', '\x08'), ('f', '\x0c'), ('n', '\n'), ('r', '\r'),
    ('t', '\t')]

/-- `Quoted cs s rest`: behind an opening quote, `cs` stands for the text `s` up to the closing
quote, and `rest` is behind that. -/
inductive Quoted : List Char → List Char → List Char → Prop
  | close {rest} : Quoted ('"' :: rest) [] rest
  | plain {c cs s rest} (hc : 0x20 ≤ c.toNat) (hquote : c ≠ '"') (hescape : c ≠ '\\')
      (h : Quoted cs s rest) : Quoted (c :: cs) (c :: s) rest
  | short {e c cs s rest} (he : shortEscapes.lookup e = some c) (h : Quoted cs s rest) :
      Quoted ('\\' :: e :: cs) (c :: s) rest
  | unit {w x y z c cs s rest} (hc : Numeral.hexValue? [w, x, y, z] = some (Char.toNat c))
      (h : Quoted cs s rest) : Quoted ('\\' :: 'u' :: w :: x :: y :: z :: cs) (c :: s) rest
  | pair {w x y z w' x' y' z' hi lo c cs s rest} (hhi : hi < 0x400) (hlo : lo < 0x400)
      (hhigh : Numeral.hexValue? [w, x, y, z] = some (0xD800 + hi))
      (hlow : Numeral.hexValue? [w', x', y', z'] = some (0xDC00 + lo))
      (hc : Char.toNat c = 0x10000 + 0x400 * hi + lo) (h : Quoted cs s rest) :
      Quoted ('\\' :: 'u' :: w :: x :: y :: z :: '\\' :: 'u' :: w' :: x' :: y' :: z' :: cs)
        (c :: s) rest

/-- No character has the number of a half of a surrogate pair. -/
private theorem toNat_ne_high {c : Char} {hi : Nat} (h : hi < 0x400) : c.toNat ≠ 0xD800 + hi := by
  have hc := c.valid
  intro heq
  simp only [UInt32.isValidChar, Nat.isValidChar] at hc
  have : c.val.toNat = 0xD800 + hi := heq
  omega

theorem Quoted.unique {cs s rest s' rest' : List Char} (h : Quoted cs s rest)
    (h' : Quoted cs s' rest') : s = s' ∧ rest = rest' := by
  induction h generalizing s' rest' with
  | close =>
    cases h' with
    | close => exact ⟨rfl, rfl⟩
    | plain _ hquote => exact absurd rfl hquote
  | plain _ hquote hescape _ ih =>
    cases h' with
    | close => exact absurd rfl hquote
    | plain _ _ _ h' =>
      obtain ⟨rfl, rfl⟩ := ih h'
      exact ⟨rfl, rfl⟩
    | short | unit | pair => exact absurd rfl hescape
  | short he _ ih =>
    cases h' with
    | plain _ _ hescape => exact absurd rfl hescape
    | short he' h' =>
      obtain ⟨rfl, rfl⟩ := ih h'
      obtain rfl := Option.some.inj (he.symm.trans he')
      exact ⟨rfl, rfl⟩
    | unit | pair => simp [shortEscapes, List.lookup] at he
  | unit hc _ ih =>
    cases h' with
    | plain _ _ hescape => exact absurd rfl hescape
    | short he' => simp [shortEscapes, List.lookup] at he'
    | unit hc' h' =>
      obtain ⟨rfl, rfl⟩ := ih h'
      obtain rfl := Char.toNat_inj.1 (Option.some.inj (hc.symm.trans hc'))
      exact ⟨rfl, rfl⟩
    | pair hhi _ hhigh => exact absurd (Option.some.inj (hc.symm.trans hhigh)) (toNat_ne_high hhi)
  | pair hhi hlo hhigh hlow hc _ ih =>
    cases h' with
    | plain _ _ hescape => exact absurd rfl hescape
    | short he' => simp [shortEscapes, List.lookup] at he'
    | unit hc' => exact absurd (Option.some.inj (hc'.symm.trans hhigh)) (toNat_ne_high hhi)
    | pair _ _ hhigh' hlow' hc' h' =>
      obtain ⟨rfl, rfl⟩ := ih h'
      obtain rfl := Nat.add_left_cancel (Option.some.inj (hhigh.symm.trans hhigh'))
      obtain rfl := Nat.add_left_cancel (Option.some.inj (hlow.symm.trans hlow'))
      obtain rfl := Char.toNat_inj.1 (hc.trans hc'.symm)
      exact ⟨rfl, rfl⟩

/-! ## Tokens -/

/-- `Lexes cs ts`: the text `cs` falls apart into the tokens `ts`, with blanks between them. A word
is as long as it can be. -/
inductive Lexes : List Char → List Token → Prop
  | done : Lexes [] []
  | blank {c cs ts} (hc : isBlank c = true) (h : Lexes cs ts) : Lexes (c :: cs) ts
  | mark {c cs ts} (hc : isMark c = true) (h : Lexes cs ts) : Lexes (c :: cs) (.mark c :: ts)
  | text {cs s rest ts} (hs : Quoted cs s rest) (h : Lexes rest ts) :
      Lexes ('"' :: cs) (.atom (.text (String.ofList s)) :: ts)
  | word {c cs a ts} (hc : isWordChar c = true)
      (ha : word? ((c :: cs).takeWhile isWordChar) = some a)
      (h : Lexes ((c :: cs).dropWhile isWordChar) ts) : Lexes (c :: cs) (.atom a :: ts)

/-- No character starts two kinds of token. -/
private theorem kinds_apart {c : Char} :
    (isBlank c = true → isMark c = false ∧ isWordChar c = false ∧ c ≠ '"') ∧
      (isMark c = true → isWordChar c = false ∧ c ≠ '"') ∧ (isWordChar c = true → c ≠ '"') := by
  refine ⟨fun h => ?_, fun h => ?_, ?_⟩
  · simp only [isBlank, Bool.or_eq_true, decide_eq_true_eq] at h
    obtain ((rfl | rfl) | rfl) | rfl := h <;> decide
  · simp only [isMark, Bool.or_eq_true, decide_eq_true_eq] at h
    obtain ((((rfl | rfl) | rfl) | rfl) | rfl) | rfl := h <;> decide
  · rintro h rfl
    exact absurd h (by decide)

theorem Lexes.unique {cs : List Char} {ts us : List Token} (h : Lexes cs ts) (h' : Lexes cs us) :
    ts = us := by
  induction h generalizing us with
  | done =>
    cases h' with
    | done => rfl
  | blank hc _ ih =>
    obtain ⟨hmark, hword, hquote⟩ := kinds_apart.1 hc
    cases h' with
    | blank _ h' => exact ih h'
    | mark hc' => exact absurd hc' (by simp [hmark])
    | text => exact absurd rfl hquote
    | word hc' => exact absurd hc' (by simp [hword])
  | mark hc _ ih =>
    obtain ⟨hword, hquote⟩ := kinds_apart.2.1 hc
    cases h' with
    | blank hc' => exact absurd hc (by simp [(kinds_apart.1 hc').1])
    | mark _ h' => rw [ih h']
    | text => exact absurd rfl hquote
    | word hc' => exact absurd hc' (by simp [hword])
  | text hs _ ih =>
    cases h' with
    | blank hc' => exact absurd hc' (by decide)
    | mark hc' => exact absurd hc' (by decide)
    | text hs' h' =>
      obtain ⟨rfl, rfl⟩ := hs.unique hs'
      rw [ih h']
    | word hc' => exact absurd hc' (by decide)
  | word hc ha _ ih =>
    cases h' with
    | blank hc' => exact absurd hc (by simp [(kinds_apart.1 hc').2.1])
    | mark hc' => exact absurd hc (by simp [(kinds_apart.2.1 hc').1])
    | text => exact absurd hc (by decide)
    | word _ ha' h' =>
      obtain rfl := Option.some.inj (ha.symm.trans ha')
      rw [ih h']

/-- A word that ends where another kind of token starts is a token of its own. -/
theorem Lexes.word_append {w rest : List Char} {a : Atom} {ts : List Token} (hne : w ≠ [])
    (hw : ∀ c ∈ w, isWordChar c = true) (ha : word? w = some a)
    (hrest : ∀ c ∈ rest.head?, isWordChar c = false) (h : Lexes rest ts) :
    Lexes (w ++ rest) (.atom a :: ts) := by
  have hstop : rest.takeWhile isWordChar = [] ∧ rest.dropWhile isWordChar = rest := by
    cases rest with
    | nil => exact ⟨rfl, rfl⟩
    | cons c cs => simp [hrest c rfl]
  have htake : (w ++ rest).takeWhile isWordChar = w := by
    rw [List.takeWhile_append_of_pos hw, hstop.1, List.append_nil]
  have hdrop : (w ++ rest).dropWhile isWordChar = rest := by
    rw [List.dropWhile_append_of_pos hw, hstop.2]
  cases w with
  | nil => exact absurd rfl hne
  | cons c cs =>
    rw [List.cons_append] at htake hdrop
    exact .word (hw c List.mem_cons_self) (htake.symm ▸ ha) (hdrop.symm ▸ h)

/-! ## Values -/

mutual

/-- The tokens a value is written with. -/
def Value.tokens : Value → List Token
  | .atom a => [.atom a]
  | .array vs => .mark '[' :: elementTokens vs
  | .object ms => .mark '\x7b' :: memberTokens ms

/-- Values with commas between them, and the closing bracket. -/
def elementTokens : List Value → List Token
  | [] => [.mark ']']
  | [v] => v.tokens ++ [.mark ']']
  | v :: w :: vs => v.tokens ++ .mark ',' :: elementTokens (w :: vs)

/-- Members with commas between them, and the closing brace. -/
def memberTokens : List (String × Value) → List Token
  | [] => [.mark '\x7d']
  | [(name, v)] => .atom (.text name) :: .mark ':' :: (v.tokens ++ [.mark '\x7d'])
  | (name, v) :: m :: ms =>
    .atom (.text name) :: .mark ':' :: (v.tokens ++ .mark ',' :: memberTokens (m :: ms))

end

private theorem tokens_append_ne_close (v : Value) (r r' : List Token) :
    v.tokens ++ r ≠ .mark ']' :: r' := by
  cases v <;> simp [Value.tokens]

-- The closing bracket makes what is behind a value play no part in where the value ends.
mutual

theorem Value.tokens_append_inj {r r' : List Token} :
    ∀ {v w : Value}, v.tokens ++ r = w.tokens ++ r' → v = w ∧ r = r'
  | .atom a, .atom b, h => by simpa [Value.tokens] using h
  | .array vs, .array ws, h => by
    simp only [Value.tokens, List.cons_append, List.cons.injEq, true_and] at h
    obtain ⟨rfl, rfl⟩ := elementTokens_append_inj h
    exact ⟨rfl, rfl⟩
  | .object ms, .object ns, h => by
    simp only [Value.tokens, List.cons_append, List.cons.injEq, true_and] at h
    obtain ⟨rfl, rfl⟩ := memberTokens_append_inj h
    exact ⟨rfl, rfl⟩
  | .atom _, .array _, h | .atom _, .object _, h | .array _, .atom _, h | .array _, .object _, h
  | .object _, .atom _, h | .object _, .array _, h => by simp [Value.tokens] at h

theorem elementTokens_append_inj {r r' : List Token} :
    ∀ {vs ws : List Value}, elementTokens vs ++ r = elementTokens ws ++ r' → vs = ws ∧ r = r'
  | [], [], h => ⟨rfl, by simpa [elementTokens] using h⟩
  | [], [w], h | [], w :: _ :: _, h => by
    simp only [elementTokens, List.append_assoc, List.singleton_append] at h
    exact absurd h.symm (tokens_append_ne_close w _ _)
  | [v], [], h | v :: _ :: _, [], h => by
    simp only [elementTokens, List.append_assoc, List.singleton_append] at h
    exact absurd h (tokens_append_ne_close v _ _)
  | [v], [w], h => by
    simp only [elementTokens, List.append_assoc, List.singleton_append] at h
    obtain ⟨rfl, hr⟩ := Value.tokens_append_inj h
    exact ⟨rfl, List.tail_eq_of_cons_eq hr⟩
  | [v], w :: _ :: _, h | v :: _ :: _, [w], h => by
    simp only [elementTokens, List.append_assoc, List.cons_append, List.nil_append] at h
    obtain ⟨rfl, hr⟩ := Value.tokens_append_inj h
    simp at hr
  | v :: v' :: vs, w :: w' :: ws, h => by
    simp only [elementTokens, List.append_assoc, List.cons_append] at h
    obtain ⟨rfl, hr⟩ := Value.tokens_append_inj h
    obtain ⟨htail, rfl⟩ := elementTokens_append_inj (List.tail_eq_of_cons_eq hr)
    exact ⟨by rw [htail], rfl⟩

theorem memberTokens_append_inj {r r' : List Token} :
    ∀ {ms ns : List (String × Value)}, memberTokens ms ++ r = memberTokens ns ++ r' →
      ms = ns ∧ r = r'
  | [], [], h => ⟨rfl, by simpa [memberTokens] using h⟩
  | [], [_], h | [], _ :: _ :: _, h | [_], [], h | _ :: _ :: _, [], h => by
    simp [memberTokens] at h
  | [(s, v)], [(t, w)], h => by
    simp only [memberTokens, List.cons_append, List.append_assoc, List.nil_append, List.cons.injEq,
      Token.atom.injEq, Atom.text.injEq, true_and] at h
    obtain ⟨rfl, h⟩ := h
    obtain ⟨rfl, hr⟩ := Value.tokens_append_inj h
    exact ⟨rfl, List.tail_eq_of_cons_eq hr⟩
  | [(_, v)], (_, w) :: _ :: _, h | (_, v) :: _ :: _, [(_, w)], h => by
    simp only [memberTokens, List.cons_append, List.append_assoc, List.nil_append, List.cons.injEq,
      Token.atom.injEq, Atom.text.injEq, true_and] at h
    obtain ⟨rfl, hr⟩ := Value.tokens_append_inj h.2
    simp at hr
  | (s, v) :: m :: ms, (t, w) :: n :: ns, h => by
    simp only [memberTokens, List.cons_append, List.append_assoc, List.cons.injEq, Token.atom.injEq,
      Atom.text.injEq, true_and] at h
    obtain ⟨rfl, h⟩ := h
    obtain ⟨rfl, hr⟩ := Value.tokens_append_inj h
    obtain ⟨htail, rfl⟩ := memberTokens_append_inj (List.tail_eq_of_cons_eq hr)
    exact ⟨by rw [htail], rfl⟩

end

/-- The text, as a whole, denotes the value. -/
def Denotes (cs : List Char) (v : Value) : Prop := Lexes cs v.tokens

/-- A text denotes one value at most. -/
theorem Denotes.unique {cs : List Char} {v w : Value} (hv : Denotes cs v) (hw : Denotes cs w) :
    v = w :=
  (Value.tokens_append_inj (congrArg (· ++ []) (Lexes.unique hv hw))).1

/-! ## Readings -/

def Value.text? : Value → Option String
  | .atom (.text s) => some s
  | _ => none

def Value.flag? : Value → Option Bool
  | .atom (.flag b) => some b
  | _ => none

def digitsValue? (cs : List Char) : Option Nat :=
  if isDigits cs then some (Nat.ofDigitChars 10 cs 0) else none

/-- A number without fraction and exponent. -/
def Value.integer? : Value → Option Int
  | .atom (.number ('-' :: cs)) => (digitsValue? cs).map fun n => -Int.ofNat n
  | .atom (.number cs) => (digitsValue? cs).map Int.ofNat
  | _ => none

def Value.natural? (v : Value) : Option Nat := v.integer?.bind Int.toNat?

end Unwinding.Json

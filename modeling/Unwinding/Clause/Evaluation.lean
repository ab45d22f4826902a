import Unwinding.Action
import Unwinding.Clause
import Unwinding.Collaborators
import Unwinding.Selector

/-!
# Evaluating a clause

A clause resolves its types one after the other, asks a type matcher about each that is not null,
and stops as soon as its selector is known. It acquires the matcher of the context when it first
has something to ask, and holds on to it for good; nothing else is remembered.
-/
namespace Unwinding

/-- What evaluations read: the exception, the frame, and the collaborators of one context. -/
structure Scene where
  world : Collaborators
  resolver : ResolverId
  matcher : MatcherId
  frame : Frame
  stack : Address
  header : Address

/-- What evaluations change, and the questions they asked, oldest first. -/
structure Consultation where
  held : Holdings
  /-- How often the matcher of the context was acquired; a counter of 64 bits shows the number modulo
  2^64. -/
  acquisitions : Nat
  asked : List (MatcherId × Query) := []
  deriving DecidableEq, Repr

namespace Scene

def resolve (s : Scene) (o : Operand) : Except Fault Address := s.world.resolve s.resolver s.frame o

def query (s : Scene) (type : Address) : Query := ⟨s.stack, s.header, type⟩

/-- The matcher that clause `i` holds; if it holds none yet, it takes that of the context. -/
def acquire (s : Scene) (i : Nat) : Action Consultation MatcherId := do
  let c ← get
  match c.held.find? i with
  | some m => return m
  | none =>
    set { c with held := c.held.insert i s.matcher, acquisitions := c.acquisitions + 1 }
    return s.matcher

/-- Asks the matcher of clause `i` whether the type catches the exception. -/
def ask (s : Scene) (i : Nat) (type : Address) : Action Consultation Bool := do
  let m ← s.acquire i
  modify fun c => { c with asked := c.asked ++ [(m, s.query type)] }
  Action.settle (s.world.canCatch m (s.query type))

/-- The filter matches when none of its types is null or catches the exception. -/
def filter (s : Scene) (i : Nat) : List Operand → Action Consultation Selector
  | [] => return .filter
  | o :: os => do
    let type ← Action.settle (s.resolve o)
    if type.isNull then return .none
    else if ← s.ask i type then return .none
    else s.filter i os

theorem acquire_apply (s : Scene) (i : Nat) (c : Consultation) : s.acquire i c =
    match c.held.find? i with
    | some m => .ok m c
    | none => .ok s.matcher
      { c with held := c.held.insert i s.matcher, acquisitions := c.acquisitions + 1 } := by
  rw [acquire, Action.bind_of_ok (x := get) rfl]
  cases c.held.find? i <;> rfl

theorem ask_apply {s : Scene} {i : Nat} {c d : Consultation} {m : MatcherId}
    (h : s.acquire i c = .ok m d) (type : Address) : s.ask i type c =
      Action.settle (s.world.canCatch m (s.query type))
        { d with asked := d.asked ++ [(m, s.query type)] } := by
  rw [ask, Action.bind_of_ok h, Action.bind_of_ok (x := modify _) rfl]

theorem filter_nil (s : Scene) (i : Nat) (c : Consultation) : s.filter i [] c = .ok .filter c := rfl

theorem filter_cons (s : Scene) (i : Nat) (o : Operand) (os : List Operand) (c : Consultation) :
    s.filter i (o :: os) c =
      match s.resolve o with
      | .error f => .error f c
      | .ok type =>
        if type.isNull then .ok .none c
        else match s.ask i type c with
          | .error f d => .error f d
          | .ok true d => .ok .none d
          | .ok false d => s.filter i os d := by
  rw [filter]
  cases s.resolve o with
  | error f => rfl
  | ok type =>
    rw [Action.bind_of_ok (Action.settle_ok type c)]
    by_cases hn : type.isNull
    · simp only [hn, if_true]; rfl
    · simp only [hn, if_false, Bool.false_eq_true]
      cases h : s.ask i type c with
      | error f d => rw [Action.bind_of_error h]
      | ok b d => rw [Action.bind_of_ok h]; cases b <;> rfl

end Scene

/-- The selector of the clause at index `i` of its pad. -/
def Clause.evaluate (s : Scene) (i : Nat) : Clause → Action Consultation Selector
  | catching o => do
    let type ← Action.settle (s.resolve o)
    if type.isNull then return .catchAll
    else if ← s.ask i type then return .ofType type
    else return .none
  | filtering os => s.filter i os

theorem Clause.evaluate_catching (s : Scene) (i : Nat) (o : Operand) (c : Consultation) :
    (catching o).evaluate s i c =
      match s.resolve o with
      | .error f => .error f c
      | .ok type =>
        if type.isNull then .ok .catchAll c
        else match s.ask i type c with
          | .error f d => .error f d
          | .ok true d => .ok (.ofType type) d
          | .ok false d => .ok .none d := by
  rw [evaluate]
  cases s.resolve o with
  | error f => rfl
  | ok type =>
    rw [Action.bind_of_ok (Action.settle_ok type c)]
    by_cases hn : type.isNull
    · simp only [hn, if_true]; rfl
    · simp only [hn, if_false, Bool.false_eq_true]
      cases h : s.ask i type c with
      | error f d => rw [Action.bind_of_error h]
      | ok b d => rw [Action.bind_of_ok h]; cases b <;> rfl

end Unwinding

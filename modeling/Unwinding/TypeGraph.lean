import Unwinding.Fault
import Unwinding.Table

/-!
# Type graphs

Which types derive from which, and which type was thrown with which unwind header. The graph may be
any finite graph: with cycles, with types among the bases that have no entry of their own.
-/
namespace Unwinding

structure TypeGraph where
  bases : Table Address (List Address) := {}
  thrown : Table Address Address := {}
  deriving DecidableEq, Repr, Inhabited

namespace TypeGraph

def empty : TypeGraph := {}

/-- Sets the direct bases of a type, in place of earlier ones. -/
def registerType (g : TypeGraph) (type : Address) (bases : List Address) : TypeGraph :=
  { g with bases := g.bases.insert type bases }

def registerException (g : TypeGraph) (header type : Address) : TypeGraph :=
  { g with thrown := g.thrown.insert header type }

def forgetException (g : TypeGraph) (header : Address) : TypeGraph :=
  { g with thrown := g.thrown.erase header }

def thrownType (g : TypeGraph) (header : Address) : Option Address := g.thrown.find? header

/-- The direct bases of a type; none where it has no entry. -/
def basesOf (g : TypeGraph) (type : Address) : List Address := (g.bases.find? type).getD []

/-- The types with an entry that are not among those seen. -/
def unseen (g : TypeGraph) (seen : List Address) : List Address :=
  g.bases.keys.filter (· ∉ seen)

theorem unseen_cons_length (g : TypeGraph) (t : Address) (seen : List Address) :
    (g.unseen (t :: seen)).length ≤ (g.unseen seen).length := by
  have h : g.unseen (t :: seen) = (g.unseen seen).filter (· ≠ t) := by
    simp [unseen, List.filter_filter]
  rw [h]
  exact List.length_filter_le ..

theorem unseen_cons_length_lt {g : TypeGraph} {t : Address} {seen : List Address}
    (ht : t ∈ g.bases.keys) (hs : t ∉ seen) :
    (g.unseen (t :: seen)).length < (g.unseen seen).length := by
  have h : g.unseen (t :: seen) = (g.unseen seen).filter (· ≠ t) := by
    simp [unseen, List.filter_filter]
  rw [h]
  exact List.length_filter_lt_length_iff_exists.2 ⟨t, by simp [unseen, ht, hs], by simp⟩

/-- Depth-first search for `goal`, on a stack of pending types: of the bases of a type the one listed
last is taken first. A type that was seen before is passed over, so each type with an entry is opened
once at most, and the search ends on every graph. -/
def search (g : TypeGraph) (goal : Address) : List Address → List Address → Bool
  | [], _ => false
  | t :: pending, seen =>
    if t = goal then true
    else if t ∈ seen then g.search goal pending seen
    else g.search goal ((g.basesOf t).reverse ++ pending) (t :: seen)
termination_by pending seen => ((g.unseen seen).length, pending.length)
decreasing_by
  · exact Prod.Lex.right _ (Nat.lt_succ_self _)
  · rename_i hs
    by_cases ht : t ∈ g.bases.keys
    · exact Prod.Lex.left _ _ (unseen_cons_length_lt ht hs)
    · have hb : g.basesOf t = [] := by simp [basesOf, Table.find?_eq_none ht]
      rcases Nat.lt_or_eq_of_le (g.unseen_cons_length t seen) with h | h
      · exact Prod.Lex.left _ _ h
      · rw [hb, h]
        exact Prod.Lex.right _ (Nat.lt_succ_self _)

/-- `base` is `derived` or one of its direct or indirect bases. -/
def isDerivedFrom (g : TypeGraph) (derived base : Address) : Bool := g.search base [derived] []

/-- The exception thrown with this header is caught by a clause on this type. -/
def canCatch (g : TypeGraph) (header type : Address) : Except Fault Bool :=
  match g.thrownType header with
  | none => .error (.unknownUnwindHeader header)
  | some t => .ok (g.isDerivedFrom t type)

end TypeGraph

end Unwinding

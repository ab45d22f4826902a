import Mathlib.Logic.Relation
import Unwinding.TypeGraph

/-!
# Derivation

The search of a type graph decides whether a path of base lists leads from one type to another. When
it passes over a type that it has seen, the bases of that type are seen or still to be looked at.
-/
namespace Unwinding

namespace TypeGraph
variable {g : TypeGraph} {goal t b : Address} {pending seen : List Address}

/-- A path of zero or more steps from types to their direct bases leads from `t` to `b`. -/
def Derives (g : TypeGraph) (t b : Address) : Prop :=
  Relation.ReflTransGen (fun t b => b ∈ g.basesOf t) t b

/-- The types seen are not the goal, and their bases are known to the search. -/
def Explored (g : TypeGraph) (goal : Address) (pending seen : List Address) : Prop :=
  ∀ t ∈ seen, t ≠ goal ∧ ∀ b ∈ g.basesOf t, b ∈ seen ∨ b ∈ pending

/-- Nothing leads out of types whose bases are all among them. -/
theorem not_derives_of_closed (h : g.Explored goal [] seen) (ht : t ∈ seen) :
    ¬ g.Derives t goal := by
  intro hd
  have hseen : ∀ b, g.Derives t b → b ∈ seen := by
    intro b hb
    induction hb with
    | refl => exact ht
    | tail _ hb ih => exact ((h _ ih).2 _ hb).resolve_right (by simp)
  exact (h goal (hseen goal hd)).1 rfl

/-- More types pending spoil nothing. -/
theorem Explored.of_subset {pending' : List Address} (h : g.Explored goal pending seen)
    (hp : pending ⊆ pending') : g.Explored goal pending' seen :=
  fun t ht => ⟨(h t ht).1, fun b hb => ((h t ht).2 b hb).imp_right fun hb => hp hb⟩

theorem Explored.skip (h : g.Explored goal (t :: pending) seen) (ht : t ∈ seen) :
    g.Explored goal pending seen := by
  refine fun s hs => ⟨(h s hs).1, fun b hb => ?_⟩
  rcases (h s hs).2 b hb with hb | hb
  · exact .inl hb
  · rcases List.mem_cons.1 hb with rfl | hb
    · exact .inl ht
    · exact .inr hb

/-- It does not matter where the bases of an opened type are put. -/
theorem Explored.open {next : List Address} (h : g.Explored goal (t :: pending) seen) (ht : t ≠ goal)
    (hnext : g.basesOf t ++ pending ⊆ next) : g.Explored goal next (t :: seen) := by
  intro s hs
  rcases List.mem_cons.1 hs with rfl | hs
  · exact ⟨ht, fun b hb => .inr (hnext (List.mem_append_left _ hb))⟩
  · refine ⟨(h s hs).1, fun b hb => ?_⟩
    rcases (h s hs).2 b hb with hb | hb
    · exact .inl (List.mem_cons_of_mem _ hb)
    · rcases List.mem_cons.1 hb with rfl | hb
      · exact .inl List.mem_cons_self
      · exact .inr (hnext (List.mem_append_right _ hb))

/-- A search that finds the goal has followed a path to it. -/
theorem derives_of_search (h : g.search goal pending seen = true) :
    ∃ t ∈ pending, g.Derives t goal := by
  induction pending, seen using search.induct g goal with
  | case1 seen => simp [search] at h
  | case2 pending seen => exact ⟨goal, List.mem_cons_self, .refl⟩
  | case3 t pending seen ht hs ih =>
    rw [search, if_neg ht, if_pos hs] at h
    obtain ⟨s, hs, hd⟩ := ih h
    exact ⟨s, List.mem_cons_of_mem _ hs, hd⟩
  | case4 t pending seen ht hs ih =>
    rw [search, if_neg ht, if_neg hs] at h
    obtain ⟨s, hs, hd⟩ := ih h
    rcases List.mem_append.1 hs with hs | hs
    · exact ⟨t, List.mem_cons_self, .head (List.mem_reverse.1 hs) hd⟩
    · exact ⟨s, List.mem_cons_of_mem _ hs, hd⟩

/-- A search that fails has seen all that its types derive from. -/
theorem not_derives_of_search (h : g.search goal pending seen = false)
    (he : g.Explored goal pending seen) (ht : t ∈ pending ∨ t ∈ seen) : ¬ g.Derives t goal := by
  induction pending, seen using search.induct g goal with
  | case1 seen => exact not_derives_of_closed he (ht.resolve_left (by simp))
  | case2 pending seen => simp [search] at h
  | case3 s pending seen hs hseen ih =>
    rw [search, if_neg hs, if_pos hseen] at h
    apply ih h (he.skip hseen)
    rcases ht with ht | ht
    · rcases List.mem_cons.1 ht with rfl | ht
      · exact .inr hseen
      · exact .inl ht
    · exact .inr ht
  | case4 s pending seen hs hseen ih =>
    rw [search, if_neg hs, if_neg hseen] at h
    apply ih h (he.open hs fun b hb => by simpa using hb)
    rcases ht with ht | ht
    · rcases List.mem_cons.1 ht with rfl | ht
      · exact .inr List.mem_cons_self
      · exact .inl (List.mem_append_right _ ht)
    · exact .inr (List.mem_cons_of_mem _ ht)

theorem isDerivedFrom_iff_derives : g.isDerivedFrom t b = true ↔ g.Derives t b := by
  constructor
  · intro h
    obtain ⟨s, hs, hd⟩ := derives_of_search h
    rwa [List.mem_singleton.1 hs] at hd
  · intro hd
    cases h : g.isDerivedFrom t b with
    | true => rfl
    | false =>
      have he : g.Explored b [t] [] := fun _ ht => absurd ht (by simp)
      exact absurd hd (not_derives_of_search h he (.inl List.mem_cons_self))

end TypeGraph

end Unwinding

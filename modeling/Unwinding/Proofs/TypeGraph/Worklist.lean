import Mathlib.Algebra.BigOperators.Group.List.Basic
import Mathlib.Algebra.Order.BigOperators.Group.List
import Mathlib.Algebra.Order.Ring.Nat
import Unwinding.Proofs.TypeGraph.Derivation

/-!
# The rounds of a search

A search works on a list of types that grows while it is worked off, on a graph that may lead back
to where it came from. Each round takes one type off the list, and a type adds its bases once at
most, so there are no more rounds than listed bases, and one for the start. This holds whichever
type a round takes, and so does the answer with which the search ends.
-/
namespace Unwinding

namespace TypeGraph

/-- The types that a search has still to look at, and those it has seen. -/
structure Worklist where
  pending : List Address
  seen : List Address

/-- A round that takes a pending type, wherever it stands, and goes on. What a type adds may be put
in any order. -/
inductive Round (g : TypeGraph) (goal : Address) : Worklist → Worklist → Prop
  | skip (before : List Address) {after seen t} (ht : t ≠ goal) (hs : t ∈ seen) :
      Round g goal ⟨before ++ t :: after, seen⟩ ⟨before ++ after, seen⟩
  | visit (before : List Address) {after next seen t} (ht : t ≠ goal) (hs : t ∉ seen)
      (hnext : next.Perm (g.basesOf t ++ (before ++ after))) :
      Round g goal ⟨before ++ t :: after, seen⟩ ⟨next, t :: seen⟩

/-- So many rounds, one after the other. -/
inductive Rounds (g : TypeGraph) (goal : Address) : Nat → Worklist → Worklist → Prop
  | start {w} : Rounds g goal 0 w w
  | round {n w w' w''} (h : g.Round goal w w') (hs : Rounds g goal n w' w'') :
      Rounds g goal (n + 1) w w''

/-- A type that has an entry lists another among its bases. -/
def Lists (g : TypeGraph) (t b : Address) : Prop := ∃ bs, g.bases.find? t = some bs ∧ b ∈ bs

/-- How many bases the entries list together, outside the types seen. -/
def listed (g : TypeGraph) (seen : List Address) : Nat :=
  ((g.bases.entries.filter (·.1 ∉ seen)).map (·.2.length)).sum

variable {g : TypeGraph} {goal start t b : Address} {w w' : Worklist} {n : Nat}

theorem mem_basesOf_iff : b ∈ g.basesOf t ↔ g.Lists t b := by
  rw [basesOf, Lists]
  cases g.bases.find? t <;> simp

theorem derives_iff_lists :
    g.Derives t b ↔ b = t ∨ Relation.TransGen g.Lists t b := by
  have hlists : (fun t b => b ∈ g.basesOf t) = g.Lists := by
    funext t b
    exact propext mem_basesOf_iff
  rw [Derives, hlists, Relation.reflTransGen_iff_eq_or_transGen]

/-! ## There are not many rounds -/

/-- What a type adds to the list is not listed outside the types seen any more. -/
theorem length_basesOf_add_listed_le {seen : List Address} (hs : t ∉ seen) :
    (g.basesOf t).length + g.listed (t :: seen) ≤ g.listed seen := by
  let l := g.bases.entries.filter (·.1 ∉ seen)
  have hrest : g.listed (t :: seen) = ((l.filter (·.1 ≠ t)).map (·.2.length)).sum := by
    simp [listed, l, List.filter_filter]
  have hsplit : ((l.filter (·.1 = t)).map (·.2.length)).sum +
      ((l.filter (·.1 ≠ t)).map (·.2.length)).sum = (l.map (·.2.length)).sum := by
    have hperm : (l.filter (·.1 = t) ++ l.filter (·.1 ≠ t)).Perm l := by
      simpa using List.filter_append_perm (fun e : Address × List Address => e.1 = t) l
    rw [← List.sum_append, ← List.map_append]
    exact (hperm.map _).sum_eq
  have hadded : (g.basesOf t).length ≤ ((l.filter (·.1 = t)).map (·.2.length)).sum := by
    rw [basesOf, Table.find?]
    cases he : g.bases.entries.find? (·.1 = t) with
    | none => simp
    | some e =>
      have hkey : e.1 = t := by simpa using List.find?_some he
      have hmem : e ∈ l.filter (·.1 = t) := by
        simp [l, hkey, hs, List.mem_of_find?_eq_some he]
      exact List.single_le_sum (by simp) _ (List.mem_map.2 ⟨e, hmem, rfl⟩)
  rw [hrest]
  change _ ≤ (l.map (·.2.length)).sum
  omega

/-- A round takes one from what is pending and what is listed together. -/
theorem Round.lt (h : g.Round goal w w') :
    w'.pending.length + g.listed w'.seen < w.pending.length + g.listed w.seen := by
  cases h with
  | skip before ht hs =>
    simp only [List.length_append, List.length_cons]
    omega
  | visit before ht hs hnext =>
    have hlength := hnext.length_eq
    have hlisted := length_basesOf_add_listed_le (g := g) hs
    simp only [List.length_append, List.length_cons] at hlength ⊢
    omega

theorem Rounds.le (h : g.Rounds goal n w w') : n ≤ w.pending.length + g.listed w.seen := by
  induction h with
  | start => exact Nat.zero_le _
  | round h _ ih => exact Nat.lt_of_le_of_lt ih h.lt

/-! ## What a search knows -/

/-- What a search that started at `start` knows: pending types are derived from, and nothing that
is derived from is missed. -/
structure Searches (g : TypeGraph) (goal start : Address) (w : Worklist) : Prop where
  derives : ∀ t ∈ w.pending, g.Derives start t
  explored : g.Explored goal w.pending w.seen
  started : start ∈ w.pending ∨ start ∈ w.seen

theorem searches_start : g.Searches goal start ⟨[start], []⟩ where
  derives := fun t ht => List.mem_singleton.1 ht ▸ .refl
  explored := fun t ht => absurd ht (by simp)
  started := .inl List.mem_cons_self

theorem Searches.round (h : g.Searches goal start w) (hround : g.Round goal w w') :
    g.Searches goal start w' := by
  cases hround with
  | @skip before after seen t ht hs =>
    have hfront : g.Explored goal (t :: (before ++ after)) seen :=
      h.explored.of_subset fun b hb => List.perm_middle.mem_iff.1 hb
    refine ⟨fun b hb => h.derives b (List.perm_middle.mem_iff.2 (List.mem_cons_of_mem t hb)),
      hfront.skip hs, ?_⟩
    rcases h.started with hstart | hstart
    · rcases List.mem_cons.1 (List.perm_middle.mem_iff.1 hstart) with rfl | hstart
      · exact .inr hs
      · exact .inl hstart
    · exact .inr hstart
  | @visit before after next seen t ht hs hnext =>
    have hfront : g.Explored goal (t :: (before ++ after)) seen :=
      h.explored.of_subset fun b hb => List.perm_middle.mem_iff.1 hb
    refine ⟨fun b hb => ?_, hfront.open ht fun b hb => hnext.mem_iff.2 hb, ?_⟩
    · rcases List.mem_append.1 (hnext.mem_iff.1 hb) with hb | hb
      · exact .tail (h.derives t (by simp)) hb
      · exact h.derives b (List.perm_middle.mem_iff.2 (List.mem_cons_of_mem t hb))
    · rcases h.started with hstart | hstart
      · rcases List.mem_cons.1 (List.perm_middle.mem_iff.1 hstart) with rfl | hstart
        · exact .inr List.mem_cons_self
        · exact .inl (hnext.mem_iff.2 (List.mem_append_right _ hstart))
      · exact .inr (List.mem_cons_of_mem t hstart)

theorem Searches.rounds (h : g.Searches goal start w) (hrounds : g.Rounds goal n w w') :
    g.Searches goal start w' := by
  induction hrounds with
  | start => exact h
  | round hround _ ih => exact ih (h.round hround)

theorem Searches.not_derives (h : g.Searches goal start w) (hnone : w.pending = []) :
    ¬ g.Derives start goal := by
  have hexplored := h.explored
  have hstarted := h.started
  rw [hnone] at hexplored hstarted
  exact not_derives_of_closed hexplored (hstarted.resolve_left (by simp))

/-- A search goes on with any pending type that is not the goal. -/
theorem exists_round {pending seen : List Address} (ht : t ∈ pending) (hne : t ≠ goal) :
    ∃ w, g.Round goal ⟨pending, seen⟩ w := by
  obtain ⟨before, after, rfl⟩ := List.append_of_mem ht
  by_cases hs : t ∈ seen
  · exact ⟨_, .skip before hne hs⟩
  · exact ⟨_, .visit before hne hs (.refl _)⟩

/-- The search of the graph makes rounds that take the first pending type, up to the goal or the end
of the list. -/
theorem exists_rounds_of_search (pending seen : List Address) :
    ∃ n w, g.Rounds goal n ⟨pending, seen⟩ w ∧
      if g.search goal pending seen then w.pending.head? = some goal else w.pending = [] := by
  induction pending, seen using search.induct g goal with
  | case1 seen => exact ⟨0, _, .start, by simp [search]⟩
  | case2 pending seen => exact ⟨0, _, .start, by simp [search]⟩
  | case3 t pending seen ht hs ih =>
    rw [search, if_neg ht, if_pos hs]
    obtain ⟨n, w, hrounds, hend⟩ := ih
    exact ⟨n + 1, w, .round (.skip [] ht hs) hrounds, hend⟩
  | case4 t pending seen ht hs ih =>
    rw [search, if_neg ht, if_neg hs]
    obtain ⟨n, w, hrounds, hend⟩ := ih
    have hnext : ((g.basesOf t).reverse ++ pending).Perm (g.basesOf t ++ ([] ++ pending)) :=
      (List.reverse_perm _).append_right _
    exact ⟨n + 1, w, .round (.visit [] ht hs hnext) hrounds, hend⟩

/-- On every graph a search from one type for another ends, and says whether the other is the same
or can be reached through lists of bases. However a search takes what is pending, it makes one round
at most for each listed base and one for the start, goes on until it comes upon the goal or nothing
is pending, and has the right answer then. -/
theorem isDerivedFrom_iff_reachable (g : TypeGraph) (derived base : Address) :
    let reachable := base = derived ∨ Relation.TransGen g.Lists derived base
    (g.isDerivedFrom derived base = true ↔ reachable) ∧
    (∃ n w, g.Rounds base n ⟨[derived], []⟩ w ∧
      if g.isDerivedFrom derived base then w.pending.head? = some base else w.pending = []) ∧
    ∀ n w, g.Rounds base n ⟨[derived], []⟩ w →
      n ≤ (g.bases.entries.map (·.2.length)).sum + 1 ∧
      (∀ t ∈ w.pending, t = base ∨ ∃ w', g.Round base w w') ∧
      (base ∈ w.pending → reachable) ∧ (w.pending = [] → ¬ reachable) := by
  intro reachable
  have hreachable : g.Derives derived base ↔ reachable := derives_iff_lists
  refine ⟨isDerivedFrom_iff_derives.trans hreachable, exists_rounds_of_search _ _, ?_⟩
  intro n w hrounds
  have hsearches : g.Searches base derived w := searches_start.rounds hrounds
  rw [← hreachable]
  refine ⟨?_, fun t ht => ?_, hsearches.derives base, hsearches.not_derives⟩
  · have hle := hrounds.le
    simp only [listed, List.not_mem_nil, not_false_eq_true, decide_true, List.filter_true,
      List.length_singleton] at hle
    omega
  · by_cases hne : t = base
    · exact .inl hne
    · exact .inr (exists_round ht hne)

end TypeGraph

end Unwinding

import Catalogue.Relational.Limits
import Mathlib.Algebra.Order.BigOperators.Group.List
import Mathlib.Algebra.Order.Group.Nat

/-!
Statements within the limits of an engine. A statement that asks for less stays within them, and the
bounds of a page have no part in it.
-/

namespace Catalogue.Relational

section Joined

variable {l l' : List Nat}

theorem le_joinDepth_left (joined depth : Nat) : joined ≤ joinDepth joined depth :=
  (Nat.le_max_left joined depth).trans (Nat.le_succ _)

theorem le_joinDepth_right (joined depth : Nat) : depth ≤ joinDepth joined depth :=
  (Nat.le_max_right joined depth).trans (Nat.le_succ _)

theorem joinDepth_le_joinDepth {joined joined' : Nat} (h : joined ≤ joined') (depth : Nat) :
    joinDepth joined depth ≤ joinDepth joined' depth := by
  unfold joinDepth
  omega

theorem foldl_joinDepth_le_of_sublist (h : l.Sublist l') {a b : Nat} (hab : a ≤ b) :
    l.foldl joinDepth a ≤ l'.foldl joinDepth b := by
  induction h generalizing a b with
  | slnil => exact hab
  | cons d _ ih => exact ih (hab.trans (le_joinDepth_left b d))
  | cons_cons d _ ih => exact ih (joinDepth_le_joinDepth hab d)

theorem joinedDepth_le_of_sublist (h : l.Sublist l') : joinedDepth l ≤ joinedDepth l' := by
  cases h with
  | slnil => exact Nat.le_refl _
  | cons_cons d h => exact foldl_joinDepth_le_of_sublist h (Nat.le_refl _)
  | cons d h =>
      cases l with
      | nil => exact Nat.zero_le _
      | cons first rest =>
          -- The first depth can as well be joined to the one that is left out.
          have hfirst : joinedDepth (first :: rest) ≤ (first :: rest).foldl joinDepth d :=
            foldl_joinDepth_le_of_sublist (List.Sublist.refl rest) (le_joinDepth_right d first)
          exact hfirst.trans (foldl_joinDepth_le_of_sublist h (Nat.le_refl _))

theorem foldl_joinDepth_le {m : Nat} (h : ∀ d ∈ l, d ≤ m) {joined n : Nat}
    (hjoined : joined ≤ m + n) :
    l.foldl joinDepth joined ≤ m + n + l.length := by
  induction l generalizing joined n with
  | nil => exact hjoined
  | cons d rest ih =>
      obtain ⟨hd, hrest⟩ := List.forall_mem_cons.mp h
      have hnext : joinDepth joined d ≤ m + (n + 1) := by
        unfold joinDepth
        omega
      have hle := ih hrest hnext
      rw [List.foldl_cons, List.length_cons]
      omega

/-- Each further expression makes the whole one a level deeper at most. -/
theorem joinedDepth_le {m : Nat} (h : ∀ d ∈ l, d ≤ m) : joinedDepth l ≤ m + (l.length - 1) := by
  cases l with
  | nil => exact Nat.zero_le _
  | cons first rest =>
      obtain ⟨hfirst, hrest⟩ := List.forall_mem_cons.mp h
      have hle : first ≤ m + 0 := hfirst
      exact foldl_joinDepth_le hrest hle

end Joined

theorem foldl_joinDepth_replicate (n d k : Nat) :
    (List.replicate n d).foldl joinDepth (d + k) = d + k + n := by
  induction n generalizing k with
  | zero => rfl
  | succ n ih =>
      have hnext : joinDepth (d + k) d = d + (k + 1) := by
        unfold joinDepth
        omega
      rw [List.replicate_succ, List.foldl_cons, hnext, ih]
      omega

/-- Alternatives and conditions of one depth each make the whole one a level deeper. -/
theorem joinedDepth_replicate (n d : Nat) : joinedDepth (List.replicate (n + 1) d) = d + n :=
  foldl_joinDepth_replicate n d 0

namespace Statement

theorem isWithinLimits_iff {s : Statement} : s.isWithinLimits = true ↔
    s.depth ≤ maxDepth ∧ s.placeholders ≤ maxParameters ∧ s.order.length ≤ maxSortKeys := by
  simp [isWithinLimits, and_assoc]

section Fewer

variable {conditions conditions' : List Condition} (h : conditions.Sublist conditions')
include h

theorem depth_count_le_of_sublist : (count conditions).depth ≤ (count conditions').depth := by
  have hjoined := joinedDepth_le_of_sublist (h.map Condition.depth)
  unfold depth
  refine Nat.add_le_add hjoined ?_
  cases hany : (count conditions).conditions.any (·.any Atom.isSubquery) with
  | false => exact Nat.zero_le _
  | true =>
      obtain ⟨c, hc, hsubquery⟩ := List.any_eq_true.mp hany
      have hany' : (count conditions').conditions.any (·.any Atom.isSubquery) = true :=
        List.any_eq_true.mpr ⟨c, h.subset hc, hsubquery⟩
      rw [hany']

theorem placeholders_count_le_of_sublist :
    (count conditions).placeholders ≤ (count conditions').placeholders := by
  change conditionPlaceholders conditions ≤ conditionPlaceholders conditions'
  induction h with
  | slnil => exact le_rfl
  | cons c _ ih => exact ih.trans (Nat.le_add_left _ _)
  | cons_cons c _ ih => exact Nat.add_le_add_left ih _

theorem isWithinLimits_page_of_sublist {s : Selection} (hs : s.conditions = conditions')
    (limited : (page s).isWithinLimits = true) :
    (page { s with conditions }).isWithinLimits = true := by
  subst hs
  obtain ⟨hdepth, hplaceholders, horder⟩ := isWithinLimits_iff.mp limited
  exact isWithinLimits_iff.mpr ⟨(depth_count_le_of_sublist h).trans hdepth,
    (Nat.add_le_add_right (placeholders_count_le_of_sublist h) _).trans hplaceholders, horder⟩

end Fewer

theorem isWithinLimits_count {s : Selection} (limited : (page s).isWithinLimits = true) :
    (count s.conditions).isWithinLimits = true := by
  obtain ⟨hdepth, hplaceholders, -⟩ := isWithinLimits_iff.mp limited
  exact isWithinLimits_iff.mpr
    ⟨hdepth, (Nat.le_add_right _ _).trans hplaceholders, Nat.zero_le _⟩

theorem length_pageParameters_le (limit offset : Option Int) :
    (pageParameters limit offset).length ≤ 2 := by
  unfold pageParameters
  split <;> simp

theorem isWithinLimits_of_few {s : Selection} (few : s.conditions.length ≤ 990)
    (plain : ∀ c ∈ s.conditions, c.depth ≤ 4)
    (placeholders : conditionPlaceholders s.conditions ≤ 30000)
    (ordered : s.order.length ≤ maxSortKeys) : (page s).isWithinLimits = true := by
  have hjoined : joinedDepth (s.conditions.map Condition.depth) ≤ 4 + (s.conditions.length - 1) := by
    simpa using joinedDepth_le (List.forall_mem_map.mpr plain)
  have hsubquery : (if s.conditions.any (·.any Atom.isSubquery) then 2 else 0) ≤ 2 := by
    split <;> decide
  have hpage := length_pageParameters_le s.limit s.offset
  refine isWithinLimits_iff.mpr ⟨?_, ?_, ordered⟩
  · change joinedDepth (s.conditions.map Condition.depth) +
      (if s.conditions.any (·.any Atom.isSubquery) then 2 else 0) ≤ 1000
    omega
  · change conditionPlaceholders s.conditions +
      (pageParameters s.limit s.offset).length ≤ 32766
    omega

end Statement

end Catalogue.Relational

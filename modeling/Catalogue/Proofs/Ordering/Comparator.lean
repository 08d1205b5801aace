import Catalogue.Query.Predicate

/-!
Orders made of several orders in turn, and what sorting by one does to a list: where no two elements
tie, the sorted list depends on the elements alone.
-/

namespace Catalogue.Sorting

open Std (TransCmp OrientedCmp)

variable {α β : Type}

def inTurn : List (α → α → Ordering) → α → α → Ordering
  | [], _, _ => .eq
  | first :: rest, a, b => (first a b).then (inTurn rest a b)

theorem transCmp_inTurn {orders : List (α → α → Ordering)} (h : ∀ cmp ∈ orders, TransCmp cmp) :
    TransCmp (inTurn orders) := by
  induction orders with
  | nil =>
      exact { eq_swap := rfl, isLE_trans := fun _ _ => rfl }
  | cons first rest ih =>
      have hfirst : TransCmp first := h first List.mem_cons_self
      have hrest : TransCmp (inTurn rest) := ih fun cmp hc => h cmp (List.mem_cons_of_mem _ hc)
      exact inferInstanceAs (TransCmp (compareLex first (inTurn rest)))

theorem inTurn_eq_eq_iff {orders : List (α → α → Ordering)} {a b : α} :
    inTurn orders a b = .eq ↔ ∀ cmp ∈ orders, cmp a b = .eq := by
  induction orders with
  | nil => simp [inTurn]
  | cons first rest ih => simp [inTurn, Ordering.then_eq_eq, ih]

theorem transCmp_comap (f : α → β) (cmp : β → β → Ordering) [TransCmp cmp] :
    TransCmp fun a b => cmp (f a) (f b) where
  eq_swap := OrientedCmp.eq_swap
  isLE_trans {a b c} := @TransCmp.isLE_trans _ cmp _ (f a) (f b) (f c)

def directed (d : Direction) (o : Ordering) : Ordering :=
  match d with
  | .ascending => o
  | .descending => o.swap

@[simp] theorem directed_eq_eq_iff {d : Direction} {o : Ordering} :
    directed d o = .eq ↔ o = .eq := by
  cases d <;> cases o <;> simp [directed]

theorem transCmp_directed (d : Direction) (cmp : α → α → Ordering) [TransCmp cmp] :
    TransCmp fun a b => directed d (cmp a b) := by
  cases d with
  | ascending => exact inferInstanceAs (TransCmp cmp)
  | descending =>
      have hswap : (fun a b => directed .descending (cmp a b)) = fun a b => cmp b a := by
        funext a b
        exact (@OrientedCmp.eq_swap _ cmp _ b a).symm
      rw [hswap]
      infer_instance

/-- On the elements of a list the comparison is as good as a transitive one. -/
def OrdersOn (cmp : α → α → Ordering) (l : List α) : Prop :=
  ∃ total : α → α → Ordering, TransCmp total ∧ ∀ a ∈ l, ∀ b ∈ l, cmp a b = total a b

def atOrBefore (cmp : α → α → Ordering) (a b : α) : Bool :=
  cmp a b != .gt

theorem atOrBefore_eq_isLE (cmp : α → α → Ordering) (a b : α) :
    atOrBefore cmp a b = (cmp a b).isLE := by
  unfold atOrBefore
  cases cmp a b <;> rfl

theorem filter_append_eq (p : α → Bool) (front behind : List α) (hfront : ∀ b ∈ front, p b = true)
    (hbehind : ∀ b ∈ behind, p b = false) :
    (front ++ behind).filter p = front ∧ (front ++ behind).filter (fun b => !p b) = behind := by
  constructor
  · rw [List.filter_append, List.filter_eq_self.mpr hfront, List.filter_eq_nil_iff.mpr,
      List.append_nil]
    intro b hb
    simp [hbehind b hb]
  · rw [List.filter_append, List.filter_eq_nil_iff.mpr, List.nil_append, List.filter_eq_self]
    · intro b hb
      simp [hbehind b hb]
    · intro b hb
      simp [hfront b hb]

section Transitive

variable (total : α → α → Ordering) [TransCmp total]

theorem atOrBefore_trans (a b c : α) (hab : atOrBefore total a b = true)
    (hbc : atOrBefore total b c = true) : atOrBefore total a c = true := by
  rw [atOrBefore_eq_isLE] at *
  exact TransCmp.isLE_trans hab hbc

theorem atOrBefore_total (a b : α) : (atOrBefore total a b || atOrBefore total b a) = true := by
  rw [atOrBefore_eq_isLE, atOrBefore_eq_isLE, @OrientedCmp.eq_swap _ total _ b a]
  cases total a b <;> rfl

theorem atOrBefore_of_mergeSort_eq {l front behind : List α} {a : α}
    (h : l.mergeSort (atOrBefore total) = front ++ a :: behind) :
    ∀ b ∈ behind, atOrBefore total a b = true := by
  have hsorted := List.pairwise_mergeSort (atOrBefore_trans total) (atOrBefore_total total) l
  rw [h] at hsorted
  exact (List.pairwise_cons.mp (List.pairwise_append.mp hsorted).2.1).1

theorem filter_mergeSort (p : α → Bool) (l : List α) :
    (l.mergeSort (atOrBefore total)).filter p = (l.filter p).mergeSort (atOrBefore total) := by
  induction l with
  | nil => simp
  | cons a l ih =>
      obtain ⟨front, behind, hcons, htail, hfront⟩ :=
        List.mergeSort_cons (atOrBefore_trans total) (atOrBefore_total total) a l
      rw [htail, List.filter_append] at ih
      cases ha : p a with
      | false =>
          have hdropped : ¬p a = true := by simp [ha]
          rw [hcons, List.filter_append, List.filter_cons_of_neg hdropped,
            List.filter_cons_of_neg hdropped, ih]
      | true =>
          obtain ⟨front', behind', hcons', htail', hfront'⟩ :=
            List.mergeSort_cons (atOrBefore_trans total) (atOrBefore_total total) a (l.filter p)
          have hbehind := atOrBefore_of_mergeSort_eq total hcons
          have hbehind' := atOrBefore_of_mergeSort_eq total hcons'
          -- Either way `a` stands behind just those of the other elements that are before it.
          have hparts := filter_append_eq (fun b => !atOrBefore total a b) (front.filter p)
            (behind.filter p) (fun b hb => hfront b (List.mem_filter.mp hb).1)
            (fun b hb => by simpa using hbehind b (List.mem_filter.mp hb).1)
          have hparts' := filter_append_eq (fun b => !atOrBefore total a b) front' behind' hfront'
            (fun b hb => by simpa using hbehind' b hb)
          rw [ih, htail', hparts'.1, hparts'.2] at hparts
          rw [hcons, List.filter_append, List.filter_cons_of_pos ha, List.filter_cons_of_pos ha,
            hcons', hparts.1, hparts.2]

end Transitive

theorem mergeSort_pair (le : α → α → Bool) (a b : α) :
    [a, b].mergeSort le = if le a b then [a, b] else [b, a] := by
  simp [List.mergeSort, List.MergeSort.Internal.splitInTwo, List.merge]

namespace OrdersOn

variable {cmp : α → α → Ordering} {l l' : List α}

theorem subset (h : OrdersOn cmp l) (hl : l' ⊆ l) : OrdersOn cmp l' := by
  obtain ⟨total, htotal, same⟩ := h
  exact ⟨total, htotal, fun a ha b hb => same a (hl ha) b (hl hb)⟩

/-- Sorting by the comparison is sorting by a transitive one. -/
theorem exists_mergeSort_eq (h : OrdersOn cmp l) :
    ∃ total : α → α → Ordering, TransCmp total ∧ (∀ a ∈ l, ∀ b ∈ l, cmp a b = total a b) ∧
      ∀ l' ⊆ l, l'.mergeSort (atOrBefore cmp) = l'.mergeSort (atOrBefore total) := by
  obtain ⟨total, htotal, same⟩ := h
  refine ⟨total, htotal, same, ?_⟩
  intro l' hl'
  simpa using List.map_mergeSort (f := id) (l := l') (r := atOrBefore cmp) (s := atOrBefore total)
    fun a ha b hb => by simp [atOrBefore, same a (hl' ha) b (hl' hb)]

theorem pairwise_mergeSort (h : OrdersOn cmp l) :
    (l.mergeSort (atOrBefore cmp)).Pairwise fun a b => cmp a b ≠ .gt := by
  obtain ⟨total, htotal, same, hsort⟩ := h.exists_mergeSort_eq
  have hsorted : (l.mergeSort (atOrBefore total)).Pairwise (atOrBefore total · ·) :=
    List.pairwise_mergeSort (atOrBefore_trans total) (atOrBefore_total total) l
  rw [hsort l (List.Subset.refl l)]
  refine hsorted.imp_of_mem ?_
  intro a b ha hb hab
  rw [same a (by simpa using ha) b (by simpa using hb)]
  simpa [atOrBefore] using hab

theorem filter_mergeSort_eq (h : OrdersOn cmp l) (p : α → Bool) :
    (l.mergeSort (atOrBefore cmp)).filter p = (l.filter p).mergeSort (atOrBefore cmp) := by
  obtain ⟨total, htotal, -, hsort⟩ := h.exists_mergeSort_eq
  rw [hsort l (List.Subset.refl l), hsort _ List.filter_sublist.subset]
  exact filter_mergeSort total p l

section Strict

variable (strict : l.Pairwise fun a b => cmp a b ≠ .eq)
include strict

/-- Where no two places hold a tie, elements that tie are the same. -/
theorem eq_of_tie (h : OrdersOn cmp l) : ∀ a ∈ l, ∀ b ∈ l, cmp a b = .eq → a = b := by
  obtain ⟨total, htotal, same⟩ := h
  induction strict with
  | nil => simp
  | cons hfirst _ ih =>
      rename_i c l _
      have ih := ih fun a ha b hb => same a (.tail _ ha) b (.tail _ hb)
      intro a ha b hb hab
      cases ha with
      | head =>
          cases hb with
          | head => rfl
          | tail _ hb => exact absurd hab (hfirst b hb)
      | tail _ ha =>
          cases hb with
          | head =>
              rw [same a (.tail _ ha) c (.head _), @OrientedCmp.eq_comm _ total,
                ← same c (.head _) a (.tail _ ha)] at hab
              exact absurd hab (hfirst a ha)
          | tail _ hb => exact ih a ha b hb hab

theorem nodup (h : OrdersOn cmp l) : l.Nodup := by
  obtain ⟨total, htotal, same⟩ := h
  refine strict.imp_of_mem ?_
  rintro a b ha hb hab rfl
  rw [same a ha a ha] at hab
  exact hab Std.ReflCmp.compare_self

theorem pairwise_lt_mergeSort (h : OrdersOn cmp l) :
    (l.mergeSort (atOrBefore cmp)).Pairwise fun a b => cmp a b = .lt := by
  have hnodup : (l.mergeSort (atOrBefore cmp)).Nodup :=
    (List.mergeSort_perm l _).nodup_iff.mpr (h.nodup strict)
  refine (h.pairwise_mergeSort.and hnodup).imp_of_mem ?_
  rintro a b ha hb ⟨hle, hne⟩
  have htie := h.eq_of_tie strict a (by simpa using ha) b (by simpa using hb)
  cases hab : cmp a b with
  | lt => rfl
  | eq => exact absurd (htie hab) hne
  | gt => exact absurd hab hle

/-- A sorted list without ties does not depend on how the elements stood before. -/
theorem mergeSort_eq_of_perm (h : OrdersOn cmp l) (perm : l.Perm l') :
    l.mergeSort (atOrBefore cmp) = l'.mergeSort (atOrBefore cmp) := by
  have hl := h.pairwise_mergeSort
  have hl' := (h.subset perm.symm.subset).pairwise_mergeSort
  have hperm : (l.mergeSort (atOrBefore cmp)).Perm (l'.mergeSort (atOrBefore cmp)) :=
    (List.mergeSort_perm l _).trans (perm.trans (List.mergeSort_perm l' _).symm)
  refine List.Perm.eq_of_pairwise ?_ hl hl' hperm
  intro a b ha hb hab hba
  have ha : a ∈ l := by simpa using ha
  have hb : b ∈ l := perm.symm.subset (by simpa using hb)
  apply h.eq_of_tie strict a ha b hb
  obtain ⟨total, htotal, same⟩ := h
  rw [same b hb a ha, @OrientedCmp.eq_swap _ total] at hba
  rw [same a ha b hb] at hab ⊢
  revert hab hba
  cases total a b <;> simp

end Strict

end OrdersOn

end Catalogue.Sorting

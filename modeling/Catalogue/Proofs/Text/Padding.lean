import Catalogue.Text.Numeral
import Mathlib.Algebra.Group.Nat.Defs

/-!
Numerals of a fixed width. Side by side they compare as the numbers do.
-/

namespace Catalogue

theorem forall_mem_of_all {p : Char → Prop} [DecidablePred p] {s : List Char}
    (h : s.all (fun c => decide (p c)) = true) : ∀ c ∈ s, p c :=
  fun c hc => of_decide_eq_true (List.all_eq_true.mp h c hc)

abbrev compareChars : List Char → List Char → Ordering :=
  List.compareLex compare

theorem compareChars_cons_self (c : Char) (s t : List Char) :
    compareChars (c :: s) (c :: t) = compareChars s t := by
  have hself : compare c c = .eq := Std.ReflCmp.compare_self
  rw [compareChars, List.compareLex_cons_cons, hself]
  rfl

theorem compareChars_eq_lt_iff {s t : List Char} : compareChars s t = .lt ↔ s < t := by
  induction s generalizing t with
  | nil =>
      cases t with
      | nil => simp [compareChars, List.compareLex_nil_nil]
      | cons d t => simp [compareChars, List.compareLex_nil_cons]
  | cons c s ih =>
      cases t with
      | nil => simp [compareChars, List.compareLex_cons_nil]
      | cons d t =>
          have hlt : compare c d = .lt ↔ c < d := compareOfLessAndEq_eq_lt
          have heq : compare c d = .eq ↔ c = d := Std.LawfulEqCmp.compare_eq_iff_eq
          rw [compareChars, List.compareLex_cons_cons, List.cons_lt_cons_iff, ← hlt, ← heq, ← ih]
          cases compare c d <;> simp

theorem compareChars_eq_eq_iff {s t : List Char} : compareChars s t = .eq ↔ s = t := by
  induction s generalizing t with
  | nil => cases t <;> simp [compareChars, List.compareLex_nil_nil, List.compareLex_nil_cons]
  | cons c s ih =>
      cases t with
      | nil => simp [compareChars, List.compareLex_cons_nil]
      | cons d t =>
          have heq : compare c d = .eq ↔ c = d := Std.LawfulEqCmp.compare_eq_iff_eq
          rw [compareChars, List.compareLex_cons_cons, Ordering.then_eq_eq, heq, ih,
            List.cons.injEq]

theorem compare_eq_compareChars (s t : String) : compare s t = compareChars s.toList t.toList := by
  have hlt : s < t ↔ s.toList < t.toList := Iff.rfl
  have heq : s = t ↔ s.toList = t.toList := String.toList_inj.symm
  change compareOfLessAndEq s t = _
  unfold compareOfLessAndEq
  cases h : compareChars s.toList t.toList with
  | lt => simp [hlt.mpr (compareChars_eq_lt_iff.mp h)]
  | eq =>
      have hst : s = t := heq.mpr (compareChars_eq_eq_iff.mp h)
      simp [hst]
  | gt =>
      have hnlt : ¬s < t := by rw [hlt, ← compareChars_eq_lt_iff, h]; simp
      have hne : s ≠ t := by rw [ne_eq, heq, ← compareChars_eq_eq_iff, h]; simp
      simp [hnlt, hne]

/-- Numbers with a remainder below `k` compare by quotient first. -/
theorem compare_mul_add {k b d : Nat} (hb : b < k) (hd : d < k) (a c : Nat) :
    compare (a * k + b) (c * k + d) = (compare a c).then (compare b d) := by
  rcases Nat.lt_trichotomy a c with h | rfl | h
  · have hmul : (a + 1) * k ≤ c * k := Nat.mul_le_mul_right k h
    rw [Nat.compare_eq_lt.mpr h, Nat.compare_eq_lt.mpr (by rw [Nat.add_mul] at hmul; omega)]
    rfl
  · rw [Nat.compare_eq_eq.mpr (rfl : a = a)]
    rcases Nat.lt_trichotomy b d with h | rfl | h
    · rw [Nat.compare_eq_lt.mpr h, Nat.compare_eq_lt.mpr (by omega)]
      rfl
    · rw [Nat.compare_eq_eq.mpr rfl, Nat.compare_eq_eq.mpr rfl]
      rfl
    · rw [Nat.compare_eq_gt.mpr h, Nat.compare_eq_gt.mpr (by omega)]
      rfl
  · have hmul : (c + 1) * k ≤ a * k := Nat.mul_le_mul_right k h
    rw [Nat.compare_eq_gt.mpr h, Nat.compare_eq_gt.mpr (by rw [Nat.add_mul] at hmul; omega)]
    rfl

namespace Text

/-- The numeral of exactly `width` digits, for a number that has no more. -/
def fixed : (width : Nat) → (n : Nat) → List Char
  | 0, _ => []
  | width + 1, n => fixed width (n / 10) ++ [Nat.digitChar (n % 10)]

theorem fixed_zero (width : Nat) : fixed width 0 = List.replicate width '0' := by
  induction width with
  | zero => rfl
  | succ width ih =>
      rw [fixed, List.replicate_succ', ← ih]
      rfl

theorem padded_eq_fixed {width n : Nat} (hw : 0 < width) (h : n < 10 ^ width) :
    padded width n = fixed width n := by
  induction width generalizing n with
  | zero => omega
  | succ width ih =>
      unfold padded
      rw [decimal, fixed]
      split
      · rename_i hn
        have hdiv : n / 10 = 0 := by omega
        have hmod : n % 10 = n := by omega
        simp [hdiv, hmod, fixed_zero]
      · rename_i hn
        have hpos : 0 < width := by
          cases width with
          | zero => simp at h; omega
          | succ width => omega
        have hdiv : n / 10 < 10 ^ width := by
          rw [Nat.pow_succ] at h
          omega
        rw [← ih hpos hdiv, padded]
        simp

theorem length_decimal_le {width n : Nat} (hw : 0 < width) (h : n < 10 ^ width) :
    (decimal n).length ≤ width := by
  induction width generalizing n with
  | zero => omega
  | succ width ih =>
      rw [decimal]
      split
      · simp
      · rename_i hn
        rw [Nat.pow_succ] at h
        cases width with
        | zero => simp at h; omega
        | succ width =>
            have hdiv := ih (by omega) (by omega : n / 10 < 10 ^ (width + 1))
            simpa using hdiv

theorem ofDigits_lt {ds : List Nat} (h : ∀ d ∈ ds, d < 10) : ofDigits ds < 10 ^ ds.length := by
  suffices ∀ n, ds.foldl (fun n d => 10 * n + d) n < (n + 1) * 10 ^ ds.length by
    simpa [ofDigits] using this 0
  induction ds with
  | nil => simp
  | cons d rest ih =>
      intro n
      obtain ⟨hd, hrest⟩ := List.forall_mem_cons.mp h
      have hmul : (10 * n + d + 1) * 10 ^ rest.length ≤ (n + 1) * 10 * 10 ^ rest.length :=
        Nat.mul_le_mul_right _ (by omega)
      rw [List.foldl_cons, List.length_cons, Nat.pow_succ', ← Nat.mul_assoc]
      exact Nat.lt_of_lt_of_le (ih hrest _) hmul

theorem isSome_signed? {n : Int} (h : n.natAbs < 10 ^ maxDigits) : (signed? n).isSome = true := by
  have hlength : (decimal n.natAbs).length ≤ maxDigits := length_decimal_le (by decide) h
  unfold signed?
  rw [if_pos hlength]
  rfl

theorem compare_digitChar :
    ∀ a < 10, ∀ b < 10, compare (Nat.digitChar a) (Nat.digitChar b) = compare a b := by
  decide

/-- In front of texts, numerals of one width decide as their numbers do. -/
theorem compareChars_fixed {width m n : Nat} (hm : m < 10 ^ width) (hn : n < 10 ^ width)
    (s t : List Char) :
    compareChars (fixed width m ++ s) (fixed width n ++ t) =
      (compare m n).then (compareChars s t) := by
  induction width generalizing m n s t with
  | zero =>
      have hmn : m = n := by simp at hm hn; omega
      rw [hmn, Nat.compare_eq_eq.mpr rfl]
      rfl
  | succ width ih =>
      rw [Nat.pow_succ] at hm hn
      have hdecompose := compare_mul_add (Nat.mod_lt m (by decide : 0 < 10))
        (Nat.mod_lt n (by decide : 0 < 10)) (m / 10) (n / 10)
      rw [Nat.div_add_mod', Nat.div_add_mod'] at hdecompose
      rw [fixed, fixed, List.append_assoc, List.append_assoc, ih (by omega) (by omega),
        List.singleton_append, List.singleton_append, compareChars, List.compareLex_cons_cons,
        compare_digitChar _ (Nat.mod_lt m (by decide)) _ (Nat.mod_lt n (by decide)), hdecompose,
        Ordering.then_assoc]

@[simp] theorem length_fixed (width n : Nat) : (fixed width n).length = width := by
  induction width generalizing n with
  | zero => rfl
  | succ width ih => simp [fixed, ih]

theorem getLast?_fixed (width n : Nat) :
    (fixed (width + 1) n).getLast? = some (Nat.digitChar (n % 10)) := by
  simp [fixed]

theorem isDigit_of_mem_fixed {width n : Nat} {c : Char} (h : c ∈ fixed width n) :
    c.isDigit = true := by
  induction width generalizing n with
  | zero => cases h
  | succ width ih =>
      rcases List.mem_append.mp h with h | h
      · exact ih h
      · rw [List.mem_singleton.mp h, Nat.isDigit_digitChar]
        simpa using Nat.mod_lt n (by decide)

theorem dropSeparators?_of_digits {s : List Char} (h : ∀ c ∈ s, c.isDigit = true) :
    dropSeparators? s = some s := by
  have hne : ∀ c ∈ s, c ≠ '_' := by
    rintro c hc rfl
    exact absurd (h _ hc) (by decide)
  clear h
  induction s with
  | nil => rfl
  | cons c rest ih =>
      have ih := ih fun d hd => hne d (.tail _ hd)
      have hc : c ≠ '_' := hne c (.head _)
      cases rest with
      | nil => simp [dropSeparators?]
      | cons d rest =>
          have hd := hne d (.tail _ (.head _))
          simp [dropSeparators?, hd, ih]

theorem decimalValue?_digitChar : ∀ k < 10, decimalValue? (Nat.digitChar k) = some k := by
  decide

theorem digitValues?_fixed (width n : Nat) :
    ∃ ds, digitValues? (fixed width n) = some ds ∧ ds.length = width ∧
      ofDigits ds = n % 10 ^ width := by
  induction width generalizing n with
  | zero => exact ⟨[], rfl, rfl, by simp [ofDigits, Nat.mod_one]⟩
  | succ width ih =>
      obtain ⟨ds, hds, hlength, hvalue⟩ := ih (n / 10)
      refine ⟨ds ++ [n % 10], ?_, by simp [hlength], ?_⟩
      · unfold digitValues? at hds ⊢
        rw [fixed, List.mapM_append, hds, List.mapM_cons,
          decimalValue?_digitChar _ (Nat.mod_lt n (by decide))]
        rfl
      · have hsplit : n % 10 ^ (width + 1) = n % 10 + 10 * (n / 10 % 10 ^ width) := by
          rw [Nat.pow_succ, Nat.mul_comm, Nat.mod_mul]
        unfold ofDigits at hvalue ⊢
        rw [List.foldl_append, hvalue, hsplit]
        simp only [List.foldl_cons, List.foldl_nil]
        omega

theorem natural?_fixed {width n : Nat} (hw : 0 < width) (hmax : width ≤ maxDigits)
    (h : n < 10 ^ width) : natural? (fixed width n) = some n := by
  obtain ⟨ds, hds, hlength, hvalue⟩ := digitValues?_fixed width n
  rw [Nat.mod_eq_of_lt h] at hvalue
  have hne : ds ≠ [] := by
    rintro rfl
    simp at hlength
    omega
  unfold natural?
  rw [dropSeparators?_of_digits fun c hc => isDigit_of_mem_fixed hc]
  simp [hds, hne, hvalue, hlength, hmax]

end Text

end Catalogue

import Catalogue.Proofs.Text.Padding
import Mathlib.Data.List.TakeWhile

/-!
Texts without blanks around them, and the texts that write an integer: digits with single underscores
between them, perhaps after a sign.
-/

namespace Catalogue.Text

/-- Neither end of a text is a character in `p`. -/
structure IsTrimmed (p : Char → Bool) (s : List Char) : Prop where
  head : ∀ c ∈ s.head?, p c = false
  last : ∀ c ∈ s.getLast?, p c = false

section Trim

variable {p : Char → Bool} {s : List Char}

theorem IsTrimmed.trimBy_eq (h : IsTrimmed p s) : trimBy p s = s := by
  have keep : ∀ {t : List Char}, (∀ c ∈ t.head?, p c = false) → t.dropWhile p = t := by
    intro t ht
    cases t with
    | nil => rfl
    | cons c t => simp [ht c rfl]
  unfold trimBy
  rw [keep h.head, keep (by simpa using h.last), List.reverse_reverse]

theorem IsTrimmed.mono {q : Char → Bool} (h : IsTrimmed p s) (hq : ∀ c, p c = false → q c = false) :
    IsTrimmed q s :=
  ⟨fun c hc => hq c (h.head c hc), fun c hc => hq c (h.last c hc)⟩

theorem head?_dropWhile_eq_false : ∀ c ∈ (s.dropWhile p).head?, p c = false := by
  intro c hc
  have hnot := List.head?_dropWhile_not p s
  rw [Option.mem_def.mp hc] at hnot
  simpa using hnot

theorem trimBy_append {left right : List Char} (hleft : ∀ c ∈ left, p c = true)
    (hright : ∀ c ∈ right, p c = true) : trimBy p (left ++ s ++ right) = trimBy p s := by
  unfold trimBy
  rw [List.append_assoc, List.dropWhile_append_of_pos hleft, List.dropWhile_append]
  split
  · rename_i hs
    rw [List.isEmpty_iff.mp hs, List.dropWhile_eq_nil_iff.mpr hright]
  · rw [List.reverse_append, List.dropWhile_append_of_pos (by simpa using hright)]

theorem exists_trimBy (p : Char → Bool) (s : List Char) :
    ∃ left right, s = left ++ trimBy p s ++ right ∧ (∀ c ∈ left, p c = true) ∧
      ∀ c ∈ right, p c = true := by
  have hlast : s.dropWhile p =
      trimBy p s ++ ((s.dropWhile p).reverse.takeWhile p).reverse := by
    rw [trimBy, ← List.reverse_append, List.takeWhile_append_dropWhile, List.reverse_reverse]
  refine ⟨s.takeWhile p, ((s.dropWhile p).reverse.takeWhile p).reverse, ?_, ?_, ?_⟩
  · rw [List.append_assoc, ← hlast, List.takeWhile_append_dropWhile]
  · exact fun c hc => List.mem_takeWhile_imp hc
  · exact fun c hc => List.mem_takeWhile_imp (List.mem_reverse.mp hc)

theorem isTrimmed_trimBy (p : Char → Bool) (s : List Char) : IsTrimmed p (trimBy p s) where
  head c hc := by
    -- what is kept begins as the text does without the characters in front
    apply head?_dropWhile_eq_false (s := s)
    have hprefix : trimBy p s <+: s.dropWhile p := by
      unfold trimBy
      rw [← List.reverse_suffix, List.reverse_reverse]
      exact List.dropWhile_suffix p
    obtain ⟨right, hright⟩ := hprefix
    rw [← hright, List.head?_append, Option.mem_def.mp hc]
    rfl
  last c hc := by
    rw [trimBy, List.getLast?_reverse] at hc
    exact head?_dropWhile_eq_false c hc

theorem trimBy_eq_nil_iff : trimBy p s = [] ↔ ∀ c ∈ s, p c = true := by
  constructor
  · intro h c hc
    obtain ⟨left, right, hs, hleft, hright⟩ := exists_trimBy p s
    rw [h, List.append_nil] at hs
    rw [hs] at hc
    exact (List.mem_append.mp hc).elim (hleft c) (hright c)
  · intro h
    rw [trimBy, List.dropWhile_eq_nil_iff.mpr h]
    rfl

theorem isEmpty_trim (s : String) : (trim s).isEmpty = isAllBlank s := by
  rw [Bool.eq_iff_iff, String.isEmpty_iff, trim, isAllBlank, List.all_eq_true, ← trimBy_eq_nil_iff,
    String.ofList_eq_empty_iff]

end Trim

/-- Digits with single underscores between them, and their values. -/
inductive Digits : List Char → List Nat → Prop
  | last {c : Char} {d : Nat} (h : decimalValue? c = some d) : Digits [c] [d]
  | next {c : Char} {d : Nat} {s : List Char} {ds : List Nat} (h : decimalValue? c = some d)
      (rest : Digits s ds) : Digits (c :: s) (d :: ds)
  | separated {c : Char} {d : Nat} {s : List Char} {ds : List Nat} (h : decimalValue? c = some d)
      (rest : Digits s ds) : Digits (c :: '_' :: s) (d :: ds)

/-- A numeral without a sign. -/
def IsNatural (s : List Char) (n : Nat) : Prop :=
  ∃ ds, Digits s ds ∧ ds.length ≤ maxDigits ∧ ofDigits ds = n

inductive IsInteger : List Char → Int → Prop
  | unsigned {s : List Char} {n : Nat} (h : IsNatural s n) : IsInteger s n
  | plus {s : List Char} {n : Nat} (h : IsNatural s n) : IsInteger ('+' :: s) n
  | minus {s : List Char} {n : Nat} (h : IsNatural s n) : IsInteger ('-' :: s) (-n)

/-- The values of digits with separators between them. -/
def digitsIn? (s : List Char) : Option (List Nat) :=
  (dropSeparators? s).bind digitValues?

theorem decimalZeros_apart :
    ∀ first ∈ decimalZeros, ∀ k < 10, isBlank (Char.ofNat (first + k)) = false := by
  decide +kernel

theorem isBlank_of_decimalValue? {c : Char} {d : Nat} (h : decimalValue? c = some d) :
    isBlank c = false := by
  obtain ⟨first, hfound, -⟩ := Option.map_eq_some_iff.mp h
  have hrange := List.find?_some hfound
  simp only [Bool.and_eq_true, decide_eq_true_eq] at hrange
  have hapart := decimalZeros_apart first (List.mem_of_find?_eq_some hfound) (c.toNat - first)
    (by omega)
  rw [Nat.add_sub_of_le hrange.1, Char.ofNat_toNat] at hapart
  exact hapart

theorem ne_of_decimalValue? {c other : Char} {d : Nat} (h : decimalValue? c = some d)
    (hother : decimalValue? other = none) : c ≠ other := by
  rintro rfl
  cases h.symm.trans hother

section Read

variable {c : Char} {s : List Char} {ds : List Nat}

theorem Digits.exists_cons (h : Digits s ds) :
    ∃ c rest d, s = c :: rest ∧ decimalValue? c = some d := by
  cases h with
  | last h => exact ⟨_, _, _, rfl, h⟩
  | next h _ => exact ⟨_, _, _, rfl, h⟩
  | separated h _ => exact ⟨_, _, _, rfl, h⟩

theorem digitsIn?_map_cons :
    ((dropSeparators? s).map (c :: ·)).bind digitValues? = some ds ↔
      ∃ d rest, decimalValue? c = some d ∧ digitsIn? s = some rest ∧ d :: rest = ds := by
  unfold digitsIn?
  cases dropSeparators? s with
  | none => simp
  | some t => simp [digitValues?, Option.bind_eq_some_iff]

theorem digitsIn?_next (hc : c ≠ '_') (h : Digits s ds) :
    digitsIn? (c :: s) = ((dropSeparators? s).map (c :: ·)).bind digitValues? := by
  obtain ⟨d, rest, n, rfl, hd⟩ := h.exists_cons
  have hne := ne_of_decimalValue? hd (by decide : decimalValue? '_' = none)
  simp [digitsIn?, dropSeparators?, hne]

theorem digitsIn?_separated (hc : c ≠ '_') (h : Digits s ds) :
    digitsIn? (c :: '_' :: s) = ((dropSeparators? s).map (c :: ·)).bind digitValues? := by
  obtain ⟨d, rest, n, rfl, hd⟩ := h.exists_cons
  have hne := ne_of_decimalValue? hd (by decide : decimalValue? '_' = none)
  simp [digitsIn?, dropSeparators?, hne]

theorem Digits.read (h : Digits s ds) : digitsIn? s = some ds := by
  induction h with
  | last h =>
      have hc := ne_of_decimalValue? h (by decide : decimalValue? '_' = none)
      simp [digitsIn?, dropSeparators?, digitValues?, h]
  | next h rest ih =>
      rw [digitsIn?_next (ne_of_decimalValue? h (by decide)) rest]
      exact digitsIn?_map_cons.mpr ⟨_, _, h, ih, rfl⟩
  | separated h rest ih =>
      rw [digitsIn?_separated (ne_of_decimalValue? h (by decide)) rest]
      exact digitsIn?_map_cons.mpr ⟨_, _, h, ih, rfl⟩

theorem digits_of_read (h : digitsIn? s = some ds) : s = [] ∧ ds = [] ∨ Digits s ds := by
  unfold digitsIn? at h
  fun_induction dropSeparators? s generalizing ds with
  | case1 =>
      cases h
      exact .inl ⟨rfl, rfl⟩
  | case2 rest => cases h
  | case3 c hc =>
      obtain ⟨d, hd, rfl⟩ : ∃ d, decimalValue? c = some d ∧ [d] = ds := by
        simpa [digitValues?, Option.bind_eq_some_iff] using h
      exact .inr (.last hd)
  | case4 c rest hc => cases h
  | case5 c d rest hc hd ih =>
      obtain ⟨n, others, hn, hothers, rfl⟩ := digitsIn?_map_cons.mp h
      obtain ⟨hnil, -⟩ | hrest := ih hothers
      · cases hnil
      · exact .inr (.separated hn hrest)
  | case6 c rest hc hone hsep ih =>
      obtain ⟨n, others, hn, hothers, rfl⟩ := digitsIn?_map_cons.mp h
      obtain ⟨hnil, -⟩ | hrest := ih hothers
      · exact absurd hnil hone
      · exact .inr (.next hn hrest)

theorem natural?_eq_some_iff {n : Nat} : natural? s = some n ↔ IsNatural s n := by
  have hread : natural? s = (digitsIn? s).bind fun ds =>
      if ds.isEmpty || ds.length > maxDigits then none else some (ofDigits ds) :=
    (Option.bind_assoc ..).symm
  rw [hread, Option.bind_eq_some_iff]
  constructor
  · rintro ⟨ds, hds, h⟩
    obtain ⟨-, rfl⟩ | hdigits := digits_of_read hds
    · cases h
    · split at h
      · cases h
      · rename_i hlong
        simp only [Bool.or_eq_true, decide_eq_true_eq, not_or] at hlong
        cases h
        exact ⟨ds, hdigits, by omega, rfl⟩
  · rintro ⟨ds, hdigits, hlong, rfl⟩
    refine ⟨ds, hdigits.read, if_neg ?_⟩
    have hne : ds ≠ [] := by
      rintro rfl
      cases hdigits
    simpa using ⟨hne, hlong⟩

theorem IsNatural.exists_cons {n : Nat} (h : IsNatural s n) :
    ∃ c rest d, s = c :: rest ∧ decimalValue? c = some d :=
  let ⟨_, hdigits, _⟩ := h
  hdigits.exists_cons

theorem integer?_eq_some_iff {n : Int} : integer? s = some n ↔ IsInteger s n := by
  constructor
  · intro h
    unfold integer? at h
    split at h
    · obtain ⟨m, hm, rfl⟩ := Option.map_eq_some_iff.mp h
      obtain ⟨k, hk, ⟨⟩⟩ := Option.bind_eq_some_iff.mp hm
      exact .minus (natural?_eq_some_iff.mp hk)
    · obtain ⟨m, hm, rfl⟩ := Option.map_eq_some_iff.mp h
      exact .plus (natural?_eq_some_iff.mp hm)
    · obtain ⟨m, hm, rfl⟩ := Option.map_eq_some_iff.mp h
      exact .unsigned (natural?_eq_some_iff.mp hm)
  · intro h
    cases h with
    | plus h => exact Option.map_eq_some_iff.mpr ⟨_, natural?_eq_some_iff.mpr h, rfl⟩
    | minus h =>
        refine Option.map_eq_some_iff.mpr ⟨_, ?_, rfl⟩
        exact Option.bind_eq_some_iff.mpr ⟨_, natural?_eq_some_iff.mpr h, rfl⟩
    | unsigned h =>
        obtain ⟨c, rest, d, rfl, hc⟩ := h.exists_cons
        have hminus := ne_of_decimalValue? hc (by decide : decimalValue? '-' = none)
        have hplus := ne_of_decimalValue? hc (by decide : decimalValue? '+' = none)
        rw [integer?.eq_def]
        split
        · rename_i heq
          cases heq
          exact absurd rfl hminus
        · rename_i heq
          cases heq
          exact absurd rfl hplus
        · exact Option.map_eq_some_iff.mpr ⟨_, natural?_eq_some_iff.mpr h, rfl⟩

theorem Digits.isTrimmed (h : Digits s ds) : IsTrimmed isBlank s := by
  refine ⟨?_, ?_⟩
  · intro c hc
    obtain ⟨d, rest, n, rfl, hd⟩ := h.exists_cons
    cases hc
    exact isBlank_of_decimalValue? hd
  · induction h with
    | last h =>
        rintro c ⟨⟩
        exact isBlank_of_decimalValue? h
    | next h rest ih =>
        obtain ⟨d, others, n, rfl, -⟩ := rest.exists_cons
        rwa [List.getLast?_cons_cons]
    | separated h rest ih =>
        obtain ⟨d, others, n, rfl, -⟩ := rest.exists_cons
        rwa [List.getLast?_cons_cons, List.getLast?_cons_cons]

theorem IsInteger.isTrimmed {n : Int} (h : IsInteger s n) : s ≠ [] ∧ IsTrimmed isBlank s := by
  cases h with
  | unsigned h =>
      obtain ⟨ds, hdigits, -⟩ := h
      obtain ⟨d, rest, n, rfl, -⟩ := hdigits.exists_cons
      exact ⟨List.cons_ne_nil _ _, hdigits.isTrimmed⟩
  | plus h | minus h =>
      obtain ⟨ds, hdigits, -⟩ := h
      refine ⟨List.cons_ne_nil _ _, ?_, ?_⟩
      · rintro c ⟨⟩
        decide
      · obtain ⟨d, rest, n, rfl, -⟩ := hdigits.exists_cons
        rw [List.getLast?_cons_cons]
        exact hdigits.isTrimmed.last

/-- White space is blank, so that nothing more is cut off for a numeral. -/
theorem integerIn?_trim (s : String) : integerIn? (trim s) = integer? (trimBy isBlank s.toList) := by
  have htrimmed : IsTrimmed isWhite (trimBy isBlank s.toList) := by
    refine (isTrimmed_trimBy isBlank s.toList).mono ?_
    intro c hc
    exact (Bool.or_eq_false_iff.mp hc).1
  rw [integerIn?, trim, String.toList_ofList, htrimmed.trimBy_eq]

end Read

section Write

theorem Digits.concat {c : Char} {d : Nat} {s : List Char} {ds : List Nat} (h : Digits s ds)
    (hc : decimalValue? c = some d) : Digits (s ++ [c]) (ds ++ [d]) := by
  induction h with
  | last h => exact .next h (.last hc)
  | next h _ ih => exact .next h ih
  | separated h _ ih => exact .separated h ih

theorem digits_decimal (n : Nat) :
    ∃ ds, Digits (decimal n) ds ∧ ofDigits ds = n ∧ ds.length = (decimal n).length := by
  induction n using decimal.induct with
  | case1 n hn =>
      rw [decimal, if_pos hn]
      exact ⟨[n], .last (decimalValue?_digitChar n hn), by simp [ofDigits], rfl⟩
  | case2 n hn ih =>
      obtain ⟨ds, hdigits, hvalue, hlength⟩ := ih
      rw [decimal, if_neg hn]
      have hlast := decimalValue?_digitChar (n % 10) (Nat.mod_lt n (by decide))
      refine ⟨ds ++ [n % 10], hdigits.concat hlast, ?_, by simp [hlength]⟩
      unfold ofDigits at hvalue ⊢
      rw [List.foldl_append, hvalue, List.foldl_cons, List.foldl_nil, Nat.div_add_mod]

theorem isNatural_decimal {n : Nat} (h : n < 10 ^ maxDigits) : IsNatural (decimal n) n := by
  obtain ⟨ds, hdigits, hvalue, hlength⟩ := digits_decimal n
  exact ⟨ds, hdigits, hlength ▸ length_decimal_le (by decide) h, hvalue⟩

theorem isInteger_signed {n : Int} (h : n.natAbs < 10 ^ maxDigits) : IsInteger (signed n) n := by
  have hnatural := isNatural_decimal h
  unfold signed
  split
  · rename_i hn
    have hminus := IsInteger.minus hnatural
    rwa [Int.ofNat_natAbs_of_nonpos (by omega), Int.neg_neg] at hminus
  · have hunsigned := IsInteger.unsigned hnatural
    rwa [Int.natAbs_of_nonneg (by omega)] at hunsigned

end Write

end Catalogue.Text

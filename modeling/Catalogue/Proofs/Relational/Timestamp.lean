import Catalogue.Proofs.Calendar.Iso
import Catalogue.Proofs.Text.Numeral
import Catalogue.Relational.Adapter
import Mathlib.Data.List.TakeDrop

/-!
Moments as a table stores them: their text writes no number, and the moment is read back from it.
-/

namespace Catalogue

open Calendar (Date Moment)
open Text (fixed)

namespace Relational

theorem isSpace_of_isDigit {c : Char} (h : c.isDigit = true) : Cell.isSpace c = false := by
  have hlow : 48 ≤ c.toNat := by
    simp only [Char.isDigit, Bool.and_eq_true, decide_eq_true_eq] at h
    exact h.1
  have hne : c ≠ ' ' := by
    rintro rfl
    exact absurd hlow (by decide)
  simp only [Cell.isSpace, Bool.or_eq_false_iff, Bool.and_eq_false_iff, beq_eq_false_iff_ne,
    decide_eq_false_iff_not]
  exact ⟨hne, .inr (by omega)⟩

theorem numberOfText?_of_hyphen {whole rest : List Char} (hne : whole ≠ [])
    (hwhole : ∀ c ∈ whole, c.isDigit = true)
    (hlast : ∀ c ∈ rest.getLast?, Cell.isSpace c = false) (hrest : rest ≠ []) :
    Cell.numberOfText? (.ofList (whole ++ '-' :: rest)) = none := by
  have htrim : Text.trimBy Cell.isSpace (whole ++ '-' :: rest) = whole ++ '-' :: rest := by
    refine Text.IsTrimmed.trimBy_eq ⟨?_, ?_⟩
    · intro c hc
      cases whole with
      | nil => exact absurd rfl hne
      | cons d whole =>
          obtain rfl : d = c := by simpa using hc
          exact isSpace_of_isDigit (hwhole d (.head _))
    · intro c hc
      have hsuffix : (whole ++ '-' :: rest).getLast? = rest.getLast? := by
        rw [List.getLast?_append, List.getLast?_cons, List.getLast?_eq_some_getLast hrest]
        rfl
      rw [hsuffix] at hc
      exact hlast c hc
  have hdigits : (whole ++ '-' :: rest).all Char.isDigit = false := by
    rw [List.all_append, List.all_cons]
    simp [show Char.isDigit '-' = false from rfl]
  have hunsigned : Number.unsigned? false (whole ++ '-' :: rest) = none := by
    have hspan : (whole ++ '-' :: rest).span Char.isDigit = (whole, '-' :: rest) := by
      rw [List.span_eq_takeWhile_dropWhile, List.takeWhile_append_of_pos hwhole,
        List.dropWhile_append_of_pos hwhole]
      simp [show Char.isDigit '-' = false from rfl]
    unfold Number.unsigned?
    rw [hspan]
    simp [Number.exponent?]
  unfold Cell.numberOfText?
  rw [String.toList_ofList, htrim]
  cases whole with
  | nil => exact absurd rfl hne
  | cons c whole =>
      have hc := hwhole c (.head _)
      rw [List.cons_append] at hdigits hunsigned ⊢
      dsimp only
      split
      · rename_i heq
        obtain ⟨rfl, -⟩ := List.cons.inj heq
        exact absurd hc (by decide)
      · rename_i heq
        obtain ⟨rfl, -⟩ := List.cons.inj heq
        exact absurd hc (by decide)
      · dsimp only
        rw [hdigits, Bool.and_false, if_neg Bool.false_ne_true, hunsigned]
        rfl

theorem numberOfText?_textWith (m : Moment) :
    Cell.numberOfText? (m.textWith ' ' true) = none := by
  have htext : m.textWith ' ' true = .ofList (m.textWith ' ' true).toList :=
    String.ofList_toList.symm
  rw [htext, m.toList_textWith]
  apply numberOfText?_of_hyphen
  · exact List.ne_nil_of_length_pos (by simp)
  · exact fun c hc => Text.isDigit_of_mem_fixed hc
  · intro c hc
    apply isSpace_of_isDigit
    simp only [List.getLast?_append, List.getLast?_cons, Text.getLast?_fixed] at hc
    obtain rfl : Nat.digitChar (m.microsecond % 10) = c := by simpa using hc
    rw [Nat.isDigit_digitChar]
    simpa using Nat.mod_lt m.microsecond (by decide)
  · simp

theorem cellValue_moment (m : Moment) :
    cellValue .moment (.text (m.textWith ' ' true)) = .stamp { moment := m } := by
  simp only [cellValue, Calendar.Iso.stamp?_textWith, Option.elim_some]

theorem readFault?_moment (m : Moment) :
    readFault? .moment (.text (m.textWith ' ' true)) = none := by
  simp [readFault?, Calendar.Iso.stamp?_textWith]

end Relational

end Catalogue

import Catalogue.Calendar.Iso
import Catalogue.Proofs.Calendar.Chronology
import Mathlib.Data.List.TakeDrop
import Mathlib.Data.List.TakeWhile

/-!
Moments as they are written with all their digits, which the reader of ISO notation takes back.
-/

namespace Catalogue.Calendar.Iso

open Text (fixed length_fixed)

theorem digits?_fixed {width n : Nat} (hw : 0 < width) (hmax : width ≤ Text.maxDigits)
    (h : n < 10 ^ width) (rest : List Char) :
    digits? width (fixed width n ++ rest) = some (n, rest) := by
  have hdigits : (fixed width n).all Char.isDigit = true :=
    List.all_eq_true.mpr fun _ hc => Text.isDigit_of_mem_fixed hc
  unfold digits?
  rw [List.take_left' (length_fixed width n), List.drop_left' (length_fixed width n)]
  simp [hdigits, Text.natural?_fixed hw hmax h]

theorem digits?_pair {n : Nat} (h : n < 100) (rest : List Char) :
    digits? 2 (fixed 2 n ++ rest) = some (n, rest) :=
  digits?_fixed (by decide) (by decide) h rest

theorem ne_of_mem_fixed {width n : Nat} {c d : Char} (h : c ∈ fixed width n)
    (hd : d.isDigit = false) : c ≠ d := by
  rintro rfl
  rw [Text.isDigit_of_mem_fixed h] at hd
  cases hd

theorem dateLength?_hyphens {year month : Nat} {rest : List Char} (hrest : 2 ≤ rest.length) :
    dateLength? (fixed 4 year ++ '-' :: (fixed 2 month ++ rest)) = some 10 := by
  have hlength : (fixed 4 year ++ '-' :: (fixed 2 month ++ rest)).length = rest.length + 7 := by
    simp
    omega
  have hdrop : (fixed 4 year ++ '-' :: (fixed 2 month ++ rest)).drop 4 =
      '-' :: (fixed 2 month ++ rest) := List.drop_left' (length_fixed 4 year)
  have hmonth : Nat.digitChar (month / 10 % 10) ≠ 'W' :=
    @ne_of_mem_fixed 2 month _ _ (.head _) rfl
  unfold dateLength?
  rw [hlength, if_neg (by omega), if_neg (by omega), hdrop]
  simp only [fixed, List.nil_append, List.cons_append]
  split
  · rename_i heq
    obtain ⟨-, heq⟩ := List.cons.inj heq
    exact absurd (List.cons.inj heq).1 hmonth
  · rfl
  · rename_i heq
    cases heq
  · rename_i hhyphen _
    exact absurd rfl (hhyphen _)

theorem date?_hyphens (d : Date) (rest : List Char) :
    date? 10 (fixed 4 d.year ++ '-' :: (fixed 2 d.month ++ '-' :: (fixed 2 d.day ++ rest))) =
      some d := by
  obtain ⟨-, hyear, -, hmonth, -, -⟩ := d.valid_parts
  have hday := d.day_le
  have hdate : Date.ofParts? d.year d.month d.day = some d := by simp [Date.ofParts?, d.valid]
  have hweek : Nat.digitChar (d.month / 10 % 10) ≠ 'W' :=
    @ne_of_mem_fixed 2 d.month _ _ (.head _) rfl
  have hread := digits?_pair (n := d.month) (by omega) ('-' :: (fixed 2 d.day ++ rest))
  unfold date?
  rw [digits?_fixed (by decide) (by decide) (by omega)]
  simp only [Option.bind_eq_bind, Option.bind_some]
  split
  · rename_i heq
    simp only [fixed, List.nil_append, List.cons_append] at heq
    exact absurd (List.cons.inj heq).1 hweek
  · rw [hread]
    simp only [Option.bind_some, if_true, hyphen?, digits?_pair (show d.day < 100 by omega), hdate]

theorem clockFrom?_colon {after tail : List Char} {fields : List Nat} {colons : Option Bool}
    {value remaining : Nat} (h : value < 100) (hcolons : colons.getD true = true) (hne : tail ≠ []) :
    clockFrom? after fields colons (remaining + 1) (fixed 2 value ++ ':' :: tail) =
      clockFrom? after (fields ++ [value]) (some true) remaining tail := by
  rw [clockFrom?, digits?_pair h]
  cases tail with
  | nil => exact absurd rfl hne
  | cons c tail => simp [hcolons]

theorem fraction?_fixed {fields : List Nat} {n : Nat} (h : n < 1000000) :
    fraction? fields (fixed 6 n) [] = some { fields, microsecond := n, ended := true } := by
  have hread := digits?_fixed (by decide) (by decide) (show n < 10 ^ 6 from h) []
  rw [List.append_nil] at hread
  unfold fraction?
  rw [length_fixed, Nat.min_self]
  simp [hread, isEnd]

theorem clock?_fixed {hour minute second microsecond : Nat}
    (valid : isTime hour minute second microsecond = true) :
    clock? (fixed 2 hour ++ ':' :: (fixed 2 minute ++ ':' :: (fixed 2 second ++
        '.' :: fixed 6 microsecond))) [] =
      some { fields := [hour, minute, second], microsecond, ended := true } := by
  simp only [isTime, Bool.and_eq_true, decide_eq_true_eq] at valid
  obtain ⟨⟨⟨hh, hm⟩, hs⟩, hus⟩ := valid
  unfold clock?
  rw [clockFrom?_colon (by omega) rfl (by simp [fixed]),
    clockFrom?_colon (by omega) rfl (by simp [fixed]), clockFrom?, digits?_pair (by omega)]
  have hfraction : fixed 6 microsecond ≠ [] := List.ne_nil_of_length_pos (by simp)
  obtain ⟨c, tail, htail⟩ := List.exists_cons_of_ne_nil hfraction
  rw [htail]
  simp [← htail, fraction?_fixed hus]

/-- A moment that is written with all its digits is read back. -/
theorem stamp?_textWith (m : Moment) :
    stamp? (m.textWith ' ' true).toList = some { moment := m } := by
  have hmoment : Moment.ofParts? m.date m.hour m.minute m.second m.microsecond = some m := by
    simp [Moment.ofParts?, m.valid]
  have hspan : ∀ s : List Char, (∀ c ∈ s, isOffsetStart c = false) →
      (s.span fun c => !isOffsetStart c) = (s, []) := by
    intro s hs
    rw [List.span_eq_takeWhile_dropWhile, List.takeWhile_eq_self_iff.mpr (by simpa using hs),
      List.dropWhile_eq_nil_iff.mpr (by simpa using hs)]
  have hdigit : ∀ {width n : Nat}, ∀ c ∈ fixed width n, isOffsetStart c = false := by
    intro width n c hc
    simp only [isOffsetStart, Bool.or_eq_false_iff, beq_eq_false_iff_ne]
    exact ⟨⟨ne_of_mem_fixed hc rfl, ne_of_mem_fixed hc rfl⟩, ne_of_mem_fixed hc rfl⟩
  unfold stamp?
  rw [m.toList_textWith, dateLength?_hyphens (by simp)]
  have hdrop : (fixed 4 m.date.year ++ '-' :: (fixed 2 m.date.month ++ '-' :: (fixed 2 m.date.day ++
      ' ' :: (fixed 2 m.hour ++ ':' :: (fixed 2 m.minute ++ ':' :: (fixed 2 m.second ++
        '.' :: fixed 6 m.microsecond)))))).drop 10 =
      ' ' :: (fixed 2 m.hour ++ ':' :: (fixed 2 m.minute ++ ':' :: (fixed 2 m.second ++
        '.' :: fixed 6 m.microsecond))) := by
    simp [fixed]
  simp only [Option.bind_eq_bind, Option.bind_some, date?_hyphens, hdrop]
  unfold timeOn?
  rw [hspan _ (by
    simp only [List.forall_mem_append, List.forall_mem_cons]
    exact ⟨hdigit, rfl, hdigit, rfl, hdigit, rfl, hdigit⟩)]
  simp [clock?_fixed m.valid, Clock.field, hmoment]

end Catalogue.Calendar.Iso

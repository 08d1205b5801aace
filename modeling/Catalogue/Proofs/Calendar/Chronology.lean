import Catalogue.Calendar.Moment
import Catalogue.Proofs.Text.Padding
import Catalogue.Value.Order

/-!
Chronological order is the order of the parts from the year down, and so it is the order of moments
as they are written.
-/

namespace Catalogue.Calendar

namespace Date

def daysInYear (year : Nat) : Nat :=
  if isLeap year then 366 else 365

theorem succ_div_eq (k y : Nat) :
    (y + 1) / k = y / k + if (y + 1) % k = 0 then 1 else 0 := by
  rw [Nat.succ_div]
  simp only [Nat.dvd_iff_mod_eq_zero]

theorem daysBeforeYear_succ {year : Nat} (h : 1 ≤ year) :
    daysBeforeYear (year + 1) = daysBeforeYear year + daysInYear year := by
  obtain ⟨y, rfl⟩ : ∃ y, year = y + 1 := ⟨year - 1, by omega⟩
  have hfour := succ_div_eq 4 y
  have hhundred := succ_div_eq 100 y
  have hleap := succ_div_eq 400 y
  have hle : y / 100 ≤ y / 4 := Nat.div_le_div_left (by decide) (by decide)
  unfold daysBeforeYear daysInYear isLeap
  simp only [Nat.add_sub_cancel]
  rw [hfour, hhundred, hleap]
  by_cases h4 : (y + 1) % 4 = 0
  · by_cases h100 : (y + 1) % 100 = 0
    · by_cases h400 : (y + 1) % 400 = 0 <;> simp [h4, h100, h400] <;> omega
    · have h400 : (y + 1) % 400 ≠ 0 := by omega
      simp [h4, h100, h400]
      omega
  · have h100 : (y + 1) % 100 ≠ 0 := by omega
    have h400 : (y + 1) % 400 ≠ 0 := by omega
    simp [h4, h100, h400]
    omega

theorem daysBeforeYear_mono {x y : Nat} (h : x ≤ y) : daysBeforeYear x ≤ daysBeforeYear y := by
  induction h with
  | refl => exact Nat.le_refl _
  | step _ ih =>
      rename_i z _
      cases z with
      | zero => exact ih
      | succ z =>
          rw [daysBeforeYear_succ (by omega)]
          omega

theorem daysBeforeMonth_mono (year : Nat) {m n : Nat} (h : m ≤ n) :
    daysBeforeMonth year m ≤ daysBeforeMonth year n := by
  induction h with
  | refl => exact Nat.le_refl _
  | step _ ih =>
      rw [daysBeforeMonth]
      omega

theorem daysBeforeMonth_thirteen (year : Nat) : daysBeforeMonth year 13 = daysInYear year := by
  unfold daysInYear
  simp only [daysBeforeMonth, daysInMonth]
  cases isLeap year <;> rfl

def dayOfYear (d : Date) : Nat :=
  daysBeforeMonth d.year d.month + d.day

theorem valid_parts (d : Date) : 1 ≤ d.year ∧ d.year ≤ 9999 ∧ 1 ≤ d.month ∧ d.month ≤ 12 ∧
    1 ≤ d.day ∧ d.day ≤ daysInMonth d.year d.month := by
  have h := d.valid
  simp only [isDay, Bool.and_eq_true, decide_eq_true_eq] at h
  omega

theorem dayOfYear_le (d : Date) : dayOfYear d ≤ daysBeforeMonth d.year (d.month + 1) := by
  obtain ⟨-, -, hm, -, -, hd⟩ := d.valid_parts
  rw [dayOfYear, daysBeforeMonth, if_neg (by omega)]
  omega

theorem day_le (d : Date) : d.day ≤ 31 := by
  obtain ⟨-, -, -, -, -, hd⟩ := d.valid_parts
  unfold daysInMonth at hd
  split at hd
  · split at hd <;> omega
  · split at hd <;> omega

theorem ordinal_eq (d : Date) : d.ordinal = daysBeforeYear d.year + dayOfYear d := by
  rw [ordinal, dayOfYear]
  omega

theorem ordinal_lt_of_year {d e : Date} (h : d.year < e.year) : d.ordinal < e.ordinal := by
  obtain ⟨hy, -, -, hm, -, -⟩ := d.valid_parts
  have hlast : daysBeforeMonth d.year (d.month + 1) ≤ daysInYear d.year := by
    rw [← daysBeforeMonth_thirteen]
    exact daysBeforeMonth_mono d.year (by omega)
  have hday := d.dayOfYear_le
  have hyear := daysBeforeYear_succ hy
  have hmono : daysBeforeYear (d.year + 1) ≤ daysBeforeYear e.year := daysBeforeYear_mono h
  have hpos : 1 ≤ e.day := e.valid_parts.2.2.2.2.1
  rw [ordinal_eq, ordinal_eq]
  unfold dayOfYear at hday ⊢
  omega

theorem ordinal_lt_of_month {d e : Date} (hy : d.year = e.year) (h : d.month < e.month) :
    d.ordinal < e.ordinal := by
  obtain ⟨-, -, -, -, he, -⟩ := e.valid_parts
  have hday := d.dayOfYear_le
  have hmono : daysBeforeMonth d.year (d.month + 1) ≤ daysBeforeMonth d.year e.month :=
    daysBeforeMonth_mono d.year h
  rw [ordinal_eq, ordinal_eq, ← hy]
  unfold dayOfYear at hday ⊢
  rw [← hy]
  omega

theorem compare_ordinal (d e : Date) :
    compare d.ordinal e.ordinal =
      (compare d.year e.year).then ((compare d.month e.month).then (compare d.day e.day)) := by
  rcases Nat.lt_trichotomy d.year e.year with hy | hy | hy
  · rw [Nat.compare_eq_lt.mpr hy, Nat.compare_eq_lt.mpr (ordinal_lt_of_year hy)]
    rfl
  · rw [Nat.compare_eq_eq.mpr hy]
    rcases Nat.lt_trichotomy d.month e.month with hm | hm | hm
    · rw [Nat.compare_eq_lt.mpr hm, Nat.compare_eq_lt.mpr (ordinal_lt_of_month hy hm)]
      rfl
    · have hbefore : d.ordinal + e.day = e.ordinal + d.day := by
        rw [ordinal, ordinal, hy, hm]
        omega
      rw [Nat.compare_eq_eq.mpr hm]
      rcases Nat.lt_trichotomy d.day e.day with hd | hd | hd
      · rw [Nat.compare_eq_lt.mpr hd, Nat.compare_eq_lt.mpr (by omega)]
        rfl
      · rw [Nat.compare_eq_eq.mpr hd, Nat.compare_eq_eq.mpr (by omega)]
        rfl
      · rw [Nat.compare_eq_gt.mpr hd, Nat.compare_eq_gt.mpr (by omega)]
        rfl
    · rw [Nat.compare_eq_gt.mpr hm, Nat.compare_eq_gt.mpr (ordinal_lt_of_month hy.symm hm)]
      rfl
  · rw [Nat.compare_eq_gt.mpr hy, Nat.compare_eq_gt.mpr (ordinal_lt_of_year hy)]
    rfl

end Date

namespace Moment

theorem valid_parts (m : Moment) :
    m.hour < 24 ∧ m.minute < 60 ∧ m.second < 60 ∧ m.microsecond < 1000000 := by
  have h := m.valid
  simp only [isTime, Bool.and_eq_true, decide_eq_true_eq] at h
  omega

theorem compare_natCast (a b : Nat) : compare (a : Int) (b : Int) = compare a b := by
  rcases Nat.lt_trichotomy a b with h | h | h
  · rw [Nat.compare_eq_lt.mpr h, Int.compare_eq_lt.mpr (by omega)]
  · rw [Nat.compare_eq_eq.mpr h, Int.compare_eq_eq.mpr (by omega)]
  · rw [Nat.compare_eq_gt.mpr h, Int.compare_eq_gt.mpr (by omega)]

theorem order_eq_parts (m n : Moment) :
    m.order n =
      (compare m.date.year n.date.year).then ((compare m.date.month n.date.month).then
        ((compare m.date.day n.date.day).then ((compare m.hour n.hour).then
          ((compare m.minute n.minute).then ((compare m.second n.second).then
            (compare m.microsecond n.microsecond)))))) := by
  have hseconds : ∀ k : Moment, k.seconds =
      (((k.date.ordinal * 24 + k.hour) * 60 + k.minute) * 60 + k.second : Nat) := by
    intro k
    unfold seconds secondOfDay
    omega
  obtain ⟨hm, hmin, hs, -⟩ := m.valid_parts
  obtain ⟨hn, hmin', hs', -⟩ := n.valid_parts
  unfold order
  rw [hseconds, hseconds, compare_natCast, compare_mul_add hs hs', compare_mul_add hmin hmin',
    compare_mul_add hm hn, Date.compare_ordinal]
  simp only [Ordering.then_assoc]

theorem order_eq_eq_iff {m n : Moment} : m.order n = .eq ↔ m = n := by
  rw [order_eq_parts]
  simp only [Ordering.then_eq_eq, Nat.compare_eq_eq]
  constructor
  · obtain ⟨⟨y, mo, d, hd⟩, h, mi, s, us, hm⟩ := m
    obtain ⟨⟨y', mo', d', hd'⟩, h', mi', s', us', hm'⟩ := n
    rintro ⟨rfl, rfl, rfl, rfl, rfl, rfl, rfl⟩
    rfl
  · rintro rfl
    simp

open Text (fixed)

def fractionText (always : Bool) (m : Moment) : List Char :=
  if always || m.microsecond != 0 then '.' :: fixed 6 m.microsecond else []

theorem toList_textWith_eq (separator : Char) (always : Bool) (m : Moment) :
    (m.textWith separator always).toList =
      fixed 4 m.date.year ++ '-' :: (fixed 2 m.date.month ++ '-' :: (fixed 2 m.date.day ++
        separator :: (fixed 2 m.hour ++ ':' :: (fixed 2 m.minute ++ ':' :: (fixed 2 m.second ++
          m.fractionText always))))) := by
  obtain ⟨-, hy, -, hmo, -, -⟩ := m.date.valid_parts
  have hd := m.date.day_le
  obtain ⟨hh, hmi, hs, hus⟩ := m.valid_parts
  simp only [textWith, timeText, fractionText, Date.text, String.toList_ofList, List.append_assoc,
    List.cons_append]
  rw [Text.padded_eq_fixed (by decide) (by omega), Text.padded_eq_fixed (by decide) (by omega),
    Text.padded_eq_fixed (by decide) (by omega), Text.padded_eq_fixed (by decide) (by omega),
    Text.padded_eq_fixed (by decide) (by omega), Text.padded_eq_fixed (by decide) (by omega),
    Text.padded_eq_fixed (by decide) (by omega)]

theorem toList_textWith (m : Moment) :
    (m.textWith ' ' true).toList =
      fixed 4 m.date.year ++ '-' :: (fixed 2 m.date.month ++ '-' :: (fixed 2 m.date.day ++
        ' ' :: (fixed 2 m.hour ++ ':' :: (fixed 2 m.minute ++ ':' :: (fixed 2 m.second ++
          '.' :: fixed 6 m.microsecond))))) :=
  m.toList_textWith_eq ' ' true

theorem compare_textWith (m n : Moment) :
    compare (m.textWith ' ' true) (n.textWith ' ' true) = m.order n := by
  obtain ⟨-, hy, -, hmo, -, -⟩ := m.date.valid_parts
  obtain ⟨-, hy', -, hmo', -, -⟩ := n.date.valid_parts
  have hd := m.date.day_le
  have hd' := n.date.day_le
  obtain ⟨hh, hmi, hs, hus⟩ := m.valid_parts
  obtain ⟨hh', hmi', hs', hus'⟩ := n.valid_parts
  have hnil : compareChars (Text.fixed 6 m.microsecond ++ []) (Text.fixed 6 n.microsecond ++ []) =
      _ := Text.compareChars_fixed hus hus' [] []
  rw [List.append_nil, List.append_nil] at hnil
  rw [compare_eq_compareChars, order_eq_parts, m.toList_textWith, n.toList_textWith,
    Text.compareChars_fixed (by omega) (by omega), compareChars_cons_self,
    Text.compareChars_fixed (by omega) (by omega), compareChars_cons_self,
    Text.compareChars_fixed (by omega) (by omega), compareChars_cons_self,
    Text.compareChars_fixed (by omega) (by omega), compareChars_cons_self,
    Text.compareChars_fixed (by omega) (by omega), compareChars_cons_self,
    Text.compareChars_fixed (by omega) (by omega), compareChars_cons_self, hnil]
  simp [compareChars, List.compareLex_nil_nil]

end Moment

namespace Stamp

theorem instant_of_moment (m : Moment) : ({ moment := m } : Stamp).instant = m.seconds :=
  Int.sub_zero _

theorem order_of_moments (m n : Moment) :
    ({ moment := m } : Stamp).order { moment := n } = some (m.order n) := by
  simp only [order, instant_of_moment, Moment.order]
  rfl

end Stamp

end Catalogue.Calendar

namespace Catalogue.Value

open Calendar (Moment)

theorem before?_moment (m n : Moment) :
    (stamp { moment := m }).before? (.stamp { moment := n }) = some (m.order n == .lt) := by
  rw [before?, Calendar.Stamp.order_of_moments, Option.map_some]

theorem same_moment (m n : Moment) :
    (stamp { moment := m }).same (.stamp { moment := n }) = (m.order n == .eq) := by
  rw [same, Calendar.Stamp.order_of_moments]
  generalize m.order n = o
  cases o <;> rfl

end Catalogue.Value

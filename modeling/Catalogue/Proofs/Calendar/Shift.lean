import Catalogue.Proofs.Calendar.Chronology

/-!
The calendar counted in days and seconds. A day forward or back is one more or one less by number, up
to the ends of the calendar, and so an offset is taken off by subtracting its seconds.
-/

namespace Catalogue.Calendar

namespace Date

/-- The number of the last day, the end of the year 9999. -/
def lastOrdinal : Nat := 3652059

theorem daysBeforeYear_tenThousand : daysBeforeYear 10000 = lastOrdinal := by
  decide

theorem ordinal_pos (d : Date) : 1 ≤ d.ordinal := by
  have hday := d.valid_parts.2.2.2.2.1
  unfold ordinal
  omega

theorem ordinal_le (d : Date) : d.ordinal ≤ lastOrdinal := by
  obtain ⟨hfirst, hlast, -, hmonth, -, -⟩ := d.valid_parts
  have hday := d.dayOfYear_le
  have hyear := daysBeforeYear_succ hfirst
  have hmonths : daysBeforeMonth d.year (d.month + 1) ≤ daysInYear d.year := by
    rw [← daysBeforeMonth_thirteen]
    exact daysBeforeMonth_mono d.year (by omega)
  have hmono : daysBeforeYear (d.year + 1) ≤ daysBeforeYear 10000 := daysBeforeYear_mono (by omega)
  rw [daysBeforeYear_tenThousand] at hmono
  rw [ordinal_eq]
  omega

theorem ofParts?_of_isDay {year month day : Nat} (h : isDay year month day = true) :
    ofParts? year month day = some ⟨year, month, day, h⟩ :=
  dif_pos h

theorem ofParts?_of_not_isDay {year month day : Nat} (h : isDay year month day = false) :
    ofParts? year month day = none :=
  dif_neg (by simp [h])

theorem isDay_iff {year month day : Nat} : isDay year month day = true ↔
    1 ≤ year ∧ year ≤ 9999 ∧ 1 ≤ month ∧ month ≤ 12 ∧ 1 ≤ day ∧ day ≤ daysInMonth year month := by
  simp only [isDay, Bool.and_eq_true, decide_eq_true_eq, and_assoc]

theorem isDay_eq_false_iff {year month day : Nat} : isDay year month day = false ↔
    ¬(1 ≤ year ∧ year ≤ 9999 ∧ 1 ≤ month ∧ month ≤ 12 ∧ 1 ≤ day ∧ day ≤ daysInMonth year month) := by
  rw [Bool.eq_false_iff, ne_eq, isDay_iff]

theorem daysInMonth_pos (year month : Nat) : 1 ≤ daysInMonth year month := by
  unfold daysInMonth
  split
  · split <;> decide
  · split <;> decide

theorem daysBeforeMonth_succ (year : Nat) {month : Nat} (h : 1 ≤ month) :
    daysBeforeMonth year (month + 1) = daysBeforeMonth year month + daysInMonth year month := by
  rw [daysBeforeMonth, if_neg (by omega)]

theorem daysInYear_eq (year : Nat) :
    daysInYear year = daysBeforeMonth year 12 + daysInMonth year 12 := by
  rw [← daysBeforeMonth_succ year (by decide), daysBeforeMonth_thirteen]

section Next

variable {d : Date}

theorem next?_within_month (h : d.day < daysInMonth d.year d.month) :
    ∃ e, d.next? = some e ∧ e.ordinal = d.ordinal + 1 := by
  obtain ⟨hy, hy', hm, hm', -, -⟩ := d.valid_parts
  have hday : isDay d.year d.month (d.day + 1) = true := isDay_iff.mpr (by omega)
  unfold next?
  rw [ofParts?_of_isDay hday]
  refine ⟨_, rfl, ?_⟩
  simp only [ordinal]
  omega

variable (hlast : d.day = daysInMonth d.year d.month)
include hlast

theorem ofParts?_after_month : ofParts? d.year d.month (d.day + 1) = none :=
  ofParts?_of_not_isDay (isDay_eq_false_iff.mpr (by omega))

theorem next?_within_year (h : d.month < 12) :
    ∃ e, d.next? = some e ∧ e.ordinal = d.ordinal + 1 := by
  obtain ⟨hy, hy', hm, -, -, -⟩ := d.valid_parts
  have hday : isDay d.year (d.month + 1) 1 = true :=
    isDay_iff.mpr ⟨hy, hy', by omega, h, Nat.le_refl _, daysInMonth_pos _ _⟩
  have hmonth := daysBeforeMonth_succ d.year hm
  unfold next?
  rw [ofParts?_after_month hlast, ofParts?_of_isDay hday]
  refine ⟨_, rfl, ?_⟩
  simp only [ordinal]
  omega

theorem next?_of_december (h : d.month = 12) : (∃ e, d.next? = some e ∧ e.ordinal = d.ordinal + 1) ∨
    d.next? = none ∧ d.ordinal = lastOrdinal := by
  obtain ⟨hy, hy', -, -, -, -⟩ := d.valid_parts
  have hmonth : ofParts? d.year (d.month + 1) 1 = none :=
    ofParts?_of_not_isDay (isDay_eq_false_iff.mpr (by omega))
  have hordinal : d.ordinal = daysBeforeYear (d.year + 1) := by
    rw [daysBeforeYear_succ hy, daysInYear_eq, ordinal, hlast, h, Nat.add_assoc]
  unfold next?
  rw [ofParts?_after_month hlast, hmonth]
  by_cases hyears : d.year < 9999
  · have hday : isDay (d.year + 1) 1 1 = true :=
      isDay_iff.mpr ⟨by omega, hyears, by decide, by decide, by decide, daysInMonth_pos _ _⟩
    rw [ofParts?_of_isDay hday]
    refine .inl ⟨_, rfl, ?_⟩
    rw [hordinal]
    rfl
  · have hend : d.year = 9999 := by omega
    refine .inr ⟨ofParts?_of_not_isDay (isDay_eq_false_iff.mpr (by omega)), ?_⟩
    rw [hordinal, hend, daysBeforeYear_tenThousand]

end Next

theorem next?_cases (d : Date) : (∃ e, d.next? = some e ∧ e.ordinal = d.ordinal + 1) ∨
    d.next? = none ∧ d.ordinal = lastOrdinal := by
  obtain ⟨-, -, -, hm, -, hd⟩ := d.valid_parts
  rcases Nat.lt_or_eq_of_le hd with hday | hday
  · exact .inl (next?_within_month hday)
  · rcases Nat.lt_or_eq_of_le hm with hmonth | hmonth
    · exact .inl (next?_within_year hday hmonth)
    · exact next?_of_december hday hmonth

section Previous

variable {d : Date}

theorem previous?_within_month (h : 1 < d.day) :
    ∃ e, d.previous? = some e ∧ e.ordinal + 1 = d.ordinal := by
  obtain ⟨hy, hy', hm, hm', -, hd'⟩ := d.valid_parts
  have hday : isDay d.year d.month (d.day - 1) = true := isDay_iff.mpr (by omega)
  unfold previous?
  rw [if_pos h, ofParts?_of_isDay hday]
  refine ⟨_, rfl, ?_⟩
  simp only [ordinal]
  omega

variable (hfirst : d.day = 1)
include hfirst

theorem previous?_within_year (h : 1 < d.month) :
    ∃ e, d.previous? = some e ∧ e.ordinal + 1 = d.ordinal := by
  obtain ⟨hy, hy', hm, hm', -, -⟩ := d.valid_parts
  have hday : isDay d.year (d.month - 1) (daysInMonth d.year (d.month - 1)) = true :=
    isDay_iff.mpr ⟨hy, hy', by omega, by omega, daysInMonth_pos _ _, Nat.le_refl _⟩
  have hmonth := daysBeforeMonth_succ d.year (by omega : 1 ≤ d.month - 1)
  rw [Nat.sub_add_cancel hm] at hmonth
  unfold previous?
  rw [if_neg (by omega), if_pos h, ofParts?_of_isDay hday]
  refine ⟨_, rfl, ?_⟩
  simp only [ordinal]
  omega

theorem previous?_of_january (h : d.month = 1) :
    (∃ e, d.previous? = some e ∧ e.ordinal + 1 = d.ordinal) ∨ d.previous? = none ∧ d.ordinal = 1 := by
  obtain ⟨hy, hy', -, -, -, -⟩ := d.valid_parts
  have hordinal : d.ordinal = daysBeforeYear d.year + 1 := by
    rw [ordinal, h, hfirst]
    rfl
  unfold previous?
  rw [if_neg (by omega), if_neg (by omega)]
  by_cases hyears : 1 < d.year
  · have hday : isDay (d.year - 1) 12 31 = true :=
      isDay_iff.mpr ⟨by omega, by omega, by decide, by decide, by decide, Nat.le_refl 31⟩
    have hyear := daysBeforeYear_succ (by omega : 1 ≤ d.year - 1)
    rw [Nat.sub_add_cancel hy, daysInYear_eq] at hyear
    rw [ofParts?_of_isDay hday]
    refine .inl ⟨_, rfl, ?_⟩
    rw [hordinal, hyear]
    rfl
  · have hone : d.year = 1 := by omega
    refine .inr ⟨ofParts?_of_not_isDay (isDay_eq_false_iff.mpr (by omega)), ?_⟩
    rw [hordinal, hone]
    rfl

end Previous

theorem previous?_cases (d : Date) : (∃ e, d.previous? = some e ∧ e.ordinal + 1 = d.ordinal) ∨
    d.previous? = none ∧ d.ordinal = 1 := by
  obtain ⟨-, -, hm, -, hd, -⟩ := d.valid_parts
  rcases Nat.lt_or_eq_of_le hd with hday | hday
  · exact .inl (previous?_within_month hday)
  · rcases Nat.lt_or_eq_of_le hm with hmonth | hmonth
    · exact .inl (previous?_within_year hday.symm hmonth)
    · exact previous?_of_january hday.symm hmonth.symm

end Date

namespace Moment

def earliest : Moment := .midnight default

def latest : Moment where
  date := { year := 9999, month := 12, day := 31 }
  hour := 23
  minute := 59
  second := 59
  microsecond := 999999

theorem seconds_earliest : earliest.seconds = 86400 := by
  decide

theorem seconds_latest : latest.seconds = (Date.lastOrdinal + 1) * 86400 - 1 := by
  decide

/-- Is there a moment that many seconds after the start of day 0? -/
def InCalendar (seconds : Int) : Prop :=
  earliest.seconds ≤ seconds ∧ seconds ≤ latest.seconds

instance (seconds : Int) : Decidable (InCalendar seconds) :=
  inferInstanceAs (Decidable (_ ∧ _))

theorem secondOfDay_lt (m : Moment) : m.secondOfDay < 86400 := by
  obtain ⟨hh, hm, hs, -⟩ := m.valid_parts
  unfold secondOfDay
  omega

theorem inCalendar_seconds (m : Moment) : InCalendar m.seconds := by
  have hfirst := m.date.ordinal_pos
  have hlast := m.date.ordinal_le
  have hsecond := m.secondOfDay_lt
  unfold InCalendar
  rw [seconds_earliest, seconds_latest, seconds]
  omega

theorem eq_iff_seconds {m n : Moment} :
    m = n ↔ m.seconds = n.seconds ∧ m.microsecond = n.microsecond := by
  rw [← order_eq_eq_iff, order, Ordering.then_eq_eq, Int.compare_eq_eq, Nat.compare_eq_eq]

theorem atSecond?_eq_some (m : Moment) (date : Date) {s : Nat} (h : s < 86400) :
    ∃ n, m.atSecond? date s = some n ∧ n.seconds = date.ordinal * 86400 + s ∧
      n.microsecond = m.microsecond := by
  obtain ⟨-, -, -, hmicro⟩ := m.valid_parts
  have hvalid : isTime (s / 3600) (s / 60 % 60) (s % 60) m.microsecond = true := by
    simp only [isTime, Bool.and_eq_true, decide_eq_true_eq]
    omega
  refine ⟨_, dif_pos hvalid, ?_, rfl⟩
  simp only [seconds, secondOfDay]
  omega

/-- An offset is taken off by its seconds, across the ends of days, months and years; there is no
such moment only outside the calendar. -/
theorem minus?_cases (m : Moment) {offset : Int} (h : offset.natAbs < 86400) :
    (∃ n, m.minus? offset = some n ∧ n.seconds = m.seconds - offset ∧
      n.microsecond = m.microsecond) ∨
    m.minus? offset = none ∧ ¬InCalendar (m.seconds - offset) := by
  have hsecond := m.secondOfDay_lt
  unfold minus? InCalendar
  rw [seconds_earliest, seconds_latest]
  dsimp only
  split
  · rcases m.date.previous?_cases with ⟨d, hd, hordinal⟩ | ⟨hnone, hordinal⟩
    · obtain ⟨n, hn, hseconds, hmicro⟩ := m.atSecond?_eq_some d
        (s := ((m.secondOfDay : Int) - offset + 86400).toNat) (by omega)
      rw [hd, Option.bind_some, hn]
      refine .inl ⟨n, rfl, ?_, hmicro⟩
      rw [hseconds, seconds]
      omega
    · rw [hnone]
      refine .inr ⟨rfl, ?_⟩
      rw [seconds]
      omega
  · split
    · obtain ⟨n, hn, hseconds, hmicro⟩ := m.atSecond?_eq_some m.date
        (s := ((m.secondOfDay : Int) - offset).toNat) (by omega)
      refine .inl ⟨n, hn, ?_, hmicro⟩
      rw [hseconds, seconds]
      omega
    · rcases m.date.next?_cases with ⟨d, hd, hordinal⟩ | ⟨hnone, hordinal⟩
      · obtain ⟨n, hn, hseconds, hmicro⟩ := m.atSecond?_eq_some d
          (s := ((m.secondOfDay : Int) - offset - 86400).toNat) (by omega)
        rw [hd, Option.bind_some, hn]
        refine .inl ⟨n, rfl, ?_, hmicro⟩
        rw [hseconds, seconds]
        omega
      · rw [hnone]
        refine .inr ⟨rfl, ?_⟩
        rw [seconds]
        omega

end Moment

namespace Stamp

variable {s : Stamp} (h : (s.offset.getD 0).natAbs < 86400)
include h

theorem universal?_cases :
    (∃ m, s.universal? = some m ∧ m.seconds = s.instant ∧ m.microsecond = s.moment.microsecond) ∨
    s.universal? = none ∧ ¬Moment.InCalendar s.instant := by
  unfold universal? instant
  cases hoffset : s.offset with
  | none => exact .inl ⟨s.moment, rfl, (Int.sub_zero _).symm, rfl⟩
  | some offset =>
      rw [hoffset] at h
      exact s.moment.minus?_cases h

theorem universal?_eq_some_iff {m : Moment} : s.universal? = some m ↔
    m.seconds = s.instant ∧ m.microsecond = s.moment.microsecond := by
  rcases universal?_cases h with ⟨n, hn, hseconds, hmicro⟩ | ⟨hnone, hout⟩
  · rw [hn, ← hseconds, ← hmicro, Option.some.injEq, eq_comm, Moment.eq_iff_seconds]
  · rw [hnone]
    refine iff_of_false nofun ?_
    rintro ⟨hseconds, -⟩
    exact hout (hseconds ▸ m.inCalendar_seconds)

theorem universal?_eq_none_iff : s.universal? = none ↔ ¬Moment.InCalendar s.instant := by
  rcases universal?_cases h with ⟨n, hn, hseconds, -⟩ | ⟨hnone, hout⟩
  · rw [hn]
    exact iff_of_false nofun fun hout => hout (hseconds ▸ n.inCalendar_seconds)
  · exact iff_of_true hnone hout

end Stamp

end Catalogue.Calendar

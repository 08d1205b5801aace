import Catalogue.Proofs.Calendar.Chronology
import Catalogue.Proofs.Text.Numeral
import Catalogue.Timestamp.Reader

/-!
How a timestamp is read that is written as a stamp writes itself: year, month and day, a mark, hour,
minute and second with a fraction if there is one, and an offset if there is one.
-/

namespace Catalogue.Timestamp

open Calendar (Date Moment Stamp)
open Text (fixed isDigit_of_mem_fixed)

section Tokens

theorem plain_digits : ∀ k < 10, Text.isDigit (Char.ofNat (48 + k)) = true ∧
    Text.isLetter (Char.ofNat (48 + k)) = false ∧
      (Char.ofNat (48 + k)).toLower = Char.ofNat (48 + k) ∧
        Text.isBlank (Char.ofNat (48 + k)) = false := by
  decide +kernel

theorem plain_of_isDigit {c : Char} (h : c.isDigit = true) : Text.isDigit c = true ∧
    Text.isLetter c = false ∧ c.toLower = c ∧ Text.isBlank c = false := by
  simp only [Char.isDigit, Bool.and_eq_true, decide_eq_true_eq] at h
  have hlow : 48 ≤ c.toNat := h.1
  have hhigh : c.toNat ≤ 57 := h.2
  have hplain := plain_digits (c.toNat - 48) (by omega)
  rwa [Nat.add_sub_of_le hlow, Char.ofNat_toNat] at hplain

theorem ne_point_of_isDigit {c : Char} (h : c.isDigit = true) : c ≠ '.' := by
  rintro rfl
  exact absurd h (by decide)

/-- Does a numeral end before this text? -/
def EndsNumeral (rest : List Char) : Prop :=
  ∀ c ∈ rest.head?, Text.isDigit c = false ∧ c ≠ '.' ∧ c ≠ ','

variable {lettered : Bool} {rest : List Char}

theorem extend_number {digits : List Char} (hdigits : ∀ c ∈ digits, c.isDigit = true)
    (hrest : EndsNumeral rest) (sofar : List Char) :
    extend .number lettered sofar (digits ++ rest) =
      (⟨.number, lettered, sofar.reverse ++ digits⟩, rest) := by
  induction digits generalizing sofar with
  | nil =>
      cases rest with
      | nil => simp [extend]
      | cons c rest =>
          obtain ⟨hdigit, hpoint, hcomma⟩ := hrest c rfl
          simp [extend, hdigit, hpoint, hcomma]
  | cons c digits ih =>
      obtain ⟨hc, hdigits⟩ := List.forall_mem_cons.mp hdigits
      rw [List.cons_append, extend]
      simp only [(plain_of_isDigit hc).1, if_true]
      rw [ih hdigits, List.reverse_cons, List.append_assoc]
      rfl

theorem extend_point {digits : List Char} (hdigits : ∀ c ∈ digits, c.isDigit = true)
    (sofar : List Char) : extend .number lettered sofar (digits ++ '.' :: rest) =
      extend .dottedNumber lettered ('.' :: (digits.reverse ++ sofar)) rest := by
  induction digits generalizing sofar with
  | nil =>
      have hpoint : Text.isDigit '.' = false := by decide
      simp [extend, hpoint]
  | cons c digits ih =>
      obtain ⟨hc, hdigits⟩ := List.forall_mem_cons.mp hdigits
      rw [List.cons_append, extend]
      simp only [(plain_of_isDigit hc).1, if_true]
      rw [ih hdigits, List.reverse_cons, List.append_assoc]
      rfl

theorem extend_fraction {digits : List Char} (hdigits : ∀ c ∈ digits, c.isDigit = true)
    (hrest : EndsNumeral rest) {sofar : List Char} (hsofar : digits = [] → sofar.head? ≠ some '.') :
    extend .dottedNumber lettered sofar (digits ++ rest) =
      (⟨.dottedNumber, lettered, sofar.reverse ++ digits⟩, rest) := by
  induction digits generalizing sofar with
  | nil =>
      cases rest with
      | nil => simp [extend]
      | cons c rest =>
          obtain ⟨hdigit, hpoint, -⟩ := hrest c rfl
          simp [extend, hdigit, hpoint, hsofar rfl]
  | cons c digits ih =>
      obtain ⟨hc, hdigits⟩ := List.forall_mem_cons.mp hdigits
      rw [List.cons_append, extend]
      simp only [(plain_of_isDigit hc).1, Bool.or_true, if_true]
      rw [ih hdigits (by simpa using fun _ => ne_point_of_isDigit hc), List.reverse_cons,
        List.append_assoc]
      rfl

variable (fuel : Nat)

theorem split_numeral {digits : List Char} (hne : digits ≠ [])
    (hdigits : ∀ c ∈ digits, c.isDigit = true) (hrest : EndsNumeral rest) :
    split (fuel + 1) (digits ++ rest) = digits :: split fuel rest := by
  cases digits with
  | nil => exact absurd rfl hne
  | cons c digits =>
      obtain ⟨hc, hdigits⟩ := List.forall_mem_cons.mp hdigits
      obtain ⟨hdigit, hletter, -⟩ := plain_of_isDigit hc
      rw [List.cons_append, split, hletter, hdigit]
      simp only [Bool.false_eq_true, if_false, if_true]
      rw [extend_number hdigits hrest]
      simp [Run.tokens]

theorem count_point_of_digits {digits : List Char} (hdigits : ∀ c ∈ digits, c.isDigit = true) :
    digits.count '.' = 0 := by
  rw [List.count_eq_zero]
  exact fun hmem => ne_point_of_isDigit (hdigits _ hmem) rfl

theorem tokens_decimal {whole fraction : List Char} (hfraction : fraction ≠ [])
    (hwholeDigits : ∀ c ∈ whole, c.isDigit = true)
    (hfractionDigits : ∀ c ∈ fraction, c.isDigit = true) :
    (⟨.dottedNumber, false, whole ++ '.' :: fraction⟩ : Run).tokens =
      [whole ++ '.' :: fraction] := by
  have hcount : (whole ++ '.' :: fraction).count '.' = 1 := by
    rw [List.count_append, List.count_cons, count_point_of_digits hwholeDigits,
      count_point_of_digits hfractionDigits]
    rfl
  have hend : ((whole ++ '.' :: fraction).getLast?.map isPoint).getD false = false := by
    have hlast : isPoint (fraction.getLast hfraction) = false := by
      have hdigit := hfractionDigits _ (fraction.getLast_mem hfraction)
      generalize fraction.getLast hfraction = c at hdigit
      unfold isPoint
      rw [Bool.or_eq_false_iff, beq_eq_false_iff_ne, beq_eq_false_iff_ne]
      refine ⟨ne_point_of_isDigit hdigit, ?_⟩
      rintro rfl
      exact absurd hdigit (by decide)
    rw [List.getLast?_append, List.getLast?_cons, List.getLast?_eq_some_getLast hfraction]
    simpa using hlast
  simp only [Run.tokens, hcount, hend]
  simp

theorem split_decimal {whole fraction : List Char} (hwhole : whole ≠ []) (hfraction : fraction ≠ [])
    (hwholeDigits : ∀ c ∈ whole, c.isDigit = true)
    (hfractionDigits : ∀ c ∈ fraction, c.isDigit = true) (hrest : EndsNumeral rest) :
    split (fuel + 1) (whole ++ '.' :: (fraction ++ rest)) =
      (whole ++ '.' :: fraction) :: split fuel rest := by
  have htokens := tokens_decimal hfraction hwholeDigits hfractionDigits
  cases whole with
  | nil => exact absurd rfl hwhole
  | cons c whole =>
      obtain ⟨hc, hwholeDigits⟩ := List.forall_mem_cons.mp hwholeDigits
      obtain ⟨hdigit, hletter, -⟩ := plain_of_isDigit hc
      rw [List.cons_append, split, hletter, hdigit]
      simp only [Bool.false_eq_true, if_false, if_true]
      rw [extend_point hwholeDigits, extend_fraction hfractionDigits hrest (absurd · hfraction)]
      have hchars : ('.' :: (whole.reverse ++ [c])).reverse ++ fraction =
          c :: whole ++ '.' :: fraction := by simp
      rw [hchars, htokens]
      rfl

def marks : List Char := ['-', ':', '+']

theorem plain_marks : ∀ c ∈ marks, Text.isLetter c = false ∧ Text.isDigit c = false ∧
    Text.isBlank c = false ∧ c ≠ '.' ∧ c ≠ ',' :=
  forall_mem_of_all (by decide +kernel)

theorem split_mark {c : Char} (h : c ∈ marks) :
    split (fuel + 1) (c :: rest) = [c] :: split fuel rest := by
  obtain ⟨hletter, hdigit, hblank, -⟩ := plain_marks c h
  rw [split, hletter, hdigit, hblank]
  rfl

theorem endsNumeral_mark {c : Char} (h : c ∈ marks) : EndsNumeral (c :: rest) := by
  obtain ⟨-, hdigit, -, hpoint, hcomma⟩ := plain_marks c h
  rintro d hd
  obtain rfl : c = d := by simpa using hd
  exact ⟨hdigit, hpoint, hcomma⟩

theorem split_letter {c d : Char} (hletter : Text.isLetter c = true)
    (hnext : Text.isLetter d = false) (hpoint : d ≠ '.') :
    split (fuel + 1) (c :: d :: rest) = [c] :: split fuel (d :: rest) := by
  rw [split, hletter, if_pos rfl]
  simp [extend, hnext, hpoint, Run.tokens]

end Tokens

section Text

/-- Offsets of whole minutes, of less than a day. -/
def IsToTheMinute (s : Stamp) : Prop :=
  ∀ offset ∈ s.offset, offset % 60 = 0 ∧ offset.natAbs < 86400

def signOf (offset : Int) : Char :=
  if offset < 0 then '-' else '+'

def zoneTokens : Option Int → List Token
  | none => []
  | some offset => [[signOf offset], fixed 2 (offset.natAbs / 3600), [':'],
      fixed 2 (offset.natAbs / 60 % 60)]

def secondToken (m : Moment) : Token :=
  fixed 2 m.second ++ m.fractionText false

def writtenTokens (s : Stamp) : List Token :=
  fixed 4 s.moment.date.year :: ['-'] :: fixed 2 s.moment.date.month :: ['-'] ::
    fixed 2 s.moment.date.day :: ['T'] :: fixed 2 s.moment.hour :: [':'] ::
      fixed 2 s.moment.minute :: [':'] :: secondToken s.moment :: zoneTokens s.offset

def zoneText : Option Int → List Char
  | none => []
  | some offset => signOf offset :: (fixed 2 (offset.natAbs / 3600) ++
      ':' :: fixed 2 (offset.natAbs / 60 % 60))

theorem toList_text {s : Stamp} (h : IsToTheMinute s) : (s.text 'T').toList =
    fixed 4 s.moment.date.year ++ '-' :: (fixed 2 s.moment.date.month ++ '-' ::
      (fixed 2 s.moment.date.day ++ 'T' :: (fixed 2 s.moment.hour ++ ':' ::
        (fixed 2 s.moment.minute ++ ':' :: (fixed 2 s.moment.second ++
          (s.moment.fractionText false ++ zoneText s.offset)))))) := by
  have hzone : (match s.offset with | none => [] | some o => Calendar.offsetText o) =
      zoneText s.offset := by
    cases hoffset : s.offset with
    | none => rfl
    | some offset =>
        obtain ⟨hminute, hday⟩ := h offset hoffset
        have hseconds : offset.natAbs % 60 = 0 := by omega
        simp only [Calendar.offsetText, hseconds, if_true, List.append_nil, zoneText, signOf]
        rw [Text.padded_eq_fixed (by decide) (by omega), Text.padded_eq_fixed (by decide) (by omega)]
        rfl
  rw [Stamp.text, String.toList_ofList, Moment.toList_textWith_eq]
  simp only [List.append_assoc, List.cons_append]
  exact hzone ▸ rfl

theorem endsNumeral_nil : EndsNumeral [] := nofun

theorem fixed_ne_nil {width n : Nat} (h : 0 < width) : fixed width n ≠ [] :=
  List.ne_nil_of_length_pos (by simpa using h)

theorem split_fixed (fuel : Nat) {width n : Nat} {rest : List Char} (h : 0 < width)
    (hrest : EndsNumeral rest) :
    split (fuel + 1) (fixed width n ++ rest) = fixed width n :: split fuel rest :=
  split_numeral fuel (fixed_ne_nil h) (fun _ => isDigit_of_mem_fixed) hrest

theorem split_nil (fuel : Nat) : split fuel [] = [] := by
  cases fuel <;> rfl

theorem signOf_mem_marks (offset : Int) : signOf offset ∈ marks := by
  unfold signOf
  split <;> decide

theorem endsNumeral_zoneText (offset : Option Int) : EndsNumeral (zoneText offset) := by
  cases offset with
  | none => exact endsNumeral_nil
  | some offset => exact endsNumeral_mark (signOf_mem_marks offset)

theorem split_zoneText (fuel : Nat) (offset : Option Int) :
    split (fuel + 4) (zoneText offset) = zoneTokens offset := by
  cases offset with
  | none => exact split_nil _
  | some offset =>
      have hlast := split_fixed (n := offset.natAbs / 60 % 60) fuel (by decide : 0 < 2)
        endsNumeral_nil
      rw [List.append_nil, split_nil] at hlast
      unfold zoneText zoneTokens
      rw [split_mark _ (signOf_mem_marks offset), split_fixed _ (by decide)
        (endsNumeral_mark (by decide)), split_mark _ (by decide), hlast]

theorem split_second (fuel : Nat) (m : Moment) {rest : List Char} (hrest : EndsNumeral rest) :
    split (fuel + 1) (fixed 2 m.second ++ (m.fractionText false ++ rest)) =
      secondToken m :: split fuel rest := by
  unfold secondToken Moment.fractionText
  split
  · exact split_decimal fuel (fixed_ne_nil (by decide)) (fixed_ne_nil (by decide))
      (fun _ => isDigit_of_mem_fixed) (fun _ => isDigit_of_mem_fixed) hrest
  · rw [List.append_nil, List.nil_append]
    exact split_fixed fuel (by decide) hrest

theorem mem_text {s : Stamp} (h : IsToTheMinute s) :
    ∀ c ∈ (s.text 'T').toList, c.isDigit = true ∨ c ∈ 'T' :: '.' :: marks := by
  have hnumeral : ∀ {width n : Nat}, ∀ c ∈ fixed width n,
      c.isDigit = true ∨ c ∈ 'T' :: '.' :: marks := fun _ hc => .inl (isDigit_of_mem_fixed hc)
  have hfraction : ∀ c ∈ s.moment.fractionText false,
      c.isDigit = true ∨ c ∈ 'T' :: '.' :: marks := by
    unfold Moment.fractionText
    split
    · exact List.forall_mem_cons.mpr ⟨by decide, hnumeral⟩
    · exact List.forall_mem_nil _
  have hzone : ∀ c ∈ zoneText s.offset, c.isDigit = true ∨ c ∈ 'T' :: '.' :: marks := by
    cases s.offset with
    | none => exact List.forall_mem_nil _
    | some offset =>
        unfold zoneText
        simp only [List.forall_mem_cons, List.forall_mem_append]
        exact ⟨.inr (.tail _ (.tail _ (signOf_mem_marks offset))), hnumeral, by decide, hnumeral⟩
  rw [toList_text h]
  simp only [List.forall_mem_cons, List.forall_mem_append]
  exact ⟨hnumeral, by decide, hnumeral, by decide, hnumeral, by decide, hnumeral, by decide,
    hnumeral, by decide, hnumeral, hfraction, hzone⟩

theorem endsNumeral_letter (rest : List Char) : EndsNumeral ('T' :: rest) := by
  have hplain : Text.isDigit 'T' = false ∧ 'T' ≠ '.' ∧ 'T' ≠ ',' := by decide +kernel
  rintro c hc
  obtain rfl : 'T' = c := by simpa using hc
  exact hplain

theorem split_letter_fixed (fuel width n : Nat) (rest : List Char) :
    split (fuel + 1) ('T' :: (fixed (width + 1) n ++ rest)) =
      ['T'] :: split fuel (fixed (width + 1) n ++ rest) := by
  have hletter : Text.isLetter 'T' = true := by decide +kernel
  cases hnumeral : fixed (width + 1) n with
  | nil => exact absurd hnumeral (fixed_ne_nil (by omega))
  | cons c numeral =>
      have hc : c.isDigit = true := isDigit_of_mem_fixed (hnumeral ▸ List.mem_cons_self)
      exact split_letter fuel hletter (plain_of_isDigit hc).2.1 (ne_point_of_isDigit hc)

theorem tokens_text {s : Stamp} (h : IsToTheMinute s) :
    tokens (s.text 'T').toList = writtenTokens s := by
  have hplain : (s.text 'T').toList.filter (· != '\x00') = (s.text 'T').toList := by
    rw [List.filter_eq_self]
    intro c hc
    rw [bne_iff_ne]
    rintro rfl
    exact absurd (mem_text h _ hc) (by decide)
  have hlength : 15 ≤ (s.text 'T').toList.length := by
    rw [toList_text h]
    simp only [List.length_append, List.length_cons, Text.length_fixed]
    omega
  -- There are at most fifteen tokens, so the fuel is enough.
  obtain ⟨fuel, hfuel⟩ := Nat.exists_eq_add_of_le' hlength
  have hmark : ∀ {c : Char} {rest : List Char}, c ∈ marks → EndsNumeral (c :: rest) :=
    endsNumeral_mark
  unfold tokens
  dsimp only
  rw [hplain, hfuel, toList_text h, split_fixed _ (by decide) (hmark (by decide)),
    split_mark _ (by decide), split_fixed _ (by decide) (hmark (by decide)),
    split_mark _ (by decide), split_fixed _ (by decide) (endsNumeral_letter _),
    split_letter_fixed, split_fixed _ (by decide) (hmark (by decide)), split_mark _ (by decide),
    split_fixed _ (by decide) (hmark (by decide)), split_mark _ (by decide),
    split_second _ _ (endsNumeral_zoneText _), split_zoneText]
  rfl

end Text

section Numerals

theorem not_contains_lowered {words : List String} {t : Token} {c : Char} (hc : c ∈ t)
    (hdigit : c.isDigit = true) (hwords : ∀ w ∈ words, w.toList.any Char.isDigit = false) :
    words.contains (lowered t) = false := by
  rw [← Bool.not_eq_true, List.contains_iff_mem]
  intro hmem
  have hlower : c ∈ (lowered t).toList := by
    rw [lowered, String.toList_ofList, ← (plain_of_isDigit hdigit).2.2.1]
    exact List.mem_map_of_mem hc
  exact List.any_eq_false.mp (hwords _ hmem) c hlower hdigit

theorem place?_of_digit {groups : List (List String)} {t : Token} {c : Char} (hc : c ∈ t)
    (hdigit : c.isDigit = true)
    (hwords : ∀ words ∈ groups, ∀ w ∈ words, w.toList.any Char.isDigit = false) :
    place? groups t = none := by
  unfold place?
  rw [List.findIdx?_eq_none_iff]
  exact fun words hmem => not_contains_lowered hc hdigit (hwords words hmem)

variable {width n : Nat}

theorem exists_mem_fixed (h : 0 < width) : ∃ c ∈ fixed width n, c.isDigit = true := by
  obtain ⟨c, hc⟩ := List.exists_mem_of_ne_nil _ (fixed_ne_nil (n := n) h)
  exact ⟨c, hc, isDigit_of_mem_fixed hc⟩

theorem bne_point_of_mem_fixed : ∀ c ∈ fixed width n, (c != '.') = true :=
  fun _ hc => bne_iff_ne.mpr (ne_point_of_isDigit (isDigit_of_mem_fixed hc))

theorem month?_fixed (h : 0 < width) : month? (fixed width n) = none := by
  obtain ⟨c, hc, hdigit⟩ := exists_mem_fixed (n := n) h
  unfold month?
  rw [place?_of_digit hc hdigit (by decide)]
  rfl

theorem isFiller_fixed (h : 0 < width) : isFiller (fixed width n) = false := by
  obtain ⟨c, hc, hdigit⟩ := exists_mem_fixed (n := n) h
  exact not_contains_lowered hc hdigit (by decide)

theorem all_isDigit_fixed : (fixed width n).all Text.isDigit = true :=
  List.all_eq_true.mpr fun _ hc => (plain_of_isDigit (isDigit_of_mem_fixed hc)).1

theorem isNonNumber_of_digit {t : Token} {c : Char} (hc : c ∈ t) (hdigit : c.isDigit = true) :
    isNonNumber t = false :=
  not_contains_lowered hc hdigit (by decide)

theorem natural_fixed (hw : 0 < width) (hmax : width ≤ Text.maxDigits) (h : n < 10 ^ width) :
    natural (fixed width n) = .ok n := by
  rw [natural, Text.natural?_fixed hw hmax h]
  rfl

theorem ofToken?_fixed (hw : 0 < width) (h : n < 10 ^ width) :
    Quantity.ofToken? (fixed width n) = some ⟨n, 0⟩ := by
  obtain ⟨ds, hds, hlength, hvalue⟩ := Text.digitValues?_fixed width n
  have hne : ds ≠ [] := by
    rintro rfl
    simp at hlength
    omega
  unfold Quantity.ofToken?
  rw [List.takeWhile_eq_self_iff.mpr bne_point_of_mem_fixed,
    List.dropWhile_eq_nil_iff.mpr bne_point_of_mem_fixed]
  rw [Nat.mod_eq_of_lt h] at hvalue
  simp [hds, hne, hvalue]

end Numerals

section Steps

namespace DayParts

theorem pushToken_two (p : DayParts) {n : Nat} (h : n < 100) :
    p.pushToken (fixed 2 n) = .ok (p.push n) := by
  unfold pushToken isLongRun
  rw [natural_fixed (by decide) (by decide) h, Text.length_fixed]
  rfl

theorem pushToken_four {p : DayParts} {n : Nat} (h : n < 10000) (hyear : p.yearAt = none) :
    p.pushToken (fixed 4 n) = .ok { p.push n with yearAt := some p.size, century := true } := by
  unfold pushToken isLongRun pushYear
  rw [natural_fixed (by decide) (by decide) h, Text.length_fixed, all_isDigit_fixed, hyear]
  rfl

end DayParts

def dayOf (d : Date) : DayParts where
  values := [d.year, d.month, d.day]
  yearAt := some 0
  century := true

/-- A numeral of two or four digits that is neither an hour on its own nor a quantity of some unit is
explained by the mark behind it. -/
theorem number_before_mark {before rest : List Token} {t next second : Token} {q : Quantity}
    {r : Reading} (hlength : t.length = 2 ∨ t.length = 4)
    (hfull : r.parts.size = 3 → standsAlone (next :: second :: rest) = false)
    (hunit : unitOf? before (next :: second :: rest) = none) :
    number before t q (next :: second :: rest) r =
      if next = [':'] then clock q second rest r
      else if isSeparator next then separated t next (second :: rest) r
      else plainNumber q (next :: second :: rest) r := by
  have halone : ¬(r.parts.size = 3 ∧ (t.length = 2 ∨ t.length = 4) ∧ r.hour.isNone = true ∧
      standsAlone (next :: second :: rest) = true) := by
    rintro ⟨hsize, -, -, hstands⟩
    rw [hfull hsize] at hstands
    cases hstands
  unfold number
  rw [if_neg halone, if_neg (by omega), if_neg (by omega), hunit]

theorem separated_day (d : Date) (rest : List Token) :
    separated (fixed 4 d.year) ['-'] (fixed 2 d.month :: ['-'] :: fixed 2 d.day :: rest) {} =
      .ok ({ parts := dayOf d }, 4) := by
  obtain ⟨-, hy, -, hm, -, -⟩ := d.valid_parts
  have hd := d.day_le
  have hmember : ∀ p : DayParts, pushSecondMember p (fixed 2 d.month) = .ok (p.push d.month) := by
    intro p
    rw [pushSecondMember, all_isDigit_fixed, if_pos rfl, p.pushToken_two (by omega)]
  have hday : ∀ p : DayParts, pushNameOrToken p (fixed 2 d.day) = .ok (p.push d.day) := by
    intro p
    rw [pushNameOrToken, month?_fixed (by decide), p.pushToken_two (by omega)]
  unfold separated
  rw [DayParts.pushToken_four (by omega) rfl]
  simp only [bind, Except.bind, isFiller_fixed (by decide : 0 < 2), hmember, List.head?_cons,
    require, hday, Bool.false_eq_true, if_false, if_true]
  rfl

/-- The day in front takes five tokens. -/
theorem step_day (thisYear : Nat) (d : Date) (rest : List Token) :
    step thisYear [] (fixed 4 d.year)
      (['-'] :: fixed 2 d.month :: ['-'] :: fixed 2 d.day :: rest) {} =
        .ok ({ parts := dayOf d }, 4) := by
  obtain ⟨c, hc, hdigit⟩ : ∃ c ∈ fixed 4 d.year, c.isDigit = true := exists_mem_fixed (by decide)
  have hyear : d.year < 10 ^ 4 := by
    have hy := d.valid_parts.2.1
    omega
  have hunit : unitOf? [] (['-'] :: fixed 2 d.month :: ['-'] :: fixed 2 d.day :: rest) = none := by
    have hmark : unit? ['-'] = none := by decide
    simp [unitOf?, hmark]
  unfold step
  rw [isNonNumber_of_digit hc hdigit, ofToken?_fixed (by decide) hyear, if_neg Bool.false_ne_true]
  dsimp only
  rw [number_before_mark (.inr (Text.length_fixed 4 d.year)) (absurd · (by decide)) hunit]
  exact separated_day d rest

/-- The letter between day and time only fills space. -/
theorem step_letter (thisYear : Nat) (before after : List Token) {r : Reading} (h : r.hour = none) :
    step thisYear before ['T'] after r = .ok (r, 0) := by
  have hword : isNonNumber ['T'] = false ∧ Quantity.ofToken? ['T'] = none ∧ weekday? ['T'] = none ∧
      month? ['T'] = none ∧ afternoon? ['T'] = none ∧ isFiller ['T'] = true := by
    decide +kernel
  obtain ⟨hnumber, htoken, hday, hmonth, hhalf, hfiller⟩ := hword
  unfold step
  simp [hnumber, htoken, hday, hmonth, hhalf, hfiller, h]

theorem sixtieths?_of_whole {n : Nat} (h : n < 100) :
    (⟨n, 0⟩ : Quantity).sixtieths? = .ok none := by
  have hwhole : (⟨n, 0⟩ : Quantity).whole = n := Nat.div_one n
  have hlarge : 100 ≤ Nat.pow 10 Quantity.precision := by decide
  have hfraction : (⟨n, 0⟩ : Quantity).fraction = .ok ⟨0, 0⟩ := by
    unfold Quantity.fraction
    rw [hwhole, if_neg (by omega)]
    have hnone : n % Nat.pow 10 0 = 0 := Nat.mod_one n
    have hround : Quantity.round ⟨0, 0⟩ = ⟨0, 0⟩ := by
      have hdecimal : Text.decimal 0 = ['0'] := by
        rw [Text.decimal]
        rfl
      rw [Quantity.round, hdecimal]
      rfl
    dsimp only
    rw [hnone, hround]
  unfold Quantity.sixtieths?
  rw [hfraction]
  rfl

theorem microseconds_fixed {n : Nat} (h : n < 1000000) : microseconds (fixed 6 n) = .ok n := by
  have hfilled : (fixed 6 n ++ List.replicate (6 - (fixed 6 n).length) '0').take 6 = fixed 6 n := by
    rw [Text.length_fixed, Nat.sub_self, List.replicate_zero, List.append_nil,
      List.take_of_length_le (by simp)]
  rw [microseconds, hfilled, natural_fixed (by decide) (by decide) h]

theorem secondsOf_secondToken (m : Moment) :
    secondsOf (secondToken m) = .ok (m.second, m.microsecond) := by
  obtain ⟨-, -, hs, hus⟩ := m.valid_parts
  unfold secondToken Moment.fractionText
  rw [Bool.false_or]
  by_cases hnone : m.microsecond = 0
  · rw [hnone, if_neg (by decide), List.append_nil]
    unfold secondsOf
    rw [List.dropWhile_eq_nil_iff.mpr bne_point_of_mem_fixed]
    simp only [natural_fixed (by decide : 0 < 2) (by decide) (by omega : m.second < 10 ^ 2)]
    rfl
  · have hsome : (m.microsecond != 0) = true := bne_iff_ne.mpr hnone
    have hpoint : (fixed 6 m.microsecond).contains '.' = false := by
      rw [← Bool.not_eq_true, List.contains_iff_mem]
      exact fun hmem => ne_point_of_isDigit (isDigit_of_mem_fixed hmem) rfl
    rw [hsome, if_pos rfl]
    unfold secondsOf
    rw [List.dropWhile_append_of_pos bne_point_of_mem_fixed,
      List.takeWhile_append_of_pos bne_point_of_mem_fixed, List.dropWhile_cons_of_neg (by decide),
      List.takeWhile_cons_of_neg (by decide), List.append_nil]
    simp only [natural_fixed (by decide : 0 < 2) (by decide) (by omega : m.second < 10 ^ 2), hpoint,
      microseconds_fixed hus]
    rfl

theorem step_clock (thisYear : Nat) (m : Moment) (b : Token) (before rest : List Token)
    (r : Reading) :
    step thisYear (['T'] :: b :: before) (fixed 2 m.hour)
      ([':'] :: fixed 2 m.minute :: [':'] :: secondToken m :: rest) r =
        .ok ({ r with
          hour := some m.hour
          minute := some m.minute
          second := some m.second
          microsecond := some m.microsecond }, 4) := by
  obtain ⟨hh, hmi, -, -⟩ := m.valid_parts
  obtain ⟨c, hc, hdigit⟩ : ∃ c ∈ fixed 2 m.hour, c.isDigit = true := exists_mem_fixed (by decide)
  have hunit : unitOf? (['T'] :: b :: before)
      ([':'] :: fixed 2 m.minute :: [':'] :: secondToken m :: rest) = none := by
    have hmark : unit? [':'] = none ∧ unit? ['T'] = none := by decide
    simp [unitOf?, hmark]
  have hwhole : ∀ n : Nat, (⟨n, 0⟩ : Quantity).whole = n := Nat.div_one
  unfold step
  rw [isNonNumber_of_digit hc hdigit, ofToken?_fixed (by decide) (by omega),
    if_neg Bool.false_ne_true]
  dsimp only
  rw [number_before_mark (.inl (Text.length_fixed 2 m.hour)) (fun _ => rfl) hunit, if_pos rfl]
  unfold clock Reading.withMinutes Reading.withSeconds
  rw [ofToken?_fixed (by decide) (by omega)]
  simp only [bind, Except.bind, require, sixtieths?_of_whole (by omega : m.minute < 100), if_true,
    secondsOf_secondToken, hwhole]
  rfl

theorem signs_say_nothing : ∀ c ∈ ['-', '+'], isNonNumber [c] = false ∧
    Quantity.ofToken? [c] = none ∧ weekday? [c] = none ∧ month? [c] = none ∧ afternoon? [c] = none ∧
      isZoneName [c] = false ∧ ([c] = ['+'] ∨ [c] = ['-']) :=
  forall_mem_of_all (by decide +kernel)

section Offset

variable {o : Int}

theorem offsetParts_fixed (hday : o.natAbs < 86400) :
    offsetParts [fixed 2 (o.natAbs / 3600), [':'], fixed 2 (o.natAbs / 60 % 60)] =
      .ok (o.natAbs / 3600, o.natAbs / 60 % 60, 3) := by
  have hhours : natural (fixed 2 (o.natAbs / 3600)) = .ok (o.natAbs / 3600) :=
    natural_fixed (by decide) (by decide) (by omega)
  have hminutes : natural (fixed 2 (o.natAbs / 60 % 60)) = .ok (o.natAbs / 60 % 60) :=
    natural_fixed (by decide) (by decide) (by omega)
  unfold offsetParts
  simp only [Text.length_fixed, List.head?_cons, List.drop_one, List.tail_cons, require, bind,
    Except.bind, if_true, hhours, hminutes]
  rfl

theorem signed_seconds (hminute : o % 60 = 0) :
    (if (([signOf o] == ['+']) != false) = true then
      ((o.natAbs / 3600 : Nat) : Int) * 3600 + ((o.natAbs / 60 % 60 : Nat) : Int) * 60
    else -(((o.natAbs / 3600 : Nat) : Int) * 3600 + ((o.natAbs / 60 % 60 : Nat) : Int) * 60)) =
      o := by
  unfold signOf
  by_cases hnegative : o < 0
  · simp only [hnegative, if_true]
    rw [if_neg (by decide)]
    omega
  · simp only [hnegative, if_false]
    rw [if_pos (by decide)]
    omega

/-- A sign behind the time begins an offset. -/
theorem step_sign (thisYear : Nat) (before : List Token) {r : Reading} (hminute : o % 60 = 0)
    (hday : o.natAbs < 86400) (hhour : r.hour.isSome = true) (hinverted : r.inverted = false) :
    step thisYear before [signOf o] [fixed 2 (o.natAbs / 3600), [':'],
      fixed 2 (o.natAbs / 60 % 60)] r = .ok ({ r with zoneOffset := some o }, 3) := by
  have hsign : signOf o ∈ ['-', '+'] := by
    unfold signOf
    split <;> decide
  obtain ⟨hnumber, htoken, hweekday, hmonth, hhalf, hzone, hsigned⟩ := signs_say_nothing _ hsign
  unfold step
  rw [hnumber, htoken, hweekday, hmonth, hhalf, hzone, if_neg Bool.false_ne_true]
  dsimp only
  rw [if_neg (by simp), if_pos ⟨hhour, hsigned⟩]
  unfold offset
  rw [offsetParts_fixed hday]
  simp only [bind, Except.bind, hinverted, List.drop, signed_seconds hminute]
  rfl

end Offset

end Steps

section Read

/-- What the tokens of a written stamp say. -/
def readingOf (s : Stamp) : Reading where
  parts := dayOf s.moment.date
  hour := some s.moment.hour
  minute := some s.moment.minute
  second := some s.moment.second
  microsecond := some s.moment.microsecond
  zoneOffset := s.offset

theorem readTokens_of_step {thisYear fuel used : Nat} {before after : List Token} {t : Token}
    {r r' : Reading} (h : step thisYear before t after r = .ok (r', used)) :
    readTokens thisYear (fuel + 1) before (t :: after) r =
      readTokens thisYear fuel ((after.take used).reverse ++ t :: before) (after.drop used) r' := by
  rw [readTokens, h]
  rfl

theorem readTokens_zoneTokens (thisYear fuel : Nat) {s : Stamp} (h : IsToTheMinute s)
    (before : List Token) :
    readTokens thisYear (fuel + 1) before (zoneTokens s.offset)
      { readingOf s with zoneOffset := none } = .ok (readingOf s) := by
  unfold readingOf
  cases hoffset : s.offset with
  | none => rfl
  | some offset =>
      obtain ⟨hminute, hday⟩ := h offset hoffset
      rw [zoneTokens, readTokens_of_step (step_sign thisYear before hminute hday rfl rfl)]
      cases fuel <;> rfl

theorem readTokens_writtenTokens (thisYear : Nat) {s : Stamp} (h : IsToTheMinute s) :
    readTokens thisYear (writtenTokens s).length [] (writtenTokens s) {} = .ok (readingOf s) := by
  obtain ⟨fuel, hfuel⟩ :=
    Nat.exists_eq_add_of_le' (by simp [writtenTokens] : 4 ≤ (writtenTokens s).length)
  rw [hfuel]
  unfold writtenTokens
  refine (readTokens_of_step (step_day thisYear s.moment.date _)).trans ?_
  refine (readTokens_of_step (step_letter thisYear _ _ rfl)).trans ?_
  refine (readTokens_of_step (step_clock thisYear s.moment _ _ _ _)).trans ?_
  exact readTokens_zoneTokens thisYear fuel h _

theorem resolve_dayOf (d : Date) : (dayOf d).resolve =
    .ok { year := some d.year, month := some d.month, day := some d.day } := by
  simp [DayParts.resolve, dayOf, DayParts.size]

theorem stamp_readingOf (today : Date) (s : Stamp) : (readingOf s).stamp today = .ok s := by
  have hdate : Date.ofParts? s.moment.date.year s.moment.date.month s.moment.date.day =
      some s.moment.date := by
    simp [Date.ofParts?, s.moment.date.valid]
  have hmoment : Moment.ofParts? s.moment.date s.moment.hour s.moment.minute s.moment.second
      s.moment.microsecond = some s.moment := by
    simp [Moment.ofParts?, s.moment.valid]
  have hday : (readingOf s).parts.resolve = _ := resolve_dayOf s.moment.date
  unfold Reading.stamp
  rw [hday]
  simp only [bind, Except.bind, Reading.isEmpty, readingOf, dayOf, dateOf, Option.getD_some,
    Option.isNone_some, Bool.false_and, Bool.false_eq_true, if_false, if_true, hdate, require,
    hmoment]
  rfl

/-- A stamp is read as it is written. -/
theorem read_text (today : Date) {s : Stamp} (h : IsToTheMinute s) :
    read today (s.text 'T') = .ok s := by
  unfold read
  rw [tokens_text h]
  dsimp only
  rw [readTokens_writtenTokens today.year h]
  exact stamp_readingOf today s

theorem IsToTheMinute.natAbs_lt {s : Stamp} (h : IsToTheMinute s) :
    (s.offset.getD 0).natAbs < 86400 := by
  cases hoffset : s.offset with
  | none => decide
  | some offset => exact (h offset hoffset).2

theorem readUniversal_text (today : Date) {s : Stamp} (h : IsToTheMinute s) :
    readUniversal today (s.text 'T') = require s.universal? := by
  unfold readUniversal
  rw [read_text today h]
  simp only [bind, Except.bind]
  rw [if_neg (Nat.not_le_of_lt h.natAbs_lt)]

theorem trim_text {raw : String} {s : Stamp} (h : IsToTheMinute s) {left right : List Char}
    (text : raw.toList = left ++ (s.text 'T').toList ++ right)
    (hleft : ∀ c ∈ left, Text.isBlank c = true) (hright : ∀ c ∈ right, Text.isBlank c = true) :
    Text.trim raw = s.text 'T' := by
  have hplain : ∀ c ∈ (s.text 'T').toList, Text.isBlank c = false := by
    have hmarks : ∀ c ∈ 'T' :: '.' :: marks, Text.isBlank c = false :=
      forall_mem_of_all (by decide)
    intro c hc
    rcases mem_text h c hc with hdigit | hmark
    · exact (plain_of_isDigit hdigit).2.2.2
    · exact hmarks c hmark
  have htrimmed : Text.IsTrimmed Text.isBlank (s.text 'T').toList :=
    ⟨fun c hc => hplain c (List.mem_of_mem_head? hc), fun c hc => hplain c (List.mem_of_getLast? hc)⟩
  rw [Text.trim, text, Text.trimBy_append hleft hright, htrimmed.trimBy_eq, String.ofList_toList]

theorem isAllBlank_text {raw : String} {s : Stamp} (h : IsToTheMinute s) {left right : List Char}
    (text : raw.toList = left ++ (s.text 'T').toList ++ right)
    (hleft : ∀ c ∈ left, Text.isBlank c = true) (hright : ∀ c ∈ right, Text.isBlank c = true) :
    Text.isAllBlank raw = false := by
  have hne : (s.text 'T').toList ≠ [] := by
    rw [toList_text h]
    exact List.append_ne_nil_of_right_ne_nil _ (List.cons_ne_nil _ _)
  rw [← Text.isEmpty_trim, trim_text h text hleft hright, Bool.eq_false_iff, ne_eq,
    String.isEmpty_iff]
  intro hempty
  exact hne (by rw [hempty]; rfl)

end Read

end Catalogue.Timestamp

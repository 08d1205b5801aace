import Catalogue.Field.Wildcard
import Catalogue.Relational.Like
import Mathlib.Data.List.Forall2

/-!
What a LIKE pattern stands for, and the pattern that is written for a wildcard. With any escape
character, the pattern of a wildcard stands for the texts that the wildcard is about and no others.
-/

namespace Catalogue

namespace Relational

/-- The texts that a pattern stands for. Characters are compared by `same`; where letters count as
they are written, that is equality. -/
inductive StandsFor (same : Char → Char → Prop) (escape : Char) : List Char → List Char → Prop
  | nothing : StandsFor same escape [] []
  | escaped {c d : Char} {pattern text : List Char} (hcd : same c d)
      (h : StandsFor same escape pattern text) :
      StandsFor same escape (escape :: c :: pattern) (d :: text)
  | anything (before : List Char) {pattern text : List Char} (hmark : '%' ≠ escape)
      (h : StandsFor same escape pattern text) :
      StandsFor same escape ('%' :: pattern) (before ++ text)
  | anyChar (d : Char) {pattern text : List Char} (hmark : '_' ≠ escape)
      (h : StandsFor same escape pattern text) :
      StandsFor same escape ('_' :: pattern) (d :: text)
  | exactly {c d : Char} {pattern text : List Char} (hescape : c ≠ escape) (hany : c ≠ '%')
      (hchar : c ≠ '_') (hcd : same c d) (h : StandsFor same escape pattern text) :
      StandsFor same escape (c :: pattern) (d :: text)

section StandsFor

variable {same : Char → Char → Prop} {escape c : Char} {pattern text : List Char}

theorem standsFor_nil : StandsFor same escape [] text ↔ text = [] := by
  constructor
  · intro h
    cases h
    rfl
  · rintro rfl
    exact .nothing

theorem not_standsFor_escape : ¬StandsFor same escape [escape] text := by
  intro h
  cases h with
  | anything before hmark h => exact hmark rfl
  | anyChar d hmark h => exact hmark rfl
  | exactly hescape _ _ _ _ => exact hescape rfl

theorem standsFor_escaped : StandsFor same escape (escape :: c :: pattern) text ↔
    ∃ d rest, text = d :: rest ∧ same c d ∧ StandsFor same escape pattern rest := by
  constructor
  · intro h
    cases h with
    | escaped hcd h => exact ⟨_, _, rfl, hcd, h⟩
    | anything before hmark h => exact absurd rfl hmark
    | anyChar d hmark h => exact absurd rfl hmark
    | exactly hescape _ _ _ _ => exact absurd rfl hescape
  · rintro ⟨d, rest, rfl, hcd, h⟩
    exact .escaped hcd h

theorem standsFor_anything (hmark : '%' ≠ escape) : StandsFor same escape ('%' :: pattern) text ↔
    ∃ before rest, text = before ++ rest ∧ StandsFor same escape pattern rest := by
  constructor
  · intro h
    cases h with
    | escaped hcd h => exact absurd rfl hmark
    | anything before _ h => exact ⟨before, _, rfl, h⟩
    | exactly _ hany _ _ _ => exact absurd rfl hany
  · rintro ⟨before, rest, rfl, h⟩
    exact .anything before hmark h

theorem standsFor_anyChar (hmark : '_' ≠ escape) : StandsFor same escape ('_' :: pattern) text ↔
    ∃ d rest, text = d :: rest ∧ StandsFor same escape pattern rest := by
  constructor
  · intro h
    cases h with
    | escaped hcd h => exact absurd rfl hmark
    | anyChar d _ h => exact ⟨d, _, rfl, h⟩
    | exactly _ _ hchar _ _ => exact absurd rfl hchar
  · rintro ⟨d, rest, rfl, h⟩
    exact .anyChar d hmark h

theorem standsFor_exactly (hescape : c ≠ escape) (hany : c ≠ '%') (hchar : c ≠ '_') :
    StandsFor same escape (c :: pattern) text ↔
      ∃ d rest, text = d :: rest ∧ same c d ∧ StandsFor same escape pattern rest := by
  constructor
  · intro h
    cases h with
    | escaped hcd h => exact absurd rfl hescape
    | anything before _ h => exact absurd rfl hany
    | anyChar d _ h => exact absurd rfl hchar
    | exactly _ _ _ hcd h => exact ⟨_, _, rfl, hcd, h⟩
  · rintro ⟨d, rest, rfl, hcd, h⟩
    exact .exactly hescape hany hchar hcd h

end StandsFor

section Like

variable {escape : Char} {pattern rest text : List Char}

theorem likeParts?_cons {c : Char} (h : c ≠ escape) (rest : List Char) :
    likeParts? escape (c :: rest) = (likeParts? escape rest).map
      ((if c = '%' then .anything else if c = '_' then .anyChar else .exactly c) :: ·) := by
  cases rest with
  | nil => simp [likeParts?, h]
  | cons d rest => rw [likeParts?, if_neg h]

theorem likeParts?_escaped (c : Char) (rest : List Char) :
    likeParts? escape (escape :: c :: rest) = (likeParts? escape rest).map (.exactly c :: ·) := by
  rw [likeParts?, if_pos rfl]

theorem like_iff_exists : like escape pattern text = true ↔
    ∃ parts, likeParts? escape pattern = some parts ∧ matchesParts parts text = true := by
  unfold like
  cases likeParts? escape pattern <;> simp

section Part

variable {part : LikePart} (hpart : likeParts? escape pattern = (likeParts? escape rest).map (part :: ·))
include hpart

theorem like_iff_of_part : like escape pattern text = true ↔
    ∃ parts, likeParts? escape rest = some parts ∧ matchesParts (part :: parts) text = true := by
  rw [like_iff_exists, hpart]
  cases likeParts? escape rest <;> simp

theorem like_of_anything (h : part = .anything) : like escape pattern text = true ↔
    ∃ before after, text = before ++ after ∧ like escape rest after = true := by
  subst h
  simp only [like_iff_of_part hpart, like_iff_exists, matchesParts, List.any_eq_true, mem_tails_iff]
  constructor
  · rintro ⟨parts, hparts, after, ⟨before, rfl⟩, h⟩
    exact ⟨before, after, rfl, parts, hparts, h⟩
  · rintro ⟨before, after, rfl, parts, hparts, h⟩
    exact ⟨parts, hparts, after, ⟨before, rfl⟩, h⟩

theorem like_of_anyChar (h : part = .anyChar) : like escape pattern text = true ↔
    ∃ d after, text = d :: after ∧ like escape rest after = true := by
  subst h
  rw [like_iff_of_part hpart]
  cases text with
  | nil => simp [matchesParts]
  | cons d after => simp [matchesParts, like_iff_exists]

theorem like_of_exactly {c : Char} (h : part = .exactly c) : like escape pattern text = true ↔
    ∃ d after, text = d :: after ∧ agree c d = true ∧ like escape rest after = true := by
  subst h
  rw [like_iff_of_part hpart]
  cases text with
  | nil => simp [matchesParts]
  | cons d after =>
      simp only [matchesParts, Bool.and_eq_true, like_iff_exists]
      constructor
      · rintro ⟨parts, hparts, hcd, h⟩
        exact ⟨d, after, rfl, hcd, parts, hparts, h⟩
      · rintro ⟨d, after, ⟨⟩, hcd, parts, hparts, h⟩
        exact ⟨parts, hparts, hcd, h⟩

end Part

theorem like_cons_iff_standsFor {c : Char} (hescape : c ≠ escape)
    (ih : ∀ text, like escape rest text = true ↔
      StandsFor (fun c d => agree c d = true) escape rest text) :
    like escape (c :: rest) text = true ↔
      StandsFor (fun c d => agree c d = true) escape (c :: rest) text := by
  have hpart := likeParts?_cons hescape rest
  by_cases hany : c = '%'
  · subst hany
    simp only [like_of_anything hpart rfl, ih, standsFor_anything hescape]
  · by_cases hchar : c = '_'
    · subst hchar
      simp only [like_of_anyChar hpart rfl, ih, standsFor_anyChar hescape]
    · rw [if_neg hany, if_neg hchar] at hpart
      simp only [like_of_exactly hpart rfl, ih, standsFor_exactly hescape hany hchar]

/-- The texts that are found are those that the pattern stands for, but for the case of ASCII
letters. -/
theorem like_iff_standsFor : like escape pattern text = true ↔
    StandsFor (fun c d => agree c d = true) escape pattern text := by
  induction pattern using likeParts?.induct escape generalizing text with
  | case1 =>
      rw [standsFor_nil]
      cases text <;> simp [like, likeParts?, matchesParts]
  | case2 =>
      refine iff_of_false ?_ not_standsFor_escape
      simp [like, likeParts?]
  | case3 c hescape =>
      apply like_cons_iff_standsFor hescape
      intro text
      rw [standsFor_nil]
      cases text <;> simp [like, likeParts?, matchesParts]
  | case4 c rest ih =>
      simp only [like_of_exactly (likeParts?_escaped c rest) rfl, ih, standsFor_escaped]
  | case5 c d rest hescape ih => exact like_cons_iff_standsFor hescape fun _ => ih

end Like

end Relational

namespace Wildcard

open Relational (StandsFor standsFor_nil standsFor_escaped standsFor_anything standsFor_exactly)

theorem replaceAll_singleton (c : Char) (new s : List Char) :
    replaceAll [c] new s = s.flatMap fun d => if d = c then new else [d] := by
  change replaceAll.go [c] new 0 s = _
  induction s with
  | nil => rfl
  | cons d rest ih =>
      rw [replaceAll.go, List.flatMap_cons, ← ih]
      by_cases h : d = c
      · simp [h]
      · simp [h, Ne.symm h]

/-- A character as it stands in a pattern, where it is to mean itself. -/
def escapedAs (escape c : Char) : List Char :=
  if c = escape ∨ c = '%' ∨ c = '_' then [escape, c] else [c]

/-- A pattern in which, read from the left, each escape character stands before another one or
before a mark. -/
inductive WellEscaped (escape : Char) : List Char → Prop
  | nothing : WellEscaped escape []
  | other {c : Char} {pattern : List Char} (hescape : c ≠ escape) (h : WellEscaped escape pattern) :
      WellEscaped escape (c :: pattern)
  | escaped {c : Char} {pattern : List Char} (hc : c = escape ∨ c = '%' ∨ c = '_')
      (h : WellEscaped escape pattern) : WellEscaped escape (escape :: c :: pattern)

section Escape

variable {escape : Char} (hany : escape ≠ '%') (hchar : escape ≠ '_')

include hany hchar in
/-- One kind after the other is as good as all at once. -/
theorem escaped_singleton (text : List Char) :
    escaped [escape] text = text.flatMap (escapedAs escape) := by
  have hone : ∀ c : Char, (((if c = escape then [escape, escape] else [c]).flatMap fun d =>
      if d = '%' then [escape, '%'] else [d]).flatMap fun d =>
        if d = '_' then [escape, '_'] else [d]) = escapedAs escape c := by
    intro c
    unfold escapedAs
    by_cases hescape : c = escape
    · simp [hescape, hany, hchar]
    · by_cases hc : c = '%'
      · simp [hc, hany.symm, hchar]
      · by_cases hc' : c = '_' <;> simp [hescape, hc, hc', hchar.symm]
  unfold escaped
  rw [replaceAll_singleton, replaceAll_singleton, replaceAll_singleton, List.flatMap_assoc,
    List.flatMap_assoc]
  congr 1
  funext c
  rw [← hone c, List.flatMap_assoc]
  rfl

theorem WellEscaped.append {pattern rest : List Char} (h : WellEscaped escape pattern)
    (hrest : WellEscaped escape rest) : WellEscaped escape (pattern ++ rest) := by
  induction h with
  | nothing => exact hrest
  | other hescape _ ih => exact .other hescape ih
  | escaped hc _ ih => exact .escaped hc ih

theorem wellEscaped_flatMap (text : List Char) :
    WellEscaped escape (text.flatMap (escapedAs escape)) := by
  induction text with
  | nil => exact .nothing
  | cons c rest ih =>
      rw [List.flatMap_cons]
      refine .append ?_ ih
      unfold escapedAs
      split
      · rename_i hc
        exact .escaped hc .nothing
      · rename_i hc
        exact .other (fun h => hc (.inl h)) .nothing

theorem standsFor_flatMap {same : Char → Char → Prop} (text tail s : List Char) :
    StandsFor same escape (text.flatMap (escapedAs escape) ++ tail) s ↔
      ∃ mid rest, s = mid ++ rest ∧ List.Forall₂ same text mid ∧ StandsFor same escape tail rest := by
  induction text generalizing s with
  | nil => simp
  | cons c text ih =>
      have hone : ∀ pattern : List Char, StandsFor same escape (escapedAs escape c ++ pattern) s ↔
          ∃ d rest, s = d :: rest ∧ same c d ∧ StandsFor same escape pattern rest := by
        intro pattern
        unfold escapedAs
        split
        · exact standsFor_escaped
        · rename_i hc
          rw [not_or, not_or] at hc
          exact standsFor_exactly hc.1 hc.2.1 hc.2.2
      rw [List.flatMap_cons, List.append_assoc, hone]
      simp only [ih]
      constructor
      · rintro ⟨d, _, rfl, hcd, mid, rest, rfl, hmid, h⟩
        exact ⟨d :: mid, rest, rfl, .cons hcd hmid, h⟩
      · rintro ⟨_, rest, rfl, hmid, h⟩
        cases hmid with
        | cons hcd hmid => exact ⟨_, _, rfl, hcd, _, rest, rfl, hmid, h⟩

include hany hchar

theorem toList_toLike (w : Wildcard) :
    (w.toLike (.singleton escape)).toList =
      (if w.leading then ['%'] else []) ++
        (w.text.toList.flatMap (escapedAs escape) ++ if w.trailing then ['%'] else []) := by
  simp only [toLike, String.toList_singleton, escaped_singleton hany hchar, String.toList_ofList,
    List.append_assoc]

theorem wellEscaped_toLike (w : Wildcard) :
    WellEscaped escape (w.toLike (.singleton escape)).toList := by
  have hmark : ∀ b : Bool, WellEscaped escape (if b then ['%'] else []) := by
    intro b
    cases b with
    | false => exact .nothing
    | true => exact .other hany.symm .nothing
  rw [toList_toLike hany hchar]
  exact (hmark _).append ((wellEscaped_flatMap _).append (hmark _))

/-- The pattern of a wildcard stands for its text, with anything before or behind it where that end
is open. -/
theorem standsFor_toLike {same : Char → Char → Prop} (w : Wildcard) (s : List Char) :
    StandsFor same escape (w.toLike (.singleton escape)).toList s ↔
      ∃ before mid after, s = before ++ mid ++ after ∧ List.Forall₂ same w.text.toList mid ∧
        (w.leading = false → before = []) ∧ (w.trailing = false → after = []) := by
  have htail : ∀ rest : List Char,
      StandsFor same escape (if w.trailing then ['%'] else []) rest ↔
        (w.trailing = false → rest = []) := by
    intro rest
    cases w.trailing with
    | false => simp [standsFor_nil]
    | true => simp [standsFor_anything hany.symm, standsFor_nil]
  rw [toList_toLike hany hchar]
  cases w.leading with
  | false =>
      simp only [Bool.false_eq_true, if_false, List.nil_append, standsFor_flatMap, htail]
      constructor
      · rintro ⟨mid, after, rfl, hmid, hafter⟩
        exact ⟨[], mid, after, rfl, hmid, fun _ => rfl, hafter⟩
      · rintro ⟨before, mid, after, rfl, hmid, hbefore, hafter⟩
        rw [hbefore trivial]
        exact ⟨mid, after, rfl, hmid, hafter⟩
  | true =>
      simp only [if_true, List.singleton_append, standsFor_anything hany.symm, standsFor_flatMap,
        htail]
      constructor
      · rintro ⟨before, _, rfl, mid, after, rfl, hmid, hafter⟩
        exact ⟨before, mid, after, by simp, hmid, by simp, hafter⟩
      · rintro ⟨before, mid, after, rfl, hmid, -, hafter⟩
        exact ⟨before, mid ++ after, by simp, mid, after, rfl, hmid, hafter⟩

end Escape

/-- With any escape character but the marks, the pattern of a wildcard is escaped throughout, and it
stands for the texts in which the wildcard's text has something before it only at an open start and
something behind it only at an open end. -/
theorem patterns_stand_for_covered_texts (w : Wildcard) {escape : Char} (hany : escape ≠ '%')
    (hchar : escape ≠ '_') :
    WellEscaped escape (w.toLike (.singleton escape)).toList ∧
      ∀ s : String, StandsFor Eq escape (w.toLike (.singleton escape)).toList s.toList ↔
        ∃ before after : String, s = before ++ w.text ++ after ∧
          (w.leading = false → before = "") ∧ (w.trailing = false → after = "") := by
  refine ⟨wellEscaped_toLike hany hchar w, fun s => ?_⟩
  rw [standsFor_toLike hany hchar]
  simp only [List.forall₂_eq_eq_eq]
  constructor
  · rintro ⟨before, _, after, hs, rfl, hbefore, hafter⟩
    refine ⟨.ofList before, .ofList after, String.toList_injective (by simp [hs]), ?_, ?_⟩
    · intro hleading
      rw [hbefore hleading]
    · intro htrailing
      rw [hafter htrailing]
  · rintro ⟨before, after, rfl, hbefore, hafter⟩
    refine ⟨before.toList, _, after.toList, by simp, rfl, ?_, ?_⟩
    · intro hleading
      rw [hbefore hleading, String.toList_empty]
    · intro htrailing
      rw [hafter htrailing, String.toList_empty]

/-- The text has marks and the escape character next to each other. -/
theorem pattern_of_marked_text :
    (toLike { text := "!%_!", trailing := true } "!").toList = "!!!%!_!!%".toList ∧
      WellEscaped '!' "!!!%!_!!%".toList ∧
      StandsFor Eq '!' "!!!%!_!!%".toList "!%_! sale".toList ∧
      ¬StandsFor Eq '!' "!!!%!_!!%".toList "!a_! sale".toList := by
  have hpattern : (toLike { text := "!%_!", trailing := true } "!").toList = "!!!%!_!!%".toList := by
    decide
  have hescape : String.singleton '!' = "!" := by decide
  have hexact := patterns_stand_for_covered_texts { text := "!%_!", trailing := true }
    (by decide : '!' ≠ '%') (by decide)
  rw [hescape, hpattern] at hexact
  refine ⟨hpattern, hexact.1, (hexact.2 _).mpr ⟨"", " sale", by decide, by simp, by simp⟩, ?_⟩
  rw [hexact.2]
  rintro ⟨before, after, hs, hbefore, -⟩
  rw [hbefore rfl] at hs
  have hlist := congrArg String.toList hs
  simp at hlist

end Wildcard

end Catalogue

import Catalogue.Proofs.Field.Like

/-!
How wildcards are written: a text between the marks of its open ends. Reading takes a text apart at
the marks and loses nothing, so a wildcard is read from one text only.
-/

namespace Catalogue.Wildcard

def written (w : Wildcard) : String :=
  (if w.leading then "%" else "") ++ w.text ++ if w.trailing then "%" else ""

/-- A text without the mark that it starts with, if it does. -/
def withoutMark : List Char → List Char
  | '%' :: rest => rest
  | s => s

/-- What is left of a text without a mark at its start and then without one at its end. -/
def inner (raw : List Char) : List Char :=
  (withoutMark (withoutMark raw).reverse).reverse

def marks (isOpen : Bool) : List Char :=
  if isOpen then ['%'] else []

@[simp] theorem marks_true : marks true = ['%'] := rfl

@[simp] theorem marks_false : marks false = [] := rfl

theorem toList_written (w : Wildcard) :
    w.written.toList = marks w.leading ++ (w.text.toList ++ marks w.trailing) := by
  unfold written
  cases w.leading <;> cases w.trailing <;> simp

/-- A text is split into the marks at its ends and what is between them. The mark at the start is
taken first, so a single mark is one at the start. -/
structure Splits (raw : List Char) (leading : Bool) (text : List Char) (trailing : Bool) : Prop where
  eq_append : raw = marks leading ++ (text ++ marks trailing)
  closed_start : leading = false → ¬['%'] <+: raw
  closed_end : trailing = false → ¬['%'] <:+ text

theorem exists_splits (raw : List Char) :
    ∃ leading text trailing, Splits raw leading text trailing := by
  obtain ⟨leading, rest, hraw, hstart⟩ : ∃ leading rest, raw = marks leading ++ rest ∧
      (leading = false → ¬['%'] <+: raw) := by
    by_cases h : ['%'] <+: raw
    · obtain ⟨rest, rfl⟩ := h
      exact ⟨true, rest, rfl, nofun⟩
    · exact ⟨false, raw, rfl, fun _ => h⟩
  by_cases h : ['%'] <:+ rest
  · obtain ⟨text, rfl⟩ := h
    exact ⟨leading, text, true, hraw, hstart, nofun⟩
  · refine ⟨leading, rest, false, ?_, hstart, fun _ => h⟩
    rw [hraw, marks_false, List.append_nil]

theorem withoutMark_of_unmarked {s : List Char} (h : ¬['%'] <+: s) : withoutMark s = s := by
  unfold withoutMark
  split
  · exact absurd (List.prefix_append ['%'] _) h
  · rfl

namespace Splits

variable {raw text : List Char} {leading trailing : Bool} {w : Wildcard}
variable (h : Splits raw leading text trailing)
include h

theorem isPrefix_iff : ['%'] <+: raw ↔ leading = true := by
  constructor
  · intro hprefix
    rw [← Bool.not_eq_false]
    exact fun hleading => h.closed_start hleading hprefix
  · rintro rfl
    exact ⟨_, h.eq_append.symm⟩

theorem isSuffix_rest_iff : ['%'] <:+ text ++ marks trailing ↔ trailing = true := by
  cases trailing with
  | true => simp [List.suffix_append]
  | false => simpa using h.closed_end rfl

theorem inner_eq : inner raw = text := by
  have hrest : withoutMark raw = text ++ marks trailing := by
    cases leading with
    | true =>
        rw [h.eq_append]
        rfl
    | false =>
        rw [withoutMark_of_unmarked (h.closed_start rfl), h.eq_append]
        rfl
  have htext : withoutMark (text ++ marks trailing).reverse = text.reverse := by
    cases trailing with
    | true =>
        rw [List.reverse_append]
        rfl
    | false =>
        rw [marks_false, List.append_nil]
        refine withoutMark_of_unmarked ?_
        rw [← List.reverse_singleton, List.reverse_prefix]
        exact h.closed_end rfl
  rw [inner, hrest, htext, List.reverse_reverse]

theorem ofChars?_eq : ofChars? raw =
    if (leading || trailing) && !text.contains '%' then
      some { text := .ofList text, leading, trailing }
    else none := by
  have hleading : (raw.head? == some mark) = leading := by
    rw [Bool.eq_iff_iff, ← h.isPrefix_iff, beq_iff_eq, List.head?_eq_some_iff]
    simp only [List.prefix_iff_exists_eq_append, List.singleton_append, mark]
  have hrest : (if leading then raw.drop 1 else raw) = text ++ marks trailing := by
    rw [h.eq_append]
    cases leading <;> rfl
  have htrailing : ((text ++ marks trailing).getLast? == some mark) = trailing := by
    rw [Bool.eq_iff_iff, ← h.isSuffix_rest_iff, beq_iff_eq, List.getLast?_eq_some_iff]
    simp only [List.suffix_iff_exists_eq_append, mark]
  have htext : (if trailing then (text ++ marks trailing).dropLast else text ++ marks trailing) =
      text := by
    cases trailing with
    | true => exact List.dropLast_concat
    | false => exact List.append_nil text
  unfold ofChars?
  simp only [hleading, hrest, htrailing, htext]
  rfl

theorem ofChars?_eq_some_iff : ofChars? raw = some w ↔
    ((leading = true ∨ trailing = true) ∧ '%' ∉ text) ∧
      { text := .ofList text, leading, trailing } = w := by
  rw [h.ofChars?_eq, Option.ite_none_right_eq_some, Option.some.injEq]
  simp

theorem ofChars?_eq_none_iff : ofChars? raw = none ↔
    (¬['%'] <+: raw ∧ ¬['%'] <:+ raw) ∨ '%' ∈ inner raw := by
  have hends : (¬['%'] <+: raw ∧ ¬['%'] <:+ raw) ↔ leading = false ∧ trailing = false := by
    rw [h.isPrefix_iff, Bool.not_eq_true]
    refine and_congr_right fun hleading => ?_
    have hraw : raw = text ++ marks trailing := by
      rw [h.eq_append, hleading]
      rfl
    rw [hraw, h.isSuffix_rest_iff, Bool.not_eq_true]
  rw [hends, h.inner_eq, h.ofChars?_eq]
  cases leading <;> cases trailing <;> simp

end Splits

theorem splits_of_ofText? {raw : String} {w : Wildcard} (h : ofText? raw = some w) :
    Splits raw.toList w.leading w.text.toList w.trailing ∧ '%' ∉ w.text.toList ∧
      (w.leading = true ∨ w.trailing = true) := by
  obtain ⟨leading, text, trailing, hsplits⟩ := exists_splits raw.toList
  obtain ⟨⟨hopen, hplain⟩, rfl⟩ := hsplits.ofChars?_eq_some_iff.mp h
  rw [String.toList_ofList]
  exact ⟨hsplits, hplain, hopen⟩

theorem written_of_ofText? {raw : String} {w : Wildcard} (h : ofText? raw = some w) :
    w.written = raw := by
  refine String.toList_injective ?_
  rw [toList_written]
  exact (splits_of_ofText? h).1.eq_append.symm

section Written

variable {w : Wildcard} (hplain : '%' ∉ w.text.toList)
  (hopen : w.leading = true ∨ w.trailing = true)
include hplain hopen

/-- A mark alone is one at the start. -/
theorem splits_written (h : w ≠ { text := "", trailing := true }) :
    Splits w.written.toList w.leading w.text.toList w.trailing := by
  refine ⟨toList_written w, fun hleading hprefix => ?_, fun _ hsuffix => ?_⟩
  · have htrailing : w.trailing = true := hopen.resolve_left (by simp [hleading])
    rw [toList_written, hleading, htrailing] at hprefix
    cases htext : w.text.toList with
    | nil =>
        refine h ?_
        cases w with
        | mk text leading trailing =>
            obtain rfl : text = "" := String.toList_injective htext
            exact congrArg₂ (Wildcard.mk "") hleading htrailing
    | cons c rest =>
        rw [htext] at hprefix hplain
        obtain rfl := (List.cons_prefix_cons.mp hprefix).1
        exact hplain (.head _)
  · exact hplain (hsuffix.subset (.head _))

theorem ofText?_written_iff :
    ofText? w.written = some w ↔ w ≠ { text := "", trailing := true } := by
  constructor
  · rintro h rfl
    cases h
  · intro h
    refine (splits_written hplain hopen h).ofChars?_eq_some_iff.mpr ⟨⟨hopen, hplain⟩, ?_⟩
    rw [String.ofList_toList]

end Written

/-- Without characters to escape, the LIKE pattern of a wildcard is its written form. -/
theorem toLike_eq_written {w : Wildcard}
    (hplain : ∀ c ∈ w.text.toList, c ≠ '%' ∧ c ≠ '_' ∧ c ≠ '\\') :
    w.toLike defaultEscape = w.written := by
  have hescape : defaultEscape = .singleton '\\' := by decide
  have hbody : w.text.toList.flatMap (escapedAs '\\') = w.text.toList := by
    refine (List.flatMap_congr fun c hc => ?_).trans (List.flatMap_singleton' _)
    obtain ⟨hany, hchar, hescape⟩ := hplain c hc
    simp [escapedAs, hany, hchar, hescape]
  refine String.toList_injective ?_
  rw [hescape, toList_toLike (by decide) (by decide), hbody, toList_written]
  rfl

/-- A wildcard that is read is written as it was, and each one with an open end is read from its
written form, but for a single mark that is open at the end. -/
theorem wildcards_have_one_written_form :
    (∀ (raw : String) (w : Wildcard), ofText? raw = some w →
      w.written = raw ∧ '%' ∉ w.text.toList ∧ (w.leading = true ∨ w.trailing = true)) ∧
    (∀ raw : String, ofText? raw = none ↔
      (¬['%'] <+: raw.toList ∧ ¬['%'] <:+ raw.toList) ∨ '%' ∈ inner raw.toList) ∧
    (∀ (raw raw' : String) (w w' : Wildcard), ofText? raw = some w → ofText? raw' = some w' →
      raw ≠ raw' → w ≠ w') ∧
    (∀ w : Wildcard, '%' ∉ w.text.toList → w.leading = true ∨ w.trailing = true →
      (ofText? w.written = some w ↔ w ≠ { text := "", trailing := true })) ∧
    ofText? (written { text := "", trailing := true }) = some { text := "", leading := true } ∧
    ∀ (raw : String) (w : Wildcard), ofText? raw = some w → '_' ∉ w.text.toList →
      '\\' ∉ w.text.toList → w.toLike defaultEscape = raw := by
  refine ⟨fun raw w h => ⟨written_of_ofText? h, (splits_of_ofText? h).2⟩, fun raw => ?_, ?_,
    fun w hplain hopen => ofText?_written_iff hplain hopen, rfl, ?_⟩
  · obtain ⟨leading, text, trailing, hsplits⟩ := exists_splits raw.toList
    exact hsplits.ofChars?_eq_none_iff
  · rintro raw raw' w w' h h' hne rfl
    exact hne ((written_of_ofText? h).symm.trans (written_of_ofText? h'))
  · intro raw w h hchar hescape
    obtain ⟨-, hany, -⟩ := splits_of_ofText? h
    rw [← written_of_ofText? h]
    refine toLike_eq_written fun c hc => ⟨?_, ?_, ?_⟩
    · rintro rfl
      exact hany hc
    · rintro rfl
      exact hchar hc
    · rintro rfl
      exact hescape hc

/-- The two texts differ in one mark only. -/
theorem sale_stands_between_marks :
    let both : Wildcard := { text := "sale", leading := true, trailing := true }
    let opening : Wildcard := { text := "sale", trailing := true }
    (ofText? "%sale%" = some both ∧ ofText? "sale%" = some opening) ∧
      (both.written = "%sale%" ∧ '%' ∉ both.text.toList ∧
        (both.leading = true ∨ both.trailing = true)) ∧
      both ≠ opening ∧ ofText? opening.written = some opening ∧
      both.toLike defaultEscape = "%sale%" := by
  intro both opening
  have hboth : ofText? "%sale%" = some both := by decide
  have hopening : ofText? "sale%" = some opening := by decide
  obtain ⟨hread, -, hdistinct, hback, -, hlike⟩ := wildcards_have_one_written_form
  refine ⟨⟨hboth, hopening⟩, hread _ _ hboth, hdistinct _ _ _ _ hboth hopening (by decide),
    (hback opening (by decide) (.inr rfl)).mpr (by decide), hlike _ _ hboth ?_ ?_⟩
  · decide
  · decide

end Catalogue.Wildcard

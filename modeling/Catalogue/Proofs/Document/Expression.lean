import Catalogue.Document.Adapter
import Catalogue.Proofs.Field.Wildcard

/-!
Expressions as texts. What a wildcard writes reads as its own characters between anchors, whatever
they are, so a search finds just what the wildcard covers, up to a final line feed.
-/

namespace Catalogue

namespace Document

/-- What an expression asks for at one place: the start of the text, its end, or a character. -/
inductive Part where
  | start
  | stop
  | exactly (c : Char)
  deriving DecidableEq, Repr

namespace Part

/-- The characters that do not stand for themselves unless a backslash is in front. -/
def operators : List Char :=
  ['.', '*', '+', '?', '(', ')', '[', ']', '\x7b', '\x7d', '|', '\\', '^', '$']

/-- Reads an expression of characters and anchors. Sets, groups, choices and repetitions are not
read, and neither are letters and digits behind a backslash, which stand for something else. -/
def ofChars? : List Char → Option (List Part)
  | [] => some []
  | '^' :: rest => (ofChars? rest).map (.start :: ·)
  | '$' :: rest => (ofChars? rest).map (.stop :: ·)
  | '\\' :: c :: rest =>
    if c.isAlphanum then none else (ofChars? rest).map (.exactly c :: ·)
  | c :: rest =>
    if operators.contains c then none else (ofChars? rest).map (.exactly c :: ·)

/-- The parts match `mid` as it stands between `before` and `after`. The end also stands before a
final line feed. -/
inductive Match : List Part → (before mid after : List Char) → Prop
  | nothing {before after : List Char} : Match [] before [] after
  | start {rest : List Part} {mid after : List Char} (h : Match rest [] mid after) :
      Match (.start :: rest) [] mid after
  | stop {rest : List Part} {before mid after : List Char} (hend : mid ++ after ∈ [[], ['\n']])
      (h : Match rest before mid after) : Match (.stop :: rest) before mid after
  | exactly {c : Char} {rest : List Part} {before mid after : List Char}
      (h : Match rest (before ++ [c]) mid after) :
      Match (.exactly c :: rest) before (c :: mid) after

/-- The parts match somewhere in the text. -/
def IsFound (parts : List Part) (s : List Char) : Prop :=
  ∃ before mid after, s = before ++ mid ++ after ∧ Match parts before mid after

section Reading

theorem ofChars?_plain {c : Char} (h : c ∉ operators) (rest : List Char) :
    ofChars? (c :: rest) = (ofChars? rest).map (.exactly c :: ·) := by
  have hne : c ≠ '^' ∧ c ≠ '$' ∧ c ≠ '\\' := by
    refine ⟨?_, ?_, ?_⟩ <;> rintro rfl <;> exact h (by decide)
  rw [ofChars?]
  · simp [h]
  · exact hne.1
  · exact hne.2.1
  · exact fun d _ hd => absurd hd hne.2.2

theorem ofChars?_escapeChar (c : Char) (rest : List Char) :
    ofChars? (Regex.escapeChar c ++ rest) = (ofChars? rest).map (.exactly c :: ·) := by
  unfold Regex.escapeChar
  split
  · rename_i hspecial
    have hmarks : ∀ d ∈ Regex.specialChars, d.isAlphanum = false := by simp [Regex.specialChars]
    have hc : c.isAlphanum = false := hmarks c (by simpa using hspecial)
    simp [ofChars?, hc]
  · rename_i hplain
    have hoperators : operators ⊆ Regex.specialChars := by decide
    have hc : c ∉ operators := fun h => hplain (by simpa using hoperators h)
    exact ofChars?_plain hc rest

theorem ofChars?_escaped (text rest : List Char) :
    ofChars? (text.flatMap Regex.escapeChar ++ rest) =
      (ofChars? rest).map (text.map Part.exactly ++ ·) := by
  induction text with
  | nil => simp
  | cons c text ih =>
      rw [List.flatMap_cons, List.append_assoc, ofChars?_escapeChar, ih, Option.map_map]
      rfl

end Reading

section Matching

theorem match_nil_iff {before mid after : List Char} : Match [] before mid after ↔ mid = [] := by
  constructor
  · intro h
    cases h
    rfl
  · rintro rfl
    exact .nothing

theorem match_start_iff {rest : List Part} {before mid after : List Char} :
    Match (.start :: rest) before mid after ↔ before = [] ∧ Match rest [] mid after := by
  constructor
  · intro h
    cases h with
    | start h => exact ⟨rfl, h⟩
  · rintro ⟨rfl, h⟩
    exact .start h

theorem match_stop_iff {before mid after : List Char} :
    Match [.stop] before mid after ↔ mid = [] ∧ after ∈ [[], ['\n']] := by
  constructor
  · intro h
    cases h with
    | stop hend h =>
        cases h
        exact ⟨rfl, hend⟩
  · rintro ⟨rfl, hend⟩
    exact .stop hend .nothing

theorem match_characters_iff {text : List Char} {rest : List Part} {before mid after : List Char} :
    Match (text.map .exactly ++ rest) before mid after ↔
      ∃ behind, mid = text ++ behind ∧ Match rest (before ++ text) behind after := by
  induction text generalizing before mid with
  | nil => simp
  | cons c text ih =>
      constructor
      · intro h
        cases h with
        | exactly h =>
            obtain ⟨behind, rfl, hrest⟩ := ih.mp h
            exact ⟨behind, rfl, by simpa using hrest⟩
      · rintro ⟨behind, rfl, hrest⟩
        exact .exactly (ih.mpr ⟨behind, rfl, by simpa using hrest⟩)

end Matching

/-- The characters of a wildcard between anchors at its closed ends. -/
def ofWildcard (w : Wildcard) : List Part :=
  (if w.leading then [] else [.start]) ++
    (w.text.toList.map .exactly ++ if w.trailing then [] else [.stop])

theorem ofChars?_source (w : Wildcard) :
    ofChars? (Regex.ofWildcard w).source.toList = some (ofWildcard w) := by
  have hbody : ofChars? (w.text.toList.flatMap Regex.escapeChar ++
      if w.trailing then [] else ['$']) =
        some (w.text.toList.map .exactly ++ if w.trailing then [] else [.stop]) := by
    rw [ofChars?_escaped]
    cases w.trailing <;> rfl
  have hsource : (Regex.ofWildcard w).source.toList = (if w.leading then [] else ['^']) ++
      (w.text.toList.flatMap Regex.escapeChar ++ if w.trailing then [] else ['$']) := by
    unfold Regex.source Regex.ofWildcard
    rw [String.toList_ofList, List.append_assoc]
    cases w.leading <;> cases w.trailing <;> rfl
  rw [hsource]
  unfold ofWildcard
  cases w.leading with
  | true => exact hbody
  | false => exact congrArg (Option.map (.start :: ·)) hbody

theorem match_closing_iff (closed : Bool) {before mid after : List Char} :
    Match (if closed then [] else [.stop]) before mid after ↔
      mid = [] ∧ (closed = false → after ∈ [[], ['\n']]) := by
  cases closed with
  | true => simp [match_nil_iff]
  | false => simp [match_stop_iff]

theorem isFound_ofWildcard_iff (w : Wildcard) (s : List Char) :
    IsFound (ofWildcard w) s ↔ w.CoversLine s := by
  have hmatch : ∀ before mid after : List Char, Match (ofWildcard w) before mid after ↔
      (w.leading = false → before = []) ∧ mid = w.text.toList ∧
        (w.trailing = false → after ∈ [[], ['\n']]) := by
    intro before mid after
    have hbody : ∀ before : List Char, Match (w.text.toList.map .exactly ++
        if w.trailing then [] else [.stop]) before mid after ↔
          mid = w.text.toList ∧ (w.trailing = false → after ∈ [[], ['\n']]) := by
      intro before
      rw [match_characters_iff]
      simp only [match_closing_iff]
      constructor
      · rintro ⟨behind, rfl, rfl, hend⟩
        exact ⟨List.append_nil _, hend⟩
      · rintro ⟨rfl, hend⟩
        exact ⟨[], (List.append_nil _).symm, rfl, hend⟩
    unfold ofWildcard
    cases w.leading with
    | true => simp [hbody]
    | false => simp [match_start_iff, hbody]
  unfold IsFound Wildcard.CoversLine Wildcard.Covers
  simp only [hmatch, List.forall₂_eq_eq_eq]
  constructor
  · rintro ⟨before, mid, after, heq, hbefore, rfl, hafter⟩
    exact ⟨before, _, after, heq, rfl, hbefore, hafter⟩
  · rintro ⟨before, mid, after, heq, rfl, hbefore, hafter⟩
    exact ⟨before, _, after, heq, hbefore, rfl, hafter⟩

end Part

/-- The expression of a wildcard is found just where the wildcard covers the text, or covers it but
for a final line feed behind a closed end. -/
theorem expressions_find_up_to_line_feed (w : Wildcard) : ∃ e parts,
    (∀ path, (Condition.found path (.ofWildcard w)).document =
      single path (single "$regex" (.text e))) ∧
    Part.ofChars? e.toList = some parts ∧
    (∀ s, Part.IsFound parts s ↔ w.CoversExactly s ∨
      (w.trailing = false ∧ ∃ line, s = line ++ ['\n'] ∧ w.CoversExactly line)) ∧
    (∀ s : String, (Regex.ofWildcard w).finds s = true ↔ Part.IsFound parts s.toList) ∧
    ((∀ s, Part.IsFound parts s ↔ w.CoversExactly s) ↔
      w.trailing = true ∨ (w.leading = true ∧ ∀ c ∈ w.text.toList, c = '\n')) := by
  refine ⟨(Regex.ofWildcard w).source, Part.ofWildcard w, fun _ => rfl, Part.ofChars?_source w,
    ?_, ?_, ?_⟩
  · intro s
    rw [Part.isFound_ofWildcard_iff, Wildcard.coversLine_iff]
  · intro s
    rw [Part.isFound_ofWildcard_iff, Wildcard.finds_ofWildcard_iff]
  · rw [← Wildcard.forall_coversLine_exactly_iff]
    refine forall_congr' fun s => ?_
    rw [Part.isFound_ofWildcard_iff]
    exact ⟨Iff.mp, fun h => ⟨h, Wildcard.CoversExactly.line⟩⟩

/-- What should end a text is also found before a line feed at its end. -/
theorem ending_found_before_line_feed :
    (Condition.found "title" (.ofWildcard { text := "alpha", leading := true })).document =
      single "title" (single "$regex" (.text "alpha$")) ∧
    (∃ parts, Part.ofChars? "alpha$".toList = some parts ∧
      Part.IsFound parts "alpha\n".toList) ∧
    ¬Wildcard.CoversExactly { text := "alpha", leading := true } "alpha\n".toList := by
  refine ⟨?_, ⟨_, rfl, [], ['a', 'l', 'p', 'h', 'a'], ['\n'], rfl, ?_⟩, ?_⟩
  · have hsource : (Regex.ofWildcard { text := "alpha", leading := true }).source = "alpha$" := by
      decide
    exact congrArg (fun e => single "title" (single "$regex" (.text e))) hsource
  · exact .exactly <| .exactly <| .exactly <| .exactly <| .exactly <|
      .stop (.tail _ (.head _)) .nothing
  · rintro ⟨before, mid, after, heq, hmid, -, hafter⟩
    obtain rfl := List.forall₂_eq_eq_eq ▸ hmid
    obtain rfl := List.mem_singleton.mp (hafter rfl)
    have hlast := congrArg List.getLast? heq
    simp at hlast

end Document

end Catalogue

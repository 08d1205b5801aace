import Catalogue.Text.Blank

/-!
The words of a text are its maximal runs between separators. A text has one split into words, and
words that are written with one separator between two of them are read back.
-/

namespace Catalogue.Text

/-- The text consists of the words in order, with separators around them and at least one between
two of them. -/
inductive IsSplit (p : Char → Bool) : List Char → List (List Char) → Prop
  | nil : IsSplit p [] []
  | separator {c : Char} {s : List Char} {words : List (List Char)} (hc : p c = true)
      (rest : IsSplit p s words) : IsSplit p (c :: s) words
  | last {word : List Char} (nonempty : word ≠ []) (inner : ∀ c ∈ word, p c = false) :
      IsSplit p word [word]
  | next {word : List Char} {c : Char} {s : List Char} {words : List (List Char)}
      (nonempty : word ≠ []) (inner : ∀ c ∈ word, p c = false) (hc : p c = true)
      (rest : IsSplit p s words) : IsSplit p (word ++ c :: s) (word :: words)

variable {p : Char → Bool}

theorem wordsBy_separator {c : Char} (hc : p c = true) (s : List Char) :
    wordsBy p (c :: s) = wordsBy p s := by
  rw [wordsBy, if_pos hc]

/-- A run that ends before a separator, or with the text, is the first word. -/
theorem wordsBy_append {word s : List Char} (nonempty : word ≠ []) (inner : ∀ c ∈ word, p c = false)
    (ends : ∀ c ∈ s.head?, p c = true) : wordsBy p (word ++ s) = word :: wordsBy p s := by
  induction word with
  | nil => exact absurd rfl nonempty
  | cons c rest ih =>
      obtain ⟨hc, hrest⟩ := List.forall_mem_cons.mp inner
      rw [List.cons_append, wordsBy, if_neg (by simp [hc])]
      cases rest with
      | nil =>
          cases s with
          | nil => rfl
          | cons d s =>
              have hd : p d = true := ends d rfl
              rw [List.nil_append, wordsBy_separator hd]
              cases wordsBy p s with
              | nil => rfl
              | cons word words => exact if_pos hd
      | cons d rest =>
          have hd : p d = false := hrest d (.head _)
          rw [ih (List.cons_ne_nil _ _) hrest]
          exact if_neg (by simp [hd])

/-- A text is split into the words that are read, and in no other way. -/
theorem IsSplit.wordsBy_eq {s : List Char} {words : List (List Char)} (h : IsSplit p s words) :
    wordsBy p s = words := by
  induction h with
  | nil => rfl
  | separator hc _ ih => rw [wordsBy_separator hc, ih]
  | last nonempty inner =>
      have hread := wordsBy_append (s := []) nonempty inner nofun
      rwa [List.append_nil] at hread
  | next nonempty inner hc _ ih =>
      rw [wordsBy_append nonempty inner (by simpa using hc), wordsBy_separator hc, ih]

theorem exists_isSplit (p : Char → Bool) (s : List Char) : ∃ words, IsSplit p s words := by
  induction s with
  | nil => exact ⟨[], .nil⟩
  | cons c s ih =>
      obtain ⟨words, h⟩ := ih
      cases hc : p c with
      | true => exact ⟨words, .separator hc h⟩
      | false =>
          -- The character begins a run of its own, or it is put before the first one.
          have hown : ∀ d ∈ [c], p d = false := List.forall_mem_singleton.mpr hc
          cases h with
          | nil => exact ⟨[[c]], .last (List.cons_ne_nil _ _) hown⟩
          | separator hd rest => exact ⟨_, .next (List.cons_ne_nil c []) hown hd rest⟩
          | last nonempty inner =>
              exact ⟨_, .last (List.cons_ne_nil _ _) (List.forall_mem_cons.mpr ⟨hc, inner⟩)⟩
          | @next word d s words nonempty inner hd rest =>
              have hword : ∀ d ∈ c :: word, p d = false := List.forall_mem_cons.mpr ⟨hc, inner⟩
              exact ⟨_, .next (List.cons_ne_nil _ _) hword hd rest⟩

theorem isSplit_iff {s : List Char} {words : List (List Char)} :
    IsSplit p s words ↔ wordsBy p s = words := by
  refine ⟨IsSplit.wordsBy_eq, ?_⟩
  rintro rfl
  obtain ⟨words, h⟩ := exists_isSplit p s
  rwa [h.wordsBy_eq]

theorem wordsBy_intercalate {c : Char} (hc : p c = true) {words : List (List Char)}
    (h : ∀ word ∈ words, word ≠ [] ∧ ∀ d ∈ word, p d = false) :
    wordsBy p ([c].intercalate words) = words := by
  refine IsSplit.wordsBy_eq ?_
  induction words with
  | nil => exact .nil
  | cons word rest ih =>
      obtain ⟨⟨nonempty, inner⟩, hrest⟩ := List.forall_mem_cons.mp h
      cases rest with
      | nil =>
          rw [List.intercalate_singleton]
          exact .last nonempty inner
      | cons next rest =>
          rw [List.intercalate_cons_cons, List.append_assoc]
          exact .next nonempty inner hc (ih hrest)

end Catalogue.Text

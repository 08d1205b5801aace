import Catalogue.Document.Regex
import Catalogue.Proofs.Field.Like

/-!
What wildcards cover. The LIKE pattern of a wildcard covers texts without regard to the case of ASCII
letters, and its regular expression covers them up to a final line feed.
-/

namespace Catalogue

open Document (Regex)
open Relational (agree like like_iff_standsFor)

namespace Wildcard

/-- The wildcard's text stands in `s` with only what an open end lets in around it. Characters are
compared by `same`, and behind a closed end may stand one of `ends`. -/
def Covers (same : Char → Char → Prop) (ends : List (List Char)) (w : Wildcard)
    (s : List Char) : Prop :=
  ∃ before mid after, s = before ++ mid ++ after ∧ List.Forall₂ same w.text.toList mid ∧
    (w.leading = false → before = []) ∧ (w.trailing = false → after ∈ ends)

def CoversExactly (w : Wildcard) (s : List Char) : Prop :=
  w.Covers Eq [[]] s

/-- The wildcard covers the text but for the case of ASCII letters. -/
def CoversFolded (w : Wildcard) (s : List Char) : Prop :=
  w.Covers (fun c d => agree c d = true) [[]] s

/-- The wildcard covers the text but for a final line feed. -/
def CoversLine (w : Wildcard) (s : List Char) : Prop :=
  w.Covers Eq [[], ['\n']] s

section Like

def escapeMark (c : Char) : List Char :=
  if c = '\\' ∨ c = '%' ∨ c = '_' then ['\\', c] else [c]

theorem escaped_eq (text : List Char) : escaped ['\\'] text = text.flatMap escapeMark :=
  escaped_singleton (by decide) (by decide) text

/-- The LIKE pattern of a wildcard does not regard the case of ASCII letters. -/
theorem like_toLike_iff (w : Wildcard) (s : List Char) :
    like '\\' (w.toLike defaultEscape).toList s = true ↔ w.CoversFolded s := by
  have hescape : defaultEscape = .singleton '\\' := by decide
  rw [like_iff_standsFor, hescape, standsFor_toLike (by decide) (by decide)]
  simp only [CoversFolded, Covers, List.mem_singleton]

end Like

section Regex

theorem isEnd_iff (rest : List Char) : Regex.isEnd rest = true ↔ rest ∈ [[], ['\n']] := by
  simp [Regex.isEnd]

theorem matchesHere_iff (r : Regex) (s : List Char) :
    r.matchesHere s = true ↔
      ∃ after, s = r.literal ++ after ∧ (r.atEnd = true → after ∈ [[], ['\n']]) := by
  have hend : ∀ after : List Char, (!r.atEnd || Regex.isEnd after) = true ↔
      (r.atEnd = true → after ∈ [[], ['\n']]) := by
    intro after
    rw [Bool.or_eq_true, isEnd_iff]
    cases r.atEnd <;> simp
  unfold Regex.matchesHere
  rw [Bool.and_eq_true, List.isPrefixOf_iff_prefix, hend]
  constructor
  · rintro ⟨⟨after, rfl⟩, hafter⟩
    rw [List.drop_left] at hafter
    exact ⟨after, rfl, hafter⟩
  · rintro ⟨after, rfl, hafter⟩
    rw [List.drop_left]
    exact ⟨List.prefix_append _ _, hafter⟩

theorem matchesSomewhere_iff (r : Regex) (s : List Char) :
    r.matchesSomewhere s = true ↔
      ∃ before rest, s = before ++ rest ∧ r.matchesHere rest = true := by
  induction s with
  | nil =>
      rw [Regex.matchesSomewhere]
      constructor
      · exact fun h => ⟨[], [], rfl, h⟩
      · rintro ⟨before, rest, heq, h⟩
        rwa [(List.nil_eq_append_iff.mp heq).2] at h
  | cons c s ih =>
      rw [Regex.matchesSomewhere, Bool.or_eq_true, ih]
      constructor
      · rintro (h | ⟨before, rest, rfl, h⟩)
        · exact ⟨[], c :: s, rfl, h⟩
        · exact ⟨c :: before, rest, rfl, h⟩
      · rintro ⟨before, rest, heq, h⟩
        cases before with
        | nil => exact .inl (heq ▸ h)
        | cons d before =>
            obtain ⟨rfl, rfl⟩ := List.cons.inj heq
            exact .inr ⟨before, rest, rfl, h⟩

/-- The regular expression of a wildcard lets a final line feed stand behind a closed end. -/
theorem finds_ofWildcard_iff (w : Wildcard) (s : String) :
    (Regex.ofWildcard w).finds s = true ↔ w.CoversLine s.toList := by
  have hend : ∀ after : List Char, ((Regex.ofWildcard w).atEnd = true → after ∈ [[], ['\n']]) ↔
      (w.trailing = false → after ∈ [[], ['\n']]) := by
    intro after
    change ((!w.trailing) = true → _) ↔ _
    rw [Bool.not_eq_true']
  unfold Regex.finds CoversLine Covers
  simp only [List.forall₂_eq_eq_eq]
  have hstart : (Regex.ofWildcard w).atStart = !w.leading := rfl
  cases hleading : w.leading with
  | false =>
      rw [hstart, hleading, Bool.not_false, if_pos rfl, matchesHere_iff]
      constructor
      · rintro ⟨after, heq, hafter⟩
        exact ⟨[], w.text.toList, after, heq, rfl, fun _ => rfl, (hend after).mp hafter⟩
      · rintro ⟨before, mid, after, heq, rfl, hbefore, hafter⟩
        rw [hbefore rfl] at heq
        exact ⟨after, heq, (hend after).mpr hafter⟩
  | true =>
      rw [hstart, hleading, Bool.not_true, if_neg Bool.false_ne_true, matchesSomewhere_iff]
      simp only [matchesHere_iff]
      constructor
      · rintro ⟨before, rest, heq, after, rfl, hafter⟩
        refine ⟨before, w.text.toList, after, ?_, rfl, by simp, (hend after).mp hafter⟩
        rw [heq, List.append_assoc]
        rfl
      · rintro ⟨before, mid, after, heq, rfl, -, hafter⟩
        refine ⟨before, _, ?_, after, rfl, (hend after).mpr hafter⟩
        rw [heq, List.append_assoc]
        rfl

end Regex

section Difference

variable {w : Wildcard} {s : List Char}

theorem agree_self (c : Char) : agree c c = true := by
  simp [agree]

theorem CoversExactly.folded (h : w.CoversExactly s) : w.CoversFolded s := by
  obtain ⟨before, mid, after, heq, hmid, hbefore, hafter⟩ := h
  exact ⟨before, mid, after, heq, hmid.imp fun c d hcd => hcd ▸ agree_self c, hbefore, hafter⟩

theorem CoversExactly.line (h : w.CoversExactly s) : w.CoversLine s := by
  obtain ⟨before, mid, after, heq, hmid, hbefore, hafter⟩ := h
  refine ⟨before, mid, after, heq, hmid, hbefore, fun hclosed => ?_⟩
  rw [List.mem_singleton.mp (hafter hclosed)]
  exact .head _

theorem eq_of_agree_lineFeed {c : Char} (h : agree c '\n' = true) : c = '\n' := by
  have hlower : c.toLower = '\n' → c = '\n' := by
    intro hc
    unfold Char.toLower at hc
    split at hc
    · rename_i hupper
      have hval : c.val + 32 = 10 := congrArg Char.val hc
      have hhigh : c.val ≤ 90 := hupper.2
      grind
    · exact hc
  have hfeed : Char.toLower '\n' = '\n' := by decide
  unfold agree at h
  rw [Bool.or_eq_true, beq_iff_eq, beq_iff_eq, hfeed] at h
  exact h.elim id hlower

/-- A text that stands again one place further, but for case, consists of line feeds. -/
theorem eq_replicate_of_shifted {text mid rest : List Char}
    (hmid : List.Forall₂ (fun c d => agree c d = true) text mid)
    (hshift : mid <+: '\n' :: text ++ rest) : text = List.replicate text.length '\n' := by
  induction hmid with
  | nil => rfl
  | @cons c d text mid hcd hmid ih =>
      obtain ⟨rfl, hprefix⟩ := List.cons_prefix_cons.mp hshift
      obtain rfl := eq_of_agree_lineFeed hcd
      rw [List.length_cons, List.replicate_succ, ← ih hprefix]

theorem coversExactly_lineFeeds {before : List Char} (hleading : w.leading = true)
    (hfeeds : w.text.toList = List.replicate w.text.toList.length '\n') :
    w.CoversExactly (before ++ w.text.toList ++ ['\n']) := by
  refine ⟨before ++ ['\n'], w.text.toList, [], ?_, List.forall₂_eq_eq_eq ▸ rfl,
    by simp [hleading], fun _ => .head _⟩
  rw [hfeeds]
  simp [← List.replicate_succ', List.replicate_succ]

theorem coversLine_iff : w.CoversLine s ↔ w.CoversExactly s ∨
    (w.trailing = false ∧ ∃ line, s = line ++ ['\n'] ∧ w.CoversExactly line) := by
  constructor
  · rintro ⟨before, mid, after, rfl, hmid, hbefore, hafter⟩
    cases htrailing : w.trailing with
    | true => exact .inl ⟨before, mid, after, rfl, hmid, hbefore, by simp [htrailing]⟩
    | false =>
        have hends := hafter htrailing
        rw [List.mem_cons, List.mem_singleton] at hends
        rcases hends with rfl | rfl
        · exact .inl ⟨before, mid, [], rfl, hmid, hbefore, fun _ => .head _⟩
        · exact .inr ⟨rfl, before ++ mid, rfl, before, mid, [], by simp, hmid, hbefore,
            fun _ => .head _⟩
  · rintro (h | ⟨htrailing, line, rfl, before, mid, after, rfl, hmid, hbefore, hafter⟩)
    · exact h.line
    · obtain rfl := List.mem_singleton.mp (hafter htrailing)
      exact ⟨before, mid, ['\n'], by simp, hmid, hbefore, fun _ => .tail _ (.head _)⟩

/-- A final line feed makes no difference only to wildcards with an open end, and to line feeds that
may stand anywhere. -/
theorem forall_coversLine_exactly_iff : (∀ s, w.CoversLine s → w.CoversExactly s) ↔
    w.trailing = true ∨ (w.leading = true ∧ ∀ c ∈ w.text.toList, c = '\n') := by
  constructor
  · intro h
    cases htrailing : w.trailing with
    | true => exact .inl rfl
    | false =>
        obtain ⟨before, mid, after, heq, hmid, hbefore, hafter⟩ := h (w.text.toList ++ ['\n'])
          ⟨[], w.text.toList, ['\n'], rfl, List.forall₂_eq_eq_eq ▸ rfl, fun _ => rfl,
            fun _ => .tail _ (.head _)⟩
        obtain rfl := List.forall₂_eq_eq_eq ▸ hmid
        obtain rfl := List.mem_singleton.mp (hafter htrailing)
        refine .inr ⟨?_, ?_⟩
        · by_contra hleading
          have hlength := congrArg List.length heq
          rw [hbefore (by simpa using hleading)] at hlength
          simp at hlength
        · -- Seen from the end, the text stands behind the line feed and at the very end.
          have hshift : w.text.toList.reverse <+: '\n' :: w.text.toList.reverse ++ [] := by
            have hreverse := congrArg List.reverse heq
            simp only [List.reverse_append, List.append_nil] at hreverse ⊢
            exact ⟨before.reverse, hreverse.symm⟩
          have hself : List.Forall₂ (fun c d => agree c d = true) w.text.toList.reverse
              w.text.toList.reverse := List.forall₂_same.mpr fun c _ => agree_self c
          have hfeeds := eq_replicate_of_shifted hself hshift
          intro c hc
          rw [← List.mem_reverse, hfeeds] at hc
          exact List.eq_of_mem_replicate hc
  · rintro (htrailing | ⟨hleading, hfeeds⟩) s hline
    · exact (coversLine_iff.mp hline).resolve_right fun h => by simp [htrailing] at h
    · rcases coversLine_iff.mp hline with
        h | ⟨htrailing, line, rfl, before, mid, after, rfl, hmid, -, hafter⟩
      · exact h
      · obtain rfl := List.forall₂_eq_eq_eq ▸ hmid
        obtain rfl := List.mem_singleton.mp (hafter htrailing)
        rw [List.append_nil]
        exact coversExactly_lineFeeds hleading (List.eq_replicate_iff.mpr ⟨rfl, hfeeds⟩)

theorem CoversFolded.exactly (h : w.CoversFolded s) (hline : w.CoversLine s) :
    w.CoversExactly s := by
  rcases coversLine_iff.mp hline with
    hexactly | ⟨htrailing, line, rfl, before, mid, after, rfl, hmid, hbefore, hafter⟩
  · exact hexactly
  · obtain rfl := List.forall₂_eq_eq_eq ▸ hmid
    obtain rfl := List.mem_singleton.mp (hafter htrailing)
    obtain ⟨before', mid', after', heq, hmid', hbefore', hafter'⟩ := h
    obtain rfl := List.mem_singleton.mp (hafter' htrailing)
    rw [List.append_nil, List.append_nil] at heq
    -- Seen from the end, the text stands once at the very end and once behind the line feed.
    have hshift : mid'.reverse <+: '\n' :: w.text.toList.reverse ++ before.reverse := by
      have hreverse := congrArg List.reverse heq
      simp only [List.reverse_append] at hreverse
      exact ⟨before'.reverse, hreverse.symm⟩
    have hfeeds := eq_replicate_of_shifted (List.rel_reverse hmid') hshift
    rw [List.reverse_eq_iff, List.reverse_replicate, List.length_reverse] at hfeeds
    cases hleading : w.leading with
    | false =>
        have hlength := congrArg List.length heq
        rw [hbefore hleading, hbefore' hleading] at hlength
        simp [hmid'.length_eq] at hlength
    | true =>
        rw [List.append_nil]
        exact coversExactly_lineFeeds hleading hfeeds

/-- Both ways cover the same where neither covers more than what is written. -/
theorem coversFolded_iff_coversLine : (w.CoversFolded s ↔ w.CoversLine s) ↔
    (w.CoversFolded s → w.CoversExactly s) ∧ (w.CoversLine s → w.CoversExactly s) := by
  constructor
  · intro h
    exact ⟨fun hfolded => hfolded.exactly (h.mp hfolded),
      fun hline => (h.mpr hline).exactly hline⟩
  · rintro ⟨hfolded, hline⟩
    exact ⟨fun h => (hfolded h).line, fun h => (hline h).folded⟩

end Difference

end Wildcard

end Catalogue

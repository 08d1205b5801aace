import Catalogue.Proofs.Document.Form
import Catalogue.Proofs.Store.Rearrangement
import Catalogue.Proofs.Text.Numeral
import Catalogue.Proofs.Text.Words

/-!
Free text in a pipeline. What is searched for are the runs of the text between separators, without
the hyphens in front of them, so none of it is a phrase, an escape or a term to leave out.
-/

namespace Catalogue

namespace Document

open Text (IsSplit IsTrimmed isSplit_iff of_mem_wordsBy wordsBy wordsBy_intercalate)

namespace Search

/-- The terms in runs: what stands behind the hyphens, where anything does. -/
inductive Keeps : List (List Char) → List (List Char) → Prop
  | nil : Keeps [] []
  | term (n : Nat) {word : List Char} {runs words : List (List Char)} (nonempty : word ≠ [])
      (bare : word.head? ≠ some '-') (rest : Keeps runs words) :
      Keeps ((List.replicate n '-' ++ word) :: runs) (word :: words)
  | hyphens (n : Nat) {runs words : List (List Char)} (rest : Keeps runs words) :
      Keeps (List.replicate n '-' :: runs) words

/-- The text is split into runs, and these are the terms in them. -/
def Reduces (s : List Char) (words : List (List Char)) : Prop :=
  ∃ runs, IsSplit isSeparator s runs ∧ Keeps runs words

theorem dropWhile_of_bare {word : List Char} (bare : word.head? ≠ some '-') :
    word.dropWhile (· == '-') = word := by
  cases word with
  | nil => rfl
  | cons c rest =>
      have hc : ¬(c == '-') = true := by simpa using bare
      exact List.dropWhile_cons_of_neg hc

theorem bare_dropWhile (run : List Char) : (run.dropWhile (· == '-')).head? ≠ some '-' := by
  intro h
  have hnot := Text.head?_dropWhile_eq_false '-' h
  cases hnot

theorem exists_hyphens (run : List Char) :
    ∃ n, run = List.replicate n '-' ++ run.dropWhile (· == '-') := by
  refine ⟨(run.takeWhile (· == '-')).length, ?_⟩
  have htake : run.takeWhile (· == '-') =
      List.replicate (run.takeWhile (· == '-')).length '-' := by
    rw [List.eq_replicate_iff]
    exact ⟨rfl, fun c hc => by simpa using List.mem_takeWhile_imp hc⟩
  rw [← htake, List.takeWhile_append_dropWhile]

theorem Keeps.filter_eq {runs words : List (List Char)} (h : Keeps runs words) :
    ((runs.map fun w => w.dropWhile (· == '-')).filter fun w => !w.isEmpty) = words := by
  induction h with
  | nil => rfl
  | term n nonempty bare _ ih =>
      have hyphens : ∀ c ∈ List.replicate n '-', (c == '-') = true := by simp
      rw [List.map_cons, List.dropWhile_append_of_pos hyphens, dropWhile_of_bare bare,
        List.filter_cons_of_pos (by simpa using nonempty), ih]
  | hyphens n _ ih =>
      have hyphens : (List.replicate n '-').dropWhile (· == '-') = [] := by simp
      rw [List.map_cons, hyphens, List.filter_cons_of_neg (by simp), ih]

theorem keeps_filter (runs : List (List Char)) :
    Keeps runs ((runs.map fun w => w.dropWhile (· == '-')).filter fun w => !w.isEmpty) := by
  induction runs with
  | nil => exact .nil
  | cons run runs ih =>
      obtain ⟨n, hrun⟩ := exists_hyphens run
      have bare := bare_dropWhile run
      rw [List.map_cons]
      generalize run.dropWhile (· == '-') = word at hrun bare
      subst hrun
      cases word with
      | nil =>
          rw [List.append_nil, List.filter_cons_of_neg (by simp)]
          exact .hyphens n ih
      | cons c word =>
          rw [List.filter_cons_of_pos (by simp)]
          exact .term n (List.cons_ne_nil _ _) bare ih

/-- A text is reduced to its terms, and to nothing else. -/
theorem reduces_iff {s : List Char} {words : List (List Char)} :
    Reduces s words ↔ terms s = words := by
  constructor
  · rintro ⟨runs, hsplit, hkeeps⟩
    unfold terms
    rw [hsplit.wordsBy_eq, hkeeps.filter_eq]
  · rintro rfl
    exact ⟨_, isSplit_iff.mpr rfl, keeps_filter _⟩

/-- A term is not empty, holds no separator, and does not begin with a hyphen. -/
structure IsTerm (word : List Char) : Prop where
  nonempty : word ≠ []
  inner : ∀ c ∈ word, isSeparator c = false
  bare : word.head? ≠ some '-'

theorem isTerm_of_mem {s word : List Char} (h : word ∈ terms s) : IsTerm word := by
  obtain ⟨hmap, hnonempty⟩ := List.mem_filter.mp h
  obtain ⟨run, hrun, rfl⟩ := List.mem_map.mp hmap
  have hinner := (of_mem_wordsBy hrun).2
  refine ⟨by simpa using hnonempty, ?_, bare_dropWhile run⟩
  intro c hc
  exact hinner c ((List.dropWhile_suffix _).subset hc)

theorem terms_intercalate {words : List (List Char)} (h : ∀ word ∈ words, IsTerm word) :
    terms ([' '].intercalate words) = words := by
  have hwords : wordsBy isSeparator ([' '].intercalate words) = words :=
    wordsBy_intercalate (by decide) fun word hword => ⟨(h word hword).nonempty, (h word hword).inner⟩
  have hmap : words.map (fun w => w.dropWhile (· == '-')) = words := by
    refine (List.map_congr_left ?_).trans (List.map_id words)
    intro word hword
    exact dropWhile_of_bare (h word hword).bare
  unfold terms
  rw [hwords, hmap, List.filter_eq_self]
  intro word hword
  simpa using (h word hword).nonempty

theorem toList_neutral (s : String) : (neutral s).toList = [' '].intercalate (terms s.toList) :=
  String.toList_ofList

theorem neutral_neutral (s : String) : neutral (neutral s) = neutral s := by
  have hterms : terms (neutral s).toList = terms s.toList := by
    rw [toList_neutral]
    exact terms_intercalate fun word => isTerm_of_mem
  exact congrArg (fun words => String.ofList ([' '].intercalate words)) hterms

theorem mem_intercalate {words : List (List Char)} {c : Char} (h : c ∈ [' '].intercalate words) :
    c = ' ' ∨ ∃ word ∈ words, c ∈ word := by
  induction words with
  | nil => cases h
  | cons word rest ih =>
      cases rest with
      | nil =>
          rw [List.intercalate_singleton] at h
          exact .inr ⟨word, .head _, h⟩
      | cons next rest =>
          rw [List.intercalate_cons_cons, List.append_assoc] at h
          simp only [List.mem_append, List.mem_singleton] at h
          obtain h | h | h := h
          · exact .inr ⟨word, .head _, h⟩
          · exact .inl h
          · obtain h | ⟨word', hmem, h⟩ := ih h
            · exact .inl h
            · exact .inr ⟨word', .tail _ hmem, h⟩

theorem not_mem_neutral (s : String) {c : Char} (hc : isSeparator c = true) (hspace : c ≠ ' ') :
    c ∉ (neutral s).toList := by
  intro h
  rw [toList_neutral] at h
  obtain h | ⟨word, hword, h⟩ := mem_intercalate h
  · exact hspace h
  · have hinner := (isTerm_of_mem hword).inner c h
    rw [hc] at hinner
    cases hinner

theorem isTrimmed_intercalate {words : List (List Char)} (h : ∀ word ∈ words, IsTerm word) :
    IsTrimmed isSeparator ([' '].intercalate words) := by
  induction words with
  | nil => exact ⟨nofun, nofun⟩
  | cons word rest ih =>
      obtain ⟨hword, hrest⟩ := List.forall_mem_cons.mp h
      have htrimmed : IsTrimmed isSeparator word :=
        ⟨fun c hc => hword.inner c (List.mem_of_mem_head? hc),
          fun c hc => hword.inner c (List.mem_of_mem_getLast? hc)⟩
      cases rest with
      | nil => rwa [List.intercalate_singleton]
      | cons next rest =>
          have hne : [' '].intercalate (next :: rest) ≠ [] := by
            intro hnil
            have hterms := terms_intercalate hrest
            rw [hnil] at hterms
            cases hterms
          rw [List.intercalate_cons_cons]
          constructor
          · rw [List.append_assoc, List.head?_append_of_ne_nil _ hword.nonempty]
            exact htrimmed.head
          · rw [List.getLast?_append_of_ne_nil _ hne]
            exact (ih hrest).last

theorem neutral_eq_empty_iff (s : String) : neutral s = "" ↔ terms s.toList = [] := by
  constructor
  · intro h
    have hterms : terms ([' '].intercalate (terms s.toList)) = terms s.toList :=
      terms_intercalate fun word => isTerm_of_mem
    rw [← hterms, ← toList_neutral, h]
    rfl
  · intro h
    unfold neutral
    rw [h]
    rfl

end Search

theorem searchText_eq_some_iff {s t : String} :
    searchText s = some t ↔ Search.terms s.toList ≠ [] ∧ t = Search.neutral s := by
  have hempty : (Search.neutral s).isEmpty = true ↔ Search.terms s.toList = [] := by
    rw [String.isEmpty_iff, Search.neutral_eq_empty_iff]
  unfold searchText
  dsimp only
  split
  · rename_i h
    simp [hempty.mp h]
  · rename_i h
    have hne : Search.terms s.toList ≠ [] := fun hterms => h (hempty.mpr hterms)
    simp [hne, eq_comm]

/-- Among the stages there is one that matches by free text, with this operand. -/
def Searches (documents : List Value) (v : Value) : Prop :=
  ∃ entries, single "$match" (.object entries) ∈ documents ∧ (.text "$text", v) ∈ entries

namespace Pipeline

theorem searchEntry_mem_matchEntries_iff {p : Pipeline} {v : Value} :
    (.text "$text", v) ∈ p.matchEntries ↔
      ∃ t, p.text = some t ∧ t ≠ "" ∧ v = single "$search" (.text t) := by
  unfold matchEntries
  rw [List.mem_append]
  have hrequired : ¬(Value.text "$text", v) ∈ (if (p.conditions.map Condition.document).isEmpty
      then [] else [(Value.text "$and", .list (p.conditions.map Condition.document))]) := by
    intro h
    exact absurd (eq_of_mem_unless h) (by simp)
  rw [or_iff_left hrequired]
  cases p.text with
  | none => simp
  | some t => by_cases ht : t = "" <;> simp [ht]

theorem match_mem_documents_iff {p : Pipeline} {entries : Entries} :
    single "$match" (.object entries) ∈ p.documents ↔
      entries = p.matchEntries ∧ p.matchEntries ≠ [] := by
  rw [documents_eq, List.mem_append, List.mem_append]
  have hrandom : ¬single "$match" (.object entries) ∈ p.seed.toList.map randomStage := by
    simp [randomStage, single]
  have hfacet : ¬single "$match" (.object entries) ∈
      [facetStage (pageStages p.sort p.seed p.offset p.limit)] := by
    simp [facetStage, single]
  rw [or_iff_left hfacet, or_iff_left hrandom]
  unfold matchStages
  cases p.matchEntries with
  | nil => simp
  | cons e es => simp [single]

theorem searches_documents_iff {p : Pipeline} {v : Value} :
    Searches p.documents v ↔ ∃ t, p.text = some t ∧ t ≠ "" ∧ v = single "$search" (.text t) := by
  rw [← searchEntry_mem_matchEntries_iff]
  constructor
  · rintro ⟨entries, hstage, hentry⟩
    rwa [(match_mem_documents_iff.mp hstage).1] at hentry
  · intro hentry
    exact ⟨_, match_mem_documents_iff.mpr ⟨rfl, List.ne_nil_of_mem hentry⟩, hentry⟩

theorem text_addAll (registry : Registry) (p : Pipeline) (before : List Call) (s : String)
    {after : List Call} (h : ∀ text, .textSearch text ∉ after) :
    (p.addAll registry (before ++ .textSearch s :: after)).text = searchText s := by
  have hafter : after.filterMap Call.text? = [] := by
    rw [List.filterMap_eq_nil_iff]
    intro call hcall
    cases call with
    | textSearch text => exact absurd hcall (h text)
    | _ => rfl
  rw [addAll_eq, List.filterMap_append, List.filterMap_cons, hafter]
  simp [Call.text?]

end Pipeline

end Document

open Document

/-- Of a free text the terms are kept, and nothing that steers a search. There is a search in the
pipeline just where there are terms, and it is the one for them. -/
theorem free_text_is_reduced_to_terms (s : String) :
    ∃ terms, Search.Reduces s.toList terms ∧
      (∀ words, Search.Reduces s.toList words → words = terms) ∧
      (Search.neutral s).toList = [' '].intercalate terms ∧
      (∀ word ∈ terms, Search.IsTerm word) ∧
      '"' ∉ (Search.neutral s).toList ∧ '\\' ∉ (Search.neutral s).toList ∧
      Text.IsTrimmed Search.isSeparator (Search.neutral s).toList ∧
      Search.neutral (Search.neutral s) = Search.neutral s ∧
      ∀ (registry : Registry) (session : Session) (before after : List Call),
        session.executed = false → (∀ text, .textSearch text ∉ after) →
        let asked := (adapter registry).applyAll session (before ++ .textSearch s :: after)
        asked.2 = .ok () ∧ ∀ v, Searches (asked.1.pipeline.completed registry).documents v ↔
          terms ≠ [] ∧ v = single "$search" (.text (Search.neutral s)) := by
  have hterms : ∀ word ∈ Search.terms s.toList, Search.IsTerm word :=
    fun word => Search.isTerm_of_mem
  refine ⟨Search.terms s.toList, Search.reduces_iff.mpr rfl, ?_, Search.toList_neutral s, hterms,
    Search.not_mem_neutral s (by decide) (by decide),
    Search.not_mem_neutral s (by decide) (by decide), ?_, Search.neutral_neutral s, ?_⟩
  · intro words hwords
    exact (Search.reduces_iff.mp hwords).symm
  · rw [Search.toList_neutral]
    exact Search.isTrimmed_intercalate hterms
  · intro registry session before after fresh hafter
    rw [adapter_applyAll fresh]
    refine ⟨rfl, ?_⟩
    intro v
    have htext : ((session.pipeline.addAll registry (before ++ .textSearch s :: after)).completed
        registry).text = searchText s :=
      session.pipeline.text_addAll registry before s hafter
    dsimp only
    rw [Pipeline.searches_documents_iff, htext]
    constructor
    · rintro ⟨t, ht, -, rfl⟩
      obtain ⟨hne, rfl⟩ := searchText_eq_some_iff.mp ht
      exact ⟨hne, rfl⟩
    · rintro ⟨hne, rfl⟩
      have ht := searchText_eq_some_iff.mpr ⟨hne, rfl⟩
      exact ⟨_, ht, ne_empty_of_searchText ht, rfl⟩

/-- What is left of a phrase, an escape, and hyphens wherever they stand. -/
theorem phrase_is_searched_for_as_terms :
    Searches
      (((adapter { fields := [] }).applyAll { collection := .documents [] }
        [.textSearch "well-known \"--no\" -\\-x- --", .absence "author"]).1.pipeline.completed
          { fields := [] }).documents
      (single "$search" (.text "well-known no x-")) := by
  obtain ⟨terms, hreduces, -, -, -, -, -, -, -, hasked⟩ :=
    free_text_is_reduced_to_terms "well-known \"--no\" -\\-x- --"
  obtain ⟨-, hsearches⟩ := hasked { fields := [] } { collection := .documents [] } []
    [.absence "author"] rfl (by simp)
  refine (hsearches _).mpr ⟨?_, congrArg (fun t => single "$search" (.text t)) (by decide +kernel)⟩
  rintro rfl
  exact absurd (Search.reduces_iff.mp hreduces) (by decide +kernel)

end Catalogue

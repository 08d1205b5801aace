import Catalogue.Proofs.Field.Marks
import Catalogue.Proofs.Field.Wildcard
import Catalogue.Proofs.Parity.Reading
import Catalogue.Proofs.Query.ClosedNames
import Catalogue.Store.Listing

/-!
What a wildcard filter selects on either side. A table does not regard the case of ASCII letters, and
a collection lets a final line feed stand behind a closed end; without these two they select alike.
-/

namespace Catalogue

open Calendar (Date)

theorem Filter.compile_wildcard (today : Date) {registry : Registry} {f : Field} {raw : String}
    {w : Wildcard} (hf : f ∈ registry.fields) (kind : f.kind = .text)
    (hw : Wildcard.ofText? raw = some w) :
    compile today registry (.object [(.text f.name, .text raw)]) = .ok [.matching f.name w] := by
  rw [compile_singleton today hf]
  have hwildcard : f.wildcard? (.text raw) = some w := by
    rw [Field.wildcard?, if_pos kind, hw]
  change (f.equalTo today (.text raw)).bind (fun p => .ok [p]) = _
  rw [Field.equalTo, hwildcard]
  rfl

namespace Parity

open Document (conditionsOf stored)
open Document.Condition (valueAt)
open Relational

/-- The field holds a text that is covered. -/
def HoldsText (covers : List Char → Prop) (field : String) (value : String → Value) : Prop :=
  ∃ s, value field = .text s ∧ covers s.toList

theorem takeWhile_of_plain {s : List Char} (h : '\x00' ∉ s) :
    s.takeWhile (· != '\x00') = s := by
  induction s with
  | nil => rfl
  | cons c rest ih =>
      rw [List.mem_cons, not_or] at h
      have hc : (c != '\x00') = true := bne_iff_ne.mpr (Ne.symm h.1)
      rw [List.takeWhile_cons, hc, if_pos rfl, ih h.2]

theorem mem_toLike {w : Wildcard} {c : Char} (h : c ∈ (w.toLike Wildcard.defaultEscape).toList) :
    c ∈ w.text.toList ∨ c = '%' ∨ c = '\\' := by
  have hescape : Wildcard.defaultEscape.toList = ['\\'] := by decide
  unfold Wildcard.toLike at h
  rw [hescape, Wildcard.escaped_eq, String.toList_ofList, List.append_assoc, List.mem_append,
    List.mem_append, List.mem_flatMap] at h
  rcases h with hleading | ⟨d, hd, hc⟩ | htrailing
  · cases hl : w.leading <;> simp [hl] at hleading
    exact .inr (.inl hleading)
  · unfold Wildcard.escapeMark at hc
    split at hc <;> simp at hc
    · rcases hc with rfl | rfl
      · exact .inr (.inr rfl)
      · exact .inl hd
    · exact .inl (hc ▸ hd)
  · cases ht : w.trailing <;> simp [ht] at htrailing
    exact .inr (.inl htrailing)

theorem mem_text {raw : String} {w : Wildcard} (hw : Wildcard.ofText? raw = some w) {c : Char}
    (h : c ∈ w.text.toList) : c ∈ raw.toList := by
  rw [(Wildcard.splits_of_ofText? hw).1.eq_append, List.mem_append, List.mem_append]
  exact .inr (.inl h)

section Row

variable {source : Source} {row : Row} {doc : Entries} {c : Column} {w : Wildcard}
variable (h : Mirrors source row doc) (hc : c ∈ source.table.columns) (htype : c.type = .text)
include h hc htype

theorem view_text : view source row c.name = .null ∨ ∃ s, view source row c.name = .text s := by
  have hheld := h.isHeld_view hc
  rw [htype] at hheld
  rcases hheld with hnull | hown
  · exact .inl hnull
  · generalize view source row c.name = v at hown
    cases hown with
    | text s => exact .inr ⟨s, rfl⟩

/-- A table looks at the text up to a null character. -/
theorem holds_matchesLike (plain : '\x00' ∉ w.text.toList) :
    Atom.holds source.table row (.matchesLike c (w.toLike Wildcard.defaultEscape)) = true ↔
      HoldsText (fun s => w.CoversFolded (s.takeWhile (· != '\x00'))) c.name
        (view source row) := by
  have hpattern : '\x00' ∉ (w.toLike Wildcard.defaultEscape).toList := by
    intro hmem
    rcases mem_toLike hmem with htext | hmark | hescape
    · exact plain htext
    · cases hmark
    · cases hescape
  change Atom.isLike _ (source.table.cell row c) = true ↔ _
  rw [h.cell_eq_view hc]
  unfold Atom.isLike HoldsText
  rw [takeWhile_of_plain hpattern]
  rcases view_text h hc htype with hnull | ⟨s, hs⟩
  · rw [hnull]
    simp [cellOf, Cell.textForm?, Cell.asText]
  · rw [hs]
    change like '\\' _ (s.toList.takeWhile (· != '\x00')) = true ↔ _
    rw [Wildcard.like_toLike_iff]
    simp

theorem holds_found : Document.Condition.holds (stored doc)
    (.found (Document.pathOf source.registry c.name) (.ofWildcard w)) = true ↔
      HoldsText w.CoversLine c.name (view source row) := by
  unfold Document.Condition.holds HoldsText
  dsimp only
  rw [h.valueAt_stored hc]
  rcases view_text h hc htype with hnull | ⟨s, hs⟩
  · rw [hnull]
    simp
  · rw [hs]
    dsimp only
    rw [Wildcard.finds_ofWildcard_iff]
    simp

end Row

theorem expresses_matching {source : Source} {c : Column} {w : Wildcard}
    (hc : c ∈ source.table.columns) (htype : c.type = .text) (plain : '\x00' ∉ w.text.toList)
    (short : (w.toLike Wildcard.defaultEscape).utf8ByteSize ≤ maxPatternSize) :
    Expresses source [.pattern c.name w] [[.matchesLike c (w.toLike Wildcard.defaultEscape)]]
      (HoldsText (fun s => w.CoversFolded (s.takeWhile (· != '\x00'))) c.name) := by
  refine .of_atom (onColumn_eq hc _) (isBindable_atom rfl rfl) ?_
    fun h => holds_matchesLike h hc htype plain
  simpa [Atom.isTooLong] using short

theorem isLimited_matching {source : Source} {c : Column} {w : Wildcard}
    {meaning : (String → Value) → Prop}
    (h : Expresses source [.pattern c.name w]
      [[.matchesLike c (w.toLike Wildcard.defaultEscape)]] meaning)
    (ordered : source.defaultOrder.length < maxSortKeys) :
    source.IsLimited [.pattern c.name w] := by
  intro d hd
  rw [h.draft_eq] at hd
  rw [← Except.ok.inj hd]
  refine Draft.isWithinLimits_of_few (by simp [Draft.extend]) ?_ ?_ ?_
  · simp [Draft.extend, Relational.Condition.depth, joinedDepth, Atom.depth]
  · simp [Draft.extend, Relational.conditionPlaceholders, Relational.Condition.placeholders,
      Atom.placeholders]
  · change (source.defaultOrder ++ _).length ≤ maxSortKeys
    rw [List.length_append, List.length_map]
    cases source.table.column? source.registry.idField <;> simp <;> omega

/-- Both ways find the same where neither finds more than what is written. -/
theorem holdsText_folded_iff_line (w : Wildcard) (field : String) (value : String → Value) :
    (HoldsText w.CoversFolded field value ↔ HoldsText w.CoversLine field value) ↔
      (HoldsText w.CoversFolded field value → HoldsText w.CoversExactly field value) ∧
        (HoldsText w.CoversLine field value → HoldsText w.CoversExactly field value) := by
  by_cases htext : ∃ s, value field = .text s
  · obtain ⟨s, hs⟩ := htext
    have hholds : ∀ covers : List Char → Prop,
        HoldsText covers field value ↔ covers s.toList := by
      intro covers
      simp [HoldsText, hs]
    rw [hholds, hholds, hholds]
    exact Wildcard.coversFolded_iff_coversLine
  · have hholds : ∀ covers : List Char → Prop, ¬HoldsText covers field value := by
      rintro covers ⟨s, hs, -⟩
      exact htext ⟨s, hs⟩
    simp [hholds]

open Classical in
/-- A wildcard selects from a table the rows that it covers but for the case of letters, and from a
collection those that it covers but for a final line feed. -/
theorem wildcard_selections {source : Source} {session : Relational.Session} {docs : List Entries}
    {pairs : List (Row × Entries)} {f : Field} {c : Column} {raw : String} {w : Wildcard}
    (today : Date) (mirrored : Mirrored source session.database docs pairs)
    (faults : session.faults = []) (hf : f ∈ source.registry.fields) (kind : f.kind = .text)
    (hc : c ∈ source.table.columns) (hname : c.name = f.name) (htype : c.type = .text)
    (hw : Wildcard.ofText? raw = some w) (plain : '\x00' ∉ raw.toList)
    (short : (w.toLike Wildcard.defaultEscape).utf8ByteSize ≤ maxPatternSize)
    (stored_plain : ∀ p ∈ pairs, ∀ s, view source p.1 f.name = .text s → '\x00' ∉ s.toList) :
    ∃ ps, Filter.compile today source.registry (.object [(.text f.name, .text raw)]) = .ok ps ∧
      ShowsRows source
        (pairs.filter fun p => HoldsText w.CoversFolded f.name (view source p.1))
        ((Relational.adapter source).run { session } (ps.map Predicate.call)).2 ∧
      ShowsDocuments source.registry
        (pairs.filter fun p => HoldsText w.CoversLine f.name (view source p.1))
        ((Document.adapter source.registry).run { collection := .documents docs }
          (ps.map Predicate.call)).2 ∧
      ∀ p ∈ pairs, let finds covers := HoldsText covers f.name (view source p.1)
        (finds w.CoversFolded ↔ finds w.CoversLine) ↔
          (finds w.CoversFolded → finds w.CoversExactly) ∧
            (finds w.CoversLine → finds w.CoversExactly) := by
  refine ⟨_, Filter.compile_wildcard today hf kind hw, ?_, ?_,
    fun _ _ => holdsText_folded_iff_line _ _ _⟩
  · have htext : '\x00' ∉ w.text.toList := by
      intro hmem
      exact plain (mem_text hw hmem)
    have hexpresses := expresses_matching hc htype htext short
    have hrows := hexpresses.showsRows faults mirrored (isLimited_matching hexpresses mirrored.ordered)
    rw [hname] at hrows
    -- Without null characters the table looks at the whole text.
    have hplain : (pairs.filter fun p => HoldsText w.CoversFolded f.name (view source p.1)) =
        pairs.filter fun p => HoldsText (fun s => w.CoversFolded (s.takeWhile (· != '\x00')))
          f.name (view source p.1) := by
      apply List.filter_congr
      intro p hp
      rw [decide_eq_decide]
      refine exists_congr fun s => and_congr_right fun hs => ?_
      dsimp only
      rw [takeWhile_of_plain (stored_plain p hp s hs)]
    rw [hplain]
    exact hrows
  · apply showsDocuments mirrored (Document.addAll_predicates source.registry {} [.matching f.name w])
    intro row doc h
    have hfound := holds_found (w := w) h hc htype
    rw [hname] at hfound
    simpa [Predicate.call, conditionsOf] using hfound

theorem mirrored_titled (id title : String) :
    Mirrored articleSource (.ofValues articleTable [[.text id, .text title]])
      [(titled id title).2] [titled id title] where
  table_eq := rfl
  present := rfl
  rows_perm := .refl _
  docs_perm := .refl _
  mirrors := by
    simp only [List.forall_mem_singleton]
    exact mirrors_titled id title
  names := by decide
  hasId := ⟨⟨"id", .text⟩, .head _, rfl⟩
  ordered := by decide

theorem wildcard_selections_title :
    ∃ ps, Filter.compile default articleRegistry (.object [(.text "title", .text "%pha")]) =
        .ok ps ∧
      ShowsRows articleSource [titled "a" "alpha"]
        ((Relational.adapter articleSource).run
          { session := { database := .ofValues articleTable [[.text "a", .text "alpha"]] } }
          (ps.map Predicate.call)).2 ∧
      ShowsDocuments articleSource.registry [titled "a" "alpha"]
        ((Document.adapter articleSource.registry).run
          { collection := .documents [(titled "a" "alpha").2] } (ps.map Predicate.call)).2 := by
  have hexactly : Wildcard.CoversExactly { text := "pha", leading := true } "alpha".toList :=
    ⟨['a', 'l'], ['p', 'h', 'a'], [], by decide, by decide, by simp, by simp⟩
  have faults : Relational.Session.faults
      { database := .ofValues articleTable [[.text "a", .text "alpha"]] } = [] := rfl
  have hw : Wildcard.ofText? "%pha" = some { text := "pha", leading := true } := by decide
  have hfield : ({ name := "title" } : Field) ∈ articleSource.registry.fields :=
    .tail _ (.head _)
  have hcolumn : (⟨"title", .text⟩ : Column) ∈ articleSource.table.columns := .tail _ (.head _)
  have stored_plain : ∀ p ∈ [titled "a" "alpha"], ∀ s,
      view articleSource p.1 "title" = .text s → '\x00' ∉ s.toList := by
    simp only [List.forall_mem_singleton]
    intro s hs
    cases hs
    decide
  obtain ⟨ps, hps, hrows, hdocuments, -⟩ :=
    wildcard_selections default (mirrored_titled "a" "alpha") faults hfield rfl hcolumn rfl rfl hw
      (by decide) (by decide) stored_plain
  refine ⟨ps, hps, ?_, ?_⟩
  · rwa [List.filter_eq_self.mpr] at hrows
    simpa using ⟨"alpha", rfl, hexactly.folded⟩
  · rwa [List.filter_eq_self.mpr] at hdocuments
    simpa using ⟨"alpha", rfl, hexactly.line⟩

theorem selections_titled {id title : String} {w : Wildcard} {byTable byCollection : Bool}
    (plain : '\x00' ∉ w.text.toList)
    (short : (w.toLike Wildcard.defaultEscape).utf8ByteSize ≤ maxPatternSize)
    (hlike : Atom.isLike (w.toLike Wildcard.defaultEscape) (.text title) = byTable)
    (hfinds : (Document.Regex.ofWildcard w).finds title = byCollection) :
    ShowsRows articleSource (if byTable then [titled id title] else [])
        ((Relational.adapter articleSource).run
          { session := { database := .ofValues articleTable [[.text id, .text title]] } }
          [.pattern "title" w]).2 ∧
      ShowsDocuments articleRegistry (if byCollection then [titled id title] else [])
        ((Document.adapter articleRegistry).run { collection := .documents [(titled id title).2] }
          [.pattern "title" w]).2 := by
  classical
  have hmirrored := mirrored_titled id title
  have hmirrors := hmirrored.mirrors (titled id title) (.head _)
  have hcolumn : (⟨"title", .text⟩ : Column) ∈ articleSource.table.columns := .tail _ (.head _)
  have hfilter : ∀ {meaning : (String → Value) → Prop} {found : Bool},
      (found = true ↔ meaning (view articleSource (titled id title).1)) →
        [titled id title].filter (fun p => meaning (view articleSource p.1)) =
          if found then [titled id title] else [] := by
    intro meaning found h
    rw [List.filter_singleton, ← h]
    cases found <;> simp
  constructor
  · have faults : Relational.Session.faults
        { database := .ofValues articleTable [[.text id, .text title]] } = [] := rfl
    have hexpresses := expresses_matching hcolumn rfl plain short
    have hrows := hexpresses.showsRows faults hmirrored
      (isLimited_matching hexpresses hmirrored.ordered)
    have hholds : Atom.isLike (w.toLike Wildcard.defaultEscape) (.text title) = true ↔ _ :=
      holds_matchesLike hmirrors hcolumn rfl plain
    rw [hlike] at hholds
    rw [hfilter hholds] at hrows
    exact hrows
  · have holds_iff : ∀ {row doc}, Mirrors articleSource row doc →
        ((∀ c ∈ conditionsOf articleSource.registry (.pattern "title" w),
          Document.Condition.holds (stored doc) c = true) ↔
            HoldsText w.CoversLine "title" (view articleSource row)) := by
      intro row doc h
      simpa [conditionsOf] using holds_found h hcolumn rfl
    have hdocuments := showsDocuments hmirrored
      (Document.addAll_predicates articleSource.registry {} [.matching "title" w]) holds_iff
    have hholds : (Document.Regex.ofWildcard w).finds title = true ↔ _ :=
      holds_found hmirrors hcolumn rfl
    rw [hfinds] at hholds
    rw [hfilter hholds] at hdocuments
    exact hdocuments

/-- A title is found in another case, and one is found before a line feed. -/
theorem wildcards_select_differently :
    (ShowsRows articleSource [titled "a" "alpha"]
        ((Relational.adapter articleSource).run
          { session := { database := .ofValues articleTable [[.text "a", .text "alpha"]] } }
          [.pattern "title" { text := "Al", trailing := true }]).2 ∧
      ShowsDocuments articleRegistry []
        ((Document.adapter articleRegistry).run { collection := .documents [(titled "a" "alpha").2] }
          [.pattern "title" { text := "Al", trailing := true }]).2) ∧
    (ShowsRows articleSource []
        ((Relational.adapter articleSource).run
          { session := { database := .ofValues articleTable [[.text "a", .text "alpha\n"]] } }
          [.pattern "title" { text := "alpha", leading := true }]).2 ∧
      ShowsDocuments articleRegistry [titled "a" "alpha\n"]
        ((Document.adapter articleRegistry).run
          { collection := .documents [(titled "a" "alpha\n").2] }
          [.pattern "title" { text := "alpha", leading := true }]).2) := by
  constructor
  · have hlike : Atom.isLike
        (Wildcard.toLike { text := "Al", trailing := true } Wildcard.defaultEscape)
        (.text "alpha") = true := by decide
    have hfinds : (Document.Regex.ofWildcard { text := "Al", trailing := true }).finds "alpha" =
        false := by decide
    exact selections_titled (by decide) (by decide) hlike hfinds
  · have hlike : Atom.isLike
        (Wildcard.toLike { text := "alpha", leading := true } Wildcard.defaultEscape)
        (.text "alpha\n") = false := by decide
    have hfinds : (Document.Regex.ofWildcard { text := "alpha", leading := true }).finds
        "alpha\n" = true := by decide
    exact selections_titled (by decide) (by decide) hlike hfinds

end Parity

end Catalogue

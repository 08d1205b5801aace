import Catalogue.Proofs.Document.Clauses
import Catalogue.Proofs.Document.Row
import Catalogue.Proofs.Store.Rearrangement

/-!
Identifiers of documents. Requests read the identifier field at the path of the identifier, and rows
show the identifier under that field, so a row leads back to its document by the field it shows. A
document that holds a field of that name itself shows its own value there.
-/

namespace Catalogue

open Calendar (Date)

theorem Field.predicates_text_member {f : Field} (hkind : f.kind = .text) (hrule : f.rule = none)
    (today : Date) (s : String) :
    f.predicates today (.list [.text s]) = .ok [.isAmong f.name [.text s]] := by
  have hchecked : f.checked today (.text s) = .ok (.text s) := by
    unfold Field.checked Field.check
    rw [hkind, hrule]
    rfl
  have hmembers : f.members today [.text s] = .ok [.text s] := by
    unfold Field.members
    rw [hchecked]
    rfl
  change (do return [← f.among today [.text s]]) = _
  unfold Field.among
  rw [hmembers]
  rfl

theorem Value.same_text_iff {v : Value} {s : String} : v.same (.text s) = true ↔ v = .text s := by
  cases v <;> simp [Value.same, Value.same.sameNumber, Value.numeric?]

namespace Document

/-- Documents told apart by their identifiers, each of them a text. -/
structure IsIdentified (docs : List Entries) : Prop where
  text : ∀ doc ∈ docs, ∃ id, doc.get? idPath = some (.text id)
  distinct : docs.Pairwise fun a b => a.get? idPath ≠ b.get? idPath

/-- Every answer consists of some documents and a count. -/
def Collection.AnswersFrom (c : Collection) (docs : List Entries) : Prop :=
  ∀ p answers, c.ask p = .ok answers →
    ∃ found count, answers = [answer found count] ∧ found ⊆ docs.map stored

theorem answersFrom_documents (docs : List Entries) :
    (Collection.documents docs).AnswersFrom docs := by
  intro p answers h
  unfold Collection.ask at h
  dsimp only at h
  split at h
  · cases h
  · split at h
    · cases h
    · cases h
      exact ⟨_, _, rfl, fun doc hdoc => List.mem_of_mem_filter (Pipeline.mem_of_mem_page hdoc)⟩

theorem exists_doc_of_run (registry : Registry) {docs : List Entries} (ids : IsIdentified docs)
    {c : Collection} (hc : c.AnswersFrom docs) {calls : List Call} {page : Page}
    (hpage : ((adapter registry).run { collection := c } calls).2 = .ok page)
    {row : Entries} (hrow : row ∈ page.rows) :
    ∃ doc ∈ docs, ∃ id, doc.get? idPath = some (.text id) ∧
      row = shownAs registry (stored doc) id := by
  unfold Adapter.run at hpage
  rw [adapter_applyAll rfl] at hpage
  replace hpage : (execute registry _).2 = .ok page := hpage
  rw [execute_of_open rfl] at hpage
  dsimp only at hpage
  cases hask : c.ask ((({} : Pipeline).addAll registry calls).completed registry) with
  | error fault =>
      rw [hask] at hpage
      cases hpage
  | ok answers =>
      -- The answer is read back document by document, and each of them has a text to be shown.
      obtain ⟨found, count, rfl, hfound⟩ := hc _ _ hask
      rw [hask, pageOf_answer] at hpage
      have hrows := (Page.of_eq_ok_iff.mp hpage).1
      have hmem : Except.ok row ∈ found.map (rowOf registry) := hrows ▸ List.mem_map_of_mem hrow
      obtain ⟨kept, hkept, hread⟩ := List.mem_map.mp hmem
      obtain ⟨doc, hdoc, rfl⟩ := List.mem_map.mp (hfound hkept)
      obtain ⟨id, hid⟩ := ids.text doc hdoc
      rw [rowOf_of_id registry (get?_stored_eq_text_iff.mpr hid)] at hread
      exact ⟨doc, hdoc, id, hid, (Except.ok.inj hread).symm⟩

section Asking

/-- A request for the things with an identifier, from the first match on, in no random order. -/
structure AsksFor (listing : Listing) (request : Request) (id : String) : Prop where
  filter : request.filter = .object [(.text listing.registry.idField, .list [.text id])]
  order : ∃ sort, Order.compile listing.registry listing.settings.randomSeedLength request.order =
    .ok sort ∧ seedOf sort = none
  text : request.text = none
  offset : request.offset.getD 0 = 0
  limit : 0 < request.limit

/-- The field is the identifier field: of kind text, without a rule, and open to requests. -/
structure NamesIdentifier (listing : Listing) (f : Field) : Prop where
  declared : f ∈ listing.registry.fields
  name : f.name = listing.registry.idField
  kind : f.kind = .text
  rule : f.rule = none
  unmarked : ¬IsMarker listing.settings.deletedMarker f.name

variable {listing : Listing} {f : Field} {request : Request} {id : String}

theorem AsksFor.exists_pipeline (asks : AsksFor listing request id)
    (hf : NamesIdentifier listing f) :
    ∃ sort, pipelineFor listing listing.registry request =
      .ok { conditions := [.isAmong idPath [.text id]], sort, offset := request.offset,
            limit := some request.limit } := by
  obtain ⟨sort, hsort, hseed⟩ := asks.order
  have hpredicates : Plan.compileFilter listing.today listing.registry true
      (Plan.withoutMarker listing.settings request.filter) =
        .ok [.isAmong f.name [.text id]] := by
    rw [asks.filter, ← hf.name, Plan.withoutMarker_singleton hf.unmarked]
    exact (Filter.compile_singleton _ hf.declared _).trans
      (Field.predicates_text_member hf.kind hf.rule _ id)
  have hplan : Plan.ofRequest listing.today listing.registry listing.settings true request =
      .ok { predicates := [.isAmong f.name [.text id]], sort } :=
    Outcome.bind_eq_ok_iff.mpr ⟨_, hpredicates, Outcome.bind_eq_ok_iff.mpr ⟨sort, hsort, rfl⟩⟩
  have hconditions : conditionsOf listing.registry (Predicate.isAmong f.name [.text id]).call =
      [.isAmong idPath [.text id]] := by
    have hpath : pathOf listing.registry f.name = idPath := if_pos hf.name
    change [Condition.isAmong (pathOf listing.registry f.name) _] = _
    rw [hpath]
  refine ⟨sort.map (sortKeyOf listing.registry), pipelineFor_eq_ok_iff.mpr ⟨_, hplan, ?_⟩⟩
  unfold pipelineOf
  rw [asks.text, hseed, List.flatMap_singleton, hconditions]
  rfl

theorem holds_isAmong_id_iff {doc : Entries} :
    Condition.holds (stored doc) (.isAmong idPath [.text id]) = true ↔
      doc.get? idPath = some (.text id) := by
  rw [← get?_stored_eq_text_iff, ← valueAt_eq_text_iff, ← Value.same_text_iff]
  simp [Condition.holds]

/-- The documents that a request for an identifier finds. -/
def withId (id : String) (docs : List Entries) : List Entries :=
  matching [.isAmong idPath [.text id]] (docs.map stored)

theorem withId_eq_nil {docs : List Entries}
    (h : ∀ doc ∈ docs, doc.get? idPath ≠ some (.text id)) : withId id docs = [] := by
  unfold withId matching
  rw [List.filter_eq_nil_iff, List.forall_mem_map]
  intro doc hdoc
  simpa using mt holds_isAmong_id_iff.mp (h doc hdoc)

theorem withId_eq_singleton {docs : List Entries} (ids : IsIdentified docs) {doc : Entries}
    (hdoc : doc ∈ docs) (hid : doc.get? idPath = some (.text id)) :
    withId id docs = [stored doc] := by
  obtain ⟨before, after, rfl⟩ := List.append_of_mem hdoc
  obtain ⟨-, hlater, hearlier⟩ := List.pairwise_append.mp ids.distinct
  have hbefore : withId id before = [] :=
    withId_eq_nil fun other hother => hid ▸ hearlier other hother doc (.head _)
  have hafter : withId id after = [] :=
    withId_eq_nil fun other hother => hid ▸ (List.rel_of_pairwise_cons hlater hother).symm
  unfold withId matching at hbefore hafter ⊢
  rw [List.map_append, List.filter_append, hbefore, List.nil_append, List.map_cons,
    List.filter_cons_of_pos (by simpa using holds_isAmong_id_iff.mpr hid), hafter]

/-- A request for an identifier that no two documents have shows what it finds. -/
theorem AsksFor.fetch_eq (asks : AsksFor listing request id) (hf : NamesIdentifier listing f)
    (docs : List Entries) (hlength : (withId id docs).length ≤ 1) :
    (listing.fetch (adapter listing.registry) { collection := .documents docs } request).2 =
      Page.of (rowOf listing.registry) (withId id docs) (withId id docs).length := by
  obtain ⟨sort, hp⟩ := asks.exists_pipeline hf
  -- The order does not matter to so short a list, and the page is long enough for it.
  have hsorted (keys : List (String × Direction)) :
      sorted keys (withId id docs) = withId id docs := by
    unfold sorted
    match withId id docs, hlength with
    | [], _ => exact List.mergeSort_nil
    | [doc], _ => exact List.mergeSort_singleton doc
  have hlimit := asks.limit
  have hoffset := asks.offset
  have hpage : IsPage request.offset request.limit := by
    refine ⟨hlimit, ?_⟩
    rintro n hn
    rw [hn] at hoffset
    exact le_of_eq hoffset.symm
  have hslice : slice request.offset request.limit (withId id docs) = withId id docs := by
    unfold slice
    rw [hoffset, Int.toNat_zero, List.drop_zero]
    exact List.take_of_length_le (by omega)
  rw [fetch_outcome docs hp rfl rfl]
  unfold Pipeline.outcome
  dsimp only
  rw [Pipeline.page_eq_slice docs hpage rfl]
  change Page.of _ (slice request.offset _ (sorted _ (withId id docs))) _ = _
  rw [hsorted, hslice]
  rfl

end Asking

end Document

open Document in
/-- Each row that a collection answers is one of its documents, with the identifier at the end
unless the document holds a field of that name. -/
theorem rows_carry_identifiers (listing : Listing) {f : Field} (hf : NamesIdentifier listing f)
    {docs : List Entries} (ids : IsIdentified docs) {c : Collection} (hc : c.AnswersFrom docs)
    {calls : List Call} {page : Page}
    (hpage : ((adapter listing.registry).run { collection := c } calls).2 = .ok page) :
    (∀ row ∈ page.rows, ∃ doc ∈ docs, ∃ id, doc.get? idPath = some (.text id) ∧
      row = shownAs listing.registry (stored doc) id ∧
      (row.has idPath = true ↔ listing.registry.idField = idPath) ∧
      (row.get? listing.registry.idField = some (.text id) ↔
        (HasOwn listing.registry doc →
          doc.get? listing.registry.idField = some (.text id))) ∧
      ∀ request, AsksFor listing request id →
        (listing.fetch (adapter listing.registry) { collection := .documents docs } request).2 =
          .ok { rows := [row], total := 1 }) ∧
    ∀ request id, AsksFor listing request id →
      (∀ doc ∈ docs, doc.get? idPath ≠ some (.text id)) →
      (listing.fetch (adapter listing.registry) { collection := .documents docs } request).2 =
        .ok { rows := [], total := 0 } := by
  constructor
  · intro row hrow
    obtain ⟨doc, hdoc, id, hid, rfl⟩ := exists_doc_of_run _ ids hc hpage hrow
    refine ⟨doc, hdoc, id, hid, rfl, has_idPath_shownAs _ _ _, ?_, ?_⟩
    · rw [get?_idField_shownAs, hasOwn_stored, get?_stored_eq_text_iff]
    · intro request asks
      have hfound := withId_eq_singleton ids hdoc hid
      rw [asks.fetch_eq hf docs (by rw [hfound]; rfl), hfound]
      exact Page.of_eq_ok_iff.mpr
        ⟨congrArg (fun row => [row]) (rowOf_of_id _ (get?_stored_eq_text_iff.mpr hid)), rfl⟩
  · intro request id asks hnone
    have hfound := withId_eq_nil hnone
    rw [asks.fetch_eq hf docs (by rw [hfound]; exact Nat.zero_le 1), hfound]
    rfl

section Articles

open Document

/-- An article with a title, and one with a field named like the identifier field. -/
def namedArticles : List Entries :=
  [[(.text "_id", .text "a"), (.text "title", .text "t")],
    [(.text "_id", .text "b"), (.text "id", .text "x")]]

theorem isIdentified_namedArticles : IsIdentified namedArticles where
  text := by simp [namedArticles, Entries.get?, Value.isText, idPath]
  distinct := by simp [namedArticles, Entries.get?, Value.isText, idPath]

theorem namesIdentifier_articles : NamesIdentifier articleListing { name := "id" } where
  declared := .head _
  name := rfl
  kind := by decide
  rule := rfl
  unmarked := by decide

def askingForArticle (id : String) : Request where
  limit := 100
  filter := .object [(.text "id", .list [.text id])]

theorem asksFor_article (id : String) : AsksFor articleListing (askingForArticle id) id where
  filter := rfl
  order := ⟨[], rfl, rfl⟩
  text := rfl
  offset := rfl
  limit := (by decide : (0 : Int) < 100)

/-- A row leads back to its document. -/
theorem titled_article_is_found_again :
    ∃ page, ((adapter articleRegistry).run { collection := .documents namedArticles }
        [.membership "id" [.text "a"]]).2 = .ok page ∧
      page.rows = [[(.text "title", .text "t"), (.text "id", .text "a")]] ∧
      (articleListing.fetch (adapter articleRegistry) { collection := .documents namedArticles }
        (askingForArticle "a")).2 = .ok { rows := page.rows, total := 1 } := by
  have hpage : ((adapter articleRegistry).run { collection := .documents namedArticles }
      [.membership "id" [.text "a"]]).2 =
        .ok { rows := [[(.text "title", .text "t"), (.text "id", .text "a")]], total := 1 } := by
    rw [adapter_run_outcome rfl rfl rfl]
    unfold Pipeline.outcome Pipeline.page sorted
    change Page.of _ (List.mergeSort [stored _] _) _ = _
    rw [List.mergeSort_singleton]
    rfl
  obtain ⟨doc, hdoc, id, hid, hrow, -, -, hfetch⟩ :=
    (rows_carry_identifiers articleListing namesIdentifier_articles isIdentified_namedArticles
      (answersFrom_documents _) hpage).1 _ (.head _)
  refine ⟨_, hpage, rfl, ?_⟩
  rcases hdoc with _ | ⟨_, _ | ⟨_, ⟨⟩⟩⟩
  · cases hid
    exact hfetch _ (asksFor_article "a")
  · exact absurd (congrArg List.length hrow) (Nat.succ_ne_self 1)

/-- A field named like the identifier field is shown in place of the identifier, and its value finds
nothing. -/
theorem own_field_hides_identifier :
    IsIdentified namedArticles ∧ NamesIdentifier articleListing { name := "id" } ∧
    (articleListing.fetch (adapter articleRegistry) { collection := .documents namedArticles }
      (askingForArticle "b")).2 = .ok { rows := [[(.text "id", .text "x")]], total := 1 } ∧
    (articleListing.fetch (adapter articleRegistry) { collection := .documents namedArticles }
      (askingForArticle "x")).2 = .ok { rows := [], total := 0 } := by
  refine ⟨isIdentified_namedArticles, namesIdentifier_articles, ?_, ?_⟩
  · exact (asksFor_article "b").fetch_eq namesIdentifier_articles _ (by decide)
  · exact (asksFor_article "x").fetch_eq namesIdentifier_articles _ (by decide)

end Articles

end Catalogue

import Catalogue.Proofs.Document.Paging
import Catalogue.Proofs.Relational.Paging
import Catalogue.Proofs.Relational.Storage

/-!
Paging over either store loses nothing, repeats nothing, and does not depend on the order in which
the store holds its content.
-/

namespace Catalogue

/-- Behind all pages of a request stands one list, the matches in strictly increasing order,
whichever way the store is permuted. A page fails only where a row or an identifier that it shows
cannot be read or written. -/
theorem pages_of_sorted_matches :
    (∀ (listing : Listing) (source : Relational.Source) (session : Relational.Session)
        (key : Relational.Column) (request : Request),
      source.table.column? source.registry.idField = some key →
      session.database.IsKeyed key →
      (∃ offset limit page, Relational.Admits offset limit ∧
        (listing.fetch (Relational.adapter source) { session }
          (request.paged offset limit)).2 = .ok page) →
      ∃ d all, Relational.draftOf listing source request = .ok d ∧
        all.Perm (session.database.selected (d.allConditions source)) ∧
        all.Pairwise (fun a b => Relational.Database.compareRows session.database.table
          (d.fullOrder source) a b = .lt) ∧
        ∀ rows, rows.Perm session.database.rows →
          PagesOf source.table.readRow Relational.Admits all
            fun offset limit => (listing.fetch (Relational.adapter source)
              { session := session.withRows rows } (request.paged offset limit)).2) ∧
    (∀ (listing : Listing) (registry : Registry) (docs : List Entries) (request : Request)
        (p : Document.Pipeline),
      (∀ doc ∈ docs, Document.IsFlat doc) →
      Document.HasIds docs →
      Document.pipelineFor listing registry request = .ok p →
      p.text = none → p.seed = none →
      ∃ all, all.Perm (Document.matching p.conditions (docs.map Document.stored)) ∧
        all.Pairwise (fun a b => Document.compareDocuments
          (Document.distinctKeys (p.completed registry).sort) a b = .lt) ∧
        ∀ docs' : List Entries, docs'.Perm docs →
          PagesOf (Document.rowOf registry) IsPage all
            fun offset limit => (listing.fetch (Document.adapter registry)
              { collection := .documents docs' } (request.paged offset limit)).2) := by
  constructor
  · intro listing source session key request hkey keyed runs
    obtain ⟨d, hd, hpages⟩ := Relational.fetch_pagesOf hkey keyed runs
    exact ⟨d, _, hd, session.database.listed_perm _ _,
      keyed.pairwise_listed (d.key_mem_fullOrder hkey) _, hpages⟩
  · intro listing registry docs request p flat ids hp htext hseed
    exact ⟨_, (p.completed registry).listed_perm docs,
      (p.completed registry).pairwise_listed flat ids (Document.idPath_mem_withTiebreaker _),
      fun docs' perm => Document.fetch_pagesOf flat ids hp htext hseed perm⟩

section Articles

open Relational

def articleTable : Table where
  name := "articles"
  columns := [⟨"id", .text⟩, ⟨"title", .text⟩]

def articleRegistry : Registry where
  fields := [{ name := "id" }, { name := "title" }]

def articleListing : Listing where
  registry := articleRegistry
  settings := default
  today := default

def articleSource : Source where
  table := articleTable
  registry := articleRegistry
  settings := default

def articles : Database :=
  .ofValues articleTable [[.text "b", .null], [.text "a", .null]]

theorem isReadable_articles : ∀ row ∈ articles.rows, articleTable.IsReadable row := by
  decide

def articleDocuments : List Entries :=
  [[(.text "_id", .text "b")], [(.text "_id", .text "a")]]

end Articles

theorem pages_of_two_articles :
    (∃ all : List Relational.Row, all.length = 2 ∧
      PagesOf articleTable.readRow Relational.Admits all
        fun offset limit => (articleListing.fetch (Relational.adapter articleSource)
          { session := { database := articles } }
          (({ limit := 1 } : Request).paged offset limit)).2) ∧
    (∃ all : List Entries, all.length = 2 ∧
      PagesOf (Document.rowOf articleRegistry) IsPage all
        fun offset limit => (articleListing.fetch (Document.adapter articleRegistry)
          { collection := .documents articleDocuments }
          (({ limit := 1 } : Request).paged offset limit)).2) := by
  constructor
  · have keyed : articles.IsKeyed ⟨"id", .text⟩ :=
      ⟨Relational.Database.isKept_ofValues _ _, by decide⟩
    have admits : Relational.Admits none 1 :=
      ⟨⟨by decide, by simp⟩, by simp [Relational.IsSendable], by
        simp [Relational.IsSendable, Relational.isStorable]⟩
    have takes : ({ database := articles } : Relational.Session).Takes
        (({ limit := some 1 } : Relational.Draft).selection articleSource) :=
      ⟨⟨rfl, rfl⟩, rfl, by decide, List.forall_mem_nil _,
        ⟨admits.limit_isSendable, admits.offset_isSendable⟩, rfl⟩
    obtain ⟨d, all, hd, hperm, -, hpages⟩ := pages_of_sorted_matches.1 articleListing articleSource
      { database := articles } ⟨"id", .text⟩ { limit := 1 } (by decide) keyed
      ⟨none, 1, _, admits, by
        rw [Relational.fetch_eq_outcome]
        exact Relational.Draft.outcome_of_readable isReadable_articles takes⟩
    refine ⟨all, ?_, hpages _ (List.Perm.refl _)⟩
    rw [hperm.length_eq]
    cases hd
    decide
  · have flat : ∀ doc ∈ articleDocuments, Document.IsFlat doc := by
      intro doc hdoc
      apply Document.IsFlat.of_entries
      revert doc
      simp [articleDocuments, Value.IsFlat.text]
    have ids : Document.HasIds articleDocuments := by
      unfold Document.HasIds
      decide
    obtain ⟨all, hperm, -, hpages⟩ := pages_of_sorted_matches.2 articleListing articleRegistry
      articleDocuments { limit := 1 } _ flat ids rfl rfl rfl
    exact ⟨all, hperm.length_eq, hpages _ (List.Perm.refl _)⟩

end Catalogue

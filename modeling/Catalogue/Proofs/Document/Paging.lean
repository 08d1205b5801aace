import Catalogue.Proofs.Document.Execution
import Catalogue.Proofs.Ordering.Document
import Catalogue.Proofs.Ordering.Keys

/-!
Pages of a collection. Every pipeline that is sent sorts by the identifier at some place, so over
flat documents of different identifiers each page is a part of one sorted list of the matches.
-/

namespace Catalogue.Document

open Condition (valueAt)
open Sorting (OrdersOn atOrBefore mem_fst_distinctKeys)

theorem idPath_mem_withTiebreaker (sort : List (String × Direction)) :
    idPath ∈ (withTiebreaker sort).map Prod.fst := by
  unfold withTiebreaker
  split
  · rename_i h
    obtain ⟨k, hk, hpath⟩ := List.any_eq_true.mp h
    exact List.mem_map.mpr ⟨k, hk, by simpa using hpath⟩
  · simp

/-- Documents of different identifiers, as a collection stores them. -/
def HasIds (docs : List Entries) : Prop :=
  (docs.map stored).Pairwise fun a b => compareValues (valueAt a idPath) (valueAt b idPath) ≠ .eq

def Pipeline.listed (p : Pipeline) (docs : List Entries) : List Entries :=
  sorted p.sort (matching p.conditions (docs.map stored))

theorem Pipeline.listed_perm (p : Pipeline) (docs : List Entries) :
    (p.listed docs).Perm (matching p.conditions (docs.map stored)) :=
  List.mergeSort_perm _ _

section Listed

variable {docs : List Entries} (flat : ∀ doc ∈ docs, IsFlat doc)
variable (p : Pipeline)

include flat in
theorem Pipeline.ordersOn_matching :
    OrdersOn (compareDocuments (distinctKeys p.sort))
      (matching p.conditions (docs.map stored)) :=
  (ordersOn_compareDocuments _ flat).subset List.filter_sublist.subset

/-- Sort keys with the identifier among them let no two documents tie. -/
theorem Pipeline.pairwise_matching (ids : HasIds docs) (hid : idPath ∈ p.sort.map Prod.fst) :
    (matching p.conditions (docs.map stored)).Pairwise fun a b =>
      compareDocuments (distinctKeys p.sort) a b ≠ .eq := by
  obtain ⟨k, hk, hpath⟩ := List.mem_map.mp ((mem_fst_distinctKeys p.sort idPath).mpr hid)
  refine (ids.filter _).imp ?_
  intro a b hne htie
  have hkey := compareDocuments_eq_eq_iff.mp htie k hk
  rw [hpath] at hkey
  exact hne hkey

variable (ids : HasIds docs) (hid : idPath ∈ p.sort.map Prod.fst)
include flat ids hid

theorem Pipeline.pairwise_listed :
    (p.listed docs).Pairwise fun a b => compareDocuments (distinctKeys p.sort) a b = .lt :=
  OrdersOn.pairwise_lt_mergeSort (p.pairwise_matching ids hid) (p.ordersOn_matching flat)

theorem Pipeline.listed_eq_of_perm {docs' : List Entries} (perm : docs'.Perm docs) :
    p.listed docs' = p.listed docs :=
  (OrdersOn.mergeSort_eq_of_perm (p.pairwise_matching ids hid) (p.ordersOn_matching flat)
    ((perm.symm.map stored).filter _)).symm

end Listed

theorem Pipeline.page_eq_slice {p : Pipeline} (docs : List Entries) {limit : Int}
    (h : IsPage p.offset limit) (hlimit : p.limit = some limit) :
    p.page (matching p.conditions (docs.map stored)) = slice p.offset limit (p.listed docs) := by
  have hle : 0 ≤ limit := by have := h.limit_pos; omega
  have hnat : limit.natAbs = limit.toNat := by omega
  unfold Pipeline.page Pipeline.listed slice
  rw [hlimit]
  dsimp only
  unfold take
  rw [if_pos hle, hnat]
  cases ho : p.offset with
  | none => simp
  | some n =>
      have hn : 0 ≤ n := h.offset_nonneg n ho
      have hskip : n.natAbs = n.toNat := by omega
      simp [skip, hn, hskip]

/-- The pipeline of a request, without default order and tiebreaker. -/
def pipelineFor (listing : Listing) (registry : Registry) (request : Request) : Outcome Pipeline :=
  (Plan.ofRequest listing.today listing.registry listing.settings true request).map fun plan =>
    pipelineOf registry plan request

theorem pipelineFor_eq_ok_iff {listing : Listing} {registry : Registry} {request : Request}
    {p : Pipeline} :
    pipelineFor listing registry request = .ok p ↔
      ∃ plan, Plan.ofRequest listing.today listing.registry listing.settings true request = .ok plan ∧
        pipelineOf registry plan request = p := by
  unfold pipelineFor
  cases Plan.ofRequest listing.today listing.registry listing.settings true request with
  | error e => simp [Except.map]
  | ok plan => simp [Except.map]

theorem pipelineFor_paged (listing : Listing) (registry : Registry) (request : Request)
    (offset : Option Int) (limit : Int) :
    pipelineFor listing registry (request.paged offset limit) =
      (pipelineFor listing registry request).map fun p => { p with offset, limit := some limit } := by
  have hplan : Plan.ofRequest listing.today listing.registry listing.settings true
      (request.paged offset limit) =
        Plan.ofRequest listing.today listing.registry listing.settings true request := rfl
  unfold pipelineFor
  rw [hplan]
  cases Plan.ofRequest listing.today listing.registry listing.settings true request <;> rfl

theorem fetch_outcome {listing : Listing} {registry : Registry} {request : Request} {p : Pipeline}
    (docs : List Entries) (hp : pipelineFor listing registry request = .ok p)
    (htext : p.text = none) (hseed : p.seed = none) :
    (listing.fetch (adapter registry) { collection := .documents docs } request).2 =
      (p.completed registry).outcome registry docs := by
  obtain ⟨plan, hplan, hpipeline⟩ := pipelineFor_eq_ok_iff.mp hp
  have hclauses : (adapter registry).acceptsClauses = true := rfl
  unfold Listing.fetch
  rw [hclauses, hplan]
  exact adapter_run_outcome ((addAll_calls registry plan request).trans hpipeline) htext hseed

/-- One list stands behind all pages of a request that compiles: the matches in strictly increasing
order. -/
theorem fetch_pagesOf {listing : Listing} {registry : Registry} {docs : List Entries}
    {request : Request} {p : Pipeline} (flat : ∀ doc ∈ docs, IsFlat doc) (ids : HasIds docs)
    (hp : pipelineFor listing registry request = .ok p)
    (htext : p.text = none) (hseed : p.seed = none) {docs' : List Entries}
    (perm : docs'.Perm docs) :
    PagesOf (rowOf registry) IsPage ((p.completed registry).listed docs) fun offset limit =>
      (listing.fetch (adapter registry) { collection := .documents docs' }
        (request.paged offset limit)).2 := by
  apply PagesOf.of_shows
  · intro offset limit h
    exact h
  · intro limit h
    exact ⟨h.limit_pos, by simp⟩
  · intro offset limit h
    have hpaged : pipelineFor listing registry (request.paged offset limit) =
        .ok { p with offset, limit := some limit } := by
      rw [pipelineFor_paged, hp]
      rfl
    have hid : idPath ∈ (p.completed registry).sort.map Prod.fst := idPath_mem_withTiebreaker _
    have hlisted := (p.completed registry).listed_eq_of_perm flat ids hid perm
    have hpage := Pipeline.page_eq_slice docs'
      (p := ({ p with offset, limit := some limit } : Pipeline).completed registry) h rfl
    have hlength := ((p.completed registry).listed_perm docs').length_eq
    rw [fetch_outcome docs' hpaged htext hseed]
    unfold Pipeline.outcome
    dsimp only
    rw [hpage, ← hlisted, hlength]
    rfl

end Catalogue.Document

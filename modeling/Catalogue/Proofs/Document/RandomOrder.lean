import Catalogue.Proofs.Document.Operators
import Catalogue.Proofs.Query.Directives

/-!
Random order in a pipeline. A seed is letters and digits only, and the key of the order is computed,
sorted by and taken out of the rows again, or there is no trace of it.
-/

namespace Catalogue

namespace Order

/-- A text that can stand wherever a literal can: it is ASCII letters and digits, not too many of
them, and reading it as a seed changes nothing. -/
structure IsSeed (seedLength : Int) (s : String) : Prop where
  nonempty : s ≠ ""
  plain : ∀ c ∈ s.toList, ('a' ≤ c ∧ c ≤ 'z') ∨ ('A' ≤ c ∧ c ≤ 'Z') ∨ ('0' ≤ c ∧ c ≤ '9')
  short : (s.length : Int) ≤ seedLength
  fixed : seed (.text s) seedLength = .ok s

/-- Some entry of the order is for a random one, and its value leaves a seed. -/
def LeavesSeed (seedLength : Int) (order : Value) : Prop :=
  ∃ es v s, entries order = .ok es ∧ (randomField, v) ∈ es ∧ seed v seedLength = .ok s ∧ s ≠ ""

section Seeds

variable {seedLength : Int}

theorem plain_of_isSeedChar {c : Char} (h : isSeedChar c = true) :
    ('a' ≤ c ∧ c ≤ 'z') ∨ ('A' ≤ c ∧ c ≤ 'Z') ∨ ('0' ≤ c ∧ c ≤ '9') := by
  rcases Bool.or_eq_true_iff.mp h with hletter | hdigit
  · rcases Bool.or_eq_true_iff.mp hletter with hupper | hlower
    · exact .inr (.inl (of_decide_eq_true hupper))
    · obtain ⟨hleast, hmost⟩ := Bool.and_eq_true_iff.mp hlower
      exact .inl ⟨of_decide_eq_true hleast, of_decide_eq_true hmost⟩
  · obtain ⟨hleast, hmost⟩ := Bool.and_eq_true_iff.mp hdigit
    exact .inr (.inr ⟨of_decide_eq_true hleast, of_decide_eq_true hmost⟩)

theorem exists_chars_of_seed {v : Value} {s : String} (h : seed v seedLength = .ok s) :
    ∃ chars : List Char, s.toList = cut seedLength (chars.filter isSeedChar) := by
  have hnone : cut seedLength (([] : List Char).filter isSeedChar) = [] := by
    unfold cut
    split <;> exact List.take_nil
  unfold seed at h
  split at h
  case h_5 =>
    split at h
    · rename_i t _
      cases h
      exact ⟨t.toList, String.toList_ofList⟩
    · cases h
  -- Nulls, truth values, lists and objects write nothing.
  all_goals
    cases h
    exact ⟨[], hnone.symm⟩

theorem isSeed_of_seed (positive : 0 < seedLength) {v : Value} {s : String}
    (h : seed v seedLength = .ok s) (nonempty : s ≠ "") : IsSeed seedLength s := by
  obtain ⟨chars, hs⟩ := exists_chars_of_seed h
  have hcut : ∀ t : List Char, cut seedLength t = t.take seedLength.toNat := by
    intro t
    unfold cut
    rw [if_pos (by omega)]
    congr 1
    omega
  rw [hcut] at hs
  have hplain : ∀ c ∈ s.toList, isSeedChar c = true := by
    intro c hc
    rw [hs] at hc
    exact List.of_mem_filter (List.mem_of_mem_take hc)
  have hlength : s.toList.length ≤ seedLength.toNat := by
    rw [hs]
    exact List.length_take_le _ _
  refine ⟨nonempty, fun c hc => plain_of_isSeedChar (hplain c hc), ?_, ?_⟩
  · rw [← String.length_toList]
    omega
  · change Except.ok (String.ofList (cut seedLength (s.toList.filter isSeedChar))) = _
    rw [List.filter_eq_self.mpr hplain, hcut, List.take_of_length_le hlength, String.ofList_toList]

theorem IsSeed.head?_ne {s : String} (h : IsSeed seedLength s) : s.toList.head? ≠ some '$' := by
  intro hhead
  have hplain := h.plain '$' (List.mem_of_mem_head? hhead)
  revert hplain
  decide

end Seeds

theorem Asks.seed_eq {registry : Registry} {seedLength : Int} {e : String × Value}
    {d : SortDirective} {s : String} (h : Asks registry seedLength e d) (hd : d.seed = some s) :
    e.1 = randomField ∧ seed e.2 seedLength = .ok s ∧ s ≠ "" := by
  cases h with
  | column => cases hd
  | random left nonempty =>
      cases hd
      exact ⟨rfl, left, nonempty⟩

theorem Asks.declared {registry : Registry} {seedLength : Int} {e : String × Value}
    {d : SortDirective} (h : Asks registry seedLength e d) (hd : d.seed = none) :
    d.field ∈ registry.names := by
  cases h with
  | column _ declared => exact declared
  | random => cases hd

end Order

namespace Document

open Pipeline (facetStage)
open Sorting (mem_fst_distinctKeys mem_of_mem_distinctKeys)

/-- Stages that match, before anything is computed. -/
def AreMatches (documents : List Value) : Prop :=
  ∀ stage ∈ documents, ∃ entries, stage = single "$match" (.object entries)

/-- Stages that cut a page. -/
def AreCuts (documents : List Value) : Prop :=
  ∀ stage ∈ documents, ∃ n, stage = single "$skip" (.int n) ∨ stage = single "$limit" (.int n)

/-- The documents of a pipeline with a random order by a seed, or with none. Either its key is
computed before the answer, sorted by from the greatest to the least, and taken out of the rows after
the page is cut; or no stage computes a key, none is sorted by, and nothing is taken out. -/
inductive Shuffles : Option String → List Value → Prop
  | random (s : String) {first cuts : List Value} {keys : Entries} (matching : AreMatches first)
      (key : ∀ v, (.text randomPath, v) ∈ keys ↔ v = .int (-1)) (cutting : AreCuts cuts) :
      Shuffles (some s) (first ++ [randomStage s] ++
        [facetStage (single "$sort" (.object keys) ::
          (cuts ++ [single "$project" (single randomPath (.int 0))]))])
  | plain {first cuts : List Value} {keys : Entries} (matching : AreMatches first)
      (keyless : ∀ v, (.text randomPath, v) ∉ keys) (cutting : AreCuts cuts) :
      Shuffles none (first ++ [facetStage (single "$sort" (.object keys) :: cuts)])

theorem areMatches_matchStages (p : Pipeline) : AreMatches p.matchStages := by
  intro stage hstage
  unfold Pipeline.matchStages at hstage
  exact ⟨_, Pipeline.eq_of_mem_unless hstage⟩

def writtenKeys (sort : List (String × Direction)) : Entries :=
  (distinctKeys sort).map fun (path, d) => (.text path, .int (directionKey d))

theorem mem_writtenKeys_iff {sort : List (String × Direction)} {path : String} {v : Value} :
    (.text path, v) ∈ writtenKeys sort ↔
      ∃ d, (path, d) ∈ distinctKeys sort ∧ v = .int (directionKey d) := by
  unfold writtenKeys
  constructor
  · intro h
    obtain ⟨⟨path', d⟩, hmem, heq⟩ := List.mem_map.mp h
    cases heq
    exact ⟨d, hmem, rfl⟩
  · rintro ⟨d, hmem, rfl⟩
    exact List.mem_map.mpr ⟨(path, d), hmem, rfl⟩

theorem exists_pageStages (sort : List (String × Direction)) (offset limit : Option Int) :
    ∃ cuts, AreCuts cuts ∧ ∀ seed : Option String, pageStages sort seed offset limit =
      single "$sort" (.object (writtenKeys sort)) ::
        (cuts ++ seed.toList.map fun _ => single "$project" (single randomPath (.int 0))) := by
  refine ⟨(if isNonZero offset then offset.toList.map fun n => single "$skip" (.int n) else []) ++
    limit.toList.map fun n => single "$limit" (.int n), ?_, ?_⟩
  · refine List.forall_mem_append.mpr ⟨?_, ?_⟩
    · split
      · exact List.forall_mem_map.mpr fun n _ => ⟨n, .inl rfl⟩
      · exact List.forall_mem_nil _
    · exact List.forall_mem_map.mpr fun n _ => ⟨n, .inr rfl⟩
  · intro seed
    cases seed <;> rfl

/-- The documents of a pipeline that sorts by a random key where it has a seed, and only there. -/
theorem shuffles_documents {p : Pipeline}
    (h : ∀ d, (randomPath, d) ∈ p.sort ↔ d = .descending ∧ p.seed.isSome = true) :
    Shuffles p.seed p.documents := by
  have hmatching := areMatches_matchStages p
  have hkey : ∀ d, (randomPath, d) ∈ distinctKeys p.sort ↔ (randomPath, d) ∈ p.sort := by
    intro d
    refine ⟨mem_of_mem_distinctKeys, ?_⟩
    intro hd
    have hpath : randomPath ∈ (distinctKeys p.sort).map Prod.fst :=
      (mem_fst_distinctKeys _ _).mpr (List.mem_map_of_mem hd)
    obtain ⟨⟨path, d'⟩, hmem, rfl⟩ := List.mem_map.mp hpath
    have hd' := (h d').mp (mem_of_mem_distinctKeys hmem)
    rwa [((h d).mp hd).1, ← hd'.1]
  obtain ⟨cuts, hcutting, hpage⟩ := exists_pageStages p.sort p.offset p.limit
  rw [Pipeline.documents_eq, hpage]
  cases hseed : p.seed with
  | none =>
      rw [hseed] at h
      have keyless : ∀ v, (.text randomPath, v) ∉ writtenKeys p.sort := by
        intro v hv
        obtain ⟨d, hd, -⟩ := mem_writtenKeys_iff.mp hv
        have hsome := ((h d).mp ((hkey d).mp hd)).2
        cases hsome
      have hshuffles := Shuffles.plain hmatching keyless hcutting
      rwa [← List.append_nil cuts, ← List.append_nil p.matchStages] at hshuffles
  | some s =>
      rw [hseed] at h
      refine Shuffles.random s hmatching ?_ hcutting
      intro v
      rw [mem_writtenKeys_iff]
      constructor
      · rintro ⟨d, hd, rfl⟩
        rw [((h d).mp ((hkey d).mp hd)).1]
        rfl
      · rintro rfl
        exact ⟨.descending, (hkey _).mpr ((h _).mpr ⟨rfl, rfl⟩), rfl⟩

theorem seedOf_eq (sort : List SortDirective) :
    seedOf sort = (sort.filterMap SortDirective.seed).getLast? := by
  have hfold : ∀ seed : Option String, sort.foldl (fun seed d => d.seed.or seed) seed =
      (sort.filterMap SortDirective.seed).getLast?.or seed := by
    induction sort with
    | nil => intro seed; rfl
    | cons d rest ih =>
        intro seed
        rw [List.foldl_cons, ih]
        cases hd : d.seed with
        | none => rw [List.filterMap_cons_none hd, Option.none_or]
        | some s =>
            rw [List.filterMap_cons_some hd, List.getLast?_cons]
            cases (rest.filterMap SortDirective.seed).getLast? <;> rfl
  exact (hfold none).trans Option.or_none

theorem exists_directive_of_seedOf {sort : List SortDirective} {s : String}
    (h : seedOf sort = some s) : ∃ d ∈ sort, d.seed = some s := by
  rw [seedOf_eq] at h
  exact List.mem_filterMap.mp (List.mem_of_getLast? h)

theorem isSome_seedOf_iff {sort : List SortDirective} :
    (seedOf sort).isSome = true ↔ ∃ d ∈ sort, d.seed.isSome = true := by
  constructor
  · intro h
    obtain ⟨s, hs⟩ := Option.isSome_iff_exists.mp h
    obtain ⟨d, hd, hseed⟩ := exists_directive_of_seedOf hs
    exact ⟨d, hd, by rw [hseed]; rfl⟩
  · rintro ⟨d, hd, hseed⟩
    obtain ⟨s, hs⟩ := Option.isSome_iff_exists.mp hseed
    rw [seedOf_eq, List.getLast?_isSome]
    exact List.ne_nil_of_mem (List.mem_filterMap.mpr ⟨d, hd, hs⟩)

theorem pathOf_ne_randomPath (registry : Registry) {field : String} (h : field ≠ randomPath) :
    pathOf registry field ≠ randomPath := by
  unfold pathOf
  split
  · decide
  · exact h

theorem mem_withTiebreaker_iff {sort : List (String × Direction)} {k : String × Direction}
    (h : k.1 ≠ idPath) : k ∈ withTiebreaker sort ↔ k ∈ sort := by
  unfold withTiebreaker
  split
  · rfl
  · rw [List.mem_append, List.mem_singleton, or_iff_left]
    rintro rfl
    exact h rfl

theorem mem_sort_completed_iff {registry : Registry} {plan : Plan} {request : Request}
    (undeclared : ∀ d ∈ plan.sort, d.seed = none → d.field ≠ randomPath)
    (unordered : ∀ d ∈ registry.defaultOrder, d.field ≠ randomPath) (direction : Direction) :
    (randomPath, direction) ∈ ((pipelineOf registry plan request).completed registry).sort ↔
      direction = .descending ∧ (seedOf plan.sort).isSome = true := by
  change _ ∈ withTiebreaker (if (plan.sort.map (sortKeyOf registry)).isEmpty then
    defaultSort registry else plan.sort.map (sortKeyOf registry)) ↔ _
  have hpath : randomPath ≠ idPath := by decide
  rw [mem_withTiebreaker_iff hpath, isSome_seedOf_iff]
  constructor
  · intro h
    split at h
    · obtain ⟨d, hd, heq⟩ := List.mem_map.mp h
      exact absurd (congrArg Prod.fst heq) (pathOf_ne_randomPath registry (unordered d hd))
    · obtain ⟨d, hd, heq⟩ := List.mem_map.mp h
      unfold sortKeyOf at heq
      split at heq
      · rename_i hseed
        cases heq
        exact ⟨rfl, d, hd, hseed⟩
      · rename_i hseed
        have hfield := undeclared d hd (Option.not_isSome_iff_eq_none.mp hseed)
        exact absurd (congrArg Prod.fst heq) (pathOf_ne_randomPath registry hfield)
  · rintro ⟨rfl, d, hd, hseed⟩
    have hkey : (randomPath, .descending) ∈ plan.sort.map (sortKeyOf registry) := by
      refine List.mem_map.mpr ⟨d, hd, ?_⟩
      unfold sortKeyOf
      rw [if_pos hseed]
    rw [if_neg]
    · exact hkey
    · rw [List.isEmpty_iff]
      exact List.ne_nil_of_mem hkey

end Document

open Document

/-- Seeds are short runs of ASCII letters and digits. A pipeline has all parts of a random order or
none, and it has them just where an entry for a random order leaves a seed. -/
theorem random_order_is_whole_or_absent (listing : Listing) (registry : Registry)
    (collection : Collection) (request : Request) (plan : Plan)
    (compiled : Plan.ofRequest listing.today listing.registry listing.settings true request =
      .ok plan) :
    (∀ d ∈ plan.sort, ∀ s, d.seed = some s →
      Order.IsSeed listing.settings.randomSeedLength s ∧ s.toList.head? ≠ some '$') ∧
    (randomPath ∉ listing.registry.names → (∀ d ∈ registry.defaultOrder, d.field ≠ randomPath) →
      ∃ p seed, (listing.fetch (adapter registry) { collection } request).1.sent = [p] ∧
        Shuffles seed p.documents ∧
        (∀ s, seed = some s → ∃ d ∈ plan.sort, d.seed = some s) ∧
        (seed.isSome = true ↔
          Order.LeavesSeed listing.settings.randomSeedLength request.order)) := by
  obtain ⟨predicates, -, hrest⟩ := Outcome.bind_eq_ok_iff.mp compiled
  obtain ⟨sort, hsort, hplan⟩ := Outcome.bind_eq_ok_iff.mp hrest
  obtain ⟨es, hentries, hdirectives⟩ := Outcome.bind_eq_ok_iff.mp hsort
  have hpicks := (Order.directives_eq_ok_iff.mp hdirectives).2
  have hasked : ∀ d ∈ plan.sort,
      ∃ e ∈ es, Order.Asks listing.registry listing.settings.randomSeedLength e d := by
    cases hplan
    exact fun d hd => hpicks.mem_iff.mp hd
  have hleaves : (seedOf plan.sort).isSome = true ↔
      Order.LeavesSeed listing.settings.randomSeedLength request.order := by
    rw [isSome_seedOf_iff]
    constructor
    · rintro ⟨d, hd, hseed⟩
      obtain ⟨s, hs⟩ := Option.isSome_iff_exists.mp hseed
      obtain ⟨⟨field, v⟩, he, hasks⟩ := hasked d hd
      obtain ⟨rfl, left, nonempty⟩ := hasks.seed_eq hs
      exact ⟨es, v, s, hentries, he, left, nonempty⟩
    · rintro ⟨es', v, s, hentries', he, left, nonempty⟩
      cases hentries.symm.trans hentries'
      cases hplan
      exact ⟨_, hpicks.mem_iff.mpr ⟨_, he, .random left nonempty⟩, rfl⟩
  refine ⟨?_, ?_⟩
  · intro d hd s hs
    obtain ⟨e, -, hasks⟩ := hasked d hd
    obtain ⟨-, left, nonempty⟩ := hasks.seed_eq hs
    have hseed := Order.isSeed_of_seed listing.settings.seed_pos left nonempty
    exact ⟨hseed, hseed.head?_ne⟩
  · intro undeclared unordered
    have hsent := sent_of_fetch listing registry collection request
    rw [compiled] at hsent
    have hfields : ∀ d ∈ plan.sort, d.seed = none → d.field ≠ randomPath := by
      intro d hd hs hfield
      obtain ⟨e, -, hasks⟩ := hasked d hd
      exact undeclared (hfield ▸ hasks.declared hs)
    have hshuffles : Shuffles (seedOf plan.sort)
        ((pipelineOf registry plan request).completed registry).documents :=
      shuffles_documents (mem_sort_completed_iff hfields unordered)
    exact ⟨_, _, hsent, hshuffles, fun s hs => exists_directive_of_seedOf hs, hleaves⟩

section Shuffled

def shuffledListing : Listing where
  registry := Order.shuffledRegistry
  settings := default
  today := default

/-- A request with two entries for a random order, of which one leaves a seed. -/
def shuffledRequest : Request where
  limit := 10
  order := .list (Order.mixedItems ++ [.object [(.text "random", .bool true)]])

theorem titles_are_shuffled_by_one_seed :
    Order.IsSeed 16 "b7" ∧ ∃ p,
      (shuffledListing.fetch (adapter Order.shuffledRegistry) { collection := .documents [] }
        shuffledRequest).1.sent = [p] ∧ Shuffles (some "b7") p.documents := by
  have compiled : Plan.ofRequest default Order.shuffledRegistry default true shuffledRequest =
      .ok ⟨[], [{ field := "random", direction := .descending, seed := some "b7" },
        { field := "title", direction := .descending }]⟩ := by
    rfl
  obtain ⟨hseeds, hsent⟩ := random_order_is_whole_or_absent shuffledListing Order.shuffledRegistry
    (.documents []) shuffledRequest _ compiled
  obtain ⟨p, seed, hsent, hshuffles, hgiven, hleaves⟩ := hsent (by decide) (List.forall_mem_nil _)
  refine ⟨(hseeds _ (.head _) "b7" rfl).1, p, hsent, ?_⟩
  have hsome : seed.isSome = true :=
    hleaves.mpr ⟨_, .text "-b7", "b7", rfl, .head _, by decide +kernel, by decide⟩
  obtain ⟨s, rfl⟩ := Option.isSome_iff_exists.mp hsome
  obtain ⟨d, hd, hs⟩ := hgiven s rfl
  simp only [List.mem_cons, List.not_mem_nil, or_false] at hd
  rcases hd with rfl | rfl
  · cases hs
    exact hshuffles
  · cases hs

end Shuffled

end Catalogue

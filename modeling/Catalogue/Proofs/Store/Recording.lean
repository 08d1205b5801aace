import Catalogue.Proofs.Store.Paging

/-!
What reaches an adapter. A record of all that it is told shows that a request is passed on as a whole
or not at all: nothing before all of it has compiled, and everything after that.
-/

namespace Catalogue

inductive Event where
  | call (call : Call)
  | execution

namespace Adapter

variable {σ : Type}

/-- The adapter, with a record of what it is told. -/
def recording (a : Adapter σ) : Adapter (σ × List Event) where
  acceptsClauses := a.acceptsClauses
  apply s call :=
    let (state, outcome) := a.apply s.1 call
    ((state, s.2 ++ [.call call]), outcome)
  execute s :=
    let (state, outcome) := a.execute s.1
    ((state, s.2 ++ [.execution]), outcome)

/-- No call fails, in whatever state, and the execution answers. -/
structure NeverFails (a : Adapter σ) : Prop where
  apply_ok : ∀ s call, (a.apply s call).2 = .ok ()
  execute_ok : ∀ s, ∃ page, (a.execute s).2 = .ok page

theorem recording_applyAll (a : Adapter σ) (s : σ) (record : List Event) (calls : List Call) :
    ∃ made, made <+: calls ∧ ((a.applyAll s calls).2 = .ok () → made = calls) ∧
      a.recording.applyAll (s, record) calls =
        (((a.applyAll s calls).1, record ++ made.map .call), (a.applyAll s calls).2) := by
  induction calls generalizing s record with
  | nil => exact ⟨[], List.prefix_refl _, fun _ => rfl, by simp⟩
  | cons call rest ih =>
      cases happly : a.apply s call with
      | mk state outcome =>
          have hrecording : a.recording.apply (s, record) call =
              ((state, record ++ [.call call]), outcome) := by
            simp only [recording, happly]
          simp only [applyAll, happly, hrecording]
          cases outcome with
          | error e => exact ⟨[call], by simp, by simp, rfl⟩
          | ok _ =>
              obtain ⟨made, hprefix, hall, heq⟩ := ih state (record ++ [.call call])
              refine ⟨call :: made, List.cons_prefix_cons.mpr ⟨rfl, hprefix⟩, ?_, ?_⟩
              · intro hok
                rw [hall hok]
              · dsimp only
                rw [heq]
                simp

section NeverFails

variable {a : Adapter σ} (never : a.NeverFails)
include never

theorem NeverFails.applyAll_ok (s : σ) (calls : List Call) : (a.applyAll s calls).2 = .ok () := by
  induction calls generalizing s with
  | nil => rfl
  | cons call rest ih =>
      have hok := never.apply_ok s call
      cases happly : a.apply s call with
      | mk state outcome =>
          rw [happly] at hok
          dsimp only at hok
          subst hok
          simp only [applyAll, happly]
          exact ih state

theorem NeverFails.recording_run (s : σ) (record : List Event) (calls : List Call) :
    ∃ page, (a.run s calls).2 = .ok page ∧ a.recording.run (s, record) calls =
      (((a.run s calls).1, record ++ calls.map .call ++ [.execution]), .ok page) := by
  obtain ⟨made, -, hall, heq⟩ := a.recording_applyAll s record calls
  have hok := never.applyAll_ok s calls
  rw [hall hok] at heq
  unfold run
  rw [heq]
  cases happlied : a.applyAll s calls with
  | mk state outcome =>
      rw [happlied] at hok
      dsimp only at hok
      subst hok
      obtain ⟨page, hpage⟩ := never.execute_ok state
      refine ⟨page, hpage, ?_⟩
      simp only [recording, hpage]

end NeverFails

end Adapter

namespace Request

theorem readText_of_ofParameters {settings : Settings} {params : Entries} {request : Request}
    (h : ofParameters settings params {} = .ok request) :
    readText (rawText settings params) = .ok request.text :=
  (ofRaw_eq_ok_iff.mp h).text

end Request

/-- The calls of a plan when the free text, if there is one, is not empty. -/
theorem Plan.calls_eq (plan : Plan) {request : Request} (h : ∀ text ∈ request.text, text ≠ "") :
    plan.calls request =
      plan.predicates.map Predicate.call ++ plan.sort.map SortDirective.call ++
        [.pagination request.offset (some request.limit)] ++
        request.text.toList.map .textSearch := by
  unfold calls
  cases htext : request.text with
  | none => simp
  | some text =>
      have hne := h text (by simp [htext])
      simp [hne]

namespace Listing

variable {σ : Type}

/-- What named parameters compile to, before any adapter is told of them. -/
def compiled (listing : Listing) (acceptsClauses : Bool) (params : Entries) :
    Outcome (Request × Plan) := do
  let request ← Request.ofParameters listing.settings params {}
  let plan ← Plan.ofRequest listing.today listing.registry listing.settings acceptsClauses request
  return (request, plan)

theorem compiled_eq_ok_iff {listing : Listing} {acceptsClauses : Bool} {params : Entries}
    {request : Request} {plan : Plan} :
    listing.compiled acceptsClauses params = .ok (request, plan) ↔
      Request.ofParameters listing.settings params {} = .ok request ∧
        Plan.ofRequest listing.today listing.registry listing.settings acceptsClauses request =
          .ok plan := by
  constructor
  · intro h
    obtain ⟨read, hread, h⟩ := Outcome.bind_eq_ok_iff.mp h
    obtain ⟨made, hmade, h⟩ := Outcome.bind_eq_ok_iff.mp h
    cases h
    exact ⟨hread, hmade⟩
  · rintro ⟨hread, hmade⟩
    exact Outcome.bind_eq_ok_iff.mpr ⟨request, hread, Outcome.bind_eq_ok_iff.mpr ⟨plan, hmade, rfl⟩⟩

/-- The adapter is left alone unless everything compiles. -/
theorem fetchParameters_eq (listing : Listing) (a : Adapter σ) (s : σ) (params : Entries) :
    listing.fetchParameters a s params =
      match listing.compiled a.acceptsClauses params with
      | .error e => (s, .error e)
      | .ok (request, plan) => a.run s (plan.calls request) := by
  unfold fetchParameters compiled
  cases Request.ofParameters listing.settings params {} with
  | error e => rfl
  | ok request =>
      simp only [fetch, bind, Except.bind]
      cases Plan.ofRequest listing.today listing.registry listing.settings a.acceptsClauses
        request with
      | error e => rfl
      | ok plan => rfl

/-- All that an adapter is told in the course of a request. -/
def told (listing : Listing) (a : Adapter σ) (s : σ) (params : Entries) : List Event :=
  (listing.fetchParameters a.recording (s, []) params).1.2

/-- An adapter that never fails is told nothing of a request that does not compile, and of any other
the whole plan in order and then to execute. -/
theorem told_all_or_nothing (listing : Listing) {a : Adapter σ} (never : a.NeverFails) (s : σ)
    (params : Entries) :
    (∃ e, listing.compiled a.acceptsClauses params = .error e ∧
      listing.fetchParameters a s params = (s, .error e) ∧ listing.told a s params = []) ∨
    ∃ request plan page, listing.compiled a.acceptsClauses params = .ok (request, plan) ∧
      (listing.fetchParameters a s params).2 = .ok page ∧
      listing.told a s params =
        plan.predicates.map (fun p => .call p.call) ++ plan.sort.map (fun d => .call d.call) ++
          [.call (.pagination request.offset (some request.limit))] ++
          request.text.toList.map (fun text => .call (.textSearch text)) ++ [.execution] ∧
      (∀ d ∈ plan.sort, ∀ seed, d.call = .randomSort seed ↔ d.seed = some seed) ∧
      Request.readText (Request.rawText listing.settings params) = .ok request.text ∧
      ∀ text ∈ request.text, text ≠ "" := by
  unfold told
  rw [fetchParameters_eq, fetchParameters_eq]
  have hclauses : a.recording.acceptsClauses = a.acceptsClauses := rfl
  rw [hclauses]
  cases hcompiled : listing.compiled a.acceptsClauses params with
  | error e => exact .inl ⟨e, rfl, rfl, rfl⟩
  | ok prepared =>
      obtain ⟨request, plan⟩ := prepared
      obtain ⟨page, hpage, hrecord⟩ := never.recording_run s [] (plan.calls request)
      have htext := Request.readText_of_ofParameters (compiled_eq_ok_iff.mp hcompiled).1
      have hsome : ∀ text ∈ request.text, text ≠ "" :=
        fun text h => (Request.isTrimmed_of_readText htext text h).1
      refine .inr ⟨request, plan, page, rfl, hpage, ?_, ?_, htext, hsome⟩
      · dsimp only
        rw [hrecord, Plan.calls_eq plan hsome]
        simp [Function.comp_def]
      · intro d _ seed
        unfold SortDirective.call
        cases d.seed <;> simp

end Listing

section Articles

def idleAdapter (acceptsClauses : Bool) : Adapter Unit where
  acceptsClauses := acceptsClauses
  apply _ _ := ((), .ok ())
  execute _ := ((), .ok { rows := [], total := 0 })

theorem neverFails_idleAdapter (acceptsClauses : Bool) : (idleAdapter acceptsClauses).NeverFails where
  apply_ok _ _ := rfl
  execute_ok _ := ⟨_, rfl⟩

def articleQuery (more : List Value) : Entries :=
  [(.text "filter", .list [.object [(.text "title", .text "a%")],
      .object [(.text "id", .object [(.text "not", .list [.null, .text "b"])])]]),
    (.text "order", .list (.object [(.text "title", .text "DESC")] :: more)),
    (.text "q", .text " word ")]

/-- Only the last entry of the second order is malformed. -/
theorem told_of_two_queries :
    articleListing.told (idleAdapter true) () (articleQuery [.object [(.text "random", .text "s-1")]]) =
      [.call (.pattern "title" { text := "a", leading := false, trailing := true }),
        .call (.existence "id"), .call (.negatedEquality "id" (.text "b")),
        .call (.sort "title" .descending), .call (.randomSort "s1"),
        .call (.pagination none (some 100)), .call (.textSearch "word"), .execution] ∧
    articleListing.told (idleAdapter true) () (articleQuery [.object []]) = [] := by
  have never := neverFails_idleAdapter true
  constructor
  · obtain ⟨e, he, -⟩ | ⟨request, plan, page, hcompiled, -, htold, -⟩ :=
      articleListing.told_all_or_nothing never () (articleQuery [.object [(.text "random", .text "s-1")]])
    · cases he
    · cases hcompiled
      exact htold
  · obtain ⟨e, -, -, htold⟩ | ⟨request, plan, page, hcompiled, -⟩ :=
      articleListing.told_all_or_nothing never () (articleQuery [.object []])
    · exact htold
    · cases hcompiled

end Articles

end Catalogue

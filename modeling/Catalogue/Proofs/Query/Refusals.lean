import Catalogue.Proofs.Filter.Refusals
import Catalogue.Proofs.Query.Directives
import Catalogue.Proofs.Store.Recording

/-!
How a request is refused before an adapter is told of it: for one of its parameters, or for what its
filter gives a declared field.
-/

namespace Catalogue

open Calendar (Date)

namespace Request

/-- A parameter that is absent or a text. -/
def IsTextual (v : Value) : Prop :=
  v = .null ∨ v.IsText

theorem IsTextual.isShort {v : Value} (textual : IsTextual v) : v.IsShort := by
  rcases textual with rfl | ⟨s, rfl⟩
  · exact .null
  · exact .text s

structure IsTextualRaw (raw : RawRequest) : Prop where
  limit : IsTextual raw.limit
  offset : IsTextual raw.offset
  filter : IsTextual raw.filter
  order : IsTextual raw.order
  text : IsTextual raw.text

theorem IsTextualRaw.isWritable_order {raw : RawRequest} (textual : IsTextualRaw raw)
    {settings : Settings} {request : Request} (h : ofRaw settings raw = .ok request) :
    request.order.IsWritable := by
  obtain ⟨order, horder, hrequest⟩ := (ofRaw_eq_ok_iff.mp h).order
  rw [hrequest]
  refine holds_orElseEmpty ?_ (.list (List.forall_mem_nil _))
  rintro w rfl
  rcases textual.order with hnull | ⟨s, hs⟩
  · rw [hnull] at horder
    cases horder
  · rw [hs] at horder
    exact holds_of_decodeText Json.holdsOfRead_isWritable horder

section Parameters

variable {settings : Settings} {params : Entries}
  (texts : ∀ name ∈ ["limit", "offset", "filter", "order"] ++ settings.textParam ::
    settings.textParamAliases, ∀ v ∈ params.get? name, v.IsText)
include texts

theorem isTextual_rawText : IsTextual (rawText settings params) := by
  rcases rawText_cases settings params with hnull | ⟨name, hname, hv⟩
  · exact .inl hnull
  · exact .inr (texts name (List.mem_append_right _ hname) _ hv)

theorem isTextualRaw_rawOf : IsTextualRaw (rawOf settings params {}) := by
  have textual {name : String} (hname : name ∈ ["limit", "offset", "filter", "order"]) :
      IsTextual ((params.get? name).getD .null) := by
    cases hv : params.get? name with
    | none => exact .inl rfl
    | some v => exact .inr (texts name (List.mem_append_left _ hname) v hv)
  exact ⟨textual (by decide), textual (by decide), textual (by decide), textual (by decide),
    isTextual_rawText texts⟩

end Parameters

end Request

namespace Listing

variable {σ : Type}

/-- How a request is refused before an adapter is told of it. -/
inductive Refuses (listing : Listing) (params : Entries) : Failure → Prop
  | parameter {name : String} (h : name ∈ ["limit", "offset", "filter", "order"])
      (problem : ParameterProblem) : Refuses listing params (.parameter name problem)
  | nested {name s : String} (h : name ∈ ["filter", "order"])
      (given : params.get? name = some (.text s))
      (deep : ¬Json.IsNestedAtMost Json.maxNesting s) : Refuses listing params (.fault .tooDeep)
  | entry {request : Request} {f : Field} {raw : Value} {e : Failure}
      (read : Request.ofParameters listing.settings params {} = .ok request)
      (declared : f ∈ listing.registry.fields) (given : Filter.HasEntry f.name raw request.filter)
      (refused : f.Refuses listing.today (Term.ofValue raw).values e) : Refuses listing params e

theorem Refuses.of_not_isShallow {listing : Listing} {params : Entries} {name : String}
    (hname : name ∈ ["filter", "order"])
    (textual : Request.IsTextual ((params.get? name).getD .null))
    (deep : ¬Request.IsShallow ((params.get? name).getD .null)) :
    listing.Refuses params (.fault .tooDeep) := by
  cases hv : params.get? name with
  | none =>
      rw [hv] at deep
      exact absurd (fun s hs => by cases hs) deep
  | some v =>
      rw [hv, Option.getD_some] at textual deep
      rcases textual with rfl | ⟨s, rfl⟩
      · exact absurd (fun s hs => by cases hs) deep
      · refine .nested hname hv fun nested => deep ?_
        rintro _ ⟨rfl⟩
        exact nested

theorem compiled_of_toMoment {listing : Listing} {params : Entries} {request : Request}
    (read : Request.ofParameters listing.settings params {} = .ok request) {f : Field}
    (hf : f ∈ listing.registry.fields) (kind : f.kind = .moment)
    (hname : ¬IsMarker listing.settings.deletedMarker f.name) {t : String} {e : Failure}
    (single : request.filter = .object [(.text f.name, .text t)])
    (unread : (Value.text t).toMoment listing.today f.name = .error e) (acceptsClauses : Bool) :
    listing.compiled acceptsClauses params = .error e := by
  have hcompile := Filter.compile_of_toMoment hf kind unread
  have hfilter : Plan.compileFilter listing.today listing.registry acceptsClauses
      (Plan.withoutMarker listing.settings request.filter) = .error e := by
    rw [single, Plan.withoutMarker_singleton hname]
    exact (ite_self _).trans hcompile
  rw [compiled, read]
  change (Plan.ofRequest _ _ _ _ _).bind _ = _
  rw [Plan.ofRequest, hfilter]
  rfl

section Parameters

variable {listing : Listing} {params : Entries}
  (proper : ∀ f ∈ listing.registry.fields, ∀ rule ∈ f.rule, rule.IsProper)
  (texts : ∀ name ∈ ["limit", "offset", "filter", "order"] ++ listing.settings.textParam ::
    listing.settings.textParamAliases, ∀ v ∈ params.get? name, v.IsText)
include proper texts

theorem refuses_compiled (acceptsClauses : Bool) :
    FailsAs (Refuses listing params) (listing.compiled acceptsClauses params) := by
  have textual := Request.isTextualRaw_rawOf texts
  have hrequest : FailsAs (Refuses listing params)
      (Request.ofParameters listing.settings params {}) := by
    refine (Request.failsAs_ofRaw textual.limit.isShort textual.offset.isShort textual.text.isShort
      _).mono ?_
    rintro _ (⟨name, hname, problem, rfl⟩ | ⟨rfl, hfilter | horder⟩)
    · exact .parameter hname problem
    · exact Refuses.of_not_isShallow (.head _) textual.filter hfilter
    · exact Refuses.of_not_isShallow (.tail _ (.head _)) textual.order horder
  refine .bind hrequest fun request hread => .bind ?_ fun _ _ => .ok _
  refine .bind ((Plan.refuses_compileFilter _ proper _ _).mono ?_) fun _ _ => .bind ?_ fun _ _ => .ok _
  · intro e he
    cases he with
    | form problem => exact .parameter (by decide) problem
    | entry declared given refused => exact .entry hread declared given refused
  · refine (Order.failsAs_compile (textual.isWritable_order hread) _ _).mono ?_
    rintro _ rfl
    exact .parameter (by decide) _

/-- A request is passed on as a whole, or refused for one of its parameters or for what its filter
gives a declared field. What is no refusal comes of JSON that is nested too deep or of a text beyond
the precision. -/
theorem refused_before_the_first_call (a : Adapter σ) (s : σ) :
    ((∃ request plan, listing.compiled a.acceptsClauses params = .ok (request, plan) ∧
        listing.fetchParameters a s params = a.run s (plan.calls request)) ∨
      ∃ e, listing.compiled a.acceptsClauses params = .error e ∧
        listing.fetchParameters a s params = (s, .error e) ∧ listing.Refuses params e) ∧
      ∀ request, Request.ofParameters listing.settings params {} = .ok request →
        ∀ f ∈ listing.registry.fields, f.kind = .moment →
          ¬IsMarker listing.settings.deletedMarker f.name →
            ∀ t, request.filter = .object [(.text f.name, .text t)] →
              Timestamp.readUniversal listing.today (Text.trim t) = .error .imprecise →
                listing.fetchParameters a s params = (s, .error (.fault .imprecise)) := by
  rw [fetchParameters_eq]
  constructor
  · cases hcompiled : listing.compiled a.acceptsClauses params with
    | ok prepared =>
        obtain ⟨request, plan⟩ := prepared
        exact .inl ⟨request, plan, rfl, rfl⟩
    | error e => exact .inr ⟨e, rfl, rfl, refuses_compiled proper texts _ e hcompiled⟩
  · intro request read f hf kind hname t single unread
    have hmoment := Value.toMoment_of_imprecise f.name unread
    rw [compiled_of_toMoment read hf kind hname single hmoment]

end Parameters

end Listing

section Dated

/-- Titles of one letter at least, and moments of creation. -/
def datedListing : Listing where
  registry := {
    fields := [{ name := "id" },
      { name := "title", rule := some (.allOf [.ofType .text true, .length 1 none]) },
      { name := "created_on" }] }
  settings := default
  today := default

theorem isProper_datedListing :
    ∀ f ∈ datedListing.registry.fields, ∀ rule ∈ f.rule, rule.IsProper := by
  refine List.forall_mem_cons.mpr ⟨nofun, List.forall_mem_cons.mpr ⟨?_, ?_⟩⟩
  · rintro _ ⟨⟩
    refine ⟨.allOf ?_, by decide⟩
    exact List.forall_mem_cons.mpr ⟨.ofType _ _, List.forall_mem_singleton.mpr (.length _ _)⟩
  · exact List.forall_mem_singleton.mpr nofun

def filteredBy (s : String) : Entries :=
  [(.text "filter", .text s)]

theorem isText_filteredBy {s name : String} : ∀ v ∈ (filteredBy s).get? name, v.IsText := by
  intro v hv
  rw [filteredBy, Entries.get?_singleton] at hv
  split at hv
  · cases hv
    exact ⟨s, rfl⟩
  · cases hv

def createdAt (moment : String) : Entries :=
  [(.text "created_on", .text moment)]

section Compiled

variable {s : String} (hblank : Text.isAllBlank s = false)
include hblank

theorem ofParameters_filteredBy {es : Entries} (hread : Json.read? s = some (.object es))
    (hes : (Value.object es).isTruthy = true) :
    Request.ofParameters default (filteredBy s) {} = .ok { limit := 100, filter := .object es } := by
  have hdecode : Request.decodeText "filter" s = .ok (some (.object es)) := by
    rw [Request.decodeText, hblank, if_neg (by decide), Json.read?_eq_some_iff.mp hread]
  have hfilter : Request.orElseEmpty (some (.object es)) (.object []) = .object es := if_pos hes
  exact Request.ofRaw_eq_ok_iff.mpr
    ⟨rfl, rfl, ⟨_, hdecode, hfilter.symm⟩, ⟨none, rfl, rfl⟩, rfl⟩

theorem compiled_filteredBy {t : String} {e : Failure}
    (hread : Json.read? s = some (.object (createdAt t)))
    (unread : (Value.text t).toMoment default "created_on" = .error e) :
    datedListing.compiled (idleAdapter false).acceptsClauses (filteredBy s) = .error e := by
  have hfield : { name := "created_on" : Field } ∈ datedListing.registry.fields :=
    .tail _ (.tail _ (.head _))
  exact Listing.compiled_of_toMoment (ofParameters_filteredBy hblank hread rfl) hfield
    (by decide) (by decide) rfl unread _

end Compiled

theorem no_moment_is_refused :
    datedListing.fetchParameters (idleAdapter false) () (filteredBy "\x7b\"created_on\": \"never\"\x7d") =
      ((), .error (.filterValue "created_on" .notTimestamp)) ∧
    datedListing.Refuses (filteredBy "\x7b\"created_on\": \"never\"\x7d")
      (.filterValue "created_on" .notTimestamp) := by
  have hread : Json.read? "\x7b\"created_on\": \"never\"\x7d" =
      some (.object (createdAt "never")) := by
    cbv
  have hnever : Timestamp.readUniversal default (Text.trim "never") = .error .unreadable := by
    decide +kernel
  have hcompiled := compiled_filteredBy (by decide) hread (Value.toMoment_of_unreadable _ hnever)
  obtain ⟨request, plan, hok, -⟩ | ⟨e, herror, hfetch, hrefuses⟩ :=
    (datedListing.refused_before_the_first_call isProper_datedListing (fun _ _ => isText_filteredBy)
      (idleAdapter false) ()).1
  · cases hcompiled.symm.trans hok
  · cases hcompiled.symm.trans herror
    exact ⟨hfetch, hrefuses⟩

/-- What escapes is none of the listing's own failures. -/
theorem long_number_escapes :
    datedListing.fetchParameters (idleAdapter false) ()
        (filteredBy "\x7b\"created_on\": \"1:10000000000000000000000000000\"\x7d") =
      ((), .error (.fault .imprecise)) ∧
    (Failure.fault .imprecise).kind? = none := by
  have hread : Json.read? "\x7b\"created_on\": \"1:10000000000000000000000000000\"\x7d" =
      some (.object (createdAt "1:10000000000000000000000000000")) := by
    cbv
  have hlong : Timestamp.readUniversal default (Text.trim "1:10000000000000000000000000000") =
      .error .imprecise := by
    decide +kernel
  have hcompiled := compiled_filteredBy (by decide) hread (Value.toMoment_of_imprecise _ hlong)
  rw [Listing.fetchParameters_eq, hcompiled]
  exact ⟨rfl, rfl⟩

end Dated

end Catalogue

import Catalogue.Proofs.Json.Reader
import Catalogue.Proofs.Store.Page

/-!
The bounds of requests. Whatever the parameters are, a request that is read asks for a page of
bounded size, with a filter and an order that are objects or lists.
-/

namespace Catalogue

inductive Value.IsContainer : Value → Prop
  | object (es : Entries) : IsContainer (.object es)
  | list (items : List Value) : IsContainer (.list items)

namespace Request

/-- What holds of every request that is read. -/
structure IsBounded (settings : Settings) (request : Request) : Prop where
  page : IsPage request.offset request.limit
  limit_le : request.limit ≤ settings.maxLimit
  filter : request.filter.IsContainer
  order : request.order.IsContainer
  text : ∀ s ∈ request.text, s ≠ "" ∧ Text.IsTrimmed Text.isBlank s.toList

theorem isContainer_of_decodeText {name s : String} {v : Value}
    (h : decodeText name s = .ok (some v)) : v.IsContainer := by
  unfold decodeText at h
  split at h
  · cases h
  · split at h
    · cases h
    · cases h
    · cases h
      exact .object _
    · cases h
      exact .list _
    · cases h

theorem isContainer_of_readContainer {name : String} {v w : Value}
    (h : readContainer name v = .ok (some w)) : w.IsContainer := by
  unfold readContainer at h
  split at h
  · cases h
  · cases h
    exact .object _
  · cases h
    exact .list _
  · exact isContainer_of_decodeText h
  · split at h
    · exact isContainer_of_decodeText h
    · cases h
  · cases h

theorem isContainer_orElseEmpty {name : String} {v empty : Value} {read : Option Value}
    (h : readContainer name v = .ok read) (hempty : empty.IsContainer) :
    (orElseEmpty read empty).IsContainer := by
  refine holds_orElseEmpty ?_ hempty
  rintro w rfl
  exact isContainer_of_readContainer h

theorem isBounded_of_ofRaw {settings : Settings} {raw : RawRequest} {request : Request}
    (h : ofRaw settings raw = .ok request) : request.IsBounded settings := by
  have reads := ofRaw_eq_ok_iff.mp h
  obtain ⟨given, -, size⟩ := readLimit_eq_ok_iff.mp reads.limit
  obtain ⟨filter, hfilter, hrequest⟩ := reads.filter
  obtain ⟨order, horder, hrequest'⟩ := reads.order
  refine ⟨isPage_of_ofRaw h, size.bounds.2, ?_, ?_, isTrimmed_of_readText reads.text⟩
  · rw [hrequest]
    exact isContainer_orElseEmpty hfilter (.object [])
  · rw [hrequest']
    exact isContainer_orElseEmpty horder (.list [])

/-- How the bounds that parameters give are taken, where `others` is what comes out without them: too
great a limit and a negative offset are refused, and any others stand in the request as they are. -/
structure TakesBounds (settings : Settings) (limit offset : Option Int)
    (others outcome : Outcome Request) : Prop where
  above : ∀ n ∈ limit, settings.maxLimit < n →
    outcome = .error (.parameter "limit" (.aboveMaximum settings.maxLimit))
  negative : (∀ n ∈ limit, n ≤ settings.maxLimit) → ∀ n ∈ offset, n < 0 →
    outcome = .error (.parameter "offset" .negative)
  taken : (∀ n ∈ limit, n ≤ settings.maxLimit) → (∀ n ∈ offset, 0 ≤ n) →
    ∀ rest, others = .ok rest →
      ∃ size, outcome = .ok { rest with limit := size, offset } ∧
        (size = settings.maxLimit ↔
          limit = none ∨ limit = some settings.maxLimit ∨ ∃ n ≤ 0, limit = some n) ∧
        ∀ n ∈ limit, 0 < n → size = n

section Bounds

variable {settings : Settings} {raw : RawRequest} {limit offset : Option Int}

theorem ofRaw_of_limit {n : Int} (hlimit : Gives raw.limit (some n)) (h : settings.maxLimit < n) :
    ofRaw settings raw = .error (.parameter "limit" (.aboveMaximum settings.maxLimit)) := by
  have hpos := settings.max_pos
  have hread : readLimit settings raw.limit =
      .error (.parameter "limit" (.aboveMaximum settings.maxLimit)) := by
    rw [readLimit, hlimit.read]
    exact (if_neg (by omega)).trans (if_pos h)
  rw [ofRaw, hread]
  rfl

theorem ofRaw_of_offset {n : Int} {size : Int} (hlimit : readLimit settings raw.limit = .ok size)
    (hoffset : Gives raw.offset (some n)) (h : n < 0) :
    ofRaw settings raw = .error (.parameter "offset" .negative) := by
  have hread : readOffset raw.offset = .error (.parameter "offset" .negative) := by
    rw [readOffset, hoffset.read]
    exact if_pos h
  rw [ofRaw, hlimit, hread]
  rfl

theorem Gives.takesBounds (hlimit : Gives raw.limit limit) (hoffset : Gives raw.offset offset) :
    TakesBounds settings limit offset (ofRaw settings { raw with limit := .null, offset := .null })
      (ofRaw settings raw) where
  above := by
    rintro n rfl h
    exact ofRaw_of_limit hlimit h
  negative := by
    rintro hle n rfl h
    obtain ⟨size, hsize⟩ := Settings.PageSize.exists_of_le hle
    exact ofRaw_of_offset (readLimit_eq_ok_iff.mpr ⟨limit, hlimit.read _, hsize⟩) hoffset h
  taken := by
    intro hle hnonneg rest hrest
    obtain ⟨size, hsize⟩ := Settings.PageSize.exists_of_le hle
    have reads := ofRaw_eq_ok_iff.mp hrest
    refine ⟨size, ofRaw_eq_ok_iff.mpr ?_, hsize.eq_max_iff, ?_⟩
    · exact {
        limit := readLimit_eq_ok_iff.mpr ⟨limit, hlimit.read _, hsize⟩
        offset := readOffset_eq_ok_iff.mpr ⟨hoffset.read _, hnonneg⟩
        filter := reads.filter
        order := reads.order
        text := reads.text }
    · rintro n rfl hn
      cases hsize with
      | notPositive h => omega
      | given => rfl

end Bounds

section Short

variable {params : Entries} (short : ∀ e ∈ params, e.2.IsShort)
include short

theorem isShort_of_get? {name : String} {v : Value} (h : params.get? name = some v) :
    v.IsShort := by
  obtain ⟨e, he, rfl⟩ := Option.map_eq_some_iff.mp h
  exact short e (List.mem_of_find?_eq_some he)

theorem isShort_getD_get? (name : String) : ((params.get? name).getD .null).IsShort := by
  cases h : params.get? name with
  | none => exact .null
  | some v => exact isShort_of_get? short h

theorem isShort_rawText (settings : Settings) : (rawText settings params).IsShort := by
  rcases rawText_cases settings params with hnull | ⟨name, -, hv⟩
  · rw [hnull]
    exact .null
  · exact isShort_of_get? short hv

end Short

end Request

/-- Parameters without too long an integer or too deep a text are refused for limit, offset, filter or
order, or they make a request that is bounded. A limit and an offset that are given as integers are
taken as they are, unless they lie outside the bounds. -/
theorem requests_keep_to_their_bounds (settings : Settings) (params : Entries)
    (names : ParameterNames) :
    ((∀ e ∈ params, e.2.IsShort) → Request.IsShallow (Request.rawOf settings params names).filter →
      Request.IsShallow (Request.rawOf settings params names).order →
      (∃ e, Request.ofParameters settings params names = .error e ∧ Request.IsRefusal e) ∨
        ∃ request, Request.ofParameters settings params names = .ok request ∧
          request.IsBounded settings) ∧
    ∀ limit offset, Request.Gives (Request.rawOf settings params names).limit limit →
      Request.Gives (Request.rawOf settings params names).offset offset →
        Request.TakesBounds settings limit offset
          (Request.ofRaw settings
            { Request.rawOf settings params names with limit := .null, offset := .null })
          (Request.ofParameters settings params names) := by
  rw [Request.ofParameters_eq]
  constructor
  · intro short filter order
    have fails := @Request.failsAs_ofRaw (Request.rawOf settings params names)
      (Request.isShort_getD_get? short _) (Request.isShort_getD_get? short _)
      (Request.isShort_rawText short settings) settings
    cases hread : Request.ofRaw settings (Request.rawOf settings params names) with
    | error e =>
        rcases fails e hread with hrefusal | ⟨-, hfilter | horder⟩
        · exact .inl ⟨e, rfl, hrefusal⟩
        · exact absurd filter hfilter
        · exact absurd order horder
    | ok request => exact .inr ⟨request, rfl, Request.isBounded_of_ofRaw hread⟩
  · intro limit offset hlimit hoffset
    exact hlimit.takesBounds hoffset

section Signed

def signedParameters (limit offset : String) : Entries :=
  [(.text "limit", .text limit), (.text "offset", .text offset), (.text "q", .text " red ")]

theorem isShort_signedParameters (limit offset : String) :
    ∀ e ∈ signedParameters limit offset, e.2.IsShort :=
  List.forall_mem_cons.mpr ⟨.text _, List.forall_mem_cons.mpr
    ⟨.text _, List.forall_mem_singleton.mpr (.text _)⟩⟩

/-- A sign and blanks are no hindrance, and a separator does not help beyond the greatest limit. -/
theorem signed_limit_is_taken :
    (∃ request : Request, request.IsBounded default ∧ request.limit = 7 ∧
      Request.ofParameters default (signedParameters " +7 " "3") {} = .ok request) ∧
    Request.ofParameters default (signedParameters "1_000" "3") {} =
      .error (.parameter "limit" (.aboveMaximum 100)) := by
  have three : Request.Gives (.text "3") (some 3) :=
    .numeral [] ['3'] [] rfl nofun nofun (.unsigned ⟨[3], .last (by decide), by decide, rfl⟩)
  constructor
  · obtain ⟨hbounded, htakes⟩ :=
      requests_keep_to_their_bounds default (signedParameters " +7 " "3") {}
    have seven : Request.Gives (.text " +7 ") (some 7) :=
      .numeral [' '] ['+', '7'] [' '] rfl (List.forall_mem_singleton.mpr (by decide))
        (List.forall_mem_singleton.mpr (by decide)) (.plus ⟨[7], .last (by decide), by decide, rfl⟩)
    obtain ⟨size, hread, -, hsize⟩ := (htakes (some 7) (some 3) seven three).taken
      (by simp [default]) (by simp) _ rfl
    obtain ⟨e, herror, -⟩ | ⟨request, hok, bounded⟩ := hbounded
      (isShort_signedParameters _ _) nofun nofun
    · cases hread.symm.trans herror
    · refine ⟨request, bounded, ?_, hok⟩
      cases hread.symm.trans hok
      exact hsize 7 rfl (by decide)
  · have thousand : Request.Gives (.text "1_000") (some 1000) := by
      refine .numeral [] ['1', '_', '0', '0', '0'] [] rfl nofun nofun
        (.unsigned ⟨[1, 0, 0, 0], ?_, by decide, rfl⟩)
      exact .separated (by decide) (.next (by decide) (.next (by decide) (.last (by decide))))
    have htakes := (requests_keep_to_their_bounds default (signedParameters "1_000" "3") {}).2
      (some 1000) (some 3) thousand three
    exact htakes.above 1000 rfl (by decide)

end Signed

end Catalogue

import Catalogue.Proofs.Failing
import Catalogue.Proofs.Json.Nesting
import Catalogue.Proofs.Text.Numeral
import Catalogue.Proofs.Text.Padding
import Catalogue.Query.Request

/-!
How requests are read: which integers parameters give, what a page size comes to, and in which ways
reading fails.
-/

namespace Catalogue

namespace Value

/-- Values without an integer of more than 4300 digits, be it in a key or deep within. -/
inductive IsShort : Value → Prop
  | null : IsShort .null
  | bool (b : Bool) : IsShort (.bool b)
  | int {n : Int} (h : n.natAbs < 10 ^ Text.maxDigits) : IsShort (.int n)
  | float (x : Number.Binary64) : IsShort (.float x)
  | text (s : String) : IsShort (.text s)
  | bytes (octets : ByteArray) : IsShort (.bytes octets)
  | list {items : List Value} (h : ∀ v ∈ items, IsShort v) : IsShort (.list items)
  | object {entries : List (Value × Value)} (keys : ∀ e ∈ entries, IsShort e.1)
      (values : ∀ e ∈ entries, IsShort e.2) : IsShort (.object entries)
  | stamp (s : Calendar.Stamp) : IsShort (.stamp s)
  | date (d : Calendar.Date) : IsShort (.date d)

theorem exists_literals {items : List Value} (h : ∀ v ∈ items, ∃ s, v.literal? = some s) :
    ∃ parts, literal?.literals? items = some parts := by
  induction items with
  | nil => exact ⟨[], rfl⟩
  | cons v rest ih =>
      obtain ⟨⟨s, hs⟩, hrest⟩ := List.forall_mem_cons.mp h
      obtain ⟨parts, hparts⟩ := ih hrest
      exact ⟨s :: parts, by simp [literal?.literals?, hs, hparts]⟩

theorem exists_entryLiterals {entries : List (Value × Value)}
    (keys : ∀ e ∈ entries, ∃ s, e.1.literal? = some s)
    (values : ∀ e ∈ entries, ∃ s, e.2.literal? = some s) :
    ∃ parts, literal?.entryLiterals? entries = some parts := by
  induction entries with
  | nil => exact ⟨[], rfl⟩
  | cons e rest ih =>
      obtain ⟨⟨key, hkey⟩, hkeys⟩ := List.forall_mem_cons.mp keys
      obtain ⟨⟨value, hvalue⟩, hvalues⟩ := List.forall_mem_cons.mp values
      obtain ⟨parts, hparts⟩ := ih hkeys hvalues
      exact ⟨(key ++ ": " ++ value) :: parts, by
        simp [literal?.entryLiterals?, hkey, hvalue, hparts]⟩

theorem IsShort.exists_literal {v : Value} (h : v.IsShort) : ∃ s, v.literal? = some s := by
  induction h with
  | int h => exact Option.isSome_iff_exists.mp (Text.isSome_signed? h)
  | list _ ih =>
      obtain ⟨parts, hparts⟩ := exists_literals ih
      exact ⟨_, by rw [literal?, hparts]; rfl⟩
  | object _ _ keys values =>
      obtain ⟨parts, hparts⟩ := exists_entryLiterals keys values
      exact ⟨_, by rw [literal?, hparts]; rfl⟩
  | _ => exact ⟨_, by rw [literal?]⟩

end Value

namespace Request

theorem exists_textOf {v : Value} (h : v.IsShort) : ∃ s, textOf v = .ok s := by
  obtain ⟨s, hs⟩ : ∃ s, v.text? = some s := by
    unfold Value.text?
    split
    · exact ⟨_, rfl⟩
    · exact ⟨_, rfl⟩
    · exact ⟨_, rfl⟩
    · exact h.exists_literal
  exact ⟨s, by rw [textOf, hs]⟩

/-- How a request is read as a whole: each part from the parameter for it. -/
structure Reads (settings : Settings) (raw : RawRequest) (request : Request) : Prop where
  limit : readLimit settings raw.limit = .ok request.limit
  offset : readOffset raw.offset = .ok request.offset
  filter : ∃ filter, readContainer "filter" raw.filter = .ok filter ∧
    request.filter = orElseEmpty filter (.object [])
  order : ∃ order, readContainer "order" raw.order = .ok order ∧
    request.order = orElseEmpty order (.list [])
  text : readText raw.text = .ok request.text

theorem ofRaw_eq_ok_iff {settings : Settings} {raw : RawRequest} {request : Request} :
    ofRaw settings raw = .ok request ↔ Reads settings raw request := by
  constructor
  · intro h
    obtain ⟨limit, hlimit, h⟩ := Outcome.bind_eq_ok_iff.mp h
    obtain ⟨offset, hoffset, h⟩ := Outcome.bind_eq_ok_iff.mp h
    obtain ⟨filter, hfilter, h⟩ := Outcome.bind_eq_ok_iff.mp h
    obtain ⟨order, horder, h⟩ := Outcome.bind_eq_ok_iff.mp h
    obtain ⟨text, htext, h⟩ := Outcome.bind_eq_ok_iff.mp h
    cases h
    exact ⟨hlimit, hoffset, ⟨filter, hfilter, rfl⟩, ⟨order, horder, rfl⟩, htext⟩
  · intro h
    obtain ⟨limit, offset, filter, order, text⟩ := request
    obtain ⟨filter', hfilter, rfl⟩ := h.filter
    obtain ⟨order', horder, rfl⟩ := h.order
    refine Outcome.bind_eq_ok_iff.mpr ⟨_, h.limit, Outcome.bind_eq_ok_iff.mpr ⟨_, h.offset, ?_⟩⟩
    refine Outcome.bind_eq_ok_iff.mpr ⟨_, hfilter, Outcome.bind_eq_ok_iff.mpr ⟨_, horder, ?_⟩⟩
    exact Outcome.bind_eq_ok_iff.mpr ⟨_, h.text, rfl⟩

def rawOf (settings : Settings) (params : Entries) (names : ParameterNames) : RawRequest where
  limit := (params.get? names.limit).getD .null
  offset := (params.get? names.offset).getD .null
  filter := (params.get? names.filter).getD .null
  order := (params.get? names.order).getD .null
  text := rawText settings params

theorem ofParameters_eq (settings : Settings) (params : Entries) (names : ParameterNames) :
    ofParameters settings params names = ofRaw settings (rawOf settings params names) :=
  rfl

/-- The free text is absent, or the value of one of its names. -/
theorem rawText_cases (settings : Settings) (params : Entries) :
    rawText settings params = .null ∨ ∃ name ∈ settings.textParam :: settings.textParamAliases,
      params.get? name = some (rawText settings params) := by
  have hraw : rawText settings params = ((((settings.textParam :: settings.textParamAliases).filterMap
    params.get?).find? fun v => !isNoText v).getD .null) := rfl
  cases hfound : ((settings.textParam :: settings.textParamAliases).filterMap params.get?).find?
      fun v => !isNoText v with
  | none => exact .inl (by rw [hraw, hfound]; rfl)
  | some v =>
      obtain ⟨name, hname, hv⟩ := List.mem_filterMap.mp (List.mem_of_find?_eq_some hfound)
      exact .inr ⟨name, hname, by rw [hraw, hfound, hv]; rfl⟩

section Integers

/-- The integer that a parameter gives, as a number or as a text, or none where it is absent or
blank. -/
inductive Gives : Value → Option Int → Prop
  | absent : Gives .null none
  | blank {s : String} (h : Text.isAllBlank s = true) : Gives (.text s) none
  | integer (n : Int) : Gives (.int n) (some n)
  | numeral {s : String} {n : Int} (left body right : List Char)
      (text : s.toList = left ++ body ++ right) (hleft : ∀ c ∈ left, Text.isBlank c = true)
      (hright : ∀ c ∈ right, Text.isBlank c = true) (h : Text.IsInteger body n) :
      Gives (.text s) (some n)

theorem readInteger_text (name s : String) :
    readInteger name (.text s) =
      if Text.isAllBlank s then .ok none
      else match Text.integer? (Text.trimBy Text.isBlank s.toList) with
        | some n => .ok (some n)
        | none => .error (.parameter name .notInteger) := by
  have htext : textOf (.text s) = .ok s := rfl
  rw [← Text.isEmpty_trim, ← Text.integerIn?_trim]
  cases hn : Text.integerIn? (Text.trim s) with
  | none => simp [readInteger, htext, hn, bind, Except.bind, pure, Except.pure]
  | some n => simp [readInteger, htext, hn, bind, Except.bind, pure, Except.pure]

theorem readInteger_text_eq_ok_iff {name s : String} {given : Option Int} :
    readInteger name (.text s) = .ok given ↔ Gives (.text s) given := by
  rw [readInteger_text]
  constructor
  · intro h
    split at h
    · rename_i hblank
      cases h
      exact .blank hblank
    · split at h
      · rename_i n hn
        cases h
        obtain ⟨left, right, text, hleft, hright⟩ := Text.exists_trimBy Text.isBlank s.toList
        exact .numeral left _ right text hleft hright (Text.integer?_eq_some_iff.mp hn)
      · cases h
  · intro h
    cases h with
    | blank h => rw [if_pos h]
    | numeral left body right text hleft hright h =>
        obtain ⟨hne, htrimmed⟩ := h.isTrimmed
        have hbody : Text.trimBy Text.isBlank s.toList = body := by
          rw [text, Text.trimBy_append hleft hright, htrimmed.trimBy_eq]
        have hblank : ¬Text.isAllBlank s = true := by
          rw [Text.isAllBlank, List.all_eq_true, ← Text.trimBy_eq_nil_iff, hbody]
          exact hne
        rw [if_neg hblank, hbody, Text.integer?_eq_some_iff.mpr h]

theorem Gives.read {v : Value} {given : Option Int} (h : Gives v given) (name : String) :
    readInteger name v = .ok given := by
  cases h with
  | absent => rfl
  | blank h => exact readInteger_text_eq_ok_iff.mpr (.blank h)
  | integer n => rfl
  | numeral left body right text hleft hright h =>
      exact readInteger_text_eq_ok_iff.mpr (.numeral left body right text hleft hright h)

end Integers

end Request

/-- The size of a page for the limit that is given. -/
inductive Settings.PageSize (settings : Settings) : Option Int → Int → Prop
  | absent : PageSize settings none settings.maxLimit
  | notPositive {n : Int} (h : n ≤ 0) : PageSize settings (some n) settings.maxLimit
  | given {n : Int} (pos : 0 < n) (le : n ≤ settings.maxLimit) : PageSize settings (some n) n

namespace Settings.PageSize

variable {settings : Settings} {given : Option Int} {limit : Int}

theorem bounds (h : settings.PageSize given limit) : 0 < limit ∧ limit ≤ settings.maxLimit := by
  have hmax := settings.max_pos
  cases h with
  | absent => exact ⟨hmax, Int.le_refl _⟩
  | notPositive => exact ⟨hmax, Int.le_refl _⟩
  | given pos le => exact ⟨pos, le⟩

theorem eq_max_iff (h : settings.PageSize given limit) :
    limit = settings.maxLimit ↔
      given = none ∨ given = some settings.maxLimit ∨ ∃ n ≤ 0, given = some n := by
  cases h with
  | absent => simp
  | notPositive h => simpa using .inr h
  | given pos le =>
      constructor
      · rintro rfl
        exact .inr (.inl rfl)
      · rintro (h | h | ⟨m, hm, h⟩)
        · cases h
        · exact Option.some.inj h
        · cases h
          omega

theorem exists_of_le (h : ∀ n ∈ given, n ≤ settings.maxLimit) :
    ∃ limit, settings.PageSize given limit := by
  cases given with
  | none => exact ⟨_, .absent⟩
  | some n =>
      by_cases hn : n ≤ 0
      · exact ⟨_, .notPositive hn⟩
      · exact ⟨n, .given (by omega) (h n rfl)⟩

end Settings.PageSize

namespace Request

theorem readLimit_eq_ok_iff {settings : Settings} {v : Value} {limit : Int} :
    readLimit settings v = .ok limit ↔
      ∃ given, readInteger "limit" v = .ok given ∧ settings.PageSize given limit := by
  refine Outcome.bind_eq_ok_iff.trans (exists_congr fun given => and_congr_right fun _ => ?_)
  constructor
  · intro h
    cases given with
    | none =>
        cases h
        exact .absent
    | some n =>
        dsimp only at h
        split at h
        · rename_i hn
          cases h
          exact .notPositive hn
        · split at h
          · cases h
          · cases h
            exact .given (by omega) (by omega)
  · intro h
    cases h with
    | absent => rfl
    | notPositive hn => exact if_pos hn
    | given pos le => exact (if_neg (by omega)).trans (if_neg (by omega))

theorem readOffset_eq_ok_iff {v : Value} {offset : Option Int} :
    readOffset v = .ok offset ↔ readInteger "offset" v = .ok offset ∧ ∀ n ∈ offset, 0 ≤ n := by
  refine Outcome.bind_eq_ok_iff.trans ?_
  constructor
  · rintro ⟨given, hread, h⟩
    cases given with
    | none =>
        cases h
        exact ⟨hread, nofun⟩
    | some n =>
        dsimp only at h
        split at h
        · cases h
        · cases h
          refine ⟨hread, ?_⟩
          rintro _ ⟨⟩
          omega
  · rintro ⟨hread, h⟩
    refine ⟨offset, hread, ?_⟩
    cases offset with
    | none => rfl
    | some n => exact if_neg (by have := h n rfl; omega)

theorem isTrimmed_of_readText {v : Value} {text : Option String} (h : readText v = .ok text) :
    ∀ t ∈ text, t ≠ "" ∧ Text.IsTrimmed Text.isBlank t.toList := by
  intro t ht
  unfold readText at h
  split at h
  · cases h
    cases ht
  · obtain ⟨s, -, h⟩ := Outcome.bind_eq_ok_iff.mp h
    have htext : (if (Text.trim s).isEmpty then none else some (Text.trim s)) = text :=
      Except.ok.inj h
    rw [← htext] at ht
    split at ht
    · cases ht
    · rename_i hempty
      cases ht
      rw [String.isEmpty_iff] at hempty
      refine ⟨hempty, ?_⟩
      rw [Text.trim, String.toList_ofList]
      exact Text.isTrimmed_trimBy _ _

/-- How reading fails: for one of the parameters that are more than a text. -/
def IsRefusal (e : Failure) : Prop :=
  ∃ name ∈ ["limit", "offset", "filter", "order"], ∃ problem, e = .parameter name problem

/-- The text that a parameter carries, as it is or in octets. -/
def carried? : Value → Option String
  | .text s => some s
  | .bytes octets => String.fromUTF8? octets
  | _ => none

/-- Is a text that the parameter carries nested no deeper than a reader can go? -/
def IsShallow (v : Value) : Prop :=
  ∀ s, carried? v = some s → Json.IsNestedAtMost Json.maxNesting s

section Failing

variable {v : Value}

theorem failsAs_readInteger (short : v.IsShort) {name : String}
    (hname : name ∈ ["limit", "offset", "filter", "order"]) :
    FailsAs IsRefusal (readInteger name v) := by
  unfold readInteger
  split
  · exact .ok _
  · exact .error ⟨name, hname, _, rfl⟩
  · exact .ok _
  · obtain ⟨s, hs⟩ := exists_textOf short
    rw [hs]
    refine .bind (.ok s) fun t _ => .ite (.ok _) ?_
    split
    · exact .ok _
    · exact .error ⟨name, hname, _, rfl⟩

theorem failsAs_readLimit (short : v.IsShort) (settings : Settings) :
    FailsAs IsRefusal (readLimit settings v) := by
  refine .bind (failsAs_readInteger short (.head _)) fun n _ => ?_
  cases n with
  | none => exact .ok _
  | some n => exact .ite (.ok _) (.ite (.error ⟨_, .head _, _, rfl⟩) (.ok _))

theorem failsAs_readOffset (short : v.IsShort) : FailsAs IsRefusal (readOffset v) := by
  refine .bind (failsAs_readInteger short (.tail _ (.head _))) fun n _ => ?_
  cases n with
  | none => exact .ok _
  | some n => exact .ite (.error ⟨_, .tail _ (.head _), _, rfl⟩) (.ok _)

theorem failsAs_decodeText {name : String}
    (hname : name ∈ ["limit", "offset", "filter", "order"]) (s : String) :
    FailsAs (fun e => IsRefusal e ∨ e = .fault .tooDeep ∧ ¬Json.IsNestedAtMost Json.maxNesting s)
      (decodeText name s) := by
  refine .ite (.ok _) ?_
  split
  · exact .error (.inl ⟨name, hname, _, rfl⟩)
  · rename_i hdeep
    exact .error (.inr ⟨rfl, fun hnested => hnested hdeep⟩)
  · exact .ok _
  · exact .ok _
  · exact .error (.inl ⟨name, hname, _, rfl⟩)

/-- What is decoded is never written, so that its integers may have any length. -/
theorem failsAs_readContainer {name : String}
    (hname : name ∈ ["limit", "offset", "filter", "order"]) (v : Value) :
    FailsAs (fun e => IsRefusal e ∨ e = .fault .tooDeep ∧ ¬IsShallow v) (readContainer name v) := by
  have htext : ∀ s, carried? v = some s → FailsAs
      (fun e => IsRefusal e ∨ e = .fault .tooDeep ∧ ¬IsShallow v) (decodeText name s) := by
    intro s hs
    refine (failsAs_decodeText hname s).mono fun e => ?_
    exact .imp_right fun hdeep => ⟨hdeep.1, fun shallow => hdeep.2 (shallow s hs)⟩
  unfold readContainer
  split
  · exact .ok _
  · exact .ok _
  · exact .ok _
  · exact htext _ rfl
  · split
    · exact htext _ ‹_›
    · exact .error (.inl ⟨name, hname, _, rfl⟩)
  · exact .error (.inl ⟨name, hname, _, rfl⟩)

theorem failsAs_readText (short : v.IsShort) : FailsAs IsRefusal (readText v) := by
  unfold readText
  split
  · exact .ok _
  · obtain ⟨s, hs⟩ := exists_textOf short
    rw [hs]
    exact .bind (.ok s) fun _ _ => .ok _

/-- Reading fails for a parameter, or it comes to a text that is nested too deep. -/
theorem failsAs_ofRaw {raw : RawRequest} (limit : raw.limit.IsShort) (offset : raw.offset.IsShort)
    (text : raw.text.IsShort) (settings : Settings) :
    FailsAs (fun e => IsRefusal e ∨
      e = .fault .tooDeep ∧ (¬IsShallow raw.filter ∨ ¬IsShallow raw.order)) (ofRaw settings raw) := by
  refine .bind ((failsAs_readLimit limit settings).mono fun _ => .inl) fun _ _ => ?_
  refine .bind ((failsAs_readOffset offset).mono fun _ => .inl) fun _ _ => ?_
  refine .bind ((failsAs_readContainer (by decide) raw.filter).mono fun _ => ?_) fun _ _ => ?_
  · exact .imp_right fun hdeep => ⟨hdeep.1, .inl hdeep.2⟩
  refine .bind ((failsAs_readContainer (by decide) raw.order).mono fun _ => ?_) fun _ _ => ?_
  · exact .imp_right fun hdeep => ⟨hdeep.1, .inr hdeep.2⟩
  exact .bind ((failsAs_readText text).mono fun _ => .inl) fun _ _ => .ok _

end Failing

end Request

end Catalogue

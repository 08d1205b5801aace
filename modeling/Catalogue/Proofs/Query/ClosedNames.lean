import Catalogue.Query.Plan
import Mathlib.Data.List.Forall2

/-!
The names that a request may use. What stands under any other name is not even looked at: with it or
without it a request compiles to the same plan, or fails for the same reason.
-/

namespace Catalogue

open Calendar (Date)

/-- Does the name mark deleted rows? An empty marker marks none. -/
def IsMarker (marker : Option String) (name : String) : Prop :=
  name ≠ "" ∧ marker = some name

/-- May a filter name the field? -/
def IsOpen (registry : Registry) (settings : Settings) (name : String) : Prop :=
  name ∈ registry.names ∧ ¬IsMarker settings.deletedMarker name

instance (marker : Option String) (name : String) : Decidable (IsMarker marker name) :=
  inferInstanceAs (Decidable (_ ∧ _))

instance (registry : Registry) (settings : Settings) (name : String) :
    Decidable (IsOpen registry settings name) :=
  inferInstanceAs (Decidable (_ ∧ _))

namespace Registry

theorem mem_names_foldl_declare (declarations : List Field) {fields : List Field} {name : String} :
    name ∈ (declarations.foldl declare fields).map Field.name ↔
      name ∈ fields.map Field.name ∨ name ∈ declarations.map Field.name := by
  induction declarations generalizing fields with
  | nil => simp
  | cons f rest ih =>
      have hdeclare : name ∈ (declare fields f).map Field.name ↔
          name ∈ fields.map Field.name ∨ name = f.name := by
        rw [map_name_declare]
        split
        · rename_i hf
          constructor
          · exact .inl
          · rintro (h | rfl)
            · exact h
            · exact hf
        · rw [List.mem_append, List.mem_singleton]
      rw [List.foldl_cons, ih, hdeclare, List.map_cons, List.mem_cons, or_assoc]

/-- The names of a registry are the declared ones, without the hidden ones and the marker. -/
theorem mem_names_ofDeclarations {declarations : List Field} {idField : String}
    {defaultOrder : List SortDirective} {hidden : List String} {marker : Option String}
    {name : String} :
    name ∈ (ofDeclarations declarations idField defaultOrder hidden marker).names ↔
      name ∈ declarations.map Field.name ∧ name ∉ hidden ∧ ¬IsMarker marker name := by
  have hdeclared : name ∈ (declarations.foldl declare []).map Field.name ↔
      name ∈ declarations.map Field.name := by
    rw [mem_names_foldl_declare]
    simp
  rw [← hdeclared]
  simp only [names, ofDeclarations, List.mem_map, List.mem_filter, IsMarker]
  constructor
  · rintro ⟨f, ⟨hf, hopen⟩, rfl⟩
    refine ⟨⟨f, hf, rfl⟩, ?_⟩
    simpa [or_iff_not_imp_left] using hopen
  · rintro ⟨⟨f, hf, rfl⟩, hopen⟩
    refine ⟨f, ⟨hf, ?_⟩, rfl⟩
    simpa [or_iff_not_imp_left] using hopen

end Registry

namespace Entries

variable {visible : String → Prop} {es fs : Entries}

/-- Do two objects hold the same under every name of some sort? -/
def AgreeOn (visible : String → Prop) (es fs : Entries) : Prop :=
  ∀ name, visible name → es.get? name = fs.get? name

/-- Objects that differ only in the entry under one name, which one of them may lack, agree on all
the others. -/
theorem AgreeOn.of_erase_eq (key : String) (h : es.erase key = fs.erase key)
    (hidden : ¬visible key) : AgreeOn visible es fs := by
  intro name hname
  have hne : name ≠ key := by
    rintro rfl
    exact hidden hname
  rw [← get?_erase_of_ne es hne, h, get?_erase_of_ne fs hne]

theorem AgreeOn.erase {key : String} (h : AgreeOn (fun name => visible name ∧ name ≠ key) es fs) :
    AgreeOn visible (es.erase key) (fs.erase key) := by
  intro name hname
  by_cases hkey : name = key
  · rw [hkey, get?_erase_self, get?_erase_self]
  · rw [get?_erase_of_ne es hkey, get?_erase_of_ne fs hkey]
    exact h name ⟨hname, hkey⟩

theorem get?_singleton (name : String) (v : Value) (key : String) :
    get? [(.text name, v)] key = if name = key then some v else none := by
  unfold get?
  by_cases h : name = key <;> simp [Value.isText, h]

end Entries

namespace Field

variable {today : Date} {f : Field}

theorem field_of_excluding {values : List Value} {ps : List Predicate}
    (h : f.excluding today values = .ok ps) : ∀ p ∈ ps, p.field = f.name := by
  induction values generalizing ps with
  | nil =>
      cases h
      simp
  | cons v rest ih =>
      simp only [excluding] at h
      split at h
      · obtain ⟨others, hothers, h⟩ := Outcome.bind_eq_ok_iff.mp h
        cases h
        exact List.forall_mem_cons.mpr ⟨rfl, ih hothers⟩
      · split at h
        · obtain ⟨_, -, h⟩ := Outcome.bind_eq_ok_iff.mp h
          obtain ⟨others, hothers, h⟩ := Outcome.bind_eq_ok_iff.mp h
          cases h
          exact List.forall_mem_cons.mpr ⟨rfl, ih hothers⟩
        · exact ih h

theorem field_of_among {values : List Value} {p : Predicate} (h : f.among today values = .ok p) :
    p.field = f.name := by
  obtain ⟨_, -, h⟩ := Outcome.bind_eq_ok_iff.mp h
  cases h
  rfl

theorem field_of_only {made : Outcome Predicate} {ps : List Predicate}
    (hmade : ∀ p, made = .ok p → p.field = f.name) (h : (do return [← made]) = Except.ok ps) :
    ∀ p ∈ ps, p.field = f.name := by
  obtain ⟨p, hp, h⟩ := Outcome.bind_eq_ok_iff.mp h
  cases h
  exact List.forall_mem_singleton.mpr (hmade p hp)

theorem field_of_within {lower upper : Value} {values : List Value} {ps : List Predicate}
    (h : f.within today lower upper values = .ok ps) : ∀ p ∈ ps, p.field = f.name := by
  obtain ⟨least, -, h⟩ := Outcome.bind_eq_ok_iff.mp h
  obtain ⟨most, -, h⟩ := Outcome.bind_eq_ok_iff.mp h
  cases least with
  | none =>
      cases most with
      | none => exact field_of_only (fun _ => field_of_among) h
      | some u =>
          cases h
          simp [Predicate.field]
  | some l =>
      cases most with
      | none =>
          cases h
          simp [Predicate.field]
      | some u =>
          cases h
          simp [Predicate.field]

theorem field_of_equalTo {v : Value} {p : Predicate} (h : f.equalTo today v = .ok p) :
    p.field = f.name := by
  unfold equalTo at h
  split at h
  · cases h
    rfl
  · obtain ⟨_, -, h⟩ := Outcome.bind_eq_ok_iff.mp h
    cases h
    rfl

theorem field_of_predicates {raw : Value} {ps : List Predicate}
    (h : f.predicates today raw = .ok ps) : ∀ p ∈ ps, p.field = f.name := by
  unfold predicates at h
  cases hterm : Term.ofValue raw with
  | negated values =>
      rw [hterm] at h
      exact field_of_excluding h
  | range lower upper values =>
      rw [hterm] at h
      exact field_of_within h
  | members values =>
      rw [hterm] at h
      exact field_of_only (fun _ => field_of_among) h
  | absent =>
      rw [hterm] at h
      cases h
      simp [Predicate.field]
  | single v =>
      rw [hterm] at h
      exact field_of_only (fun _ => field_of_equalTo) h

end Field

namespace Filter

variable {today : Date} {registry : Registry} {visible : String → Prop}

/-- Clauses that differ at most in what they hold under names that are not visible. -/
inductive SameClause (visible : String → Prop) : Value → Value → Prop
  | object {es fs : Entries} (h : es.AgreeOn visible fs) : SameClause visible (.object es) (.object fs)
  | refl (v : Value) : SameClause visible v v

/-- Filters that differ at most so, in the object or in each of their clauses. -/
inductive Same (visible : String → Prop) : Value → Value → Prop
  | clause {v w : Value} (h : SameClause visible v w) : Same visible v w
  | clauses {vs ws : List Value} (h : List.Forall₂ (SameClause visible) vs ws) :
      Same visible (.list vs) (.list ws)

/-- Does the filter, or one of its clauses, hold an entry under the name? -/
inductive Holds (name : String) : Value → Prop
  | object {es : Entries} (h : (es.get? name).isSome = true) : Holds name (.object es)
  | clause {es : Entries} {clauses : List Value} (hmem : Value.object es ∈ clauses)
      (h : (es.get? name).isSome = true) : Holds name (.list clauses)

theorem compileFields_congr {es fs : Entries} {fields : List Field}
    (h : ∀ f ∈ fields, es.get? f.name = fs.get? f.name) :
    compileFields today es fields = compileFields today fs fields := by
  induction fields with
  | nil => rfl
  | cons f rest ih =>
      obtain ⟨hf, hrest⟩ := List.forall_mem_cons.mp h
      simp only [compileFields, hf, ih hrest]

theorem compile_congr {v w : Value} (h : SameClause (· ∈ registry.names) v w) :
    compile today registry v = compile today registry w := by
  cases h with
  | refl => rfl
  | object h =>
      apply compileFields_congr
      intro f hf
      exact h f.name (List.mem_map_of_mem hf)

theorem compileEach_cons (v : Value) (rest : List Value) :
    compileEach today registry (v :: rest) =
      (match v with
        | .object _ => do return (← compile today registry v) ++ (← compileEach today registry rest)
        | _ => .error (refusal .clauseNotObject)) := by
  cases v <;> rfl

theorem compileEach_congr {vs ws : List Value}
    (h : List.Forall₂ (SameClause (· ∈ registry.names)) vs ws) :
    compileEach today registry vs = compileEach today registry ws := by
  induction h with
  | nil => rfl
  | cons hclause _ ih =>
      cases hclause with
      | object h => simp only [compileEach, compile_congr (.object h), ih]
      | refl => simp only [compileEach_cons, ih]

theorem compileFields_of_not_mem (today : Date) {fields : List Field} {name : String}
    (raw : Value) (h : name ∉ fields.map Field.name) :
    compileFields today [(.text name, raw)] fields = .ok [] := by
  induction fields with
  | nil => rfl
  | cons g rest ih =>
      rw [List.map_cons, List.mem_cons, not_or] at h
      rw [compileFields, Entries.get?_singleton, if_neg h.1]
      exact ih h.2

theorem compileFields_singleton (today : Date) {fields : List Field} {f : Field} (raw : Value)
    (nodup : (fields.map Field.name).Nodup) (hf : f ∈ fields) :
    compileFields today [(.text f.name, raw)] fields = f.predicates today raw := by
  induction fields with
  | nil => cases hf
  | cons g rest ih =>
      rw [List.map_cons, List.nodup_cons] at nodup
      rcases List.mem_cons.mp hf with rfl | hrest
      · rw [compileFields, Entries.get?_singleton, if_pos rfl]
        dsimp only
        rw [compileFields_of_not_mem today raw nodup.1]
        cases f.predicates today raw with
        | error e => rfl
        | ok ps => exact congrArg Except.ok (List.append_nil ps)
      · have hne : f.name ≠ g.name := by
          intro heq
          exact nodup.1 (heq ▸ List.mem_map_of_mem hrest)
        rw [compileFields, Entries.get?_singleton, if_neg hne]
        exact ih nodup.2 hrest

theorem compile_singleton (today : Date) {f : Field} (hf : f ∈ registry.fields) (raw : Value) :
    compile today registry (.object [(.text f.name, raw)]) = f.predicates today raw :=
  compileFields_singleton today raw registry.names_nodup hf

/-- Every condition is on a declared field under which the object holds an entry. -/
theorem holds_of_compileFields {es : Entries} {fields : List Field} {ps : List Predicate}
    (h : compileFields today es fields = .ok ps) :
    ∀ p ∈ ps, p.field ∈ fields.map Field.name ∧ (es.get? p.field).isSome = true := by
  induction fields generalizing ps with
  | nil =>
      cases h
      simp
  | cons f rest ih =>
      have later {qs : List Predicate} (hqs : compileFields today es rest = .ok qs) : ∀ p ∈ qs,
          p.field ∈ (f :: rest).map Field.name ∧ (es.get? p.field).isSome = true := by
        intro p hp
        exact ⟨.tail _ (ih hqs p hp).1, (ih hqs p hp).2⟩
      unfold compileFields at h
      split at h
      · exact later h
      · rename_i raw hraw
        obtain ⟨first, hfirst, h⟩ := Outcome.bind_eq_ok_iff.mp h
        obtain ⟨others, hothers, h⟩ := Outcome.bind_eq_ok_iff.mp h
        cases h
        rw [List.forall_mem_append]
        refine ⟨?_, later hothers⟩
        intro p hp
        rw [Field.field_of_predicates hfirst p hp, hraw]
        exact ⟨.head _, rfl⟩

theorem holds_of_compile {v : Value} {ps : List Predicate}
    (h : compile today registry v = .ok ps) :
    ∀ p ∈ ps, p.field ∈ registry.names ∧ Holds p.field v := by
  cases v with
  | object es =>
      intro p hp
      obtain ⟨hname, hsome⟩ := holds_of_compileFields h p hp
      exact ⟨hname, .object hsome⟩
  | _ => cases h

theorem holds_of_compileEach {clauses : List Value} {ps : List Predicate}
    (h : compileEach today registry clauses = .ok ps) :
    ∀ p ∈ ps, p.field ∈ registry.names ∧ Holds p.field (.list clauses) := by
  induction clauses generalizing ps with
  | nil =>
      cases h
      simp
  | cons v rest ih =>
      cases v with
      | object es =>
          obtain ⟨first, hfirst, h⟩ := Outcome.bind_eq_ok_iff.mp h
          obtain ⟨others, hothers, h⟩ := Outcome.bind_eq_ok_iff.mp h
          cases h
          rw [List.forall_mem_append]
          constructor
          · intro p hp
            obtain ⟨hname, hsome⟩ := holds_of_compileFields hfirst p hp
            exact ⟨hname, .clause (.head _) hsome⟩
          · intro p hp
            obtain ⟨hname, hholds⟩ := ih hothers p hp
            cases hholds with
            | clause hmem hsome => exact ⟨hname, .clause (.tail _ hmem) hsome⟩
      | _ => cases h

end Filter

namespace Plan

variable {today : Date} {registry : Registry} {settings : Settings} {acceptsClauses : Bool}

theorem compileFilter_congr {v w : Value} (h : Filter.Same (· ∈ registry.names) v w) :
    compileFilter today registry acceptsClauses v =
      compileFilter today registry acceptsClauses w := by
  cases h with
  | clause h =>
      cases h with
      | object h =>
          have hcompile : Filter.compile today registry _ = Filter.compile today registry _ :=
            Filter.compile_congr (.object h)
          cases acceptsClauses with
          | false => exact hcompile
          | true => exact hcompile
      | refl => rfl
  | clauses h =>
      cases acceptsClauses with
      | false => rfl
      | true => exact Filter.compileEach_congr h

theorem sameClause_withoutMarkerIn {marker : String}
    (hmarker : settings.deletedMarker = some marker) {v w : Value}
    (h : Filter.SameClause (IsOpen registry settings) v w) :
    Filter.SameClause (· ∈ registry.names) (withoutMarkerIn marker v) (withoutMarkerIn marker w) := by
  cases h with
  | refl => exact .refl _
  | object h =>
      apply Filter.SameClause.object
      apply Entries.AgreeOn.erase
      rintro name ⟨hname, hother⟩
      apply h name
      refine ⟨hname, ?_⟩
      rintro ⟨-, hmarked⟩
      exact hother (Option.some.inj (hmarked.symm.trans hmarker))

theorem isOpen_of_unmarked (h : ∀ name, ¬IsMarker settings.deletedMarker name) :
    IsOpen registry settings = (· ∈ registry.names) := by
  funext name
  simp [IsOpen, h name]

/-- Once the marker is out of them, filters that differ only under closed names differ only under
names that are not declared. -/
theorem same_withoutMarker {v w : Value} (h : Filter.Same (IsOpen registry settings) v w) :
    Filter.Same (· ∈ registry.names) (withoutMarker settings v) (withoutMarker settings w) := by
  unfold withoutMarker
  cases hmarker : settings.deletedMarker with
  | none =>
      rw [isOpen_of_unmarked (by simp [IsMarker, hmarker])] at h
      exact h
  | some marker =>
      dsimp only
      split
      · rename_i hempty
        rw [isOpen_of_unmarked (by simp_all [IsMarker])] at h
        exact h
      · cases h with
        | clauses h =>
            apply Filter.Same.clauses
            rw [List.forall₂_map_left_iff, List.forall₂_map_right_iff]
            exact h.imp fun _ _ => sameClause_withoutMarkerIn hmarker
        | clause h =>
            cases h with
            | object h => exact .clause (sameClause_withoutMarkerIn hmarker (.object h))
            | refl => exact .clause (.refl _)

theorem withoutMarker_singleton {name : String}
    (hname : ¬IsMarker settings.deletedMarker name) (v : Value) :
    withoutMarker settings (.object [(.text name, v)]) = .object [(.text name, v)] := by
  unfold withoutMarker
  split
  · rfl
  · rename_i marker hmarker
    split
    · rfl
    · rename_i hempty
      have hne : name ≠ marker := by
        rintro rfl
        exact hname ⟨by simpa using hempty, hmarker⟩
      simp [withoutMarkerIn, Entries.erase, Value.isText, hne]

theorem not_holds_withoutMarker {name : String} (hname : IsMarker settings.deletedMarker name)
    (filter : Value) : ¬Filter.Holds name (withoutMarker settings filter) := by
  obtain ⟨hne, hmarker⟩ := hname
  have habsent (es : Entries) : ¬((es.erase name).get? name).isSome = true := by
    rw [Entries.get?_erase_self]
    simp
  unfold withoutMarker
  rw [hmarker]
  dsimp only
  rw [if_neg (by simpa using hne)]
  intro h
  cases filter with
  | list clauses =>
      cases h with
      | clause hmem hsome =>
          obtain ⟨v, -, hv⟩ := List.mem_map.mp hmem
          cases v with
          | object es =>
              cases hv
              exact habsent es hsome
          | _ => cases hv
  | object es =>
      cases h with
      | object hsome => exact habsent es hsome
  | _ => cases h

theorem holds_of_compileFilter {filter : Value} {ps : List Predicate}
    (h : compileFilter today registry acceptsClauses filter = .ok ps) :
    ∀ p ∈ ps, p.field ∈ registry.names ∧ Filter.Holds p.field filter := by
  cases acceptsClauses with
  | false => exact Filter.holds_of_compile h
  | true =>
      cases filter with
      | list clauses => exact Filter.holds_of_compileEach h
      | object es => exact Filter.holds_of_compile h
      | _ => cases h

end Plan

namespace Order

variable {registry : Registry} {seedLength : Int}

/-- Is the field neither declared nor the mark of a random order? -/
def isInert (registry : Registry) (field : String) : Bool :=
  field != randomField && !registry.has field

theorem directive?_of_isInert {field : String} (h : isInert registry field = true) (v : Value) :
    directive? registry seedLength field v = .ok none := by
  obtain ⟨hrandom, hdeclared⟩ := Bool.and_eq_true_iff.mp h
  unfold directive?
  rw [if_neg (by simpa using hrandom), if_neg (by simpa using hdeclared)]

theorem directives_filter (entries : List (String × Value)) :
    directives registry seedLength (entries.filter fun e => !isInert registry e.1) =
      directives registry seedLength entries := by
  induction entries with
  | nil => rfl
  | cons entry rest ih =>
      obtain ⟨field, v⟩ := entry
      cases h : isInert registry field with
      | true =>
          rw [List.filter_cons_of_neg (by simp [h]), ih, directives, directive?_of_isInert h]
          cases directives registry seedLength rest <;> rfl
      | false =>
          rw [List.filter_cons_of_pos (by simp [h]), directives, ih, directives]

section Without

variable (p : String → Bool)

/-- Does a key name such a field? -/
def isKeyOf (k : Value) : Bool :=
  k.text?.any p

/-- Is the item a single entry for such a field? -/
def isItemOf : Value → Bool
  | .object [(k, _)] => isKeyOf p k
  | _ => false

/-- An order without its entries for fields of some sort. -/
def without : Value → Value
  | .object es => .object (es.filter fun e => !isKeyOf p e.1)
  | .list items => .list (items.filter fun item => !isItemOf p item)
  | v => v

def dropping (entries : Outcome (List (String × Value))) : Outcome (List (String × Value)) :=
  entries.map fun es => es.filter fun e => !p e.1

/-- An entry in front of those of the rest, once its key is read. -/
def withEntry (k v : Value) (rest : Outcome (List (String × Value))) :
    Outcome (List (String × Value)) := do
  return (← keyText k, v) :: (← rest)

/-- It makes no difference whether an entry is left out before or after its key is read. -/
theorem dropping_withEntry (k v : Value) (rest : Outcome (List (String × Value))) :
    dropping p (withEntry k v rest) =
      if isKeyOf p k then dropping p rest else withEntry k v (dropping p rest) := by
  cases hk : k.text? with
  | none =>
      have hkey : isKeyOf p k = false := by
        simp [isKeyOf, hk]
      rw [hkey]
      simp [dropping, withEntry, keyText, hk, bind, Except.bind, Except.map]
  | some field =>
      have hkey : isKeyOf p k = p field := by
        simp [isKeyOf, hk]
      rw [hkey]
      simp only [dropping, withEntry, keyText, hk, bind, Except.bind]
      cases rest with
      | error e => simp [Except.map]
      | ok es =>
          cases h : p field with
          | true => simp [Except.map, pure, Except.pure, h]
          | false => simp [Except.map, pure, Except.pure, h]

theorem entriesOf_filter (es : Entries) :
    entriesOf (es.filter fun e => !isKeyOf p e.1) = dropping p (entriesOf es) := by
  induction es with
  | nil => rfl
  | cons entry rest ih =>
      obtain ⟨k, v⟩ := entry
      have hcons (es : Entries) : entriesOf ((k, v) :: es) = withEntry k v (entriesOf es) := rfl
      rw [hcons, dropping_withEntry, List.filter_cons, ← ih]
      cases isKeyOf p k <;> rfl

theorem entriesOfItems_filter (items : List Value) :
    entriesOfItems (items.filter fun item => !isItemOf p item) =
      dropping p (entriesOfItems items) := by
  induction items with
  | nil => rfl
  | cons item rest ih =>
      cases item with
      | object es =>
          match es with
          | [(k, v)] =>
              have hcons (items : List Value) : entriesOfItems (.object [(k, v)] :: items) =
                  withEntry k v (entriesOfItems items) := rfl
              rw [hcons, dropping_withEntry, List.filter_cons, ← ih, isItemOf]
              cases isKeyOf p k <;> rfl
          | [] => rfl
          | _ :: _ :: _ => rfl
      | _ => rfl

theorem entries_without (order : Value) : entries (without p order) = dropping p (entries order) := by
  have hobject (es : Entries) : entries (.object es) = entriesOf es := by
    cases es <;> rfl
  have hlist (items : List Value) : entries (.list items) = entriesOfItems items := by
    cases items <;> rfl
  cases order with
  | object es => rw [without, hobject, hobject, entriesOf_filter]
  | list items => rw [without, hlist, hlist, entriesOfItems_filter]
  | _ =>
      unfold entries without
      dsimp only
      split <;> rfl

end Without

/-- Orders compile to the same when they are equal without their inert entries. -/
theorem compile_congr {v w : Value} (h : without (isInert registry) v = without (isInert registry) w) :
    compile registry seedLength v = compile registry seedLength w := by
  have hwithout (order : Value) : compile registry seedLength (without (isInert registry) order) =
      compile registry seedLength order := by
    unfold compile
    rw [entries_without]
    cases entries order with
    | error e => rfl
    | ok es => exact directives_filter es
  rw [← hwithout v, h, hwithout w]

theorem has_of_directive? {field : String} {v : Value} {first : Option SortDirective}
    (h : directive? registry seedLength field v = .ok first) :
    ∀ d ∈ first, d.seed = none → registry.has d.field = true := by
  intro d hd unseeded
  unfold directive? at h
  split at h
  · split at h
    · split at h <;> cases h
      · cases hd
      · cases hd
        cases unseeded
    · cases h
  · split at h
    · rename_i hfield
      cases h
      obtain ⟨direction, -, rfl⟩ := Option.map_eq_some_iff.mp hd
      exact hfield
    · cases h
      cases hd

theorem has_of_directives {entries : List (String × Value)} {ds : List SortDirective}
    (h : directives registry seedLength entries = .ok ds) :
    ∀ d ∈ ds, d.seed = none → registry.has d.field = true := by
  induction entries generalizing ds with
  | nil =>
      cases h
      simp
  | cons entry rest ih =>
      obtain ⟨first, hfirst, h⟩ := Outcome.bind_eq_ok_iff.mp h
      obtain ⟨others, hothers, h⟩ := Outcome.bind_eq_ok_iff.mp h
      cases h
      rw [List.forall_mem_append]
      exact ⟨fun d hd => has_of_directive? hfirst d (Option.mem_toList.mp hd), ih hothers⟩

theorem has_of_compile {order : Value} {ds : List SortDirective}
    (h : compile registry seedLength order = .ok ds) :
    ∀ d ∈ ds, d.seed = none → registry.has d.field = true := by
  obtain ⟨entries, -, h⟩ := Outcome.bind_eq_ok_iff.mp h
  exact has_of_directives h

end Order

/-- Requests that differ at most in what they hold under closed names: in the entries of the filter
or of its clauses that no filter may name, and in the entries of the order for fields that are not
declared. -/
structure Request.SameOpenly (registry : Registry) (settings : Settings) (r r' : Request) :
    Prop where
  filter : Filter.Same (IsOpen registry settings) r.filter r'.filter
  order : Order.without (Order.isInert registry) r.order =
    Order.without (Order.isInert registry) r'.order

/-- Whatever a request holds under closed names, it compiles to the same plan or fails in the same
way, and no predicate is about such a field. -/
theorem closed_names_are_inert (today : Date) (registry : Registry) (settings : Settings)
    (acceptsClauses : Bool) :
    (∀ r r' : Request, r.SameOpenly registry settings r' →
      Plan.ofRequest today registry settings acceptsClauses r =
        Plan.ofRequest today registry settings acceptsClauses r') ∧
    (∀ request plan, Plan.ofRequest today registry settings acceptsClauses request = .ok plan →
      (∀ p ∈ plan.predicates, IsOpen registry settings p.field) ∧
        ∀ d ∈ plan.sort, d.isRandom = false → d.field ∈ registry.names) ∧
    ∀ declarations idField defaultOrder hidden marker name,
      name ∈ (Registry.ofDeclarations declarations idField defaultOrder hidden marker).names ↔
        name ∈ declarations.map Field.name ∧ name ∉ hidden ∧ ¬IsMarker marker name := by
  refine ⟨?_, ?_, fun _ _ _ _ _ _ => Registry.mem_names_ofDeclarations⟩
  · intro r r' same
    unfold Plan.ofRequest
    rw [Plan.compileFilter_congr (Plan.same_withoutMarker same.filter),
      Order.compile_congr same.order]
  · intro request plan h
    obtain ⟨predicates, hpredicates, h⟩ := Outcome.bind_eq_ok_iff.mp h
    obtain ⟨sort, hsort, h⟩ := Outcome.bind_eq_ok_iff.mp h
    cases h
    constructor
    · intro p hp
      obtain ⟨hname, hholds⟩ := Plan.holds_of_compileFilter hpredicates p hp
      exact ⟨hname, fun hmarker => Plan.not_holds_withoutMarker hmarker _ hholds⟩
    · intro d hd unseeded
      have hhas := Order.has_of_compile hsort d hd (by simpa [SortDirective.isRandom] using unseeded)
      exact List.contains_iff_mem.mp hhas

section Articles

/-- Articles whose owner is hidden, in a table with a marker of its own. -/
def guardedRegistry : Registry :=
  .ofDeclarations [{ name := "id" }, { name := "title" }, { name := "owner" },
    { name := "removed_on" }] "id" [] ["owner"] (some "removed_on")

/-- Clauses and an order with entries under closed names. The timestamps would be refused if they
were looked at. -/
def probingRequest : Request where
  limit := 10
  filter := .list [
    .object [(.text "title", .text "a%"), (.text "removed_on", .text "never")],
    .object [(.text "owner", .int 1)],
    .object [(.text "deleted_on", .text "never")]]
  order := .list [.object [(.text "owner", .list [])], .object [(.text "title", .text "asc")]]

def plainRequest : Request where
  limit := 10
  filter := .list [.object [(.text "title", .text "a%")], .object [(.text "owner", .null)], .object []]
  order := .list [.object [(.text "title", .text "asc")]]

theorem plan_of_probing_request :
    probingRequest.SameOpenly guardedRegistry default plainRequest ∧
      Plan.ofRequest default guardedRegistry default true probingRequest =
        Plan.ofRequest default guardedRegistry default true plainRequest ∧
      ∃ plan, Plan.ofRequest default guardedRegistry default true probingRequest = .ok plan ∧
        plan.predicates.map Predicate.field = ["title"] ∧
        plan.sort = [{ field := "title" }] ∧
        ∀ p ∈ plan.predicates, IsOpen guardedRegistry default p.field := by
  have same : probingRequest.SameOpenly guardedRegistry default plainRequest := by
    constructor
    · apply Filter.Same.clauses
      refine .cons (.object ?_) (.cons (.object ?_) (.cons (.object ?_) .nil))
      · exact .of_erase_eq "removed_on" rfl (by decide)
      · exact .of_erase_eq "owner" rfl (by decide)
      · exact .of_erase_eq "deleted_on" rfl (by decide)
    · rfl
  obtain ⟨hsame, hopen, -⟩ := closed_names_are_inert default guardedRegistry default true
  refine ⟨same, hsame probingRequest plainRequest same, _, rfl, rfl, rfl, ?_⟩
  exact (hopen probingRequest _ rfl).1

end Articles

end Catalogue

import Catalogue.Proofs.Failing
import Catalogue.Proofs.Json.Reader
import Catalogue.Proofs.Query.ClosedNames

/-!
Filters in parts. An object compiles field by field in the order of the registry, so the order of its
entries has no part in it, and a list compiles clause by clause. The first part that fails is the
failure of the whole.
-/

namespace Catalogue

open Calendar (Date)

/-- What the elements of a list come to, one after the other. The first that fails ends it. -/
def collect {α β : Type} (f : α → Outcome (List β)) (l : List α) : Outcome (List β) :=
  (l.mapM f).map List.flatten

section Collect

variable {α β γ : Type} {f : α → Outcome (List β)}

theorem collect_nil (f : α → Outcome (List β)) : collect f [] = .ok [] :=
  rfl

theorem collect_cons (f : α → Outcome (List β)) (a : α) (l : List α) :
    collect f (a :: l) = do return (← f a) ++ (← collect f l) := by
  unfold collect
  rw [List.mapM_cons]
  cases f a with
  | error e => rfl
  | ok first => cases l.mapM f <;> rfl

theorem collect_append (l l' : List α) :
    collect f (l ++ l') = do return (← collect f l) ++ (← collect f l') := by
  unfold collect
  rw [List.mapM_append]
  cases l.mapM f with
  | error e => rfl
  | ok firsts =>
      cases l'.mapM f with
      | error e => rfl
      | ok others => exact congrArg Except.ok List.flatten_append

theorem collect_congr {g : α → Outcome (List β)} {l : List α} (h : ∀ a ∈ l, f a = g a) :
    collect f l = collect g l := by
  induction l with
  | nil => rfl
  | cons a l ih =>
      obtain ⟨ha, hl⟩ := List.forall_mem_cons.mp h
      rw [collect_cons, collect_cons, ha, ih hl]

/-- Elements that are collections themselves may be put in one list before they are gone through. -/
theorem collect_flatMap (g : γ → List α) (l : List γ) :
    collect f (l.flatMap g) = collect (fun c => collect f (g c)) l := by
  induction l with
  | nil => rfl
  | cons c l ih => rw [List.flatMap_cons, collect_append, collect_cons, ih]

theorem collect_eq_error_iff {l : List α} {e : Failure} :
    collect f l = .error e ↔ ∃ before a rest, l = before ++ a :: rest ∧
      (∀ b ∈ before, ∃ bs, f b = .ok bs) ∧ f a = .error e := by
  rw [← mapM_eq_error_iff]
  unfold collect
  cases l.mapM f <;> simp [Except.map]

end Collect

namespace Entries

variable {es fs : Entries}

/-- No two entries stand under the same text. -/
def IsKeyed (es : Entries) : Prop :=
  es.Pairwise fun a b => ∀ name, a.1 = .text name → b.1 ≠ .text name

theorem IsKeyed.of_perm (keyed : es.IsKeyed) (perm : es.Perm fs) : fs.IsKeyed := by
  refine perm.pairwise keyed ?_
  intro a b h name hb ha
  exact h name ha hb

theorem isKeyed_put (keyed : es.IsKeyed) (k v : Value) : (es.put k v).IsKeyed := by
  induction es with
  | nil => exact List.pairwise_singleton _ _
  | cons e rest ih =>
      obtain ⟨hfirst, hrest⟩ := List.pairwise_cons.mp keyed
      simp only [put]
      split
      · exact List.pairwise_cons.mpr ⟨hfirst, hrest⟩
      · rename_i hother
        refine List.pairwise_cons.mpr ⟨?_, ih hrest⟩
        -- the new key is not the first one, as that is not the same
        have hnew : ∀ name, e.1 = .text name → k ≠ .text name := by
          rintro name hname rfl
          simp [hname, Value.same] at hother
        have hkeys := forall_put (P := fun key => ∀ name, e.1 = .text name → key ≠ .text name)
          (Q := fun _ => True) (fun e' he' => ⟨hfirst e' he', trivial⟩) hnew (v := v) trivial
        exact fun e' he' => (hkeys e' he').1

theorem isKeyed_ofPairs (pairs : List (Value × Value)) : (ofPairs pairs).IsKeyed := by
  refine List.foldlRecOn (motive := IsKeyed) pairs _ List.Pairwise.nil ?_
  intro es keyed pair _
  exact isKeyed_put keyed pair.1 pair.2

theorem eq_text_of_isText {v : Value} {name : String} (h : v.isText name = true) :
    v = .text name := by
  cases v with
  | text s => exact congrArg Value.text (by simpa [Value.isText] using h)
  | _ => simp [Value.isText] at h

theorem get?_cons (e : Value × Value) (rest : Entries) (name : String) :
    get? (e :: rest) name = if e.1.isText name then some e.2 else get? rest name := by
  unfold get?
  rw [List.find?_cons]
  cases e.1.isText name <;> rfl

theorem get?_eq_some_iff (keyed : es.IsKeyed) {name : String} {v : Value} :
    es.get? name = some v ↔ (.text name, v) ∈ es := by
  induction es with
  | nil => simp [get?]
  | cons e rest ih =>
      obtain ⟨hfirst, hrest⟩ := List.pairwise_cons.mp keyed
      rw [get?_cons, List.mem_cons]
      split
      · rename_i htext
        have hkey := eq_text_of_isText htext
        constructor
        · rintro ⟨⟩
          exact .inl (by rw [← hkey])
        · rintro (rfl | hmem)
          · rfl
          · exact absurd rfl (hfirst _ hmem name hkey)
      · rename_i htext
        rw [ih hrest]
        refine ⟨.inr, fun h => h.resolve_left ?_⟩
        rintro rfl
        simp [Value.isText] at htext

theorem get?_of_perm (keyed : es.IsKeyed) (perm : es.Perm fs) (name : String) :
    es.get? name = fs.get? name := by
  apply Option.ext
  intro v
  rw [get?_eq_some_iff keyed, get?_eq_some_iff (keyed.of_perm perm), perm.mem_iff]

end Entries

namespace Filter

/-- The fields that an object has a value for, with their values, in the order of the fields. -/
def given (fields : List Field) (es : Entries) : List (Field × Value) :=
  fields.filterMap fun f => (es.get? f.name).map fun raw => (f, raw)

/-- Objects with the same entries in any order. -/
inductive SameEntries : Value → Value → Prop
  | object {es fs : Entries} (keyed : es.IsKeyed) (perm : es.Perm fs) :
      SameEntries (.object es) (.object fs)
  | refl (v : Value) : SameEntries v v

/-- Filters with the same entries in any order, in the object or in each of the clauses. -/
inductive Reordered : Value → Value → Prop
  | clause {v w : Value} (h : SameEntries v w) : Reordered v w
  | clauses {vs ws : List Value} (h : List.Forall₂ SameEntries vs ws) :
      Reordered (.list vs) (.list ws)

theorem SameEntries.sameClause {visible : String → Prop} {v w : Value} (h : SameEntries v w) :
    SameClause visible v w := by
  cases h with
  | object keyed perm => exact .object fun name _ => Entries.get?_of_perm keyed perm name
  | refl => exact .refl v

theorem Reordered.same {visible : String → Prop} {v w : Value} (h : Reordered v w) :
    Same visible v w := by
  cases h with
  | clause h => exact .clause h.sameClause
  | clauses h => exact .clauses (h.imp fun _ _ => SameEntries.sameClause)

/-- A way to compile filters that takes an object field by field. -/
structure IsFieldwise (fields : List Field) (single : Field → Value → Outcome (List Predicate))
    (compile : Value → Outcome (List Predicate)) : Prop where
  /-- The conditions on the fields stand one after the other. -/
  concat : ∀ es, compile (.object es) = collect (fun e => single e.1 e.2) (given fields es)
  /-- It fails exactly as the first field that does. -/
  first_failure : ∀ es e, compile (.object es) = .error e ↔ ∃ before f raw rest,
    given fields es = before ++ (f, raw) :: rest ∧
      (∀ g ∈ before, ∃ ps, single g.1 g.2 = .ok ps) ∧ single f raw = .error e
  reorder : ∀ v w, Reordered v w → compile v = compile w

theorem IsFieldwise.of_concat {fields : List Field}
    {single : Field → Value → Outcome (List Predicate)} {compile : Value → Outcome (List Predicate)}
    (concat : ∀ es, compile (.object es) = collect (fun e => single e.1 e.2) (given fields es))
    (reorder : ∀ v w, Reordered v w → compile v = compile w) :
    IsFieldwise fields single compile where
  concat := concat
  first_failure es e := by
    rw [concat, collect_eq_error_iff]
    constructor
    · rintro ⟨before, ⟨f, raw⟩, rest, h⟩
      exact ⟨before, f, raw, rest, h⟩
    · rintro ⟨before, f, raw, rest, h⟩
      exact ⟨before, (f, raw), rest, h⟩
  reorder := reorder

/-- A clause has to be an object, and compiles as that. -/
def asClause (compile : Value → Outcome (List Predicate)) : Value → Outcome (List Predicate)
  | .object es => compile (.object es)
  | _ => .error (refusal .clauseNotObject)

section Compile

variable (today : Date) (registry : Registry)

def onField (f : Field) (raw : Value) : Outcome (List Predicate) :=
  compile today registry (.object [(.text f.name, raw)])

theorem given_cons (f : Field) (fields : List Field) (es : Entries) :
    given (f :: fields) es =
      ((es.get? f.name).map fun raw => (f, raw)).toList ++ given fields es := by
  unfold given
  rw [List.filterMap_cons]
  cases es.get? f.name <;> rfl

theorem mem_of_mem_given {fields : List Field} {es : Entries} {e : Field × Value}
    (h : e ∈ given fields es) : e.1 ∈ fields := by
  obtain ⟨f, hf, h⟩ := List.mem_filterMap.mp h
  obtain ⟨raw, -, rfl⟩ := Option.map_eq_some_iff.mp h
  exact hf

theorem compileFields_eq_collect (es : Entries) (fields : List Field) :
    compileFields today es fields =
      collect (fun e => e.1.predicates today e.2) (given fields es) := by
  induction fields with
  | nil => rfl
  | cons f rest ih =>
      rw [compileFields, given_cons, ih]
      cases es.get? f.name with
      | none => rfl
      | some raw =>
          exact (collect_cons (fun e : Field × Value => e.1.predicates today e.2) (f, raw) _).symm

theorem compile_eq_collect (es : Entries) :
    compile today registry (.object es) =
      collect (fun e => onField today registry e.1 e.2) (given registry.fields es) := by
  refine (compileFields_eq_collect today es registry.fields).trans (collect_congr ?_)
  intro e he
  exact (compile_singleton today (mem_of_mem_given he) e.2).symm

theorem compileEach_eq_collect (clauses : List Value) :
    compileEach today registry clauses = collect (asClause (compile today registry)) clauses := by
  induction clauses with
  | nil => rfl
  | cons v rest ih =>
      rw [compileEach_cons, collect_cons, ih]
      cases v <;> rfl

theorem compileClauses_congr {v w : Value} (h : Same (· ∈ registry.names) v w) :
    compileClauses today registry v = compileClauses today registry w := by
  change Plan.compileFilter today registry true v = Plan.compileFilter today registry true w
  exact Plan.compileFilter_congr h

theorem compileClauses_objects (clauses : List Entries) :
    compileClauses today registry (.list (clauses.map .object)) =
      collect (fun e => onField today registry e.1 e.2)
        (clauses.flatMap (given registry.fields)) := by
  change compileEach today registry (clauses.map .object) = _
  rw [compileEach_eq_collect, collect_flatMap]
  unfold collect
  rw [List.mapM_map]
  congr 2
  funext es
  exact compile_eq_collect today registry es

end Compile

end Filter

namespace Plan

def openFields (registry : Registry) (settings : Settings) : List Field :=
  registry.fields.filter fun f => ¬IsMarker settings.deletedMarker f.name

/-- An object without its entry for the marker. -/
def withoutMarkerEntry (settings : Settings) (es : Entries) : Entries :=
  match settings.deletedMarker with
  | none => es
  | some marker => if marker.isEmpty then es else es.erase marker

theorem get?_withoutMarkerEntry (settings : Settings) (es : Entries) (name : String) :
    (withoutMarkerEntry settings es).get? name =
      if IsMarker settings.deletedMarker name then none else es.get? name := by
  unfold withoutMarkerEntry
  cases settings.deletedMarker with
  | none =>
      have hnone : ¬IsMarker none name := fun h => nomatch h.2
      rw [if_neg hnone]
  | some marker =>
      dsimp only
      by_cases hempty : marker = ""
      · have hother : ¬IsMarker (some marker) name := by
          rintro ⟨hname, ⟨⟩⟩
          exact hname hempty
        rw [if_pos (by simpa using hempty), if_neg hother]
      · rw [if_neg (by simpa using hempty)]
        by_cases hname : name = marker
        · subst hname
          have hmarker : IsMarker (some name) name := ⟨hempty, rfl⟩
          rw [if_pos hmarker, Entries.get?_erase_self]
        · have hother : ¬IsMarker (some marker) name := fun h => hname (Option.some.inj h.2).symm
          rw [if_neg hother, Entries.get?_erase_of_ne es hname]

theorem given_withoutMarkerEntry (registry : Registry) (settings : Settings) (es : Entries) :
    Filter.given registry.fields (withoutMarkerEntry settings es) =
      Filter.given (openFields registry settings) es := by
  unfold Filter.given openFields
  rw [List.filterMap_filter]
  congr 1
  funext f
  rw [get?_withoutMarkerEntry]
  by_cases hmarker : IsMarker settings.deletedMarker f.name <;> simp [hmarker]

theorem withoutMarker_object (settings : Settings) (es : Entries) :
    withoutMarker settings (.object es) = .object (withoutMarkerEntry settings es) := by
  unfold withoutMarker withoutMarkerEntry
  cases settings.deletedMarker with
  | none => rfl
  | some marker =>
      dsimp only
      split <;> rfl

def openClause (settings : Settings) : Value → Value
  | .object es => .object (withoutMarkerEntry settings es)
  | v => v

theorem map_openClause_of_forall {settings : Settings}
    (h : ∀ es, withoutMarkerEntry settings es = es) (clauses : List Value) :
    clauses.map (openClause settings) = clauses := by
  have hid : openClause settings = id := by
    funext v
    cases v with
    | object es => exact congrArg Value.object (h es)
    | _ => rfl
  rw [hid, List.map_id]

theorem withoutMarker_list (settings : Settings) (clauses : List Value) :
    withoutMarker settings (.list clauses) = .list (clauses.map (openClause settings)) := by
  unfold withoutMarker
  cases hmarker : settings.deletedMarker with
  | none =>
      rw [map_openClause_of_forall (fun es => by simp [withoutMarkerEntry, hmarker])]
  | some marker =>
      dsimp only
      split
      · rename_i hempty
        rw [map_openClause_of_forall (fun es => by simp [withoutMarkerEntry, hmarker, hempty])]
      · rename_i hset
        have hclause : withoutMarkerIn marker = openClause settings := by
          funext v
          cases v with
          | object es => simp [withoutMarkerIn, openClause, withoutMarkerEntry, hmarker, hset]
          | _ => rfl
        rw [hclause]

theorem withoutMarker_objects (settings : Settings) (clauses : List Entries) :
    withoutMarker settings (.list (clauses.map .object)) =
      .list ((clauses.map (withoutMarkerEntry settings)).map .object) := by
  rw [withoutMarker_list, List.map_map, List.map_map]
  rfl

end Plan

/-- An object compiles to what the filters on its single fields come to, in the order of the
registry, and fails as the first of these that does. -/
theorem filters_compile_field_by_field (today : Date) (registry : Registry) :
    Filter.IsFieldwise registry.fields (Filter.onField today registry)
      (Filter.compile today registry) ∧
    Filter.IsFieldwise registry.fields (Filter.onField today registry)
      (Filter.compileClauses today registry) ∧
    (∀ clauses : List Entries, Filter.compileClauses today registry (.list (clauses.map .object)) =
      collect (fun e => Filter.onField today registry e.1 e.2)
        (clauses.flatMap (Filter.given registry.fields))) ∧
    ∀ settings : Settings,
      (∀ acceptsClauses, Filter.IsFieldwise (Plan.openFields registry settings)
        (Filter.onField today registry) fun filter =>
          Plan.compileFilter today registry acceptsClauses (Plan.withoutMarker settings filter)) ∧
      (∀ clauses : List Entries, Plan.compileFilter today registry true
          (Plan.withoutMarker settings (.list (clauses.map .object))) =
        collect (fun e => Filter.onField today registry e.1 e.2)
          (clauses.flatMap (Filter.given (Plan.openFields registry settings)))) ∧
      ∀ acceptsClauses (request : Request) (filter : Value), Filter.Reordered request.filter filter →
        Plan.ofRequest today registry settings acceptsClauses { request with filter } =
          Plan.ofRequest today registry settings acceptsClauses request := by
  have hcompile := Filter.compile_eq_collect today registry
  refine ⟨.of_concat hcompile ?_, .of_concat hcompile ?_,
    Filter.compileClauses_objects today registry, fun settings => ⟨?_, ?_, ?_⟩⟩
  · intro v w h
    change Plan.compileFilter today registry false v = Plan.compileFilter today registry false w
    exact Plan.compileFilter_congr h.same
  · intro v w h
    exact Filter.compileClauses_congr today registry h.same
  · intro acceptsClauses
    refine .of_concat ?_ ?_
    · intro es
      rw [Plan.withoutMarker_object, ← Plan.given_withoutMarkerEntry]
      cases acceptsClauses with
      | false => exact hcompile _
      | true => exact hcompile _
    · intro v w h
      exact Plan.compileFilter_congr (Plan.same_withoutMarker h.same)
  · intro clauses
    rw [Plan.withoutMarker_objects]
    refine (Filter.compileClauses_objects today registry _).trans ?_
    rw [List.flatMap_map]
    simp only [Plan.given_withoutMarkerEntry]
  · intro acceptsClauses request filter h
    unfold Plan.ofRequest
    rw [Plan.compileFilter_congr (Plan.same_withoutMarker h.same)]

section Books

/-- Books by title, which has to be a text, and by the moment of their entry. -/
def bookRegistry : Registry where
  fields := [{ name := "title", rule := some (.ofType .text true) }, { name := "entered_on" }]

/-- A filter with both fields in the other order, and an entry for the marker of deleted rows. -/
def bookFilter (title moment : Value) : Entries :=
  .ofPairs [(.text "entered_on", moment), (.text "deleted_on", .int 1), (.text "title", title)]

/-- Neither value would do. The title is refused, as it is declared first, wherever it stands. -/
theorem title_is_refused_first :
    Filter.Reordered (.object (bookFilter (.int 5) (.text "never")))
      (.object (bookFilter (.int 5) (.text "never")).reverse) ∧
    Plan.ofRequest default bookRegistry default false
        { limit := 10, filter := .object (bookFilter (.int 5) (.text "never")).reverse } =
      .error (.filterValue "title" .refused) ∧
    Filter.compile default bookRegistry (.object (bookFilter (.text "a%") .null)) =
      collect (fun e => Filter.onField default bookRegistry e.1 e.2)
        [({ name := "title", rule := some (.ofType .text true) }, .text "a%"),
          ({ name := "entered_on" }, .null)] := by
  have reordered : Filter.Reordered (.object (bookFilter (.int 5) (.text "never")))
      (.object (bookFilter (.int 5) (.text "never")).reverse) :=
    .clause (.object (Entries.isKeyed_ofPairs _) (List.reverse_perm _).symm)
  obtain ⟨hcompile, -, -, hservice⟩ := filters_compile_field_by_field default bookRegistry
  refine ⟨reordered, ?_, hcompile.concat _⟩
  exact ((hservice default).2.2 false
    { limit := 10, filter := .object (bookFilter (.int 5) (.text "never")) } _ reordered).trans rfl

end Books

end Catalogue

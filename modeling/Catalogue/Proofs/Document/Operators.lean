import Catalogue.Proofs.Document.Paging
import Catalogue.Proofs.Query.Operands
import Catalogue.Proofs.Store.OneQuery

/-!
What a request has to say in a pipeline. Its values stand where operands stand, one by one; keys,
operators and nesting are decided by the sorts of conditions, and not by the values.
-/

namespace Catalogue.Document

/-- `v` stands under the key `op` of an object that stands under a key itself. There operators stand,
whereas the keys of an object in a list name stages or fields. The flag says whether the object in
question stands under a key. -/
inductive Operand (op : String) (v : Value) : Bool → Value → Prop
  | here {entries : List (Value × Value)} (h : (.text op, v) ∈ entries) :
      Operand op v true (.object entries)
  | entry {keyed : Bool} {entries : List (Value × Value)} {k w : Value} (hmem : (k, w) ∈ entries)
      (h : Operand op v true w) : Operand op v keyed (.object entries)
  | item {keyed : Bool} {items : List Value} {w : Value} (hmem : w ∈ items)
      (h : Operand op v false w) : Operand op v keyed (.list items)

def operators : List String := ["$eq", "$ne", "$gte", "$lte", "$in"]

/-- All operands of comparisons are of some sort. -/
def Only (Q : String → Value → Prop) (keyed : Bool) (w : Value) : Prop :=
  ∀ op ∈ operators, ∀ v, Operand op v keyed w → Q op v

section Only

variable {Q : String → Value → Prop} {keyed : Bool}

theorem only_list {items : List Value} (h : ∀ w ∈ items, Only Q false w) :
    Only Q keyed (.list items) := by
  intro op hop v hoperand
  cases hoperand with
  | item hmem hw => exact h _ hmem op hop v hw

theorem only_object {entries : Entries} (h : ∀ e ∈ entries, Only Q true e.2) :
    Only Q false (.object entries) := by
  intro op hop v hoperand
  cases hoperand with
  | entry hmem hw => exact h _ hmem op hop v hw

theorem only_operators {entries : Entries}
    (here : ∀ op ∈ operators, ∀ v, (.text op, v) ∈ entries → Q op v)
    (h : ∀ e ∈ entries, Only Q true e.2) : Only Q true (.object entries) := by
  intro op hop v hoperand
  cases hoperand with
  | here hmem => exact here op hop v hmem
  | entry hmem hw => exact h _ hmem op hop v hw

theorem only_others {entries : Entries}
    (h : ∀ e ∈ entries, (∃ key ∉ operators, e.1 = .text key) ∧ Only Q true e.2) :
    Only Q true (.object entries) := by
  refine only_operators ?_ fun e he => (h e he).2
  intro op hop v hmem
  obtain ⟨⟨key, hkey, heq⟩, -⟩ := h _ hmem
  cases heq
  exact absurd hop hkey

theorem only_single {key : String} {w : Value} (h : Only Q true w) :
    Only Q false (single key w) :=
  only_object (List.forall_mem_singleton.mpr h)

theorem only_single_keyed {key : String} {w : Value} (here : key ∈ operators → Q key w)
    (h : Only Q true w) : Only Q true (single key w) := by
  refine only_operators ?_ (List.forall_mem_singleton.mpr h)
  intro op hop v hmem
  cases List.mem_singleton.mp hmem
  exact here hop

theorem only_single_other {key : String} {w : Value} (other : key ∉ operators) (h : Only Q true w) :
    Only Q true (single key w) :=
  only_single_keyed (fun hkey => absurd hkey other) h

theorem only_plain {w : Value} (h : w.isPlain = true) : Only Q keyed w := by
  intro op hop v hoperand
  cases hoperand <;> cases h

theorem only_bool (b : Bool) : Only Q keyed (.bool b) := only_plain rfl

theorem only_null : Only Q keyed .null := by
  intro op hop v hoperand
  cases hoperand

end Only

/-- What the condition compares its path with. -/
def Condition.operands : Condition → List Value
  | .equals _ v | .notEquals _ v | .atLeast _ v | .atMost _ v => [v]
  | .isAmong _ vs => vs
  | .found .. | .isAbsent _ | .isSet _ => []

/-- May the fragment of the condition have `v` as an operand? A null is fixed in two of them. -/
def Condition.Allows (c : Condition) (op : String) (v : Value) : Prop :=
  v.isPlain = true ∨
    (op = "$in" ∧ ∃ items, v = .list items ∧ ∀ item ∈ items, item.isPlain = true) ∨
    (v = .null ∧ ∃ path, c = .isAbsent path ∨ c = .isSet path)

theorem Condition.only_allows {c : Condition} (h : ∀ v ∈ c.operands, v.isPlain = true) :
    Only c.Allows false c.document := by
  cases c with
  | equals path v =>
      have hv := h v (.head _)
      exact only_single (only_single_keyed (fun _ => .inl hv) (only_plain hv))
  | notEquals path v =>
      have hv := h v (.head _)
      exact only_single (only_single_keyed (fun _ => .inl hv) (only_plain hv))
  | atLeast path v =>
      have hv := h v (.head _)
      exact only_single (only_single_keyed (fun _ => .inl hv) (only_plain hv))
  | atMost path v =>
      have hv := h v (.head _)
      exact only_single (only_single_keyed (fun _ => .inl hv) (only_plain hv))
  | isAmong path vs =>
      have hmembers : Only (Condition.isAmong path vs).Allows true (.list vs) :=
        only_list fun w hw => only_plain (h w hw)
      exact only_single (only_single_keyed (fun _ => .inr (.inl ⟨rfl, vs, rfl, h⟩)) hmembers)
  | found path regex => exact only_single (only_single_keyed (fun _ => .inl rfl) (only_plain rfl))
  | isAbsent path =>
      refine only_single (only_list ?_)
      rw [List.forall_mem_cons, List.forall_mem_singleton]
      constructor
      · exact only_single (only_single_keyed (fun _ => .inl rfl) (only_plain rfl))
      · exact only_single
          (only_single_keyed (fun _ => .inr (.inr ⟨rfl, path, .inl rfl⟩)) only_null)
  | isSet path =>
      refine only_single (only_operators ?_ ?_)
      · intro op _ v hmem
        simp only [List.mem_cons, Prod.mk.injEq, List.not_mem_nil, or_false] at hmem
        obtain ⟨-, rfl⟩ | ⟨-, rfl⟩ := hmem
        · exact .inl rfl
        · exact .inr (.inr ⟨rfl, path, .inr rfl⟩)
      · rw [List.forall_mem_cons, List.forall_mem_singleton]
        exact ⟨only_bool true, only_null⟩

namespace Pipeline

variable {Q : String → Value → Prop}

theorem only_pageStages (plain : ∀ op v, v.isPlain = true → Q op v)
    (sort : List (String × Direction)) (seed : Option String) (offset limit : Option Int) :
    ∀ stage ∈ pageStages sort seed offset limit, Only Q false stage := by
  have hstages : ∀ (key : String) (ns : List Int),
      ∀ stage ∈ ns.map fun n => single key (.int n), Only Q false stage := by
    intro key ns stage hstage
    obtain ⟨n, -, rfl⟩ := List.mem_map.mp hstage
    exact only_single (only_plain rfl)
  unfold pageStages
  rw [List.forall_mem_cons, List.forall_mem_append, List.forall_mem_append]
  refine ⟨only_single (only_operators ?_ ?_), ⟨?_, hstages _ _⟩, ?_⟩
  · intro op _ v hmem
    obtain ⟨key, -, hkey⟩ := List.mem_map.mp hmem
    cases hkey
    exact plain _ _ rfl
  · intro e he
    obtain ⟨key, -, rfl⟩ := List.mem_map.mp he
    exact only_plain rfl
  · split
    · exact hstages _ _
    · exact List.forall_mem_nil _
  · split
    · exact List.forall_mem_singleton.mpr
        (only_single (only_single_other (by decide) (only_plain rfl)))
    · exact List.forall_mem_nil _

theorem eq_of_mem_unless {α : Type} {c : Bool} {a b : α} (h : a ∈ if c then [] else [b]) : a = b := by
  cases c with
  | true => cases h
  | false => exact List.mem_singleton.mp h

theorem mem_stages {text : Option String} {conditions : List Value}
    {sort : List (String × Direction)} {seed : Option String} {offset limit : Option Int}
    {stage : Value} (h : stage ∈ stages text conditions sort seed offset limit) :
    (∃ entries, stage = single "$match" (.object entries) ∧
      ∀ e ∈ entries, (∃ t, e = (.text "$text", single "$search" (.text t))) ∨
        e = (.text "$and", .list conditions)) ∨
    (∃ s, stage = randomStage s) ∨
    stage = single "$facet" (.object [(.text "rows", .list (pageStages sort seed offset limit)),
      (.text "total", .list [single "$count" (.text "count")])]) := by
  unfold stages at h
  simp only [List.mem_append] at h
  obtain (h | h) | h := h
  · refine .inl ⟨_, eq_of_mem_unless h, ?_⟩
    intro e he
    obtain he | he := List.mem_append.mp he
    · cases text with
      | none => cases he
      | some t => exact .inl ⟨t, eq_of_mem_unless he⟩
    · exact .inr (eq_of_mem_unless he)
  · obtain ⟨s, -, rfl⟩ := List.mem_map.mp h
    exact .inr (.inl ⟨s, rfl⟩)
  · exact .inr (.inr (List.mem_singleton.mp h))

/-- What documents are matched by: the free text and the conditions. -/
def matchEntries (p : Pipeline) : Entries :=
  (match p.text with
    | some t => if t.isEmpty then [] else [(.text "$text", single "$search" (.text t))]
    | none => []) ++
  if (p.conditions.map Condition.document).isEmpty then []
  else [(.text "$and", .list (p.conditions.map Condition.document))]

def matchStages (p : Pipeline) : List Value :=
  if p.matchEntries.isEmpty then [] else [single "$match" (.object p.matchEntries)]

/-- The stage that answers with rows and their number. -/
def facetStage (rows : List Value) : Value :=
  single "$facet" (.object [(.text "rows", .list rows),
    (.text "total", .list [single "$count" (.text "count")])])

theorem documents_eq (p : Pipeline) :
    p.documents = p.matchStages ++ p.seed.toList.map randomStage ++
      [facetStage (pageStages p.sort p.seed p.offset p.limit)] :=
  rfl

/-- Every operand in a pipeline is plain, or it is an operand in the fragment of a condition. -/
theorem operand_documents (p : Pipeline) :
    Only (fun op v => v.isPlain = true ∨ ∃ c ∈ p.conditions, Operand op v false c.document) false
      (.list p.documents) := by
  refine only_list ?_
  intro stage hstage
  obtain ⟨entries, rfl, hentries⟩ | ⟨s, rfl⟩ | rfl := mem_stages hstage
  · refine only_single (only_others ?_)
    intro e he
    obtain ⟨t, rfl⟩ | rfl := hentries e he
    · exact ⟨⟨_, by decide, rfl⟩, only_single_other (by decide) (only_plain rfl)⟩
    · refine ⟨⟨_, by decide, rfl⟩, only_list ?_⟩
      intro document hdocument op _ v hoperand
      obtain ⟨c, hc, rfl⟩ := List.mem_map.mp hdocument
      exact .inr ⟨c, hc, hoperand⟩
  · refine only_single (only_single_other (by decide) (only_single_other (by decide)
      (only_single_other (by decide) (only_list ?_))))
    rw [List.forall_mem_cons, List.forall_mem_singleton]
    exact ⟨only_plain rfl, only_single (only_plain rfl)⟩
  · refine only_single (only_others ?_)
    rw [List.forall_mem_cons, List.forall_mem_singleton]
    refine ⟨⟨⟨_, by decide, rfl⟩, only_list (only_pageStages ?_ _ _ _ _)⟩,
      ⟨_, by decide, rfl⟩, only_list (List.forall_mem_singleton.mpr (only_single (only_plain rfl)))⟩
    intro op v hv
    exact .inl hv

end Pipeline

theorem isPlain_conditionsOf (registry : Registry) {p : Predicate} (h : p.IsPlain) :
    ∀ c ∈ conditionsOf registry p.call, ∀ v ∈ c.operands, v.isPlain = true := by
  cases p with
  | atLeast f v =>
      rw [conditionsOf_atLeast registry f (Value.isNull_of_isPlain (h v (.head _)))]
      exact List.forall_mem_singleton.mpr h
  | atMost f v =>
      rw [conditionsOf_atMost registry f (Value.isNull_of_isPlain (h v (.head _)))]
      exact List.forall_mem_singleton.mpr h
  | _ => exact List.forall_mem_singleton.mpr h

/-- The pipelines that a request which compiles has a collection asked: one. -/
theorem sent_of_fetch (listing : Listing) (registry : Registry) (collection : Collection)
    (request : Request) :
    (listing.fetch (adapter registry) { collection } request).1.sent =
      match Plan.ofRequest listing.today listing.registry listing.settings true request with
      | .ok plan => [(pipelineOf registry plan request).completed registry]
      | .error _ => [] := by
  have hclauses : (adapter registry).acceptsClauses = true := rfl
  unfold Listing.fetch
  rw [hclauses]
  cases Plan.ofRequest listing.today listing.registry listing.settings true request with
  | error e => rfl
  | ok plan =>
      let s : Session := { collection, pipeline := pipelineOf registry plan request }
      have hopen : s.executed = false := rfl
      simp only [Adapter.run, adapter_applyAll (s := { collection }) rfl, addAll_calls]
      change (execute registry s).1.sent = _
      rw [execute_of_open hopen]
      rfl

theorem isPlain_of_sent {listing : Listing} {registry : Registry} {collection : Collection}
    {request : Request} {p : Pipeline} (hfilter : request.filter.IsJson)
    (hp : p ∈ (listing.fetch (adapter registry) { collection } request).1.sent) :
    ∀ c ∈ p.conditions, ∀ v ∈ c.operands, v.isPlain = true := by
  rw [sent_of_fetch] at hp
  split at hp
  · rename_i plan hplan
    obtain rfl := List.mem_singleton.mp hp
    intro c hc
    obtain ⟨predicate, hpredicate, hc⟩ := List.mem_flatMap.mp hc
    have hplain := Plan.isPlain_of_ofRequest hfilter hplan predicate hpredicate
    exact isPlain_conditionsOf registry hplain c hc
  · cases hp

end Catalogue.Document

import Catalogue.Field.Validator
import Catalogue.Lookup
import Catalogue.Query.Predicate

/-!
The fields that may be listed: an ordered table of names with a kind, which the name alone decides,
and an optional rule.
-/

namespace Catalogue

inductive FieldKind where
  | text
  | boolean
  | moment
  deriving DecidableEq, Repr

/-- The kind that a name implies. The beginning outranks the end. -/
def FieldKind.ofName (name : String) : FieldKind :=
  if ['i', 's', '_'].isPrefixOf name.toList then .boolean
  else if ['_', 'o', 'n'].isSuffixOf name.toList then .moment
  else .text

structure Field where
  name : String
  rule : Option Validator := none

def Field.kind (f : Field) : FieldKind :=
  .ofName f.name

/-- The field that marks deleted rows where none is chosen. -/
def defaultMarker : String := "deleted_on"

/-- Declares a field: a name that is declared already keeps its place and takes the new rule. -/
def Registry.declare (fields : List Field) (f : Field) : List Field :=
  if fields.any (·.name == f.name) then
    fields.map fun g => if g.name == f.name then f else g
  else fields ++ [f]

theorem Registry.map_name_declare (fields : List Field) (f : Field) :
    (declare fields f).map Field.name =
      if f.name ∈ fields.map Field.name then fields.map Field.name
      else fields.map Field.name ++ [f.name] := by
  have kept : (fun g : Field => (if g.name == f.name then f else g).name) = Field.name := by
    funext g
    by_cases h : g.name = f.name <;> simp [h]
  unfold declare
  by_cases h : f.name ∈ fields.map Field.name
  · have hany : fields.any (·.name == f.name) = true := by simpa using h
    rw [if_pos hany, if_pos h, List.map_map]
    exact congrArg (List.map · fields) kept
  · have hany : ¬fields.any (·.name == f.name) = true := by simpa using h
    rw [if_neg hany, if_neg h, List.map_append, List.map_singleton]

/-- A declaration keeps the names different. -/
theorem Registry.nodup_declare {fields : List Field} (h : (fields.map Field.name).Nodup)
    (f : Field) : ((declare fields f).map Field.name).Nodup := by
  rw [map_name_declare]
  split
  · exact h
  · rename_i hf
    exact List.nodup_append.mpr ⟨h, by simp, fun a ha b hb => by
      rw [List.mem_singleton.mp hb]
      exact fun e => hf (e ▸ ha)⟩

theorem Registry.nodup_foldl_declare (declarations : List Field) {fields : List Field}
    (h : (fields.map Field.name).Nodup) :
    ((declarations.foldl declare fields).map Field.name).Nodup := by
  induction declarations generalizing fields with
  | nil => exact h
  | cons f rest ih => exact ih (nodup_declare h f)

/-- Fields of different names, in order. -/
structure Registry where
  fields : List Field
  idField : String := "id"
  defaultOrder : List SortDirective := []
  names_nodup : (fields.map Field.name).Nodup := by decide

namespace Registry

/-- The registry of declared fields without the hidden ones and the marker of deleted rows. -/
def ofDeclarations (declarations : List Field) (idField : String)
    (defaultOrder : List SortDirective) (hidden : List String) (marker : Option String) :
    Registry where
  fields := (declarations.foldl declare []).filter fun f =>
    !hidden.contains f.name && !(f.name != "" && marker == some f.name)
  idField := idField
  defaultOrder := defaultOrder
  names_nodup :=
    have none_yet : (([] : List Field).map Field.name).Nodup := List.nodup_nil
    (nodup_foldl_declare declarations none_yet).sublist (List.filter_sublist.map Field.name)

def names (r : Registry) : List String :=
  r.fields.map Field.name

def get? (r : Registry) (name : String) : Option Field :=
  r.fields.find? fun f => f.name == name

def has (r : Registry) (name : String) : Bool :=
  r.names.contains name

theorem has_iff {r : Registry} {name : String} :
    r.has name = true ↔ ∃ f ∈ r.fields, f.name = name := by
  simp [has, names]

theorem get?_name {r : Registry} {f : Field} (h : f ∈ r.fields) : r.get? f.name = some f :=
  find?_own_name r.names_nodup h

def kindOf (_ : Registry) (name : String) : FieldKind :=
  .ofName name

def ruleOf (r : Registry) (name : String) : Option Validator :=
  (r.get? name).bind Field.rule

def text (r : Registry) : String :=
  "FieldRegistry([" ++ ", ".intercalate (r.names.map Text.quoted) ++ "])"

end Registry

end Catalogue

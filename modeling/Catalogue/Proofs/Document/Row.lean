import Catalogue.Document.Adapter
import Catalogue.Proofs.Ordering.Document

/-!
The rows of documents. A row is its document without the path of the identifier, and with the
identifier under the identifier field, unless the document holds a field of that name itself.
-/

namespace Catalogue.Document

open Condition (valueAt)

theorem valueAt_eq_text_iff {doc : Entries} {s : String} :
    valueAt doc idPath = .text s ↔ doc.get? idPath = some (.text s) := by
  change (doc.get? idPath).getD .null = .text s ↔ _
  cases doc.get? idPath <;> simp

theorem storedValue_eq_text_iff {v : Value} {s : String} : storedValue v = .text s ↔ v = .text s := by
  cases v <;> simp [storedValue]

theorem get?_stored_eq_text_iff {doc : Entries} {key s : String} :
    (stored doc).get? key = some (.text s) ↔ doc.get? key = some (.text s) := by
  rw [get?_stored, Option.map_eq_some_iff]
  constructor
  · rintro ⟨v, hv, hs⟩
    rw [hv, storedValue_eq_text_iff.mp hs]
  · intro h
    exact ⟨_, h, rfl⟩

theorem has_stored (doc : Entries) (key : String) : (stored doc).has key = doc.has key := by
  rw [Entries.has_eq_isSome_get?, Entries.has_eq_isSome_get?, get?_stored, Option.isSome_map]

section Row

variable (registry : Registry)

/-- Does the document hold a field of its own under the name of the identifier field? -/
def HasOwn (doc : Entries) : Prop :=
  registry.idField ≠ idPath ∧ doc.has registry.idField = true

instance (doc : Entries) : Decidable (HasOwn registry doc) :=
  inferInstanceAs (Decidable (_ ∧ _))

theorem hasOwn_stored (doc : Entries) : HasOwn registry (stored doc) ↔ HasOwn registry doc := by
  unfold HasOwn
  rw [has_stored]

theorem has_erase_idPath (doc : Entries) :
    (doc.erase idPath).has registry.idField = true ↔ HasOwn registry doc := by
  unfold HasOwn
  rw [Entries.has_eq_isSome_get?, Entries.has_eq_isSome_get?]
  by_cases hid : registry.idField = idPath
  · rw [hid, Entries.get?_erase_self]
    simp
  · rw [Entries.get?_erase_of_ne doc hid]
    simp [hid]

def shownAs (doc : Entries) (id : String) : Entries :=
  doc.erase idPath ++ if HasOwn registry doc then [] else [(.text registry.idField, .text id)]

theorem rowOf_of_id {doc : Entries} {id : String} (h : doc.get? idPath = some (.text id)) :
    rowOf registry doc = .ok (shownAs registry doc id) := by
  unfold rowOf shownAs
  rw [h]
  change Except.ok (if _ then _ else _) = _
  simp only [has_erase_idPath]
  split
  · rw [List.append_nil]
  · rfl

/-- The row has an entry at the path of the identifier only if that is the identifier field. -/
theorem has_idPath_shownAs (doc : Entries) (id : String) :
    (shownAs registry doc id).has idPath = true ↔ registry.idField = idPath := by
  have herase : (doc.erase idPath).has idPath = false := by
    rw [Entries.has_eq_isSome_get?, Entries.get?_erase_self]
    rfl
  have happend (es : Entries) : (doc.erase idPath ++ es).has idPath = es.has idPath := by
    unfold Entries.has at herase ⊢
    rw [List.any_append, herase, Bool.false_or]
  unfold shownAs
  rw [happend]
  by_cases hown : HasOwn registry doc
  · rw [if_pos hown]
    exact iff_of_false (by simp [Entries.has]) hown.1
  · rw [if_neg hown]
    simp [Entries.has, Value.isText]

theorem get?_idField_shownAs (doc : Entries) (id : String) :
    (shownAs registry doc id).get? registry.idField = some (.text id) ↔
      (HasOwn registry doc → doc.get? registry.idField = some (.text id)) := by
  unfold shownAs
  by_cases hown : HasOwn registry doc
  · rw [if_pos hown, List.append_nil, Entries.get?_erase_of_ne doc hown.1]
    exact ⟨fun h _ => h, fun h => h hown⟩
  · have hfree : (doc.erase idPath).get? registry.idField = none := by
      have hhas := mt (has_erase_idPath registry doc).mp hown
      rw [Entries.has_eq_isSome_get?] at hhas
      simpa using hhas
    rw [if_neg hown]
    refine iff_of_true ?_ (absurd · hown)
    unfold Entries.get? at hfree ⊢
    rw [List.find?_append, Option.map_eq_none_iff.mp hfree]
    simp [Value.isText]

end Row

end Catalogue.Document

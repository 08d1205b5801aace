/-!
Looking things up by name in a list in which all names differ.
-/

namespace Catalogue

variable {α β : Type} [BEq β] [LawfulBEq β]

theorem find?_own_name {name : α → β} {l : List α} (nodup : (l.map name).Nodup) {a : α}
    (h : a ∈ l) : l.find? (fun b => name b == name a) = some a := by
  induction l with
  | nil => cases h
  | cons b rest ih =>
    obtain ⟨hb, hrest⟩ := List.nodup_cons.mp nodup
    rcases List.mem_cons.mp h with rfl | ha
    · simp
    · have hne : name b ≠ name a := fun e => hb (e ▸ List.mem_map_of_mem ha)
      rw [List.find?_cons_of_neg (by simpa using hne)]
      exact ih hrest ha

end Catalogue

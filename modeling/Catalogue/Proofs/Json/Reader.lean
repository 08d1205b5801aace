import Catalogue.Proofs.Query.Reading
import Mathlib.Data.List.TakeDrop

/-!
The values that JSON text decodes to: texts, numbers, truth values and nulls, in lists and objects
whose keys are texts.
-/

namespace Catalogue

/-- Values as they are decoded from JSON. -/
inductive Value.IsJson : Value → Prop
  | null : IsJson .null
  | bool (b : Bool) : IsJson (.bool b)
  | int (n : Int) : IsJson (.int n)
  | float (x : Number.Binary64) : IsJson (.float x)
  | text (s : String) : IsJson (.text s)
  | list {items : List Value} (h : ∀ v ∈ items, IsJson v) : IsJson (.list items)
  | object {entries : List (Value × Value)} (h : ∀ e ∈ entries, IsJson e.2) :
      IsJson (.object entries)

def Value.IsText (v : Value) : Prop :=
  ∃ s, v = .text s

/-- Decoded values that can be written again: their keys are texts, and no integer is too long. -/
inductive Value.IsWritable : Value → Prop
  | null : IsWritable .null
  | bool (b : Bool) : IsWritable (.bool b)
  | int {n : Int} (h : (Text.signed? n).isSome = true) : IsWritable (.int n)
  | float (x : Number.Binary64) : IsWritable (.float x)
  | text (s : String) : IsWritable (.text s)
  | list {items : List Value} (h : ∀ v ∈ items, IsWritable v) : IsWritable (.list items)
  | object {entries : List (Value × Value)} (keys : ∀ e ∈ entries, e.1.IsText)
      (h : ∀ e ∈ entries, IsWritable e.2) : IsWritable (.object entries)

namespace Entries

variable {P Q : Value → Prop}

theorem forall_put {entries : Entries} {k v : Value} (h : ∀ e ∈ entries, P e.1 ∧ Q e.2) (hk : P k)
    (hv : Q v) : ∀ e ∈ entries.put k v, P e.1 ∧ Q e.2 := by
  induction entries with
  | nil => exact List.forall_mem_singleton.mpr ⟨hk, hv⟩
  | cons e rest ih =>
      obtain ⟨he, hrest⟩ := List.forall_mem_cons.mp h
      simp only [put]
      split
      · exact List.forall_mem_cons.mpr ⟨⟨he.1, hv⟩, hrest⟩
      · exact List.forall_mem_cons.mpr ⟨he, ih hrest⟩

theorem forall_ofPairs {pairs : List (Value × Value)} (h : ∀ e ∈ pairs, P e.1 ∧ Q e.2) :
    ∀ e ∈ ofPairs pairs, P e.1 ∧ Q e.2 := by
  refine List.foldlRecOn (motive := fun entries : Entries => ∀ e ∈ entries, P e.1 ∧ Q e.2) pairs _
    (List.forall_mem_nil _) ?_
  intro entries hentries pair hpair
  exact forall_put hentries (h pair hpair).1 (h pair hpair).2

end Entries

namespace Json

/-- A property of values that holds of all that JSON text decodes to: of words, numbers and texts, and
of lists and objects where it holds of their parts. -/
structure HoldsOfRead (P : Value → Prop) : Prop where
  word {s rest : List Char} {v : Value} (h : word? s = some (v, rest)) : P v
  number {s rest : List Char} {v : Value} (h : number? s = some (v, rest)) : P v
  text (s : String) : P (.text s)
  list {items : List Value} (h : ∀ v ∈ items, P v) : P (.list items)
  object {entries : Entries} (h : ∀ e ∈ entries, e.1.IsText ∧ P e.2) :
    P (.object entries)

theorem orMalformed_eq_ok_iff {α : Type} {x : Option α} {a : α} :
    orMalformed x = .ok a ↔ x = some a := by
  cases x <;> simp [orMalformed]

/-- The property holds of all that is read with so much fuel. -/
structure HoldsWith (P : Value → Prop) (fuel : Nat) : Prop where
  value {room : Nat} {s rest : List Char} {v : Value} (h : value fuel room s = .ok (v, rest)) : P v
  items {room : Nat} {s rest : List Char} {vs : List Value}
    (h : items fuel room s = .ok (vs, rest)) : ∀ v ∈ vs, P v
  pairs {room : Nat} {s rest : List Char} {es : Entries} (h : pairs fuel room s = .ok (es, rest)) :
    ∀ e ∈ es, e.1.IsText ∧ P e.2

section Succ

variable {P : Value → Prop} {fuel room : Nat} {s rest : List Char} (reads : HoldsWith P fuel)
include reads

theorem HoldsWith.value_succ (holds : HoldsOfRead P) {v : Value}
    (h : Json.value (fuel + 1) room s = .ok (v, rest)) : P v := by
  unfold Json.value at h
  split at h
  · obtain ⟨⟨cs, after⟩, -, h⟩ := bind_eq_ok_iff.mp h
    cases h
    exact holds.text _
  · split at h
    · cases h
    · split at h
      · cases h
        exact holds.list (List.forall_mem_nil _)
      · obtain ⟨⟨vs, after⟩, hread, h⟩ := bind_eq_ok_iff.mp h
        cases h
        exact holds.list (reads.items hread)
  · split at h
    · cases h
    · split at h
      · cases h
        exact holds.object (List.forall_mem_nil _)
      · obtain ⟨⟨es, after⟩, hread, h⟩ := bind_eq_ok_iff.mp h
        cases h
        exact holds.object (Entries.forall_ofPairs (reads.pairs hread))
  · rw [orMalformed_eq_ok_iff] at h
    cases hword : word? s with
    | some found =>
        rw [hword] at h
        cases h
        exact holds.word hword
    | none =>
        rw [hword] at h
        exact holds.number h

theorem HoldsWith.items_succ {vs : List Value} (h : Json.items (fuel + 1) room s = .ok (vs, rest)) :
    ∀ v ∈ vs, P v := by
  unfold Json.items at h
  obtain ⟨⟨v, after⟩, hread, h⟩ := bind_eq_ok_iff.mp h
  have hv : P v := reads.value hread
  dsimp only at h
  split at h
  · cases h
    exact List.forall_mem_singleton.mpr hv
  · obtain ⟨⟨more, after'⟩, hmore, h⟩ := bind_eq_ok_iff.mp h
    cases h
    exact List.forall_mem_cons.mpr ⟨hv, reads.items hmore⟩
  · cases h

theorem HoldsWith.pairs_succ {es : Entries} (h : Json.pairs (fuel + 1) room s = .ok (es, rest)) :
    ∀ e ∈ es, e.1.IsText ∧ P e.2 := by
  unfold Json.pairs at h
  dsimp only at h
  split at h
  · obtain ⟨⟨key, after⟩, -, h⟩ := bind_eq_ok_iff.mp h
    dsimp only at h
    split at h
    · obtain ⟨⟨v, after'⟩, hread, h⟩ := bind_eq_ok_iff.mp h
      have hpair : (Value.text (.ofList key)).IsText ∧ P v := ⟨⟨_, rfl⟩, reads.value hread⟩
      dsimp only at h
      split at h
      · cases h
        exact List.forall_mem_singleton.mpr hpair
      · obtain ⟨⟨more, after''⟩, hmore, h⟩ := bind_eq_ok_iff.mp h
        cases h
        exact List.forall_mem_cons.mpr ⟨hpair, reads.pairs hmore⟩
      · cases h
    · cases h
  · cases h

end Succ

namespace HoldsOfRead

variable {P : Value → Prop} (holds : HoldsOfRead P)
include holds

theorem holdsWith (fuel : Nat) : HoldsWith P fuel := by
  induction fuel with
  | zero =>
      constructor
      all_goals
        intro room s rest read h
        cases h
  | succ fuel ih => exact ⟨ih.value_succ holds, ih.items_succ, ih.pairs_succ⟩

theorem of_read {room : Nat} {s : String} {v : Value} (h : read room s = .ok v) : P v := by
  unfold read at h
  obtain ⟨⟨w, rest⟩, hread, h⟩ := bind_eq_ok_iff.mp h
  dsimp only at h
  split at h
  · cases h
    exact (holds.holdsWith _).value hread
  · cases h

end HoldsOfRead

theorem isDigit_of_whole? {s digits rest : List Char} (h : whole? s = some (digits, rest)) :
    ∀ c ∈ digits, c.isDigit = true := by
  unfold whole? at h
  split at h
  · cases h
    intro c hc
    rw [List.mem_singleton.mp hc]
    rfl
  · rw [List.span_eq_takeWhile_dropWhile] at h
    dsimp only at h
    split at h
    · cases h
    · cases h
      exact List.all_eq_true.mp List.all_takeWhile

theorem ofDigitChars_lt {s : List Char} (h : ∀ c ∈ s, c.isDigit = true) :
    Number.ofDigitChars s < 10 ^ s.length := by
  have hvalues : ∀ d ∈ s.map fun c => c.toNat - '0'.toNat, d < 10 := by
    rw [List.forall_mem_map]
    intro c hc
    have hbounds : 48 ≤ c.val ∧ c.val ≤ 57 := by simpa [Char.isDigit] using h c hc
    have hlast : c.toNat ≤ 57 := UInt32.le_iff_toNat_le.mp hbounds.2
    change c.toNat - 48 < 10
    omega
  have hlt := Text.ofDigits_lt hvalues
  rwa [List.length_map] at hlt

theorem cases_of_number {s rest : List Char} {v : Value} (h : number? s = some (v, rest)) :
    (∃ x, v = .float x) ∨ ∃ n : Int, v = .int n ∧ (Text.signed? n).isSome = true := by
  unfold number? at h
  obtain ⟨⟨digits, after⟩, hdigits, h⟩ := Option.bind_eq_some_iff.mp h
  dsimp only at h
  split at h
  · split at h
    · cases h
    · rename_i hlength
      cases h
      have hlt := ofDigitChars_lt (isDigit_of_whole? hdigits)
      have hpow : 10 ^ digits.length ≤ 10 ^ Text.maxDigits :=
        Nat.pow_le_pow_right (by decide) (Nat.le_of_not_lt hlength)
      refine .inr ⟨_, rfl, Text.isSome_signed? (Nat.lt_of_lt_of_le ?_ hpow)⟩
      split <;> simpa using hlt
  · cases h
    exact .inl ⟨_, rfl⟩

theorem cases_of_word {s rest : List Char} {v : Value} (h : word? s = some (v, rest)) :
    v = .null ∨ (∃ b, v = .bool b) ∨ ∃ x, v = .float x := by
  obtain ⟨⟨w, u⟩, hentry, h⟩ := List.exists_of_findSome?_eq_some h
  obtain ⟨-, h⟩ := Option.ite_none_right_eq_some.mp h
  cases h
  simp only [words, List.mem_cons, Prod.mk.injEq, List.not_mem_nil, or_false] at hentry
  rcases hentry with ⟨-, rfl⟩ | ⟨-, rfl⟩ | ⟨-, rfl⟩ | ⟨-, rfl⟩ | ⟨-, rfl⟩ | ⟨-, rfl⟩
  · exact .inl rfl
  · exact .inr (.inl ⟨true, rfl⟩)
  · exact .inr (.inl ⟨false, rfl⟩)
  · exact .inr (.inr ⟨_, rfl⟩)
  · exact .inr (.inr ⟨_, rfl⟩)
  · exact .inr (.inr ⟨_, rfl⟩)

theorem holdsOfRead_isWritable : HoldsOfRead Value.IsWritable where
  word h := by
    rcases cases_of_word h with rfl | ⟨b, rfl⟩ | ⟨x, rfl⟩
    · exact .null
    · exact .bool b
    · exact .float x
  number h := by
    rcases cases_of_number h with ⟨x, rfl⟩ | ⟨n, rfl, hn⟩
    · exact .float x
    · exact .int hn
  text s := .text s
  list h := .list h
  object h := .object (fun e he => (h e he).1) fun e he => (h e he).2

end Json

namespace Request

variable {P : Value → Prop}

theorem holds_of_decodeText (holds : Json.HoldsOfRead P) {name s : String} {v : Value}
    (h : decodeText name s = .ok (some v)) : P v := by
  unfold decodeText at h
  split at h
  · cases h
  · split at h
    · cases h
    · cases h
    · rename_i hread
      cases h
      exact holds.of_read hread
    · rename_i hread
      cases h
      exact holds.of_read hread
    · cases h

theorem holds_orElseEmpty {v : Option Value} {empty : Value} (hv : ∀ w ∈ v, P w)
    (hempty : P empty) : P (orElseEmpty v empty) := by
  unfold orElseEmpty
  split
  · rename_i w
    split
    · exact hv w rfl
    · exact hempty
  · exact hempty

end Request

end Catalogue

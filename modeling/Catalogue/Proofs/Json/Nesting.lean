import Catalogue.Json.Reader

/-!
How deep lists and objects are nested in a JSON text. A reader gives up where it has no room for one
more, and else it reads the same with whatever room it has.
-/

namespace Catalogue.Json

/-- Is the first of two readings given up, or else the same as the second? -/
def Settles {α : Type} (x y : Except Unread α) : Prop :=
  x = .error .tooDeep ∨ x = y

theorem Settles.refl {α : Type} (x : Except Unread α) : Settles x x :=
  .inr rfl

theorem Settles.bind {α β : Type} {x y : Except Unread α} {f g : α → Except Unread β}
    (h : Settles x y) (hf : ∀ a, Settles (f a) (g a)) : Settles (x >>= f) (y >>= g) := by
  rcases h with rfl | rfl
  · exact .inl rfl
  · cases x with
    | error e => exact .refl _
    | ok a => exact hf a

/-- With so much fuel, more room changes nothing but what is given up. -/
structure SettlesWith (fuel : Nat) : Prop where
  value (room : Nat) (s : List Char) : Settles (value fuel room s) (value fuel (room + 1) s)
  items (room : Nat) (s : List Char) : Settles (items fuel room s) (items fuel (room + 1) s)
  pairs (room : Nat) (s : List Char) : Settles (pairs fuel room s) (pairs fuel (room + 1) s)

section Succ

variable {fuel : Nat} (settles : SettlesWith fuel) (room : Nat) (s : List Char)
include settles

theorem SettlesWith.value_succ :
    Settles (Json.value (fuel + 1) room s) (Json.value (fuel + 1) (room + 1) s) := by
  unfold Json.value
  dsimp only
  split
  · exact .refl _
  · cases room with
    | zero => exact .inl rfl
    | succ room =>
        dsimp only
        split
        · exact .refl _
        · exact (settles.items _ _).bind fun _ => .refl _
  · cases room with
    | zero => exact .inl rfl
    | succ room =>
        dsimp only
        split
        · exact .refl _
        · exact (settles.pairs _ _).bind fun _ => .refl _
  · exact .refl _

theorem SettlesWith.items_succ :
    Settles (Json.items (fuel + 1) room s) (Json.items (fuel + 1) (room + 1) s) := by
  unfold Json.items
  refine (settles.value room s).bind fun first => ?_
  dsimp only
  split
  · exact .refl _
  · exact (settles.items _ _).bind fun _ => .refl _
  · exact .refl _

theorem SettlesWith.pairs_succ :
    Settles (Json.pairs (fuel + 1) room s) (Json.pairs (fuel + 1) (room + 1) s) := by
  unfold Json.pairs
  dsimp only
  split
  · refine (Settles.refl _).bind fun key => ?_
    split
    · refine (settles.value _ _).bind fun v => ?_
      split
      · exact .refl _
      · exact (settles.pairs _ _).bind fun _ => .refl _
      · exact .refl _
    · exact .refl _
  · exact .refl _

end Succ

theorem settlesWith (fuel : Nat) : SettlesWith fuel := by
  induction fuel with
  | zero => exact ⟨fun _ _ => .refl _, fun _ _ => .refl _, fun _ _ => .refl _⟩
  | succ fuel ih => exact ⟨ih.value_succ, ih.items_succ, ih.pairs_succ⟩

/-- Are lists and objects nested at most so deep in the text, as far as it can be read? -/
def IsNestedAtMost (room : Nat) (s : String) : Prop :=
  read room s ≠ .error .tooDeep

instance (room : Nat) (s : String) : Decidable (IsNestedAtMost room s) :=
  match h : read room s with
  | .error .tooDeep => isFalse fun hnot => hnot h
  | .error .malformed => isTrue (by simp [IsNestedAtMost, h])
  | .ok _ => isTrue (by simp [IsNestedAtMost, h])

theorem read?_eq_some_iff {s : String} {v : Value} :
    read? s = some v ↔ read maxNesting s = .ok v := by
  unfold read?
  cases read maxNesting s <;> simp [Except.toOption]

/-- What a text is read as does not depend on the room, if there is enough of it. -/
theorem IsNestedAtMost.read_eq {room room' : Nat} {s : String} (h : IsNestedAtMost room s)
    (hle : room ≤ room') : read room' s = read room s := by
  induction hle with
  | refl => rfl
  | step hle ih =>
      have hsettles : ∀ n, Settles (read n s) (read (n + 1) s) := by
        intro n
        exact ((settlesWith _).value n _).bind fun _ => .refl _
      rcases hsettles _ with hdeep | hsame
      · rw [ih] at hdeep
        exact absurd hdeep h
      · rw [← hsame, ih]

end Catalogue.Json

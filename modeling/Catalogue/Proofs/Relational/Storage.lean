import Catalogue.Proofs.Ordering.Row

/-!
What tables hold. No column ever stores the number that is none: it is bound as null, and no text
reads as it.
-/

namespace Catalogue.Number

theorem Binary64.ofRatio_ne_nan (negative : Bool) (num den : Nat) :
    ofRatio negative num den ≠ .nan := by
  unfold ofRatio
  split
  · exact Binary64.noConfusion
  · dsimp only
    split <;> split <;> exact Binary64.noConfusion

theorem Binary64.ofDecimal_ne_nan (negative : Bool) (digits : Nat) (e : Int) :
    ofDecimal negative digits e ≠ .nan := by
  unfold ofDecimal
  repeat' split
  all_goals first
    | exact ofRatio_ne_nan _ _ _
    | exact Binary64.noConfusion

theorem ne_nan_of_unsigned? {negative : Bool} {s : List Char} {x : Binary64}
    (h : unsigned? negative s = some x) : x ≠ .nan := by
  simp only [unsigned?] at h
  -- A fraction is there or not; both ways the digits are read as one numeral.
  split at h
  all_goals
    split at h
    · cases h
    · obtain ⟨e, -, rfl⟩ := Option.map_eq_some_iff.mp h
      exact Binary64.ofDecimal_ne_nan _ _ _

end Catalogue.Number

namespace Catalogue.Relational

open Number (Binary64)

namespace Cell

theorem isKept_ofInteger (n : Int) :
    (if isStorable n then Cell.integer n else .real (.ofInt n)).IsKept := by
  split
  · exact Cell.noConfusion
  · intro hnan
    exact Binary64.ofRatio_ne_nan _ _ _ (Cell.real.inj hnan)

theorem isKept_of_numberOfText? {s : String} {c : Cell} (h : numberOfText? s = some c) :
    c.IsKept := by
  simp only [numberOfText?] at h
  -- The three cases of the sign.
  split at h
  all_goals
    dsimp only at h
    split at h
    · obtain rfl := Option.some.inj h
      exact isKept_ofInteger _
    · obtain ⟨x, hx, rfl⟩ := Option.map_eq_some_iff.mp h
      intro hnan
      exact Number.ne_nan_of_unsigned? hx (Cell.real.inj hnan)

theorem isKept_bind {v : Value} {c : Cell} (h : bind v = .ok c) : c.IsKept := by
  unfold bind at h
  split at h
  case h_3 n =>
    split at h
    · obtain rfl := Except.ok.inj h
      exact Cell.noConfusion
    · cases h
  case h_5 x hx =>
    obtain rfl := Except.ok.inj h
    intro hnan
    exact hx (Cell.real.inj hnan)
  all_goals first
    | obtain rfl := Except.ok.inj h
      exact Cell.noConfusion
    | cases h

theorem isKept_boundCell (v : Option Value) : (boundCell v).IsKept := by
  unfold boundCell
  cases v with
  | none => exact Cell.noConfusion
  | some v =>
      rw [Option.map_some]
      cases h : bind v with
      | error fault => exact Cell.noConfusion
      | ok c => exact isKept_bind h

theorem isKept_asNumber {c : Cell} (h : c.IsKept) : c.asNumber.IsKept := by
  cases c with
  | text s =>
      change ((numberOfText? s).getD (.text s)).IsKept
      cases hs : numberOfText? s with
      | none => exact Cell.noConfusion
      | some c => exact isKept_of_numberOfText? hs
  | _ => exact h

theorem isKept_asInteger {c : Cell} (h : c.IsKept) : c.asInteger.IsKept := by
  cases c with
  | real x =>
      unfold asInteger
      dsimp only
      split
      · split
        · exact Cell.noConfusion
        · exact h
      · exact h
  | _ => exact h

theorem isKept_stored (a : Affinity) {c : Cell} (h : c.IsKept) : (c.stored a).IsKept := by
  cases a with
  | text => cases c <;> exact Cell.noConfusion
  | numeric => exact isKept_asInteger (isKept_asNumber h)
  | real =>
      have hinteger := isKept_asInteger (isKept_asNumber h)
      change (asReal c.asNumber.asInteger).IsKept
      generalize c.asNumber.asInteger = d at hinteger
      cases d with
      | integer n =>
          intro hnan
          exact Binary64.ofRatio_ne_nan _ _ _ (Cell.real.inj hnan)
      | _ => exact hinteger

end Cell

namespace Database

theorem table_ofValues (t : Table) (rows : List (List Value)) : (ofValues t rows).table = t := by
  unfold ofValues
  dsimp only
  split <;> rfl

/-- Each row stores the values of one of the rows that the table is made of. -/
theorem mem_rows_ofValues {t : Table} {rows : List (List Value)} {row : Row}
    (h : row ∈ (ofValues t rows).rows) :
    ∃ vs ∈ rows, row = t.storedRow ((t.columns.zip vs).map fun e =>
      boundCell (send? e.1.type.sendType e.2)) := by
  have hmem : row ∈ rows.map fun vs => t.storedRow ((t.columns.zip vs).map fun e =>
      boundCell (send? e.1.type.sendType e.2)) := by
    unfold ofValues at h
    dsimp only at h
    split at h
    · exact (List.mergeSort_perm _ _).subset h
    · exact h
  obtain ⟨vs, hvs, rfl⟩ := List.mem_map.mp hmem
  exact ⟨vs, hvs, rfl⟩

theorem isKept_ofValues (t : Table) (rows : List (List Value)) : (ofValues t rows).IsKept := by
  intro row hrow cell hcell
  obtain ⟨vs, -, rfl⟩ := mem_rows_ofValues hrow
  obtain ⟨⟨c, bound⟩, hentry, rfl⟩ := List.mem_map.mp hcell
  obtain ⟨e, -, rfl⟩ := List.mem_map.mp (List.of_mem_zip hentry).2
  exact Cell.isKept_stored _ (Cell.isKept_boundCell _)

theorem isKept_run {db : Database} (h : db.IsKept) (statement : Statement) :
    (db.run statement).1.IsKept := by
  cases statement with
  | set c value condition =>
      intro row hrow cell hcell
      obtain ⟨old, hold, rfl⟩ := List.mem_map.mp hrow
      have hnew := Cell.isKept_stored c.type.affinity
        (Cell.isKept_boundCell (send? c.type.sendType value))
      split at hcell
      · obtain ⟨⟨d, before⟩, hentry, rfl⟩ := List.mem_map.mp hcell
        dsimp only
        split
        · exact hnew
        · exact h old hold before (List.of_mem_zip hentry).2
      · exact h old hold cell hcell
  | _ => exact h

end Database

end Catalogue.Relational

import Catalogue.Failure

/-!
What a computation may fail with. The rules follow the ways in which computations are put together;
of several, one for each element of a list, the first failure is that of all.
-/

namespace Catalogue

/-- Every failure of the computation is one of these. -/
def FailsAs {ε α : Type} (P : ε → Prop) (x : Except ε α) : Prop :=
  ∀ e, x = .error e → P e

namespace FailsAs

variable {ε α β : Type} {P Q : ε → Prop}

theorem ok (a : α) : FailsAs P (.ok a) :=
  nofun

theorem error {e : ε} (h : P e) : FailsAs P (.error e : Except ε α) := by
  rintro _ ⟨rfl⟩
  exact h

theorem mono {x : Except ε α} (hx : FailsAs P x) (h : ∀ e, P e → Q e) : FailsAs Q x :=
  fun e he => h e (hx e he)

theorem bind {x : Except ε α} {f : α → Except ε β} (hx : FailsAs P x)
    (hf : ∀ a, x = .ok a → FailsAs P (f a)) : FailsAs P (x >>= f) := by
  cases x with
  | error e =>
      rintro _ ⟨rfl⟩
      exact hx _ rfl
  | ok a => exact hf a rfl

theorem ite {c : Prop} [Decidable c] {x y : Except ε α} (hx : FailsAs P x) (hy : FailsAs P y) :
    FailsAs P (if c then x else y) := by
  split
  · exact hx
  · exact hy

theorem mapError {ε' : Type} {P : ε' → Prop} {f : ε → ε'} {x : Except ε α}
    (hx : FailsAs (fun e => P (f e)) x) : FailsAs P (x.mapError f) := by
  cases x with
  | error e =>
      rintro _ ⟨rfl⟩
      exact hx e rfl
  | ok a => exact .ok a

end FailsAs

theorem bind_eq_ok_iff {ε α β : Type} {x : Except ε α} {f : α → Except ε β} {b : β} :
    x >>= f = .ok b ↔ ∃ a, x = .ok a ∧ f a = .ok b := by
  cases x with
  | error e => simp [bind, Except.bind]
  | ok a => simp [bind, Except.bind]

section MapError

variable {ε ε' α : Type} {f : ε → ε'} {x : Except ε α}

theorem mapError_eq_ok_iff {a : α} : x.mapError f = .ok a ↔ x = .ok a := by
  cases x with
  | error e => exact iff_of_false nofun nofun
  | ok b =>
      change Except.ok b = .ok a ↔ _
      rw [Except.ok.injEq, Except.ok.injEq]

theorem mapError_eq_error_iff {e' : ε'} :
    x.mapError f = .error e' ↔ ∃ e, x = .error e ∧ f e = e' := by
  cases x with
  | error e =>
      change Except.error (f e) = .error e' ↔ _
      simp
  | ok b => exact iff_of_false nofun (fun ⟨_, h, _⟩ => nomatch h)

end MapError

theorem mapM_eq_ok_iff {α β ε : Type} {f : α → Except ε β} {l : List α} {ys : List β} :
    l.mapM f = .ok ys ↔ l.map f = ys.map .ok := by
  induction l generalizing ys with
  | nil => cases ys <;> simp [pure, Except.pure]
  | cons a l ih =>
      rw [List.mapM_cons]
      cases ys with
      | nil =>
          cases f a with
          | error e => simp [bind, Except.bind]
          | ok y => cases l.mapM f <;> simp [bind, Except.bind, pure, Except.pure]
      | cons y ys =>
          rw [List.map_cons, List.map_cons, List.cons.injEq, ← ih]
          cases f a with
          | error e => simp [bind, Except.bind]
          | ok y' => cases l.mapM f <;> simp [bind, Except.bind, pure, Except.pure]

theorem exists_map_ok {α β ε : Type} {f : α → Except ε β} {l : List α}
    (h : ∀ a ∈ l, ∃ b, f a = .ok b) : ∃ bs : List β, l.map f = bs.map .ok := by
  induction l with
  | nil => exact ⟨[], rfl⟩
  | cons a l ih =>
      obtain ⟨b, hb⟩ := h a (.head _)
      obtain ⟨bs, hbs⟩ := ih fun c hc => h c (.tail _ hc)
      exact ⟨b :: bs, by rw [List.map_cons, hb, hbs, List.map_cons]⟩

theorem exists_mapM_ok_iff {α β ε : Type} {f : α → Except ε β} {l : List α} :
    (∃ bs, l.mapM f = .ok bs) ↔ ∀ a ∈ l, ∃ b, f a = .ok b := by
  simp only [mapM_eq_ok_iff]
  constructor
  · rintro ⟨bs, hbs⟩ a ha
    obtain ⟨b, -, hb⟩ := List.mem_map.mp (hbs ▸ List.mem_map_of_mem (f := f) ha)
    exact ⟨b, hb.symm⟩
  · exact exists_map_ok

theorem mapM_eq_error_iff {α β ε : Type} {f : α → Except ε β} {l : List α} {e : ε} :
    l.mapM f = .error e ↔ ∃ before a rest, l = before ++ a :: rest ∧
      (∀ b ∈ before, ∃ y, f b = .ok y) ∧ f a = .error e := by
  induction l with
  | nil => simp [pure, Except.pure]
  | cons a l ih =>
      rw [List.mapM_cons]
      constructor
      · intro h
        cases ha : f a with
        | error e' =>
            rw [ha] at h
            cases h
            exact ⟨[], a, l, rfl, List.forall_mem_nil _, ha⟩
        | ok y =>
            cases hl : l.mapM f with
            | ok ys =>
                rw [ha, hl] at h
                cases h
            | error e' =>
                rw [ha, hl] at h
                cases h
                obtain ⟨before, b, rest, rfl, hbefore, hb⟩ := ih.mp hl
                exact ⟨a :: before, b, rest, rfl, List.forall_mem_cons.mpr ⟨⟨y, ha⟩, hbefore⟩, hb⟩
      · rintro ⟨before, b, rest, hsplit, hbefore, hb⟩
        cases before with
        | nil =>
            cases hsplit
            rw [hb]
            rfl
        | cons first before =>
            cases hsplit
            obtain ⟨⟨y, hy⟩, hbefore⟩ := List.forall_mem_cons.mp hbefore
            rw [hy, ih.mpr ⟨before, b, rest, rfl, hbefore, hb⟩]
            rfl

end Catalogue

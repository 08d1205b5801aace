import Catalogue.Proofs.Calendar.Chronology
import Catalogue.Proofs.Ordering.Number
import Catalogue.Proofs.Query.Forms
import Catalogue.Proofs.Query.Refusals

/-!
Fields with a rule that bounds their values. The numbers, texts and moments that the rule accepts lie
within the bounds, but what is not a number is before no number and after none, and it is accepted.
-/

namespace Catalogue

open Calendar (Date Moment)

namespace Value

/-- The first value is before the second, or they are the same. -/
def IsAtMost (v w : Value) : Prop :=
  v.before? w = some true ∨ v.same w = true

/-- The value lies within the bounds that are given; a null is none. -/
structure LiesWithin (least most v : Value) : Prop where
  lower : least = .null ∨ least.IsAtMost v
  upper : most = .null ∨ v.IsAtMost most

/-- The bounds that a rule can be meant to have: numbers, texts, moments without an offset, or none. -/
inductive IsLimit : Value → Prop
  | none : IsLimit .null
  | number {v : Value} {n : Numeric} (counts : v.numeric? = some n) (isNumber : n.IsNumber) :
      IsLimit v
  | text (s : String) : IsLimit (.text s)
  | moment (m : Moment) : IsLimit (.ofMoment m)

/-- Two values that count as numbers, of which one is not a number. -/
structure Unordered (v w : Value) : Prop where
  isNan : v = .float .nan ∨ w = .float .nan
  left : v.numeric?.isSome = true
  right : w.numeric?.isSome = true

/-- How two values stand to each other. -/
inductive Stands (v w : Value) : Prop
  | ordered (o : Ordering) (before : v.before? w = some (o == .lt))
      (behind : w.before? v = some (o == .gt)) (same : v.same w = (o == .eq))
      (same' : w.same v = (o == .eq))
  | unordered (h : Unordered v w)
  | apart (before : v.before? w = none) (behind : w.before? v = none) (same : v.same w = false)
      (same' : w.same v = false)

section Stands

variable {v w : Value}

theorem before?_of_numeric? {a : Numeric} (h : v.numeric? = some a) (w : Value) :
    v.before? w = w.numeric?.map fun b => a.order b == some .lt := by
  cases v with
  | bool b =>
      cases h
      cases w <;> rfl
  | int n =>
      cases h
      cases w <;> rfl
  | float x =>
      cases h
      cases w <;> rfl
  | _ => cases h

theorem same_of_numeric? {a : Numeric} (h : v.numeric? = some a) (w : Value) :
    v.same w = (w.numeric?.map fun b => a.order b == some .eq).getD false := by
  cases v with
  | bool b =>
      cases h
      cases w <;> rfl
  | int n =>
      cases h
      cases w <;> rfl
  | float x =>
      cases h
      cases w <;> rfl
  | _ => cases h

theorem apart_of_numeric? {a : Numeric} (hv : v.numeric? = none) (hw : w.numeric? = some a) :
    v.before? w = none ∧ v.same w = false := by
  cases w with
  | bool b => cases v <;> first | exact ⟨rfl, rfl⟩ | cases hv
  | int n => cases v <;> first | exact ⟨rfl, rfl⟩ | cases hv
  | float x => cases v <;> first | exact ⟨rfl, rfl⟩ | cases hv
  | _ => cases hw

theorem eq_nan_of_numeric? {a : Numeric} (hv : v.numeric? = some a) (ha : ¬a.IsNumber) :
    v = .float .nan := by
  obtain rfl : a = .float .nan := of_not_not ha
  cases v with
  | float x =>
      cases hv
      rfl
  | _ => cases hv

theorem Unordered.symm (h : Unordered v w) : Unordered w v :=
  ⟨h.isNan.symm, h.right, h.left⟩

theorem Unordered.before?_eq (h : Unordered v w) : v.before? w = some false := by
  obtain ⟨a, ha⟩ := Option.isSome_iff_exists.mp h.left
  obtain ⟨b, hb⟩ := Option.isSome_iff_exists.mp h.right
  have hnone : a.order b = none := by
    rcases h.isNan with rfl | rfl
    · cases ha
      cases b <;> rfl
    · cases hb
      cases a with
      | int n => rfl
      | float x => cases x <;> rfl
  rw [before?_of_numeric? ha, hb, Option.map_some, hnone]
  rfl

/-- Values that are compared either way, by orders that mirror each other. -/
theorem Stands.of_swap {o o' : Ordering} (mirrored : o' = o.swap)
    (before : v.before? w = some (o == .lt)) (behind : w.before? v = some (o' == .lt))
    (same : v.same w = (o == .eq)) (same' : w.same v = (o' == .eq)) : Stands v w := by
  subst mirrored
  refine .ordered o before ?_ same ?_
  · rw [behind]
    cases o <;> rfl
  · rw [same']
    cases o <;> rfl

theorem Stands.symm (h : Stands v w) : Stands w v := by
  cases h with
  | ordered o before behind same same' =>
      refine .of_swap (o := o.swap) Ordering.swap_swap.symm ?_ before ?_ same
      · rw [behind]
        cases o <;> rfl
      · rw [same']
        cases o <;> rfl
  | unordered h => exact .unordered h.symm
  | apart before behind same same' => exact .apart behind before same' same

theorem stands_of_numeric? {a : Numeric} (hv : v.numeric? = some a) (w : Value) : Stands v w := by
  cases hw : w.numeric? with
  | none =>
      have hapart := apart_of_numeric? hw hv
      refine .apart ?_ hapart.1 ?_ hapart.2
      · rw [before?_of_numeric? hv, hw, Option.map_none]
      · rw [same_of_numeric? hv, hw, Option.map_none, Option.getD_none]
  | some b =>
      by_cases ha : a.IsNumber
      · by_cases hb : b.IsNumber
        · have hmirrored : Numeric.comparePlaces b.place a.place =
              (Numeric.comparePlaces a.place b.place).swap := Std.OrientedCmp.eq_swap
          have horder := Numeric.order_eq_comparePlaces ha hb
          have horder' := Numeric.order_eq_comparePlaces hb ha
          refine .of_swap hmirrored ?_ ?_ ?_ ?_
          · rw [before?_of_numeric? hv, hw, Option.map_some, horder]
            rfl
          · rw [before?_of_numeric? hw, hv, Option.map_some, horder']
            rfl
          · rw [same_of_numeric? hv, hw, Option.map_some, horder]
            rfl
          · rw [same_of_numeric? hw, hv, Option.map_some, horder']
            rfl
        · exact .unordered ⟨.inr (eq_nan_of_numeric? hw hb), by rw [hv]; rfl, by rw [hw]; rfl⟩
      · exact .unordered ⟨.inl (eq_nan_of_numeric? hv ha), by rw [hv]; rfl, by rw [hw]; rfl⟩

theorem stands_text (s : String) (w : Value) : Stands (.text s) w := by
  cases w with
  | text t =>
      have hsame : ∀ a b : String, (a == b) = (compare a b == .eq) := by
        intro a b
        rw [Bool.eq_iff_iff, beq_iff_eq, beq_iff_eq, Std.compare_eq_iff_eq]
      exact .of_swap (o := compare s t) Std.OrientedCmp.eq_swap rfl rfl (hsame s t) (hsame t s)
  | _ => exact .apart rfl rfl rfl rfl

theorem stands_moment (m : Moment) (w : Value) : Stands (.ofMoment m) w := by
  cases w with
  | stamp t =>
      obtain ⟨n, offset⟩ := t
      cases offset with
      | none =>
          have hmirrored : n.order m = (m.order n).swap := by
            unfold Moment.order
            rw [Ordering.swap_then, ← Std.OrientedOrd.eq_swap, ← Std.OrientedOrd.eq_swap]
          exact .of_swap hmirrored (before?_moment m n) (before?_moment n m) (same_moment m n)
            (same_moment n m)
      | some o => exact .apart rfl rfl rfl rfl
  | _ => exact .apart rfl rfl rfl rfl

theorem IsLimit.stands (limit : v.IsLimit) (given : v ≠ .null) (w : Value) : Stands v w := by
  cases limit with
  | none => exact absurd rfl given
  | number counts _ => exact stands_of_numeric? counts w
  | text s => exact stands_text s w
  | moment m => exact stands_moment m w

theorem IsLimit.ne_nan (limit : v.IsLimit) : v ≠ .float .nan := by
  rintro rfl
  cases limit with
  | number counts isNumber =>
      cases counts
      exact isNumber rfl

theorem Stands.not_before_iff (h : Stands v w) :
    ((v.before? w).map not).getD false = true ↔ w.IsAtMost v ∨ Unordered v w := by
  unfold IsAtMost
  cases h with
  | ordered o before behind same same' =>
      rw [before, behind, same']
      cases o with
      | lt =>
          refine iff_of_false (by decide) ?_
          rintro ((h | h) | h)
          · cases h
          · cases h
          · cases before.symm.trans h.before?_eq
      | eq => exact iff_of_true rfl (.inl (.inr rfl))
      | gt => exact iff_of_true rfl (.inl (.inl rfl))
  | unordered h =>
      rw [h.before?_eq]
      exact iff_of_true rfl (.inr h)
  | apart before behind same same' =>
      rw [before, behind, same']
      refine iff_of_false (by decide) ?_
      rintro ((h | h) | h)
      · cases h
      · cases h
      · cases before.symm.trans h.before?_eq

theorem IsAtMost.isSome_right {a : Numeric} (h : v.IsAtMost w) (hv : v.numeric? = some a) :
    w.numeric?.isSome = true := by
  unfold IsAtMost at h
  rw [before?_of_numeric? hv, same_of_numeric? hv] at h
  cases hw : w.numeric? with
  | none =>
      rw [hw] at h
      rcases h with h | h <;> cases h
  | some b => rfl

theorem IsAtMost.isSome_left {a : Numeric} (h : v.IsAtMost w) (hw : w.numeric? = some a) :
    v.numeric?.isSome = true := by
  unfold IsAtMost at h
  cases hv : v.numeric? with
  | none =>
      have hapart := apart_of_numeric? hv hw
      rw [hapart.1, hapart.2] at h
      rcases h with h | h <;> cases h
  | some b => rfl

end Stands

/-- A bound that is none, or counts as a number. -/
def IsNumericLimit (v : Value) : Prop :=
  v = .null ∨ v.numeric?.isSome = true

theorem IsLimit.unordered_iff {bound v : Value} (limit : bound.IsLimit) (given : bound ≠ .null) :
    Unordered v bound ↔ v = .float .nan ∧ bound.IsNumericLimit := by
  constructor
  · intro h
    exact ⟨h.isNan.resolve_right limit.ne_nan, .inr h.right⟩
  · rintro ⟨rfl, numeric⟩
    exact ⟨.inl rfl, rfl, numeric.resolve_left given⟩

end Value

namespace Validator

open Value (IsLimit IsNumericLimit LiesWithin)

variable {least most : Value} (lower : IsLimit least) (upper : IsLimit most) {v : Value}

include lower in
theorem isAtLeast_iff : isAtLeast least v = true ↔
    (least = .null ∨ least.IsAtMost v) ∨ v = .float .nan ∧ IsNumericLimit least := by
  by_cases given : least = .null
  · subst given
    exact iff_of_true rfl (.inl (.inl rfl))
  · have hnull : least.isNull = false := by
      cases least <;> first | rfl | exact absurd rfl given
    rw [isAtLeast, hnull, Bool.false_or, (lower.stands given v).symm.not_before_iff,
      lower.unordered_iff given, or_iff_right given]

include upper in
theorem isAtMost_iff : isAtMost most v = true ↔
    (most = .null ∨ v.IsAtMost most) ∨ v = .float .nan ∧ IsNumericLimit most := by
  by_cases given : most = .null
  · subst given
    exact iff_of_true rfl (.inl (.inl rfl))
  · have hnull : most.isNull = false := by
      cases most <;> first | rfl | exact absurd rfl given
    have hsymm : Value.Unordered most v ↔ Value.Unordered v most :=
      ⟨Value.Unordered.symm, Value.Unordered.symm⟩
    rw [isAtMost, hnull, Bool.false_or, (upper.stands given v).not_before_iff, hsymm,
      upper.unordered_iff given, or_iff_right given]

include lower upper in
/-- The rule accepts what lies within its bounds, and what is not a number where no bound is anything
else but a number. -/
theorem accepts_between_iff : (between least most).accepts v = .ok true ↔
    LiesWithin least most v ∨ v = .float .nan ∧ IsNumericLimit least ∧ IsNumericLimit most := by
  change Except.ok (isAtLeast least v && isAtMost most v) = .ok true ↔ _
  rw [Except.ok.injEq, Bool.and_eq_true, isAtLeast_iff lower, isAtMost_iff upper]
  constructor
  · rintro ⟨hleast | ⟨rfl, hleast⟩, hmost | ⟨hnan, hmost⟩⟩
    · exact .inl ⟨hleast, hmost⟩
    · subst hnan
      exact .inr ⟨rfl, hleast.imp_right fun h => h.isSome_left rfl, hmost⟩
    · exact .inr ⟨rfl, hleast, hmost.imp_right fun h => h.isSome_right rfl⟩
    · exact .inr ⟨rfl, hleast, hmost⟩
  · rintro (within | ⟨rfl, hleast, hmost⟩)
    · exact ⟨.inl within.lower, .inl within.upper⟩
    · exact ⟨.inr ⟨rfl, hleast⟩, .inr ⟨rfl, hmost⟩⟩

end Validator

namespace Plan

variable {today : Date} {registry : Registry} {settings : Settings} {acceptsClauses : Bool}
  {request : Request} {plan : Plan}

theorem exists_clause_of_compileEach {clauses : List Value} {ps : List Predicate}
    (h : Filter.compileEach today registry clauses = .ok ps) :
    ∀ p ∈ ps, ∃ clause qs, Filter.compile today registry clause = .ok qs ∧ p ∈ qs := by
  induction clauses generalizing ps with
  | nil =>
      cases h
      exact List.forall_mem_nil _
  | cons clause rest ih =>
      cases clause with
      | object es =>
          obtain ⟨first, hfirst, h⟩ := Outcome.bind_eq_ok_iff.mp h
          obtain ⟨others, hothers, h⟩ := Outcome.bind_eq_ok_iff.mp h
          cases h
          exact List.forall_mem_append.mpr ⟨fun p hp => ⟨_, first, hfirst, hp⟩, ih hothers⟩
      | _ => cases h

theorem exists_clause_of_ofRequest
    (h : ofRequest today registry settings acceptsClauses request = .ok plan) :
    ∀ p ∈ plan.predicates, ∃ clause qs, Filter.compile today registry clause = .ok qs ∧ p ∈ qs := by
  obtain ⟨ps, hps, h⟩ := Outcome.bind_eq_ok_iff.mp h
  obtain ⟨sort, -, h⟩ := Outcome.bind_eq_ok_iff.mp h
  cases h
  unfold compileFilter Filter.compileClauses at hps
  split at hps
  · split at hps
    · exact exists_clause_of_compileEach hps
    · exact fun p hp => ⟨_, ps, hps, hp⟩
  · exact fun p hp => ⟨_, ps, hps, hp⟩

theorem admits_of_ofRequest
    (h : ofRequest today registry settings acceptsClauses request = .ok plan) :
    ∀ p ∈ plan.predicates, ∃ f ∈ registry.fields, f.Admits p := by
  intro p hp
  obtain ⟨clause, qs, hcompile, hp⟩ := exists_clause_of_ofRequest h p hp
  cases clause with
  | object es => exact Filter.admits_of_compileFields hcompile p hp
  | _ => cases hcompile

end Plan

theorem Registry.eq_of_name {registry : Registry} {f g : Field} (hf : f ∈ registry.fields)
    (hg : g ∈ registry.fields) (h : g.name = f.name) : g = f := by
  have hget := Registry.get?_name hg
  rw [h, Registry.get?_name hf] at hget
  exact (Option.some.inj hget).symm

/-- What a condition compares its field with is accepted by the field's rule, unless it is excluded;
and it is a moment on a field of that kind. -/
theorem Field.Admits.accepted {f : Field} {p : Predicate} (h : f.Admits p)
    (kept : p.isExclusion = false) :
    ∀ v ∈ p.operands, f.Accepts v ∧ (f.kind = .moment → ∃ m, v = .ofMoment m) := by
  have hform : ∀ {v : Value}, f.kind.HasForm v → f.kind = .moment → ∃ m, v = .ofMoment m := by
    intro v form kind
    rw [kind] at form
    cases form with
    | moment m => exact ⟨m, rfl⟩
  cases h with
  | equals form accepted => exact List.forall_mem_singleton.mpr ⟨accepted, hform form⟩
  | atLeast bound => exact List.forall_mem_singleton.mpr ⟨bound.accepted, bound.moment⟩
  | atMost bound => exact List.forall_mem_singleton.mpr ⟨bound.accepted, bound.moment⟩
  | isAmong members => exact fun v hv => ⟨(members v hv).2, hform (members v hv).1⟩
  | notEquals => cases kept
  | isSet => cases kept
  | isAbsent => exact List.forall_mem_nil _
  | matching => exact List.forall_mem_nil _

/-- Of all that a request compares a bounded field with nothing is out of bounds, but for what is
not a number, which does get through. -/
theorem bounds_let_through_what_is_not_a_number (today : Date) (registry : Registry)
    (settings : Settings) {f : Field} (declared : f ∈ registry.fields) {least most : Value}
    (rule : f.rule = some (.between least most)) (lower : least.IsLimit) (upper : most.IsLimit) :
    (∀ v, f.Accepts v ↔ Value.LiesWithin least most v ∨
      v = .float .nan ∧ least.IsNumericLimit ∧ most.IsNumericLimit) ∧
    (∀ acceptsClauses request plan,
      Plan.ofRequest today registry settings acceptsClauses request = .ok plan →
      ∀ p ∈ plan.predicates, p.field = f.name → p.isExclusion = false → ∀ v ∈ p.operands,
        Value.LiesWithin least most v ∨
          v = .float .nan ∧ f.kind ≠ .moment ∧ least.IsNumericLimit ∧ most.IsNumericLimit) ∧
    (f.kind ≠ .moment → least.IsNumericLimit → most.IsNumericLimit →
      Filter.compile today registry
          (.object [(.text f.name, .object [(.text "from", .float .nan)])]) =
        .ok [.atLeast f.name (.float .nan)]) := by
  have haccepts : ∀ v, f.Accepts v ↔ Value.LiesWithin least most v ∨
      v = .float .nan ∧ least.IsNumericLimit ∧ most.IsNumericLimit := by
    intro v
    unfold Field.Accepts
    rw [rule]
    exact Validator.accepts_between_iff lower upper
  refine ⟨haccepts, ?_, ?_⟩
  · intro acceptsClauses request plan compiled p hp hname kept v hv
    obtain ⟨g, hg, hadmits⟩ := Plan.admits_of_ofRequest compiled p hp
    obtain rfl := Registry.eq_of_name declared hg (hadmits.field.symm.trans hname)
    obtain ⟨accepted, hmoment⟩ := hadmits.accepted kept v hv
    refine ((haccepts v).mp accepted).imp_right ?_
    rintro ⟨rfl, hleast, hmost⟩
    refine ⟨rfl, ?_, hleast, hmost⟩
    intro kind
    obtain ⟨m, hm⟩ := hmoment kind
    cases hm
  · intro kind hleast hmost
    have accepted : f.Accepts (.float .nan) := (haccepts _).mpr (.inr ⟨rfl, hleast, hmost⟩)
    have hcheck : f.check (.float .nan) = .ok () := by
      unfold Field.check
      rw [accepted]
    have hlower : f.bound today (.float .nan) = .ok (some (.float .nan)) := by
      have hscalar : (Value.float .nan).isScalar = true := rfl
      unfold Field.bound
      rw [if_pos hscalar]
      dsimp only
      rw [if_neg kind]
      change (f.check (.float .nan)).bind _ = _
      rw [hcheck]
      rfl
    rw [Filter.compile_singleton today declared]
    change f.within today (.float .nan) .null [.float .nan] = _
    unfold Field.within
    rw [hlower]
    rfl

section Rated

def ratedListing : Listing where
  registry := Filter.ratedRegistry
  settings := default
  today := default

theorem read_nan_rating :
    Json.read? "\x7b\"rating\": NaN\x7d" = some (.object [(.text "rating", .float .nan)]) := by
  cbv

/-- A rating that is not a number is asked for, although it is neither nought or more nor five or
less. -/
theorem nan_rating_is_let_through :
    ∃ request, ratedListing.compiled false (filteredBy "\x7b\"rating\": NaN\x7d") =
        .ok (request, ⟨[.equals "rating" (.float .nan)], []⟩) ∧
      ¬(Value.int 0).IsAtMost (.float .nan) ∧ ¬(Value.float .nan).IsAtMost (.int 5) := by
  have hrequest := ofParameters_filteredBy (by decide) read_nan_rating rfl
  have hplan : Plan.ofRequest default Filter.ratedRegistry default false
      { limit := 100, filter := .object [(.text "rating", .float .nan)] } =
        .ok ⟨[.equals "rating" (.float .nan)], []⟩ := rfl
  refine ⟨_, Listing.compiled_eq_ok_iff.mpr ⟨hrequest, hplan⟩, ?_, ?_⟩
  · rintro (h | h) <;> cases h
  · rintro (h | h) <;> cases h

/-- Both bounds that are asked for lie within those of the rule. -/
theorem bounds_of_ratings_lie_within :
    ∃ plan, Plan.ofRequest default Filter.ratedRegistry default false
        { limit := 10, filter := Filter.ratedFilter } = .ok plan ∧
      (.atLeast "rating" (.int 1) ∈ plan.predicates ∧
        Value.LiesWithin (.int 0) (.int 5) (.int 1)) ∧
      .atMost "rating" (.int 5) ∈ plan.predicates ∧
        Value.LiesWithin (.int 0) (.int 5) (.int 5) := by
  have isLimit : ∀ n : Int, (Value.int n).IsLimit := fun n => .number rfl nofun
  obtain ⟨-, hoperands, -⟩ := bounds_let_through_what_is_not_a_number default Filter.ratedRegistry
    default (f := { name := "rating", rule := some (.between (.int 0) (.int 5)) })
    (.tail _ (.head _)) rfl (isLimit 0) (isLimit 5)
  have compiled : Plan.ofRequest default Filter.ratedRegistry default false
      { limit := 10, filter := Filter.ratedFilter } = .ok ⟨[.isSet "title",
        .notEquals "title" (.text "a%"), .atLeast "rating" (.int 1), .atMost "rating" (.int 5),
        .isAmong "is_open" [.bool true, .bool false]], []⟩ := rfl
  have hlower := hoperands _ _ _ compiled (.atLeast "rating" (.int 1)) (by simp) rfl rfl _ (.head _)
  have hupper := hoperands _ _ _ compiled (.atMost "rating" (.int 5)) (by simp) rfl rfl _ (.head _)
  refine ⟨_, compiled, ⟨by simp, hlower.resolve_right ?_⟩, by simp, hupper.resolve_right ?_⟩
  · rintro ⟨⟨⟩, -⟩
  · rintro ⟨⟨⟩, -⟩

end Rated

end Catalogue

import Catalogue.Proofs.Calendar.Shift
import Catalogue.Proofs.Query.ClosedNames
import Catalogue.Proofs.Timestamp.Written

/-!
Points in time in filters. However a point in time is given, it comes to the one moment of universal
time at that instant, or is refused where the calendar has none; what filters compile to depends on
nothing but the instant.
-/

namespace Catalogue

open Calendar (Date Moment Stamp)
open Timestamp (IsToTheMinute)

namespace Value

/-- The ways to give a point in time: as a moment with or without an offset, as a date, and as text
with any blanks around it. -/
inductive Denotes : Value → Stamp → Prop
  | stamp (s : Stamp) : Denotes (.stamp s) s
  | date (d : Date) : Denotes (.date d) { moment := .midnight d }
  | text {raw : String} {s : Stamp} (left right : List Char)
      (text : raw.toList = left ++ (s.text 'T').toList ++ right)
      (hleft : ∀ c ∈ left, Text.isBlank c = true) (hright : ∀ c ∈ right, Text.isBlank c = true) :
      Denotes (.text raw) s

/-- Two values give the same point in time, with offsets of whole minutes. -/
def SameInstant (v w : Value) : Prop :=
  ∃ s t : Stamp, v.Denotes s ∧ w.Denotes t ∧ IsToTheMinute s ∧ IsToTheMinute t ∧
    s.instant = t.instant ∧ s.moment.microsecond = t.moment.microsecond

section Moment

variable {v w : Value} {s : Stamp} (today : Date) (field : String)

theorem Denotes.toMoment_eq (h : v.Denotes s) (minutes : IsToTheMinute s) :
    v.toMoment today field =
      match s.universal? with
      | some m => .ok m
      | none => .error (.filterValue field .notTimestamp) := by
  cases h with
  | stamp s => rfl
  | date d => rfl
  | text left right text hleft hright =>
      rw [toMoment, Timestamp.isAllBlank_text minutes text hleft hright,
        Timestamp.trim_text minutes text hleft hright, Timestamp.readUniversal_text today minutes,
        if_neg Bool.false_ne_true]
      cases s.universal? <;> rfl

theorem Denotes.exists_toMoment (h : v.Denotes s) (minutes : IsToTheMinute s)
    (inside : Moment.InCalendar s.instant) : ∃ m, v.toMoment today field = .ok m ∧
      m.seconds = s.instant ∧ m.microsecond = s.moment.microsecond := by
  rw [h.toMoment_eq today field minutes]
  rcases Stamp.universal?_cases minutes.natAbs_lt with ⟨m, hm, hinstant⟩ | ⟨-, hout⟩
  · rw [hm]
    exact ⟨m, rfl, hinstant⟩
  · exact absurd inside hout

theorem Denotes.toMoment_of_outside (h : v.Denotes s) (minutes : IsToTheMinute s)
    (outside : ¬Moment.InCalendar s.instant) :
    v.toMoment today field = .error (.filterValue field .notTimestamp) := by
  rw [h.toMoment_eq today field minutes,
    (Stamp.universal?_eq_none_iff minutes.natAbs_lt).mpr outside]

theorem Denotes.toMoment_of_naive (h : v.Denotes s) (naive : s.offset = none) :
    v.toMoment today field = .ok s.moment := by
  have minutes : IsToTheMinute s := by
    intro offset hoffset
    rw [naive] at hoffset
    cases hoffset
  rw [h.toMoment_eq today field minutes, Stamp.universal?, naive]

theorem SameInstant.universal?_eq {s t : Stamp} (hs : IsToTheMinute s) (ht : IsToTheMinute t)
    (instant : s.instant = t.instant) (micro : s.moment.microsecond = t.moment.microsecond) :
    s.universal? = t.universal? := by
  apply Option.ext
  intro m
  rw [Stamp.universal?_eq_some_iff hs.natAbs_lt, Stamp.universal?_eq_some_iff ht.natAbs_lt, instant,
    micro]

theorem SameInstant.normalize_eq (h : v.SameInstant w) (today today' : Date) :
    v.normalize today field .moment = w.normalize today' field .moment := by
  obtain ⟨s, t, hv, hw, hs, ht, instant, micro⟩ := h
  unfold normalize
  rw [hv.toMoment_eq today field hs, hw.toMoment_eq today' field ht,
    universal?_eq hs ht instant micro]

theorem normalize_moment_canonical {w : Value} (h : v.normalize today field .moment = .ok w) :
    ∃ m, w = .ofMoment m ∧ ∀ today' field', w.normalize today' field' .moment = .ok w := by
  unfold normalize at h
  cases hm : v.toMoment today field with
  | error e =>
      rw [hm] at h
      cases h
  | ok m =>
      rw [hm] at h
      cases h
      exact ⟨m, rfl, fun _ _ => rfl⟩

end Moment

/-- Members of a list that are the same, or the same point in time. A moment or a date is passed over
where a text is read, so neither stands for the other there. -/
inductive SameMember : Value → Value → Prop
  | same (v : Value) : SameMember v v
  | instant {v w : Value} (h : v.SameInstant w) (scalar : v.isScalar = w.isScalar) : SameMember v w

/-- The same of what stands under a key: a member, or a list of members. -/
inductive SameOperand : Value → Value → Prop
  | member {v w : Value} (h : SameMember v w) : SameOperand v w
  | list {vs ws : List Value} (h : List.Forall₂ SameMember vs ws) : SameOperand (.list vs) (.list ws)

/-- Filter values that differ at most in how points in time are given. -/
inductive SameTerm : Value → Value → Prop
  | instant {v w : Value} (h : v.SameInstant w) : SameTerm v w
  | operand {v w : Value} (h : SameOperand v w) : SameTerm v w
  | object {es fs : Entries}
      (h : List.Forall₂ (fun e f => e.1 = f.1 ∧ SameOperand e.2 f.2) es fs) :
      SameTerm (.object es) (.object fs)

/-- What filters ask of an operand is the same: whether it counts, and as what. -/
structure ReadsAlike (v w : Value) : Prop where
  isNull_eq : v.isNull = w.isNull
  isScalar_eq : v.isScalar = w.isScalar
  normalize_eq : v.isScalar = true → ∀ (today : Date) (field : String),
    v.normalize today field .moment = w.normalize today field .moment

theorem ReadsAlike.refl (v : Value) : ReadsAlike v v :=
  ⟨rfl, rfl, fun _ _ _ => rfl⟩

theorem Denotes.isNull_eq {v : Value} {s : Stamp} (h : v.Denotes s) : v.isNull = false := by
  cases h <;> rfl

theorem SameMember.readsAlike {v w : Value} (h : SameMember v w) : ReadsAlike v w := by
  cases h with
  | same => exact .refl _
  | instant h scalar =>
      refine ⟨?_, scalar, fun _ today field => h.normalize_eq field today today⟩
      obtain ⟨s, t, hv, hw, -⟩ := h
      rw [hv.isNull_eq, hw.isNull_eq]

theorem SameOperand.readsAlike {v w : Value} (h : SameOperand v w) : ReadsAlike v w := by
  cases h with
  | member h => exact h.readsAlike
  | list h => exact ⟨rfl, rfl, nofun⟩

end Value

namespace Entries

open Value (SameOperand)

variable {es fs : Entries} (h : List.Forall₂ (fun e f => e.1 = f.1 ∧ SameOperand e.2 f.2) es fs)
include h

theorem get?_same (key : String) : Option.Rel SameOperand (get? es key) (get? fs key) := by
  induction h with
  | nil => exact .none
  | @cons e f es fs hef _ ih =>
      unfold get? at ih ⊢
      rw [List.find?_cons, List.find?_cons, hef.1]
      cases f.1.isText key with
      | false => exact ih
      | true => exact .some hef.2

theorem has_same (key : String) : has es key = has fs key := by
  have hget := get?_same h key
  rw [has_eq_isSome_get?, has_eq_isSome_get?]
  generalize get? es key = a at hget
  generalize get? fs key = b at hget
  cases hget <;> rfl

theorem getD_get?_same (key : String) :
    SameOperand ((get? es key).getD .null) ((get? fs key).getD .null) := by
  have hget := get?_same h key
  generalize get? es key = a at hget
  generalize get? fs key = b at hget
  cases hget with
  | none => exact .member (.same _)
  | some hsame => exact hsame

theorem values_same : List.Forall₂ SameOperand (values es) (values fs) :=
  List.forall₂_map_left_iff.mpr (List.forall₂_map_right_iff.mpr (h.imp fun _ _ hef => hef.2))

end Entries

namespace Field

open Value (ReadsAlike SameMember SameOperand SameTerm)

variable {f : Field} (kind : f.kind = .moment) (today : Date)
include kind

section Operand

variable {v w : Value} (h : ReadsAlike v w)
include h

theorem checked_congr (scalar : v.isScalar = true) : f.checked today v = f.checked today w := by
  unfold checked
  rw [kind, h.normalize_eq scalar]

theorem bound_congr : f.bound today v = f.bound today w := by
  unfold bound
  rw [← h.isScalar_eq]
  cases scalar : v.isScalar with
  | false => rfl
  | true => simp only [kind, if_true, h.normalize_eq scalar]

end Operand

section Operands

variable {vs ws : List Value} (h : List.Forall₂ ReadsAlike vs ws)
include h

theorem members_congr : f.members today vs = f.members today ws := by
  induction h with
  | nil => rfl
  | @cons v w vs ws hvw _ ih =>
      unfold members
      rw [← hvw.isScalar_eq, ih]
      cases scalar : v.isScalar with
      | false => rfl
      | true => rw [checked_congr kind today hvw scalar]

theorem excluding_congr : f.excluding today vs = f.excluding today ws := by
  induction h with
  | nil => rfl
  | @cons v w vs ws hvw _ ih =>
      unfold excluding
      rw [← hvw.isNull_eq, ← hvw.isScalar_eq, ih]
      cases scalar : v.isScalar with
      | false => rfl
      | true => rw [kind, hvw.normalize_eq scalar]

theorem among_congr : f.among today vs = f.among today ws := by
  unfold among
  rw [members_congr kind today h]

theorem within_congr {lower lower' upper upper' : Value} (hl : ReadsAlike lower lower')
    (hu : ReadsAlike upper upper') :
    f.within today lower upper vs = f.within today lower' upper' ws := by
  unfold within
  rw [bound_congr kind today hl, bound_congr kind today hu, among_congr kind today h]

end Operands

end Field

namespace Term

open Value (ReadsAlike SameMember SameOperand)

/-- What a negation is about. -/
def negatedValues : Value → List Value
  | .list items => items
  | v => [v]

theorem ofValue_of_not {es : Entries} {v : Value} (h : Entries.get? es "not" = some v) :
    ofValue (.object es) = .negated (negatedValues v) := by
  unfold ofValue
  dsimp only
  rw [h]
  cases v <;> rfl

theorem ofValue_of_not_none {es : Entries} (h : Entries.get? es "not" = none) :
    ofValue (.object es) =
      if es.has "from" || es.has "to" then
        .range ((es.get? "from").getD .null) ((es.get? "to").getD .null) es.values
      else .members es.values := by
  unfold ofValue
  dsimp only
  rw [h]

theorem negatedValues_alike {v w : Value} (h : SameOperand v w) :
    List.Forall₂ ReadsAlike (negatedValues v) (negatedValues w) := by
  cases h with
  | list h => exact h.imp fun _ _ hvw => hvw.readsAlike
  | member h =>
      cases h with
      | same => exact List.forall₂_same.mpr fun v _ => .refl v
      | instant h scalar =>
          have hsingle : negatedValues v = [v] ∧ negatedValues w = [w] := by
            obtain ⟨s, t, hv, hw, -⟩ := h
            cases hv <;> cases hw <;> exact ⟨rfl, rfl⟩
          rw [hsingle.1, hsingle.2]
          exact .cons (SameMember.instant h scalar).readsAlike .nil

/-- What two objects ask for, where they differ at most in how points in time are given. -/
inductive Alike : Term → Term → Prop
  | members {vs ws : List Value} (h : List.Forall₂ ReadsAlike vs ws) :
      Alike (.members vs) (.members ws)
  | range {lower lower' upper upper' : Value} {vs ws : List Value} (hl : ReadsAlike lower lower')
      (hu : ReadsAlike upper upper') (h : List.Forall₂ ReadsAlike vs ws) :
      Alike (.range lower upper vs) (.range lower' upper' ws)
  | negated {vs ws : List Value} (h : List.Forall₂ ReadsAlike vs ws) :
      Alike (.negated vs) (.negated ws)

theorem alike_object {es fs : Entries}
    (h : List.Forall₂ (fun e f => e.1 = f.1 ∧ SameOperand e.2 f.2) es fs) :
    Alike (ofValue (.object es)) (ofValue (.object fs)) := by
  have hvalues := (Entries.values_same h).imp fun _ _ hvw => hvw.readsAlike
  have hnot := Entries.get?_same h "not"
  cases hv : Entries.get? es "not" with
  | none =>
      cases hw : Entries.get? fs "not" with
      | some w =>
          rw [hv, hw] at hnot
          cases hnot
      | none =>
          rw [ofValue_of_not_none hv, ofValue_of_not_none hw, ← Entries.has_same h "from",
            ← Entries.has_same h "to"]
          split
          · exact .range (Entries.getD_get?_same h "from").readsAlike
              (Entries.getD_get?_same h "to").readsAlike hvalues
          · exact .members hvalues
  | some v =>
      cases hw : Entries.get? fs "not" with
      | none =>
          rw [hv, hw] at hnot
          cases hnot
      | some w =>
          rw [hv, hw] at hnot
          rw [ofValue_of_not hv, ofValue_of_not hw]
          cases hnot with
          | some hsame => exact .negated (negatedValues_alike hsame)

end Term

namespace Field

open Value (SameTerm)

variable {f : Field} (kind : f.kind = .moment) (today : Date)
include kind

section Single

variable {v w : Value}

theorem predicates_of_denotes {s : Stamp} (h : v.Denotes s) :
    f.predicates today v = do return [.equals f.name (← f.checked today v)] := by
  have hterm : Term.ofValue v = .single v := by
    cases h <;> rfl
  have hwildcard : f.wildcard? v = none := by
    cases h with
    | text => rw [wildcard?, if_neg (by simp [kind])]
    | _ => rfl
  unfold predicates
  rw [hterm]
  dsimp only
  rw [equalTo, hwildcard]
  cases f.checked today v <;> rfl

theorem predicates_of_sameInstant (h : v.SameInstant w) (today' : Date) :
    f.predicates today v = f.predicates today' w := by
  obtain ⟨s, t, hv, hw, -⟩ := id h
  rw [predicates_of_denotes kind today hv, predicates_of_denotes kind today' hw, checked, checked,
    kind, h.normalize_eq f.name today today']

theorem predicates_of_alike {v w : Value} (h : (Term.ofValue v).Alike (Term.ofValue w)) :
    f.predicates today v = f.predicates today w := by
  unfold predicates
  generalize Term.ofValue v = a at h
  generalize Term.ofValue w = b at h
  cases h with
  | members h => simp only [among_congr kind today h]
  | range hl hu h => exact within_congr kind today h hl hu
  | negated h => exact excluding_congr kind today h

/-- Filter values that differ at most in how points in time are given compile alike. -/
theorem predicates_of_sameTerm (h : SameTerm v w) : f.predicates today v = f.predicates today w := by
  cases h with
  | instant h => exact predicates_of_sameInstant kind today h today
  | object h => exact predicates_of_alike kind today (Term.alike_object h)
  | operand h =>
      cases h with
      | list h =>
          exact predicates_of_alike kind today (.members (h.imp fun _ _ hvw => hvw.readsAlike))
      | member h =>
          cases h with
          | same => rfl
          | instant h _ => exact predicates_of_sameInstant kind today h today

end Single

end Field

namespace Filter

open Value (SameInstant SameTerm)

/-- A point in time, however it is given, comes to the moment of universal time at its instant, or
is refused where the calendar has none. -/
theorem points_in_time_are_canonical {v : Value} {s : Stamp} (h : v.Denotes s)
    (minutes : IsToTheMinute s) (today : Date) (field : String) :
    (Moment.InCalendar s.instant → ∃ m, v.toMoment today field = .ok m ∧
      m.seconds = s.instant ∧ m.microsecond = s.moment.microsecond) ∧
    (¬Moment.InCalendar s.instant →
      v.toMoment today field = .error (.filterValue field .notTimestamp)) ∧
    (s.offset = none → v.toMoment today field = .ok s.moment) ∧
    (∀ {raw canonical : Value}, raw.normalize today field .moment = .ok canonical →
      ∃ m, canonical = .ofMoment m ∧
        ∀ today' field', canonical.normalize today' field' .moment = .ok canonical) ∧
    ∀ {registry : Registry} {f : Field}, f ∈ registry.fields → f.kind = .moment →
      (∀ {w : Value}, v.SameInstant w → ∀ today' : Date,
        compile today registry (.object [(.text f.name, v)]) =
          compile today' registry (.object [(.text f.name, w)])) ∧
      ∀ {raw raw' : Value}, raw.SameTerm raw' →
        compile today registry (.object [(.text f.name, raw)]) =
          compile today registry (.object [(.text f.name, raw')]) := by
  refine ⟨h.exists_toMoment today field minutes, h.toMoment_of_outside today field minutes,
    h.toMoment_of_naive today field, Value.normalize_moment_canonical today field, ?_⟩
  intro registry f hf kind
  constructor
  · intro w hw today'
    rw [compile_singleton today hf, compile_singleton today' hf]
    exact Field.predicates_of_sameInstant kind today hw today'
  · intro raw raw' hraw
    rw [compile_singleton today hf, compile_singleton today hf]
    exact Field.predicates_of_sameTerm kind today hraw

section Articles

/-- Half past one on the first of March, two hours ahead of universal time. -/
def marchMorning : Stamp where
  moment := {
    date := { year := 2024, month := 3, day := 1 }
    hour := 1
    minute := 30
    microsecond := 250000 }
  offset := some 7200

def leapEvening : Moment where
  date := { year := 2024, month := 2, day := 29 }
  hour := 23
  minute := 30
  microsecond := 250000

/-- The first moment of the calendar, five hours ahead of universal time. -/
def beforeCalendar : Stamp where
  moment := .earliest
  offset := some 18000

def datedRegistry : Registry where
  fields := [{ name := "id" }, { name := "created_on" }]

/-- The day before is a leap day, and before the first year there is none. -/
theorem leap_day_is_canonical :
    (Value.text " 2024-03-01T01:30:00.250000+02:00\n").toMoment default "created_on" =
        .ok leapEvening ∧
      (Value.text "0001-01-01T00:00:00+05:00").toMoment default "created_on" =
        .error (.filterValue "created_on" .notTimestamp) ∧
      compile default datedRegistry (.object [(.text "created_on", .object
          [(.text "from", .text " 2024-03-01T01:30:00.250000+02:00\n")])]) =
        compile default datedRegistry (.object [(.text "created_on", .object
          [(.text "from", .text "2024-02-29T23:30:00.250000")])]) := by
  have hmorning : (Value.text " 2024-03-01T01:30:00.250000+02:00\n").Denotes marchMorning :=
    .text [' '] ['\n'] (by decide +kernel) (forall_mem_of_all (by decide))
      (forall_mem_of_all (by decide))
  have hevening : (Value.text "2024-02-29T23:30:00.250000").Denotes { moment := leapEvening } :=
    .text [] [] (by decide +kernel) nofun nofun
  have hbefore : (Value.text "0001-01-01T00:00:00+05:00").Denotes beforeCalendar :=
    .text [] [] (by decide +kernel) nofun nofun
  have morning_minutes : IsToTheMinute marchMorning := by
    rintro offset ⟨⟩
    decide
  have before_minutes : IsToTheMinute beforeCalendar := by
    rintro offset ⟨⟩
    decide
  obtain ⟨hinside, -, -, -, hcompile⟩ :=
    points_in_time_are_canonical hmorning morning_minutes default "created_on"
  obtain ⟨m, hm, hseconds, hmicro⟩ := hinside (by decide)
  have hinstant : marchMorning.instant = leapEvening.seconds := by decide
  have hleap : m = leapEvening := Moment.eq_iff_seconds.mpr ⟨hseconds.trans hinstant, hmicro⟩
  refine ⟨hleap ▸ hm, ?_, ?_⟩
  · exact (points_in_time_are_canonical hbefore before_minutes default "created_on").2.1 (by decide)
  · have hsame : (Value.text " 2024-03-01T01:30:00.250000+02:00\n").SameInstant
        (.text "2024-02-29T23:30:00.250000") :=
      ⟨_, _, hmorning, hevening, morning_minutes, nofun, by decide, rfl⟩
    have hfield : ({ name := "created_on" } : Field) ∈ datedRegistry.fields := .tail _ (.head _)
    refine (hcompile hfield rfl).2 (.object (.cons ⟨rfl, ?_⟩ .nil))
    exact .member (.instant hsame rfl)

end Articles

end Filter

end Catalogue

import Catalogue.Proofs.Failing
import Catalogue.Timestamp.Reader

/-!
When a timestamp lies beyond the precision of fractions. Whatever else is wrong with a text makes it
unreadable; the precision is exceeded only by a number that the text writes with too many digits
before its point.
-/

namespace Catalogue.Timestamp

open Calendar (Date)

/-- Does the token write a number whose whole part is beyond the precision of fractions? -/
def IsLong (t : Token) : Prop :=
  ∃ q, Quantity.ofToken? t = some q ∧ Nat.pow 10 Quantity.precision ≤ q.whole

/-- Where a step fails for the precision, one of the tokens is to blame. -/
abbrev Blames {α : Type} (ts : List Token) (x : Except Problem α) : Prop :=
  FailsAs (fun problem => problem = .imprecise → ∃ t ∈ ts, IsLong t) x

section Steps

variable {ts : List Token}

theorem blames_unreadable {α : Type} : Blames ts (.error .unreadable : Except Problem α) :=
  .error nofun

theorem blames_require {α : Type} (o : Option α) : Blames ts (require o) := by
  cases o with
  | none => exact blames_unreadable
  | some a => exact .ok a

theorem eq_some_of_require {α : Type} {o : Option α} {a : α} (h : require o = .ok a) :
    o = some a := by
  cases o with
  | none => cases h
  | some b =>
      cases h
      rfl

theorem blames_natural (t : Token) : Blames ts (natural t) :=
  blames_require _

theorem blames_fraction {t : Token} {q : Quantity} (ht : t ∈ ts)
    (hq : Quantity.ofToken? t = some q) : Blames ts q.fraction := by
  unfold Quantity.fraction
  split
  · rename_i hlong
    exact .error fun _ => ⟨t, ht, q, hq, hlong⟩
  · exact .ok _

theorem blames_sixtieths? {t : Token} {q : Quantity} (ht : t ∈ ts)
    (hq : Quantity.ofToken? t = some q) : Blames ts q.sixtieths? :=
  .bind (blames_fraction ht hq) fun _ _ => .ite (.ok _) (.ok _)

namespace DayParts

variable (p : DayParts)

theorem blames_pushMonth (n : Nat) : Blames ts (p.pushMonth n) :=
  .ite blames_unreadable (.ok _)

theorem blames_pushYear (n : Nat) : Blames ts (p.pushYear n) :=
  .ite blames_unreadable (.ok _)

theorem blames_pushToken (t : Token) : Blames ts (p.pushToken t) :=
  .bind (blames_natural t) fun n _ => .ite (blames_pushYear p n) (.ok _)

theorem blames_pushQuantity (q : Quantity) : Blames ts (p.pushQuantity q) :=
  .ite (.ok _) (blames_pushYear p _)

theorem blames_pushNameOrToken (t : Token) : Blames ts (pushNameOrToken p t) := by
  unfold pushNameOrToken
  split
  · exact blames_pushMonth p _
  · exact blames_pushToken p t

theorem blames_pushSecondMember (t : Token) : Blames ts (pushSecondMember p t) :=
  .ite (blames_pushToken p t) (.bind (blames_require _) fun m _ => blames_pushMonth p m)

theorem blames_resolve : Blames ts p.resolve := by
  refine .ite (.ok _) ?_
  split
  · exact .ok _
  · exact .ok _
  · exact .ok _
  · exact .ok _
  · exact .ok _
  · exact .ok _
  · exact .ok _
  · exact .ok _
  · exact blames_unreadable

end DayParts

theorem blames_microseconds (t : Token) : Blames ts (microseconds t) :=
  blames_natural _

theorem blames_secondsOf (t : Token) : Blames ts (secondsOf t) := by
  unfold secondsOf
  split
  · exact .bind (blames_natural t) fun _ _ => .ok _
  · exact .bind (blames_natural _) fun _ _ =>
      .ite blames_unreadable (.bind (blames_microseconds _) fun _ _ => .ok _)

namespace Reading

variable (r : Reading)

theorem blames_withSeconds (t : Token) : Blames ts (r.withSeconds t) :=
  .bind (blames_secondsOf t) fun _ _ => .ok _

theorem blames_withMinutes {t : Token} {q : Quantity} (ht : t ∈ ts)
    (hq : Quantity.ofToken? t = some q) : Blames ts (r.withMinutes q) :=
  .bind (blames_sixtieths? ht hq) fun _ _ => .ok _

theorem blames_withHours {t : Token} {q : Quantity} (ht : t ∈ ts)
    (hq : Quantity.ofToken? t = some q) : Blames ts (r.withHours q) :=
  .bind (blames_sixtieths? ht hq) fun _ _ => .ok _

theorem blames_withUnit (unit : Nat) {t : Token} {q : Quantity} (ht : t ∈ ts)
    (hq : Quantity.ofToken? t = some q) : Blames ts (r.withUnit unit t q) := by
  unfold withUnit
  split
  · exact blames_withHours r ht hq
  · exact blames_withMinutes r ht hq
  · exact blames_withSeconds r t
  · exact .ok r

end Reading

variable (r : Reading)

theorem blames_sixDigits (t : Token) : Blames ts (sixDigits t r) := by
  refine .ite ?_ ?_
  · refine .bind (DayParts.blames_pushToken _ _) fun _ _ => ?_
    refine .bind (DayParts.blames_pushToken _ _) fun _ _ => ?_
    exact .bind (DayParts.blames_pushToken _ _) fun _ _ => .ok _
  · refine .bind (blames_natural _) fun _ _ => ?_
    exact .bind (blames_natural _) fun _ _ => Reading.blames_withSeconds _ _

theorem blames_eightDigits (t : Token) : Blames ts (eightDigits t r) := by
  refine .bind (blames_natural _) fun _ _ => ?_
  refine .bind (DayParts.blames_pushYear _ _) fun _ _ => ?_
  refine .bind (DayParts.blames_pushToken _ _) fun _ _ => ?_
  refine .bind (DayParts.blames_pushToken _ _) fun _ _ => ?_
  refine .ite (.ok _) ?_
  refine .bind (blames_natural _) fun _ _ => ?_
  refine .bind (blames_natural _) fun _ _ => ?_
  exact .ite (.ok _) (.bind (blames_natural _) fun _ _ => .ok _)

theorem blames_separated (t sep : Token) (after : List Token) :
    Blames ts (separated t sep after r) := by
  refine .bind (DayParts.blames_pushToken _ t) fun parts _ => ?_
  cases after with
  | nil => exact .ok _
  | cons second rest =>
      refine .ite (.ok _) (.bind (DayParts.blames_pushSecondMember _ _) fun parts _ => ?_)
      cases rest with
      | nil => exact .ok _
      | cons next rest =>
          refine .ite (.bind (blames_require _) fun last _ => ?_) (.ok _)
          exact .bind (DayParts.blames_pushNameOrToken _ _) fun _ _ => .ok _

theorem blames_clock (q : Quantity) {minutes : Token} (h : minutes ∈ ts) (after : List Token) :
    Blames ts (clock q minutes after r) := by
  refine .bind (blames_require _) fun m hm => ?_
  refine .bind (Reading.blames_withMinutes _ h (eq_some_of_require hm)) fun r _ => ?_
  split
  · exact .ite (.bind (Reading.blames_withSeconds _ _) fun _ _ => .ok _) (.ok _)
  · exact .ok _

theorem blames_plainNumber (q : Quantity) (after : List Token) :
    Blames ts (plainNumber q after r) := by
  have hpart (used : Nat) : Blames ts (do
      let parts ← r.parts.pushQuantity q
      return ({ r with parts }, used) : Step) :=
    .bind (DayParts.blames_pushQuantity _ q) fun _ _ => .ok _
  cases after with
  | nil => exact hpart 1
  | cons next rest =>
      refine .ite ?_ ?_
      · split
        · exact .ok _
        · exact hpart 1
      · split
        · exact .ite (.ok _) (.ite (hpart 0) blames_unreadable)
        · exact .ite (hpart 0) blames_unreadable

theorem blames_number (before : List Token) {t : Token} {q : Quantity} {after : List Token}
    (ht : t ∈ ts) (hq : Quantity.ofToken? t = some q) (hafter : ∀ u ∈ after, u ∈ ts) :
    Blames ts (number before t q after r) := by
  unfold number
  refine .ite ?_ (.ite ?_ (.ite ?_ ?_))
  · refine .bind (blames_natural _) fun _ _ => ?_
    exact .ite (.bind (blames_natural _) fun _ _ => .ok _) (.ok _)
  · exact .bind (blames_sixDigits r t) fun _ _ => .ok _
  · exact .bind (blames_eightDigits r t) fun _ _ => .ok _
  · split
    · exact .bind (Reading.blames_withUnit r _ ht hq) fun _ _ => .ok _
    · cases after with
      | nil => exact blames_plainNumber r q _
      | cons next after =>
          cases after with
          | nil => exact .ite (blames_separated r t _ _) (blames_plainNumber r q _)
          | cons second rest =>
              refine .ite ?_ (.ite (blames_separated r t _ _) (blames_plainNumber r q _))
              exact blames_clock r q (hafter second (.tail _ (.head _))) rest

theorem blames_monthName (thisYear month : Nat) (after : List Token) :
    Blames ts (monthName thisYear month after r) := by
  refine .bind (DayParts.blames_pushMonth _ _) fun parts _ => ?_
  cases after with
  | nil => exact .ok _
  | cons sep rest =>
      refine .ite (.bind (blames_require _) fun next _ => ?_) ?_
      · refine .bind (DayParts.blames_pushToken _ _) fun parts _ => ?_
        split
        · exact .ok _
        · refine .ite (.bind (blames_require _) fun last _ => ?_) (.ok _)
          exact .bind (DayParts.blames_pushToken _ _) fun _ _ => .ok _
      · split
        · refine .ite (.ite (.bind (blames_natural _) fun year _ => ?_) (.ok _)) (.ok _)
          exact .bind (DayParts.blames_pushYear _ _) fun _ _ => .ok _
        · exact .ok _

theorem blames_halfMark (afternoon : Bool) : Blames ts (halfMark afternoon r) := by
  unfold halfMark
  split
  · exact .ite (.ok _) blames_unreadable
  · exact blames_unreadable

theorem blames_offsetParts (after : List Token) : Blames ts (offsetParts after) := by
  cases after with
  | nil => exact blames_unreadable
  | cons t after =>
      refine .ite ?_ (.ite ?_ (.ite ?_ blames_unreadable))
      · exact .bind (blames_natural _) fun _ _ => .bind (blames_natural _) fun _ _ => .ok _
      · refine .bind (blames_natural _) fun _ _ => .bind (blames_require _) fun _ _ => ?_
        exact .bind (blames_natural _) fun _ _ => .ok _
      · exact .bind (blames_natural _) fun _ _ => .ok _

theorem blames_offset (sign : Token) (after : List Token) : Blames ts (offset sign after r) := by
  refine .bind (blames_offsetParts after) fun parts _ => ?_
  dsimp only
  split
  · exact .ite (.ok _) (.ok _)
  · exact .ok _

/-- One step fails for the precision only if the token or one behind it is to blame. -/
theorem blames_step (thisYear : Nat) (before : List Token) {t : Token} {after : List Token}
    (ht : t ∈ ts) (hafter : ∀ u ∈ after, u ∈ ts) :
    Blames ts (step thisYear before t after r) := by
  unfold step
  refine .ite blames_unreadable ?_
  split
  · rename_i q hq
    exact blames_number r before ht hq hafter
  · split
    · exact .ok _
    · split
      · exact blames_monthName r _ _ _
      · split
        · exact blames_halfMark r _
        · refine .ite (.ok _) (.ite (blames_offset r _ _) (.ite (.ok _) blames_unreadable))

end Steps

/-- By induction on the fuel: the tokens that are left are among those there were. -/
theorem blames_readTokens (thisYear : Nat) {ts : List Token} (fuel : Nat) (before : List Token)
    {after : List Token} (hafter : ∀ t ∈ after, t ∈ ts) (r : Reading) :
    Blames ts (readTokens thisYear fuel before after r) := by
  induction fuel generalizing before after r with
  | zero => exact .ok r
  | succ fuel ih =>
      cases after with
      | nil => exact .ok r
      | cons t after =>
          obtain ⟨ht, hafter⟩ := List.forall_mem_cons.mp hafter
          refine .bind (blames_step r thisYear before ht hafter) fun read _ => ?_
          exact ih _ (fun u hu => hafter u (List.mem_of_mem_drop hu)) _

theorem blames_stamp {ts : List Token} (today : Date) (r : Reading) : Blames ts (r.stamp today) := by
  have hdate (day : DayFields) (weekday : Option Nat) : Blames ts (dateOf today day weekday) := by
    unfold dateOf
    dsimp only
    split
    · exact blames_require _
    · refine .bind (blames_require _) fun date _ => ?_
      split
      · exact blames_require _
      · exact .ok _
  refine .bind (DayParts.blames_resolve _) fun day _ => .ite blames_unreadable ?_
  exact .bind (hdate _ _) fun _ _ => .bind (blames_require _) fun _ _ => .ok _

/-- A timestamp lies beyond the precision only for one of its numbers, which has too many digits
before its point. -/
theorem exists_long_of_imprecise {today : Date} {s : String}
    (h : readUniversal today s = .error .imprecise) : ∃ t ∈ tokens s.toList, IsLong t := by
  have hread : Blames (tokens s.toList) (read today s) :=
    .bind (blames_readTokens _ _ _ (fun _ => id) _) fun r _ => blames_stamp today r
  have huniversal : Blames (tokens s.toList) (readUniversal today s) :=
    .bind hread fun _ _ => .ite blames_unreadable (blames_require _)
  exact huniversal _ h rfl

end Catalogue.Timestamp

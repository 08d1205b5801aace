import Catalogue.Number.Binary64
import Catalogue.Text.Numeral

/-!
The shortest decimal text that reads back as a given number, and the text with a fixed count of
significant digits.
-/

namespace Catalogue.Number

open Binary64

/-- A positive decimal: `digits * 10 ^ exponent`. -/
structure Decimal where
  digits : Nat
  exponent : Int
  deriving DecidableEq, Repr

/-- `mantissa * 2 ^ exponent` as a quotient. -/
def ratio (mantissa : Nat) (exponent : Int) : Nat × Nat :=
  if exponent < 0 then (mantissa, Nat.pow 2 exponent.natAbs)
  else (mantissa * Nat.pow 2 exponent.natAbs, 1)

/-- `num / den` measured in units of `10 ^ exponent`. -/
def inUnits (num den : Nat) (exponent : Int) : Nat × Nat :=
  if exponent < 0 then (num * Nat.pow 10 exponent.natAbs, den)
  else (num, den * Nat.pow 10 exponent.natAbs)

/-- The decimal exponent of the leading digit of `num / den`: climbs from an estimate that is
never too high. -/
def leadingExponent (num den : Nat) : Int :=
  let low : Int := ((num.log2 : Int) - den.log2 - 1) * 30103 / 100000 - 1
  let rec climb : Nat → Int → Int
    | 0, e => e
    | fuel + 1, e =>
      let (n, d) := inUnits num den (e + 1)
      if d ≤ n then climb fuel (e + 1) else e
  climb 8 low

/-- The decimals with unit `10 ^ exponent` next to `num / den`, the nearer one first. -/
def neighbours (num den : Nat) (exponent : Int) : List Decimal :=
  let (n, d) := inUnits num den exponent
  let below := n / d
  let above := below + 1
  if 2 * (n % d) < d ∨ (2 * (n % d) = d ∧ below % 2 = 0) then
    [⟨below, exponent⟩, ⟨above, exponent⟩]
  else [⟨above, exponent⟩, ⟨below, exponent⟩]

/-- The decimal with the fewest digits that reads back as the number, and of these the nearest. -/
def shortest (mantissa : Nat) (exponent : Int) : Decimal :=
  let (num, den) := ratio mantissa exponent
  let lead := leadingExponent num den
  let readsBack := fun d : Decimal =>
    decide (ofDecimal false d.digits d.exponent = .finite false mantissa exponent)
  let hit := (List.range 17).findSome? fun (k : Nat) =>
    (neighbours num den (lead - (k : Int))).find? readsBack
  hit.getD ⟨mantissa, exponent⟩

/-- The decimal with `count` significant digits nearest to the number. -/
def rounded (count mantissa : Nat) (exponent : Int) : Decimal :=
  let (num, den) := ratio mantissa exponent
  let unit := leadingExponent num den - count + 1
  let (n, d) := inUnits num den unit
  ⟨roundHalfEven n d, unit⟩

/-- The digits without the zeros at the end, and the exponent of the first digit. -/
def Decimal.significant (x : Decimal) : List Char × Int :=
  let all := Text.decimal x.digits
  let kept := (all.reverse.dropWhile (· == '0')).reverse
  (kept, x.exponent + all.length - 1)

/-- Lays out significant digits whose first stands at `10 ^ lead`. Positional notation is used for
leads from -4 below `limit`; beyond that an exponent of at least two digits is written. With
`pointed` a mantissa of one digit is followed by a point and a zero also before an exponent. -/
def layout (limit : Int) (pointed : Bool) (digits : List Char) (lead : Int) : List Char :=
  if lead < -4 ∨ limit ≤ lead then
    let mantissa := match digits with
      | [] => ['0']
      | [d] => if pointed then [d, '.', '0'] else [d]
      | d :: rest => d :: '.' :: rest
    mantissa ++ 'e' :: (if lead < 0 then '-' else '+') :: Text.padded 2 lead.natAbs
  else if lead < 0 then
    '0' :: '.' :: List.replicate (lead.natAbs - 1) '0' ++ digits
  else
    let whole := lead.natAbs + 1
    let padded := digits ++ List.replicate (whole - digits.length) '0'
    let fraction := padded.drop whole
    padded.take whole ++ '.' :: (if fraction.isEmpty then ['0'] else fraction)

namespace Binary64

/-- The text of a number: the shortest digits that read back, positional below `10 ^ 16`. -/
def text : Binary64 → String
  | .nan => "nan"
  | .infinite s => if s then "-inf" else "inf"
  | .finite s m e =>
    let body :=
      if m = 0 then ['0', '.', '0']
      else
        let (digits, lead) := (shortest m e).significant
        layout 16 false digits lead
    .ofList (if s then '-' :: body else body)

/-- The text of a number with fifteen significant digits, as a text column keeps it. -/
def columnText : Binary64 → String
  | .nan => "NaN"
  | .infinite s => if s then "-Inf" else "Inf"
  | .finite s m e =>
    if m = 0 then "0.0"
    else
      let (digits, lead) := (rounded 15 m e).significant
      let body := layout 15 true digits lead
      .ofList (if s then '-' :: body else body)

end Binary64

end Catalogue.Number

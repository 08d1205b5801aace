import Catalogue.Text.Blank
import Catalogue.Text.Digit
import Catalogue.Text.Letter

/-!
The tokens of a free-form timestamp: runs of letters, runs of digits, blanks and single marks. A
run may continue over points (and a number of two or more digits over a comma); it is taken apart
again unless it turns out to be a plain decimal number.
-/

namespace Catalogue.Timestamp

abbrev Token := List Char

/-- What a run of letters, digits and points has been so far. -/
inductive RunShape where
  | word
  | number
  | dottedWord
  | dottedNumber
  deriving DecidableEq

/-- A finished run. `lettered` says that a character was met while the run was a word. -/
structure Run where
  shape : RunShape
  lettered : Bool
  chars : List Char

/-- Extends a run (given backwards) as far as it goes. -/
def extend (shape : RunShape) (lettered : Bool) (sofar : List Char) :
    List Char → Run × List Char
  | [] => (⟨shape, lettered, sofar.reverse⟩, [])
  | c :: rest =>
    let afterPoint := sofar.head? == some '.'
    match shape with
    | .word =>
      if Text.isLetter c then extend .word true (c :: sofar) rest
      else if c = '.' then extend .dottedWord true (c :: sofar) rest
      else (⟨.word, true, sofar.reverse⟩, c :: rest)
    | .number =>
      if Text.isDigit c then extend .number lettered (c :: sofar) rest
      else if c = '.' ∨ (c = ',' ∧ 2 ≤ sofar.length) then
        extend .dottedNumber lettered (c :: sofar) rest
      else (⟨.number, lettered, sofar.reverse⟩, c :: rest)
    | .dottedWord =>
      if c = '.' || Text.isLetter c then extend .dottedWord true (c :: sofar) rest
      else if Text.isDigit c && afterPoint then extend .dottedNumber true (c :: sofar) rest
      else (⟨.dottedWord, true, sofar.reverse⟩, c :: rest)
    | .dottedNumber =>
      if c = '.' || Text.isDigit c then extend .dottedNumber lettered (c :: sofar) rest
      else if Text.isLetter c && afterPoint then extend .dottedWord lettered (c :: sofar) rest
      else (⟨.dottedNumber, lettered, sofar.reverse⟩, c :: rest)

def isPoint (c : Char) : Bool :=
  c == '.' || c == ','

/-- The pieces between points and the points themselves. -/
def pieces (s : List Char) : List Token :=
  s.splitBy fun a b => !isPoint a && !isPoint b

def Run.tokens (run : Run) : List Token :=
  let dotted := run.shape = .dottedWord ∨ run.shape = .dottedNumber
  let points := run.chars.count '.'
  let endsInPoint := (run.chars.getLast?.map isPoint).getD false
  if dotted ∧ (run.lettered ∨ 1 < points ∨ endsInPoint) then pieces run.chars
  else if run.shape = .dottedNumber ∧ points = 0 then
    [run.chars.map fun c => if c = ',' then '.' else c]
  else [run.chars]

/-- Splits characters into tokens, spending one unit of fuel for each run or mark. -/
def split : (fuel : Nat) → List Char → List Token
  | 0, _ | _ + 1, [] => []
  | fuel + 1, c :: rest =>
    if Text.isLetter c then
      let (run, rest) := extend .word false [c] rest
      run.tokens ++ split fuel rest
    else if Text.isDigit c then
      let (run, rest) := extend .number false [c] rest
      run.tokens ++ split fuel rest
    else (if Text.isBlank c then [' '] else [c]) :: split fuel rest

def tokens (s : List Char) : List Token :=
  let s := s.filter (· != '\x00')
  split s.length s

end Catalogue.Timestamp

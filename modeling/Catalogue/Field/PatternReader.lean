import Catalogue.Field.Pattern
import Catalogue.Text.Numeral

/-!
The written form of regular expressions: characters, escapes, sets in brackets, groups, choices and
repetitions. Reading spends a unit of fuel on each character and each group.
-/

namespace Catalogue

def CharClass.ofEscape : Char → CharClass
  | 'w' => .wordChar
  | 'W' => .complement .wordChar
  | 'd' => .decimal
  | 'D' => .complement .decimal
  | 's' => .blank
  | 'S' => .complement .blank
  | 'n' => .single '\n'
  | 't' => .single '\t'
  | 'r' => .single '\r'
  | c => .single c

/-- Reads the members of a set up to its closing bracket. -/
def CharClass.members : List Char → Option (List CharClass × List Char)
  | [] => none
  | ']' :: rest => some ([], rest)
  | '\\' :: c :: rest => (members rest).map fun (sets, rest) => (.ofEscape c :: sets, rest)
  | c :: '-' :: d :: rest =>
    if d = ']' then some ([.single c, .single '-'], rest)
    else (members rest).map fun (sets, rest) => (.range c d :: sets, rest)
  | c :: rest => (members rest).map fun (sets, rest) => (.single c :: sets, rest)

/-- Reads a set after its opening bracket. -/
def CharClass.read? : List Char → Option (CharClass × List Char)
  | '^' :: rest => (members rest).map fun (sets, rest) => (.complement (.union sets), rest)
  | rest => (members rest).map fun (sets, rest) => (.union sets, rest)

namespace Pattern

def count? (s : List Char) : Option Nat × List Char :=
  let (digits, rest) := s.span Char.isDigit
  (Text.natural? digits, rest)

/-- Reads the bounds of a repetition after its opening brace. -/
def bounds? (s : List Char) : Option (Nat × Option Nat × List Char) :=
  match count? s with
  | (some n, '\x7d' :: rest) => some (n, some n, rest)
  | (least, ',' :: rest) =>
    match count? rest with
    | (most, '\x7d' :: rest) => some (least.getD 0, most, rest)
    | _ => none
  | _ => none

/-- Applies the repetition that follows an expression, if one does. -/
def withRepetition (p : Pattern) : List Char → Pattern × List Char
  | '*' :: rest => (.many p, rest)
  | '+' :: rest => (join p (.many p), rest)
  | '?' :: rest => (choose .empty p, rest)
  | '\x7b' :: rest =>
    match bounds? rest with
    | some (least, most, after) => (p.repeated least most, after)
    | none => (p, '\x7b' :: rest)
  | rest => (p, rest)

mutual

def choices? : (fuel : Nat) → List Char → Option (Pattern × List Char)
  | 0, _ => none
  | fuel + 1, s => do
    let (p, rest) ← sequence? fuel s
    match rest with
    | '|' :: rest =>
      let (q, rest) ← choices? fuel rest
      return (.either p q, rest)
    | _ => return (p, rest)

def sequence? : (fuel : Nat) → List Char → Option (Pattern × List Char)
  | 0, _ => none
  | fuel + 1, s =>
    let continued := fun (p : Pattern) (rest : List Char) => do
      let (p, rest) := p.withRepetition rest
      let (q, rest) ← sequence? fuel rest
      return (join p q, rest)
    match s with
    | [] => some (.empty, [])
    | ')' :: _ | '|' :: _ => some (.empty, s)
    | '(' :: rest => do
      let (p, rest) ← choices? fuel rest
      match rest with
      | ')' :: rest => continued p rest
      | _ => none
    | '[' :: rest => do
      let (set, rest) ← CharClass.read? rest
      continued (.one set) rest
    | '.' :: rest => continued (.one .notNewline) rest
    | '\\' :: c :: rest => continued (.one (.ofEscape c)) rest
    | c :: rest => continued (.one (.single c)) rest

end

def ofText? (s : String) : Option Pattern :=
  match choices? (2 * s.length + 2) s.toList with
  | some (p, []) => some p
  | _ => none

end Pattern

end Catalogue

import Catalogue.Number.Notation
import Catalogue.Value.Basic

/-!
A reader of JSON text. It accepts the words for infinity and for no number, keeps the order of
object entries, and lets a later entry replace an earlier one with the same key. A numeral of more
than 4300 digits is refused. Each list and each object in another takes up some room. Reading spends
one unit of fuel for each value, item and entry, each of which takes at least one character, so the
length of the text is fuel enough.
-/

namespace Catalogue.Json

open Number (Binary64)

def isSpace (c : Char) : Bool :=
  c == ' ' || c == '\t' || c == '\n' || c == '\r'

def skipSpace (s : List Char) : List Char :=
  s.dropWhile isSpace

def hexValue? (c : Char) : Option Nat :=
  if c.isDigit then some (c.toNat - '0'.toNat)
  else if 'a' ≤ c ∧ c ≤ 'f' then some (c.toNat - 'a'.toNat + 10)
  else if 'A' ≤ c ∧ c ≤ 'F' then some (c.toNat - 'A'.toNat + 10)
  else none

/-- The unit that four hexadecimal digits write. -/
def hexUnit? : List Char → Option (Nat × List Char)
  | a :: b :: c :: d :: rest => do
    let a ← hexValue? a
    let b ← hexValue? b
    let c ← hexValue? c
    let d ← hexValue? d
    return (((a * 16 + b) * 16 + c) * 16 + d, rest)
  | _ => none

def isHighSurrogate (n : Nat) : Bool := 0xd800 ≤ n && n ≤ 0xdbff

def isLowSurrogate (n : Nat) : Bool := 0xdc00 ≤ n && n ≤ 0xdfff

/-- What stands for a surrogate without its partner, which no character of a text can be. Texts that
hold one are outside the model: they cannot be encoded, and a driver that binds one fails. -/
def replacement : Char := '\ufffd'

def charOf (n : Nat) : Char :=
  if 0xd800 ≤ n ∧ n ≤ 0xdfff then replacement else Char.ofNat n

/-- The character after an escaped `u`: two units may form one character. -/
def unicodeEscape? (s : List Char) : Option (Char × List Char) := do
  let (high, rest) ← hexUnit? s
  match rest with
  | '\\' :: 'u' :: tail =>
    match hexUnit? tail with
    | some (low, after) =>
      if isHighSurrogate high && isLowSurrogate low then
        return (Char.ofNat (0x10000 + (high - 0xd800) * 0x400 + (low - 0xdc00)), after)
      else return (charOf high, rest)
    | none => return (charOf high, rest)
  | _ => return (charOf high, rest)

def simpleEscape? : Char → Option Char
  | '"' => some '"'
  | '\\' => some '\\'
  | '/' => some '/'
  | 'b' => some '\x08'
  | 'f' => some '\x0c'
  | 'n' => some '\n'
  | 'r' => some '\r'
  | 't' => some '\t'
  | _ => none

/-- Reads the rest of a string after its opening quote. -/
def stringBody : (fuel : Nat) → List Char → Option (List Char × List Char)
  | 0, _ => none
  | _ + 1, [] => none
  | _ + 1, '"' :: rest => some ([], rest)
  | fuel + 1, '\\' :: 'u' :: rest => do
    let (c, rest) ← unicodeEscape? rest
    let (cs, rest) ← stringBody fuel rest
    return (c :: cs, rest)
  | fuel + 1, '\\' :: e :: rest => do
    let c ← simpleEscape? e
    let (cs, rest) ← stringBody fuel rest
    return (c :: cs, rest)
  | fuel + 1, c :: rest =>
    if c.toNat < 0x20 ∨ c = '\\' then none
    else do
      let (cs, rest) ← stringBody fuel rest
      return (c :: cs, rest)

/-- Reads a fraction: a point with at least one digit; anything else is left. -/
def fraction (s : List Char) : List Char × List Char :=
  match s with
  | '.' :: d :: rest =>
    if d.isDigit then
      let (digits, rest) := rest.span Char.isDigit
      (d :: digits, rest)
    else ([], s)
  | _ => ([], s)

/-- Reads an exponent: a mark, an optional sign and at least one digit; anything else is left. -/
def exponent (s : List Char) : Option Int × List Char :=
  match s with
  | mark :: rest =>
    if mark = 'e' ∨ mark = 'E' then
      let (negative, tail) := match rest with
        | '-' :: tail => (true, tail)
        | '+' :: tail => (false, tail)
        | tail => (false, tail)
      let (digits, after) := tail.span Char.isDigit
      if digits.isEmpty then (none, s)
      else
        let n : Int := Number.ofDigitChars digits
        (some (if negative then -n else n), after)
    else (none, s)
  | [] => (none, s)

/-- Reads the digits before a point: a zero, or digits that begin with another. -/
def whole? (s : List Char) : Option (List Char × List Char) :=
  match s with
  | '0' :: rest => some (['0'], rest)
  | _ =>
    let (digits, rest) := s.span Char.isDigit
    if digits.isEmpty then none else some (digits, rest)

def number? (s : List Char) : Option (Value × List Char) := do
  let (negative, body) := match s with
    | '-' :: rest => (true, rest)
    | _ => (false, s)
  let (digits, rest) ← whole? body
  let (decimals, rest) := fraction rest
  let (power, rest) := exponent rest
  if decimals.isEmpty && power.isNone then
    if digits.length > Text.maxDigits then none
    else
      let n : Int := Number.ofDigitChars digits
      return (.int (if negative then -n else n), rest)
  else
    let x := Binary64.ofDecimal negative (Number.ofDigitChars (digits ++ decimals))
      (power.getD 0 - decimals.length)
    return (.float x, rest)

def words : List (String × Value) :=
  [("null", .null), ("true", .bool true), ("false", .bool false), ("NaN", .float .nan),
   ("Infinity", .float (.infinite false)), ("-Infinity", .float (.infinite true))]

def word? (s : List Char) : Option (Value × List Char) :=
  words.findSome? fun (w, v) =>
    if w.toList.isPrefixOf s then some (v, s.drop w.length) else none

/-- Why a text is not read: it is no JSON, or lists and objects are nested too deep in it. -/
inductive Unread where
  | malformed
  | tooDeep
  deriving DecidableEq, Repr

/-- How deep lists and objects may be nested in a text. Readers go down by calls, for which an
interpreter has room for a thousand, and those that lead to a reader are among them. -/
def maxNesting : Nat := 989

def orMalformed {α : Type} (x : Option α) : Except Unread α :=
  x.elim (.error .malformed) .ok

mutual

def value (fuel room : Nat) (s : List Char) : Except Unread (Value × List Char) :=
  match fuel with
  | 0 => .error .malformed
  | fuel + 1 =>
    match s with
    | '"' :: rest => do
      let (cs, rest) ← orMalformed (stringBody s.length rest)
      return (.text (.ofList cs), rest)
    | '[' :: rest =>
      match room with
      | 0 => .error .tooDeep
      | room + 1 =>
        match skipSpace rest with
        | ']' :: rest => .ok (.list [], rest)
        | rest => do
          let (vs, rest) ← items fuel room rest
          return (.list vs, rest)
    | '{' :: rest =>
      match room with
      | 0 => .error .tooDeep
      | room + 1 =>
        match skipSpace rest with
        | '}' :: rest => .ok (.object [], rest)
        | rest => do
          let (es, rest) ← pairs fuel room rest
          return (.object (Entries.ofPairs es), rest)
    | _ => orMalformed (word? s <|> number? s)

def items (fuel room : Nat) (s : List Char) : Except Unread (List Value × List Char) :=
  match fuel with
  | 0 => .error .malformed
  | fuel + 1 => do
    let (v, rest) ← value fuel room s
    match skipSpace rest with
    | ']' :: rest => return ([v], rest)
    | ',' :: rest =>
      let (vs, rest) ← items fuel room (skipSpace rest)
      return (v :: vs, rest)
    | _ => .error .malformed

def pairs (fuel room : Nat) (s : List Char) : Except Unread (List (Value × Value) × List Char) :=
  match fuel with
  | 0 => .error .malformed
  | fuel + 1 =>
    match s with
    | '"' :: rest => do
      let (key, rest) ← orMalformed (stringBody s.length rest)
      match skipSpace rest with
      | ':' :: rest =>
        let (v, rest) ← value fuel room (skipSpace rest)
        match skipSpace rest with
        | '}' :: rest => return ([(.text (.ofList key), v)], rest)
        | ',' :: rest =>
          let (es, rest) ← pairs fuel room (skipSpace rest)
          return ((.text (.ofList key), v) :: es, rest)
        | _ => .error .malformed
      | _ => .error .malformed
    | _ => .error .malformed

end

/-- Reads a text as a whole, with room for so many lists and objects in each other. -/
def read (room : Nat) (s : String) : Except Unread Value := do
  let chars := skipSpace s.toList
  let (v, rest) ← value (2 * chars.length + 2) room chars
  if (skipSpace rest).isEmpty then return v else .error .malformed

/-- What a text decodes to, if it is read. -/
def read? (s : String) : Option Value :=
  (read maxNesting s).toOption

end Catalogue.Json

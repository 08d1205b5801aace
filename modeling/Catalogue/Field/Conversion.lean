import Catalogue.Failure
import Catalogue.Number.Notation
import Catalogue.Value.Basic

/-!
Lenient reading of values as integers, numbers and truth values. Settings and type validators share
it; an octet string counts as the text that it encodes.
-/

namespace Catalogue.Conversion

open Number (Binary64)

/-- The text of an octet string, if it is well-formed. -/
def textOf? (octets : ByteArray) : Option String :=
  String.fromUTF8? octets

/-- Drops an all-zero fraction of at least one digit; `none` for any other fraction. -/
def dropZeroFraction? (s : List Char) : Option (List Char) :=
  match s.dropWhile (· != '.') with
  | [] => some s
  | _ :: fraction =>
    if !fraction.isEmpty && fraction.all (· == '0') then some (s.takeWhile (· != '.')) else none

/-- Reads ASCII digits with single underscores between them. -/
def digits? (s : List Char) : Option Nat := do
  let ds ← Text.dropSeparators? s
  if ds.isEmpty || !ds.all Char.isDigit then none else some (Number.ofDigitChars ds)

/-- Reads a text as an integer: white space around it, a sign and a zero fraction are allowed. -/
def integerOfText (s : String) : Except SettingProblem Int :=
  let body := Text.trimBy Text.isWhite s.toList
  if Text.maxDigits < body.length then .error .integerTooLong
  else
    let (negative, unsigned) := match body with
      | '-' :: rest => (true, rest)
      | '+' :: rest => (false, rest)
      | _ => (false, body)
    match (dropZeroFraction? unsigned).bind digits? with
    | some n => .ok (if negative then -(n : Int) else n)
    | none => .error .unreadableInteger

/-- Is the integer below `2 ^ 63` in size? -/
def isWord (n : Int) : Bool :=
  n.natAbs < Nat.pow 2 63

def integer : Value → Except SettingProblem Int
  | .int n => .ok n
  | .bool b => .ok (if b then 1 else 0)
  | .text s => integerOfText s
  | .bytes octets =>
    match textOf? octets with
    | some s => integerOfText s
    | none => .error .unreadableInteger
  | .float x =>
    match x.truncate? with
    | none => .error .notFinite
    | some n =>
      if !x.isIntegral then .error .fractional
      else if isWord n then .ok n else .error .integerTooLong
  | _ => .error .notInteger

/-- The text without underscores, if these stand alone and inside. -/
def dropUnderscores? (s : List Char) : Option (List Char) :=
  if s.head? == some '_' || s.getLast? == some '_' || !s.contains '_' ||
    (s.zip (s.drop 1)).contains ('_', '_') then none
  else some (s.filter (· != '_'))

def numberOfText? (s : String) : Option Binary64 :=
  Binary64.ofText? (Text.trimBy Text.isWhite s.toList) <|>
    (dropUnderscores? s.toList).bind Binary64.ofText?

def truthWords : List (Bool × List String) :=
  [(true, ["1", "on", "t", "true", "y", "yes"]), (false, ["0", "off", "f", "false", "n", "no"])]

def booleanOfText? (s : String) : Option Bool :=
  let word := String.ofList (s.toList.map Char.toLower)
  (truthWords.find? fun (_, words) => words.contains word).map Prod.fst

def boolean : Value → Except SettingProblem Bool
  | .bool b => .ok b
  | .text s => ofOption (booleanOfText? s)
  | .bytes octets => ofOption ((textOf? octets).bind booleanOfText?)
  | .int n =>
    if n = 0 then .ok false
    else if n = 1 then .ok true
    else if isWord n then .error .unreadableBoolean else .error .notBoolean
  | .float x =>
    if x.orderInt 0 == some .eq then .ok false
    else if x.orderInt 1 == some .eq then .ok true
    else if x.isIntegral && (x.truncate?.map isWord).getD false then .error .unreadableBoolean
    else .error .notBoolean
  | _ => .error .notBoolean
where
  ofOption : Option Bool → Except SettingProblem Bool
    | some b => .ok b
    | none => .error .unreadableBoolean

def text : Value → Except SettingProblem String
  | .text s => .ok s
  | .bytes octets =>
    match textOf? octets with
    | some s => .ok s
    | none => .error .notUnicode
  | _ => .error .notText

end Catalogue.Conversion

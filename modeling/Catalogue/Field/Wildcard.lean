import Catalogue.Text.Blank

/-!
Texts with an optional wildcard at either end, and their written forms.
-/

namespace Catalogue

/-- A text to be found: anywhere when both ends are open, at the start when only the end is open, at
the end when only the start is. -/
structure Wildcard where
  text : String
  leading : Bool := false
  trailing : Bool := false
  deriving DecidableEq, Repr

namespace Wildcard

def mark : Char := '%'

/-- Reads marks at the ends of a text. A text without one, or with one left inside, is no
wildcard. -/
def ofChars? (raw : List Char) : Option Wildcard :=
  let leading := raw.head? == some mark
  let rest := if leading then raw.drop 1 else raw
  let trailing := rest.getLast? == some mark
  let text := if trailing then rest.dropLast else rest
  if (leading || trailing) && !text.contains mark then
    some { text := .ofList text, leading, trailing }
  else none

def ofText? (raw : String) : Option Wildcard :=
  ofChars? raw.toList

/-- Replaces every occurrence of a text, from left to right. An empty text occurs before every
character and at the end. -/
def replaceAll (old new : List Char) (s : List Char) : List Char :=
  if old.isEmpty then s.flatMap (fun c => new ++ [c]) ++ new
  else go 0 s
where
  /-- Passes over the characters of an occurrence that has just been replaced. -/
  go : (skip : Nat) → List Char → List Char
    | _, [] => []
    | skip + 1, _ :: rest => go skip rest
    | 0, c :: rest =>
      if old.isPrefixOf (c :: rest) then new ++ go (old.length - 1) rest else c :: go 0 rest

/-- The text with the escape text before each occurrence of itself and of the marks of a LIKE
pattern, one kind after the other. -/
def escaped (escape text : List Char) : List Char :=
  replaceAll ['_'] (escape ++ ['_'])
    (replaceAll ['%'] (escape ++ ['%']) (replaceAll escape (escape ++ escape) text))

def toLike (w : Wildcard) (escape : String) : String :=
  let body := escaped escape.toList w.text.toList
  .ofList ((if w.leading then ['%'] else []) ++ body ++ if w.trailing then ['%'] else [])

/-- The escape text of LIKE patterns where none is chosen. -/
def defaultEscape : String := "\\"

end Wildcard

end Catalogue

import Catalogue.Field.Wildcard

/-!
The regular expressions that documents are searched with: a text to be found, which may be tied to
the start or to the end. The end also stands before a final line feed.
-/

namespace Catalogue.Document

structure Regex where
  literal : List Char
  atStart : Bool := false
  atEnd : Bool := false
  deriving DecidableEq, Repr

namespace Regex

/-- The expression of a wildcard: a closed end is tied. -/
def ofWildcard (w : Wildcard) : Regex :=
  { literal := w.text.toList, atStart := !w.leading, atEnd := !w.trailing }

/-- The characters that mean something in an expression, and white space. -/
def specialChars : List Char :=
  ['(', ')', '[', ']', '\x7b', '\x7d', '?', '*', '+', '-', '|', '^', '$', '\\', '.', '&', '~', '#',
    ' ', '\t', '\n', '\r', '\x0b', '\x0c']

def escapeChar (c : Char) : List Char :=
  if specialChars.contains c then ['\\', c] else [c]

def source (r : Regex) : String :=
  .ofList ((if r.atStart then ['^'] else []) ++ r.literal.flatMap escapeChar ++
    if r.atEnd then ['$'] else [])

/-- Is the rest of a text one before which the end stands? -/
def isEnd (rest : List Char) : Bool :=
  rest == [] || rest == ['\n']

def matchesHere (r : Regex) (s : List Char) : Bool :=
  r.literal.isPrefixOf s && (!r.atEnd || isEnd (s.drop r.literal.length))

def matchesSomewhere (r : Regex) : List Char → Bool
  | [] => r.matchesHere []
  | c :: rest => r.matchesHere (c :: rest) || r.matchesSomewhere rest

def finds (r : Regex) (s : String) : Bool :=
  if r.atStart then r.matchesHere s.toList else r.matchesSomewhere s.toList

end Regex

end Catalogue.Document

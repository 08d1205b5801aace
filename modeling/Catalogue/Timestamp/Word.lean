import Catalogue.Timestamp.Token

/-!
The words of timestamps: names of months and weekdays, units, halves of the day, zone names, and
the tokens that only fill space. All but zone names are read without regard to case.
-/

namespace Catalogue.Timestamp

def lowered (t : Token) : String :=
  .ofList (t.map Char.toLower)

/-- The number of the first group that holds the word. -/
def place? (groups : List (List String)) (t : Token) : Option Nat :=
  groups.findIdx? fun words => words.contains (lowered t)

def weekday? : Token → Option Nat :=
  place? [["mon", "monday"], ["tue", "tuesday"], ["wed", "wednesday"], ["thu", "thursday"],
    ["fri", "friday"], ["sat", "saturday"], ["sun", "sunday"]]

def month? (t : Token) : Option Nat :=
  (place? [["jan", "january"], ["feb", "february"], ["mar", "march"], ["apr", "april"],
    ["may"], ["jun", "june"], ["jul", "july"], ["aug", "august"], ["sep", "sept", "september"],
    ["oct", "october"], ["nov", "november"], ["dec", "december"]] t).map (· + 1)

/-- A unit of the time of day, with 0 for hours, 1 for minutes and 2 for seconds. -/
def unit? : Token → Option Nat :=
  place? [["h", "hour", "hours"], ["m", "minute", "minutes"], ["s", "second", "seconds"]]

/-- Is the word a mark for the second half of the day (`true`) or the first? -/
def afternoon? (t : Token) : Option Bool :=
  (place? [["am", "a"], ["pm", "p"]] t).map (· == 1)

def isFiller (t : Token) : Bool :=
  [" ", ".", ",", ";", "-", "/", "'", "at", "on", "and", "ad", "m", "t", "of", "st", "nd", "rd",
    "th"].contains (lowered t)

def isOf (t : Token) : Bool :=
  lowered t == "of"

def isUniversal (t : Token) : Bool :=
  [['U', 'T', 'C'], ['G', 'M', 'T'], ['Z'], ['z']].contains t

/-- Does the token have the form of a zone name? -/
def isZoneName (t : Token) : Bool :=
  t.length ≤ 5 && (t.all Char.isUpper || isUniversal t)

/-- Words that read as numbers without being any. -/
def isNonNumber (t : Token) : Bool :=
  ["nan", "inf", "infinity"].contains (lowered t)

end Catalogue.Timestamp

/-!
LIKE patterns: a percent sign stands for any text, an underscore for any character, and an escape
character takes the meaning from the next one. Case does not count for ASCII letters.
-/

namespace Catalogue.Relational

inductive LikePart where
  | anything
  | anyChar
  | exactly (c : Char)
  deriving DecidableEq, Repr

/-- The parts of a pattern; none when an escape character stands last. -/
def likeParts? (escape : Char) : List Char → Option (List LikePart)
  | [] => some []
  | [c] =>
    if c = escape then none
    else some [if c = '%' then .anything else if c = '_' then .anyChar else .exactly c]
  | c :: d :: rest =>
    if c = escape then (likeParts? escape rest).map (.exactly d :: ·)
    else
      let part := if c = '%' then .anything else if c = '_' then .anyChar else LikePart.exactly c
      (likeParts? escape (d :: rest)).map (part :: ·)

def tails : List Char → List (List Char)
  | [] => [[]]
  | c :: rest => (c :: rest) :: tails rest

theorem mem_tails_iff {t s : List Char} : t ∈ tails s ↔ t <:+ s := by
  induction s with
  | nil => simp [tails]
  | cons c rest ih => rw [tails, List.mem_cons, ih, List.suffix_cons_iff]

/-- Do two characters agree, but for the case of ASCII letters? -/
def agree (c d : Char) : Bool :=
  c == d || c.toLower == d.toLower

def matchesParts : List LikePart → List Char → Bool
  | [], s => s.isEmpty
  | .anything :: parts, s => (tails s).any (matchesParts parts)
  | .anyChar :: parts, _ :: rest => matchesParts parts rest
  | .exactly c :: parts, d :: rest => agree c d && matchesParts parts rest
  | _ :: _, [] => false

def like (escape : Char) (pattern s : List Char) : Bool :=
  match likeParts? escape pattern with
  | some parts => matchesParts parts s
  | none => false

end Catalogue.Relational

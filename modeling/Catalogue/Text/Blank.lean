/-!
White space, trimming and splitting into words.
-/

namespace Catalogue.Text

def isWhite (c : Char) : Bool :=
  let n := c.toNat
  (0x9 ≤ n && n ≤ 0xd) || n == 0x20 || n == 0x85 || n == 0xa0 || n == 0x1680 ||
  (0x2000 ≤ n && n ≤ 0x200a) || n == 0x2028 || n == 0x2029 || n == 0x202f || n == 0x205f ||
  n == 0x3000

/-- White space together with the four information separators. -/
def isBlank (c : Char) : Bool :=
  isWhite c || (0x1c ≤ c.toNat && c.toNat ≤ 0x1f)

def trimBy (p : Char → Bool) (s : List Char) : List Char :=
  ((s.dropWhile p).reverse.dropWhile p).reverse

def trim (s : String) : String :=
  .ofList (trimBy isBlank s.toList)

/-- The maximal runs of characters outside `p`. -/
def wordsBy (p : Char → Bool) : List Char → List (List Char)
  | [] => []
  | c :: rest =>
    if p c then wordsBy p rest
    else match rest.head?, wordsBy p rest with
      | some d, word :: words => if p d then [c] :: word :: words else (c :: word) :: words
      | _, words => [c] :: words

theorem of_mem_wordsBy {p : Char → Bool} {s word : List Char} (h : word ∈ wordsBy p s) :
    word ≠ [] ∧ ∀ c ∈ word, p c = false := by
  induction s generalizing word with
  | nil => cases h
  | cons c rest ih =>
    rw [wordsBy] at h
    split at h
    · exact ih h
    · rename_i hc
      have hc : p c = false := by simpa using hc
      split at h
      · rename_i d first words _ hw
        split at h
        · rcases List.mem_cons.mp h with rfl | h
          · simpa using hc
          · exact ih (hw ▸ h)
        · rcases List.mem_cons.mp h with rfl | h
          · have hf := ih (hw ▸ List.mem_cons_self)
            exact ⟨List.cons_ne_nil _ _, List.forall_mem_cons.mpr ⟨hc, hf.2⟩⟩
          · exact ih (hw ▸ List.mem_cons_of_mem _ h)
      · rcases List.mem_cons.mp h with rfl | h
        · simpa using hc
        · exact ih h

def isAllBlank (s : String) : Bool :=
  s.toList.all isBlank

end Catalogue.Text

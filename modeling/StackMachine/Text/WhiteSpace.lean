/-!
# White space

The characters with the Unicode property `White_Space`, and text without the white space
at its two ends.
-/

namespace StackMachine.Text

/-- The code points with the property `White_Space`, as ranges with both ends included. -/
def whiteSpaceRanges : List (Nat × Nat) :=
  [(0x0009, 0x000D), (0x0020, 0x0020), (0x0085, 0x0085), (0x00A0, 0x00A0), (0x1680, 0x1680),
    (0x2000, 0x200A), (0x2028, 0x2029), (0x202F, 0x202F), (0x205F, 0x205F), (0x3000, 0x3000)]

def isWhiteSpace (c : Char) : Bool :=
  whiteSpaceRanges.any fun (low, high) => low ≤ c.toNat && c.toNat ≤ high

def trimLeft (cs : List Char) : List Char :=
  cs.dropWhile isWhiteSpace

def trimRight (cs : List Char) : List Char :=
  (trimLeft cs.reverse).reverse

def trim (cs : List Char) : List Char :=
  trimRight (trimLeft cs)

/-- A text of white space only, the empty text included. -/
def isBlank (text : String) : Bool :=
  text.toList.all isWhiteSpace

theorem trimLeft_append_of_whiteSpace {cs : List Char} (white : ∀ c ∈ cs, isWhiteSpace c)
    (rest : List Char) : trimLeft (cs ++ rest) = trimLeft rest := by
  induction cs with
  | nil => rfl
  | cons c cs ih =>
    have head := white c List.mem_cons_self
    simp only [trimLeft, List.cons_append, List.dropWhile_cons, head, if_true]
    exact ih fun d member => white d (List.mem_cons_of_mem _ member)

theorem trimRight_append_of_whiteSpace {cs : List Char} (white : ∀ c ∈ cs, isWhiteSpace c)
    (rest : List Char) : trimRight (rest ++ cs) = trimRight rest := by
  unfold trimRight
  rw [List.reverse_append, trimLeft_append_of_whiteSpace]
  exact fun c member => white c (List.mem_reverse.mp member)

end StackMachine.Text

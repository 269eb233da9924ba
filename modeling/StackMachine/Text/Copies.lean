/-!
# Repetition of text

A text any number of times over. Doubling keeps the work in proportion to the result, so
that an empty text can be repeated `2 ^ 63` times.
-/

namespace StackMachine.Text

def copies (text : String) (count : Nat) : String :=
  if count = 0 then ""
  else
    let half := copies text (count / 2)
    if count % 2 = 0 then half ++ half else half ++ half ++ text
termination_by count
decreasing_by omega

theorem toList_copies (text : String) (count : Nat) :
    (copies text count).toList = (List.replicate count text.toList).flatten := by
  induction count using Nat.strongRecOn with
  | ind count ih =>
    rw [copies]
    by_cases none : count = 0
    · simp [none]
    · have half := ih (count / 2) (by omega)
      simp only [none, if_false]
      split
      · rw [String.toList_append, half, ← List.flatten_append, List.replicate_append_replicate]
        congr 2
        omega
      · have last : text.toList = (List.replicate 1 text.toList).flatten := by simp
        calc
          (copies text (count / 2) ++ copies text (count / 2) ++ text).toList
              = (List.replicate (count / 2 + count / 2 + 1) text.toList).flatten := by
            simp only [String.toList_append, half, ← List.replicate_append_replicate,
              List.flatten_append, ← last]
          _ = (List.replicate count text.toList).flatten := by
            congr 2
            omega

end StackMachine.Text

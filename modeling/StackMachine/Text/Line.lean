/-!
# Lines

A line ends with a line feed, or with a carriage return and a line feed. The last line of
a text may lack its end, and then a carriage return at the very end belongs to the line.
-/

namespace StackMachine.Text

def dropLineEnd (line : List Char) : List Char :=
  match line.reverse with
  | '\n' :: '\r' :: rest => rest.reverse
  | '\n' :: rest => rest.reverse
  | _ => line

/-- The first line of a text, its end included. -/
def takeLine (cs : List Char) : List Char :=
  cs.takeWhile (· != '\n') ++ (cs.dropWhile (· != '\n')).take 1

def firstLine (cs : List Char) : List Char :=
  dropLineEnd (takeLine cs)

theorem dropLineEnd_append_lineFeed_of_ne {line : List Char} (last : line.getLast? ≠ some '\r') :
    dropLineEnd (line ++ ['\n']) = line := by
  obtain ⟨back, rfl⟩ : ∃ back : List Char, line = back.reverse := ⟨line.reverse, by simp⟩
  cases back with
  | nil => rfl
  | cons c back =>
    have other : c ≠ '\r' := by
      rintro rfl
      simp at last
    simp [dropLineEnd, other]

theorem dropLineEnd_of_not_mem {line : List Char} (absent : '\n' ∉ line) :
    dropLineEnd line = line := by
  unfold dropLineEnd
  split
  · rename_i equal
    exact absurd (List.mem_reverse.mp (by rw [equal]; exact List.mem_cons_self)) absent
  · rename_i equal
    exact absurd (List.mem_reverse.mp (by rw [equal]; exact List.mem_cons_self)) absent
  · rfl

end StackMachine.Text

/-!
# Partial lines

Output up to the last line feed is passed on at once. What stands behind it is held back until
more is written or the held text is taken.
-/

namespace StackMachine

/-- The complete lines of a text, their ends included, and the text behind them. -/
def splitLines (cs : List Char) : List Char × List Char :=
  let back := cs.reverse
  ((back.dropWhile (· != '\n')).reverse, (back.takeWhile (· != '\n')).reverse)

structure PartialLine where
  pending : String := ""
deriving DecidableEq, Repr

namespace PartialLine

def push (line : PartialLine) (text : String) : Option String × PartialLine :=
  let all := line.pending ++ text
  if all.contains '\n' then
    let (complete, rest) := splitLines all.toList
    (some (String.ofList complete), { pending := String.ofList rest })
  else
    (none, { pending := all })

def take (line : PartialLine) : String × PartialLine :=
  (line.pending, {})

end PartialLine

end StackMachine

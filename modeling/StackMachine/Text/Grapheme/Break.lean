import StackMachine.Text.Grapheme.Conjunct
import StackMachine.Text.Grapheme.Extend
import StackMachine.Text.Grapheme.Pictographic
import StackMachine.Text.Grapheme.SpacingMark

/-!
# Properties for grapheme boundaries

The classes of the property `Grapheme_Cluster_Break`, and what else the rules for boundaries ask
of a character. All tables are those of Unicode 17.0.
-/

namespace StackMachine.Text.Grapheme

inductive BreakClass where
  | carriageReturn | lineFeed | control
  | extend | joiner | spacingMark | prepend
  | regionalIndicator
  | leading | vowel | trailing | syllable | closedSyllable
  | other
deriving DecidableEq, Repr

def controlRanges : CodeRanges :=
  #[(0x0000, 0x0009), (0x000B, 0x000C), (0x000E, 0x001F), (0x007F, 0x009F), (0x00AD, 0x00AD),
    (0x061C, 0x061C), (0x180E, 0x180E), (0x200B, 0x200B), (0x200E, 0x200F), (0x2028, 0x202E),
    (0x2060, 0x206F), (0xFEFF, 0xFEFF), (0xFFF0, 0xFFFB), (0x13430, 0x1343F), (0x1BCA0, 0x1BCA3),
    (0x1D173, 0x1D17A), (0xE0000, 0xE001F), (0xE0080, 0xE00FF), (0xE01F0, 0xE0FFF)]

def prependRanges : CodeRanges :=
  #[(0x0600, 0x0605), (0x06DD, 0x06DD), (0x070F, 0x070F), (0x0890, 0x0891), (0x08E2, 0x08E2),
    (0x0D4E, 0x0D4E), (0x110BD, 0x110BD), (0x110CD, 0x110CD), (0x111C2, 0x111C3),
    (0x113D1, 0x113D1), (0x1193F, 0x1193F), (0x11941, 0x11941), (0x11A84, 0x11A89),
    (0x11D46, 0x11D46), (0x11F02, 0x11F02)]

def leadingRanges : CodeRanges :=
  #[(0x1100, 0x115F), (0xA960, 0xA97C)]

def vowelRanges : CodeRanges :=
  #[(0x1160, 0x11A7), (0xD7B0, 0xD7C6), (0x16D63, 0x16D63), (0x16D67, 0x16D6A)]

def trailingRanges : CodeRanges :=
  #[(0x11A8, 0x11FF), (0xD7CB, 0xD7FB)]

/-- The precomposed syllables. In every row of 28 the first has no trailing consonant. -/
def syllableRanges : CodeRanges :=
  #[(0xAC00, 0xD7A3)]

def BreakClass.ofChar (c : Char) : BreakClass :=
  if c = '\r' then carriageReturn
  else if c = '\n' then lineFeed
  else if c = '\u200d' then joiner
  else if controlRanges.holds c then control
  else if extendRanges.holds c then extend
  else if spacingMarkRanges.holds c then spacingMark
  else if prependRanges.holds c then prepend
  else if 0x1F1E6 ≤ c.toNat ∧ c.toNat ≤ 0x1F1FF then regionalIndicator
  else if leadingRanges.holds c then leading
  else if vowelRanges.holds c then vowel
  else if trailingRanges.holds c then trailing
  else if syllableRanges.holds c then
    if (c.toNat - 0xAC00) % 28 = 0 then syllable else closedSyllable
  else other

def isPictographic (c : Char) : Bool :=
  pictographicRanges.holds c

def isConsonant (c : Char) : Bool :=
  consonantRanges.holds c

def isLinker (c : Char) : Bool :=
  linkerRanges.holds c

/-- The signs that may stand within a conjunct: linkers, and marks that leave it whole. The
non-joiner U+200C is the one extending character that does not. -/
def isConjunctMark (c : Char) : Bool :=
  c == '\u200d' || extendRanges.holds c && c != '\u200c'

end StackMachine.Text.Grapheme

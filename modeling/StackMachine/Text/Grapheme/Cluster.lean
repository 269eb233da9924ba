import StackMachine.Text.Grapheme.Break

/-!
# Grapheme clusters

The characters that a reader takes for one, by the extended rules of Unicode. Whether a cluster
goes on depends on the cluster so far and the next character alone, so a text is cut in one pass.
`flatten_clusters`: the clusters, put together, are the text.
-/

namespace StackMachine.Text.Grapheme

namespace BreakClass

/-- The classes with a boundary on both sides. -/
def isControl : BreakClass → Bool
  | carriageReturn | lineFeed | control => true
  | _ => false

/-- The classes that stay with whatever stands in front of them. -/
def isAttached : BreakClass → Bool
  | extend | joiner | spacingMark => true
  | _ => false

/-- The pairs within a syllable that is spelled out. -/
def staysInSyllable : BreakClass → BreakClass → Bool
  | leading, leading | leading, vowel | leading, syllable | leading, closedSyllable => true
  | syllable, vowel | syllable, trailing | vowel, vowel | vowel, trailing => true
  | closedSyllable, trailing | trailing, trailing => true
  | _, _ => false

end BreakClass

/-- Whether a text, given backwards, ends in a conjunct that the next consonant belongs to: behind
its last consonant there are marks only, and one of them is a linker. -/
def awaitsConsonant (back : List Char) : Bool :=
  (back.takeWhile isConjunctMark).any isLinker &&
    (back.dropWhile isConjunctMark).head?.any isConsonant

/-- Whether a text, given backwards, ends in a pictographic character, its marks, and a joiner. -/
def awaitsPictographic : List Char → Bool
  | [] => false
  | last :: back =>
    last == '\u200d' &&
      (back.dropWhile fun c => BreakClass.ofChar c = .extend).head?.any isPictographic

/-- Whether a text, given backwards, ends in a regional indicator that lacks its partner. -/
def awaitsIndicator (back : List Char) : Bool :=
  (back.takeWhile fun c => BreakClass.ofChar c = .regionalIndicator).length % 2 = 1

/-- Whether the next character goes on with a cluster, which is given backwards. -/
def joins (cluster : List Char) (next : Char) : Bool :=
  match cluster with
  | [] => false
  | last :: _ =>
    let before := BreakClass.ofChar last
    let after := BreakClass.ofChar next
    if before.isControl || after.isControl then
      before = .carriageReturn && after = .lineFeed
    else
      after.isAttached || before = .prepend || before.staysInSyllable after ||
        isConsonant next && awaitsConsonant cluster ||
        isPictographic next && awaitsPictographic cluster ||
        after = .regionalIndicator && awaitsIndicator cluster

/-- Adds a character to the clusters in front of it, all of them backwards, the last one first. -/
def addChar (clusters : List (List Char)) (c : Char) : List (List Char) :=
  match clusters with
  | [] => [[c]]
  | cluster :: earlier =>
    if joins cluster c then (c :: cluster) :: earlier else [c] :: cluster :: earlier

def clusters (text : List Char) : List (List Char) :=
  ((text.foldl addChar []).map List.reverse).reverse

theorem flatten_addChar (clusters : List (List Char)) (c : Char) :
    (addChar clusters c).flatten = c :: clusters.flatten := by
  unfold addChar
  split
  · rfl
  · split <;> rfl

theorem flatten_foldl_addChar (text : List Char) (clusters : List (List Char)) :
    (text.foldl addChar clusters).flatten = text.reverse ++ clusters.flatten := by
  induction text generalizing clusters with
  | nil => rfl
  | cons c text ih => simp [ih, flatten_addChar]

theorem flatten_clusters (text : List Char) : (clusters text).flatten = text := by
  rw [clusters, ← List.reverse_flatten, flatten_foldl_addChar]
  simp

theorem mem_of_mem_clusters {text cluster : List Char} {c : Char} (part : cluster ∈ clusters text)
    (member : c ∈ cluster) : c ∈ text := by
  rw [← flatten_clusters text]
  exact List.mem_flatten_of_mem part member

end StackMachine.Text.Grapheme

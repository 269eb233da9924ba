import StackMachine.Text.Grapheme.Cluster

/-!
# Backspaces

What is left of a line when its backspaces are carried out. A backspace takes away the grapheme
cluster in front of it and stands for nothing where there is none.

- `erase_add`: a cluster of less than 256 bytes is taken away whole.
- `applyBackspaces_of_not_mem`: a line without backspaces stays as it is.
-/

namespace StackMachine.Text

def backspace : Char := '\x08'

/-- A line while it is written, up to some place in it. -/
structure Draft where
  text : List Char := []
  /-- The sizes in bytes of the clusters that stand, the last one first. A size is kept in one
  byte, and a cluster of 256 bytes or more loses only what that byte says. -/
  sizes : List UInt8 := []
deriving DecidableEq, Repr

/-- Takes bytes off the end of a text, which is given backwards, if no character is divided. -/
def dropBytes? : Nat → List Char → Option (List Char)
  | 0, text => some text
  | _ + 1, [] => none
  | count + 1, c :: text =>
    if c.utf8Size ≤ count + 1 then dropBytes? (count + 1 - c.utf8Size) text else none

namespace Draft

def add (draft : Draft) (cluster : List Char) : Draft :=
  { text := cluster.reverse ++ draft.text
    sizes := UInt8.ofNat (String.ofList cluster).utf8ByteSize :: draft.sizes }

def erase (draft : Draft) : Option Draft :=
  match draft.sizes with
  | [] => some draft
  | size :: sizes => (dropBytes? size.toNat draft.text).map fun text => { text, sizes }

def take (draft : Draft) (cluster : List Char) : Option Draft :=
  if cluster = [backspace] then draft.erase else some (draft.add cluster)

end Draft

/-- The line that is left, or nothing if a backspace asks for a part of a character. -/
def applyBackspaces (line : List Char) : Option (List Char) :=
  ((Grapheme.clusters line).foldlM Draft.take {}).map (·.text.reverse)

theorem dropBytes?_append (back text : List Char) :
    dropBytes? (String.ofList back.reverse).utf8ByteSize (back ++ text) = some text := by
  induction back with
  | nil => simp [dropBytes?]
  | cons c back ih =>
    have split : (String.ofList (c :: back).reverse).utf8ByteSize =
        (String.ofList back.reverse).utf8ByteSize + c.utf8Size := by
      rw [List.reverse_cons, String.ofList_append, String.utf8ByteSize_append,
        ← String.singleton_eq_ofList, String.utf8ByteSize_singleton]
    have positive := c.utf8Size_pos
    obtain ⟨count, next⟩ : ∃ count,
        (String.ofList (c :: back).reverse).utf8ByteSize = count + 1 :=
      ⟨(String.ofList (c :: back).reverse).utf8ByteSize - 1, by omega⟩
    rw [next, List.cons_append, dropBytes?, if_pos (by omega)]
    rw [show count + 1 - c.utf8Size = (String.ofList back.reverse).utf8ByteSize by omega]
    exact ih

theorem Draft.erase_add (draft : Draft) {cluster : List Char}
    (small : (String.ofList cluster).utf8ByteSize < 256) :
    (draft.add cluster).erase = some draft := by
  have dropped := dropBytes?_append cluster.reverse draft.text
  rw [List.reverse_reverse] at dropped
  simp [add, erase, Nat.mod_eq_of_lt small, dropped]

theorem foldlM_take_of_not_mem {clusters : List (List Char)} (absent : [backspace] ∉ clusters)
    (draft : Draft) :
    (clusters.foldlM Draft.take draft).map (·.text) =
      some (clusters.flatten.reverse ++ draft.text) := by
  induction clusters generalizing draft with
  | nil => rfl
  | cons cluster clusters ih =>
    rw [List.mem_cons, not_or] at absent
    have other : cluster ≠ [backspace] := fun equal => absent.1 equal.symm
    simp [Draft.take, other, ih absent.2, Draft.add]

theorem applyBackspaces_of_not_mem {line : List Char} (absent : backspace ∉ line) :
    applyBackspaces line = some line := by
  have clusters : [backspace] ∉ Grapheme.clusters line := fun part =>
    absent (Grapheme.mem_of_mem_clusters part List.mem_cons_self)
  have left := foldlM_take_of_not_mem clusters {}
  rw [Grapheme.flatten_clusters] at left
  obtain ⟨draft, equal, text⟩ := Option.map_eq_some_iff.mp left
  simp [applyBackspaces, equal, text]

end StackMachine.Text

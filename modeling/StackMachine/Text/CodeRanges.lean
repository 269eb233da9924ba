/-!
# Ranges of code points

Sets of characters as closed ranges of code points in ascending order, searched by halving.
`holds_iff`: the search finds a character if and only if some range holds it.
-/

namespace StackMachine.Text

abbrev CodeRanges := Array (Nat × Nat)

namespace CodeRanges

def Ascending (ranges : CodeRanges) : Prop :=
  (∀ range ∈ ranges.toList, range.1 ≤ range.2) ∧
    ranges.toList.Pairwise fun range next => range.2 < next.1

/-- Whether a range holds the code point, among those from index `low` up to index `high`. -/
def holdsWithin (ranges : CodeRanges) (n low high : Nat) (bound : high ≤ ranges.size) : Bool :=
  if below : low < high then
    let middle := low + (high - low) / 2
    have inside : middle < ranges.size := by omega
    if n < ranges[middle].1 then holdsWithin ranges n low middle (by omega)
    else if ranges[middle].2 < n then holdsWithin ranges n (middle + 1) high bound
    else true
  else false
termination_by high - low

def holds (ranges : CodeRanges) (c : Char) : Bool :=
  holdsWithin ranges c.toNat 0 ranges.size (Nat.le_refl _)

theorem exists_of_holdsWithin {ranges : CodeRanges} {n low high : Nat}
    {bound : high ≤ ranges.size} (found : holdsWithin ranges n low high bound) :
    ∃ range ∈ ranges, range.1 ≤ n ∧ n ≤ range.2 := by
  fun_induction holdsWithin ranges n low high bound with
  | case1 low high bound below middle inside before ih => exact ih found
  | case2 low high bound below middle inside notBefore behind ih => exact ih found
  | case3 low high bound below middle inside notBefore notBehind =>
    exact ⟨ranges[middle], Array.getElem_mem inside, by omega, by omega⟩
  | case4 => simp at found

theorem Ascending.lt {ranges : CodeRanges} (ascending : ranges.Ascending) {i j : Nat}
    (less : i < j) (inside : j < ranges.size) : ranges[i].2 < ranges[j].1 :=
  List.pairwise_iff_getElem.mp ascending.2 i j (Nat.lt_trans less inside) inside less

theorem Ascending.le {ranges : CodeRanges} (ascending : ranges.Ascending) {i : Nat}
    (inside : i < ranges.size) : ranges[i].1 ≤ ranges[i].2 :=
  ascending.1 _ (Array.mem_toList_iff.mpr (Array.getElem_mem inside))

theorem holdsWithin_of_ascending {ranges : CodeRanges} (ascending : ranges.Ascending)
    {n low high : Nat} {bound : high ≤ ranges.size} {k : Nat} (inside : k < ranges.size)
    (least : low ≤ k) (most : k < high) (lower : ranges[k].1 ≤ n) (upper : n ≤ ranges[k].2) :
    holdsWithin ranges n low high bound := by
  fun_induction holdsWithin ranges n low high bound with
  | case1 low high bound below middle centred before ih =>
    refine ih least ?_
    rcases Nat.lt_trichotomy k middle with less | rfl | greater
    · exact less
    · omega
    · have := ascending.lt greater inside
      have := ascending.le centred
      omega
  | case2 low high bound below middle centred notBefore behind ih =>
    refine ih ?_ most
    rcases Nat.lt_trichotomy k middle with less | rfl | greater
    · have := ascending.lt less centred
      have := ascending.le centred
      omega
    · omega
    · omega
  | case3 => rfl
  | case4 => omega

theorem holds_iff {ranges : CodeRanges} (ascending : ranges.Ascending) {c : Char} :
    ranges.holds c ↔ ∃ range ∈ ranges, range.1 ≤ c.toNat ∧ c.toNat ≤ range.2 := by
  refine ⟨exists_of_holdsWithin, fun ⟨range, member, lower, upper⟩ => ?_⟩
  obtain ⟨k, inside, rfl⟩ := Array.getElem_of_mem member
  exact holdsWithin_of_ascending ascending inside (Nat.zero_le k) inside lower upper

end CodeRanges

end StackMachine.Text

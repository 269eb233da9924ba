import Mathlib.Data.List.Forall2
import StackMachine.Program.Basic
import StackMachine.Proofs.Source.Joining

/-!
# Parsing

A program is parsed from a reading of its text. Each part of the reading spells one element,
whatever the other parts are.
-/

namespace StackMachine

theorem Source.text_tokensFrom (offset : Nat) (parts : List Part) :
    (tokensFrom offset parts).map Token.text = parts.map fun part => String.ofList part.token := by
  induction parts generalizing offset with
  | nil => rfl
  | cons part parts ih => simp [tokensFrom, ih]

theorem bind_eq_ok_iff {α β ε : Type} {action : Except ε α} {next : α → Except ε β} {y : β} :
    action >>= next = .ok y ↔ ∃ x, action = .ok x ∧ next x = .ok y := by
  cases action with
  | error fault => simp [bind, Except.bind]
  | ok x => simp [bind, Except.bind]

theorem mapM_eq_ok_iff {α β ε : Type} {f : α → Except ε β} {xs : List α} {ys : List β} :
    xs.mapM f = .ok ys ↔ List.Forall₂ (fun x y => f x = .ok y) xs ys := by
  induction xs generalizing ys with
  | nil => simp [pure, Except.pure, eq_comm]
  | cons x xs ih =>
    simp only [List.mapM_cons, bind_eq_ok_iff, List.forall₂_cons_left_iff, ih]
    constructor
    · rintro ⟨y, first, others, more, whole⟩
      exact ⟨y, others, first, more, (Except.ok.inj whole).symm⟩
    · rintro ⟨y, others, first, more, rfl⟩
      exact ⟨y, first, others, more, rfl⟩

theorem exists_mapM_eq_ok {α β ε : Type} {f : α → Except ε β} {xs : List α}
    (fine : ∀ x ∈ xs, ∃ y, f x = .ok y) : ∃ ys, xs.mapM f = .ok ys := by
  induction xs with
  | nil => exact ⟨[], rfl⟩
  | cons x xs ih =>
    obtain ⟨⟨y, first⟩, fine'⟩ := List.forall_mem_cons.mp fine
    obtain ⟨ys, more⟩ := ih fine'
    exact ⟨y :: ys, mapM_eq_ok_iff.mpr (.cons first (mapM_eq_ok_iff.mp more))⟩

theorem mapM_eq_error {α β ε : Type} {f : α → Except ε β} {front back : List α} {x : α} {fault : ε}
    (fine : ∀ y ∈ front, ∃ z, f y = .ok z) (fails : f x = .error fault) :
    (front ++ x :: back).mapM f = .error fault := by
  obtain ⟨ys, before⟩ := exists_mapM_eq_ok fine
  rw [List.mapM_append, before, List.mapM_cons, fails]
  rfl

/-! ## What one token spells -/

namespace Element

theorem ofToken_quoted {quote : Char} (opens : Source.isQuote quote) (body : List Char) :
    ofToken (String.ofList (quote :: body ++ [quote])) =
      .ok (literal (.text (String.ofList body))) := by
  simp [ofToken, unquote?, opens]

theorem unquote?_of_word {cs : List Char} (inside : ∀ c ∈ cs, Source.isWordChar c) :
    unquote? cs = none := by
  cases cs with
  | nil => rfl
  | cons c cs =>
    have plain := (Source.isWordChar_iff.mp (inside c List.mem_cons_self)).2.1
    simp [unquote?, plain]

end Element

/-! ## What a text spells -/

def Spelled : List Source.Part → List Element → Prop :=
  List.Forall₂ fun part element => Element.ofToken (String.ofList part.token) = .ok element

namespace Program

theorem ofTokens_eq_ok_iff {tokens : List String} {program : Program} :
    ofTokens tokens = .ok program ↔
      List.Forall₂ (fun token element => Element.ofToken token = .ok element)
        tokens program.toList := by
  rw [← mapM_eq_ok_iff]
  simp only [ofTokens, bind_eq_ok_iff]
  constructor
  · rintro ⟨elements, found, whole⟩
    rw [found, ← Except.ok.inj whole, ofList, toList, List.toList_toArray]
  · intro found
    exact ⟨program.toList, found, congrArg Except.ok (congrArg mk Array.toArray_toList)⟩

theorem parse_eq_ok_iff {source : String} {program : Program} :
    parse source = .ok program ↔
      ∃ parts last, Source.Reading [] source.toList parts last [] ∧
        Spelled parts program.toList := by
  simp only [parse, bind_eq_ok_iff, Source.tokenize_eq_ok_iff, ofTokens_eq_ok_iff]
  constructor
  · rintro ⟨tokens, ⟨parts, last, reading, rfl⟩, spelled⟩
    rw [Source.text_tokensFrom, List.forall₂_map_left_iff] at spelled
    exact ⟨parts, last, reading, spelled⟩
  · rintro ⟨parts, last, reading, spelled⟩
    refine ⟨_, ⟨parts, last, reading, rfl⟩, ?_⟩
    rw [Source.text_tokensFrom, List.forall₂_map_left_iff]
    exact spelled

theorem parse_append_lineFeed {source : String} {program : Program}
    (parsed : parse source = .ok program) : parse (source ++ "\n") = .ok program := by
  obtain ⟨tokens, found, spelled⟩ := bind_eq_ok_iff.mp parsed
  have nothing : Source.tokenize "" = .ok [] := by decide +kernel
  have longer := Source.tokenize_join_of_ok found nothing
  rw [List.map_nil, List.append_nil, String.append_empty] at longer
  exact bind_eq_ok_iff.mpr ⟨tokens, longer, spelled⟩

end Program

end StackMachine

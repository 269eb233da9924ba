import StackMachine.Proofs.Program.Expressible
import StackMachine.Proofs.Text.Lines
import StackMachine.Stack

/-!
# Reading listings

A listing says all there is to know of its stack. Each entry is a line as long as its text has no
line feed, the kind stands in front and tells `7` from the text `"7"`, and the last quote of the
line closes the value, whatever stands in front of it.
-/

namespace StackMachine

theorem Integer.not_mem_render (n : Integer) : '\n' ∉ n.render.toList := fun member =>
  absurd (n.isWordChar_of_mem_render '\n' member) (by decide)

/-! ## Values -/

namespace Value

def ofRender? : Kind → String → Option Value
  | .int, s =>
    -- the reader takes more than one spelling of an integer, and one of them is its rendering
    (((Decimal.literal? s.toList).bind Integer.ofInt?).filter (·.render = s)).map int
  | .text, s => some (text s)

theorem ofRender?_eq_some_iff {kind : Kind} {s : String} {v : Value} :
    ofRender? kind s = some v ↔ v.kind = kind ∧ v.render = s := by
  constructor
  · intro found
    cases kind with
    | int =>
      obtain ⟨n, read, rfl⟩ := Option.map_eq_some_iff.mp found
      have rendered : n.render = s := by simpa using (Option.filter_eq_some_iff.mp read).2
      exact ⟨rfl, rendered⟩
    | text =>
      cases found
      exact ⟨rfl, rfl⟩
  · rintro ⟨rfl, rfl⟩
    cases v with
    | int n =>
      have read : (Decimal.literal? n.render.toList).bind Integer.ofInt? = some n := by
        rw [Integer.render, String.toList_ofList, Decimal.literal?_render]
        exact Integer.ofInt?_toInt n
      simp [ofRender?, kind, render, read]
    | text s => rfl

end Value

namespace Stack

/-! ## Entries -/

def lead (kind : Kind) : String :=
  "- type " ++ kind.name ++ ", value '"

theorem entry_eq (v : Value) : entry v = lead v.kind ++ v.render ++ "'\n" := rfl

theorem length_lead (kind : Kind) : (lead kind).toList.length = 19 := by
  cases kind <;> decide

theorem kind_eq_of_entry_eq {v w : Value} (same : entry v = entry w) : v.kind = w.kind := by
  have chars := congrArg String.toList same
  simp only [entry_eq, String.toList_append, List.append_assoc] at chars
  -- The names of the kinds are of one length, so neither leads into an entry of the other.
  have leads := List.append_inj_left chars ((length_lead _).trans (length_lead _).symm)
  revert leads
  cases v.kind <;> cases w.kind <;> decide

def ofLineOf? (kind : Kind) (line : List Char) : Option Value := do
  let quoted ← line.dropPrefix? (lead kind).toList
  let inside ← quoted.dropSuffix? "'\n".toList
  Value.ofRender? kind (String.ofList inside)

def ofLine? (line : List Char) : Option Value :=
  (ofLineOf? .int line).or (ofLineOf? .text line)

theorem ofLineOf?_eq_some_iff {kind : Kind} {line : List Char} {v : Value} :
    ofLineOf? kind line = some v ↔ v.kind = kind ∧ (entry v).toList = line := by
  simp only [ofLineOf?, Option.bind_eq_bind, Option.bind_eq_some_iff,
    List.dropPrefix?_eq_some_iff, List.dropSuffix?_eq_some_iff, beq_iff_eq,
    Value.ofRender?_eq_some_iff]
  constructor
  · rintro ⟨quoted, ⟨_, rfl, rfl⟩, inside, ⟨_, rfl, rfl⟩, rfl, rendered⟩
    exact ⟨rfl, by simp [entry_eq, rendered]⟩
  · rintro ⟨rfl, rfl⟩
    refine ⟨_, ⟨_, ?_, rfl⟩, v.render.toList, ⟨_, rfl, rfl⟩, rfl, by simp⟩
    simp [entry_eq]

theorem ofLine?_eq_some_iff {line : List Char} {v : Value} :
    ofLine? line = some v ↔ (entry v).toList = line := by
  rw [ofLine?, Option.or_eq_some_iff]
  constructor
  · rintro (found | ⟨_, found⟩)
    · exact (ofLineOf?_eq_some_iff.mp found).2
    · exact (ofLineOf?_eq_some_iff.mp found).2
  · intro written
    cases isKind : v.kind with
    | int => exact .inl (ofLineOf?_eq_some_iff.mpr ⟨isKind, written⟩)
    | text =>
      refine .inr ⟨?_, ofLineOf?_eq_some_iff.mpr ⟨isKind, written⟩⟩
      refine Option.eq_none_iff_forall_ne_some.mpr fun w found => ?_
      obtain ⟨isKind', written'⟩ := ofLineOf?_eq_some_iff.mp found
      have same := kind_eq_of_entry_eq (String.toList_inj.mp (written'.trans written.symm))
      rw [isKind, isKind'] at same
      cases same

/-! ## Stacks -/

def IsSingleLined (stack : Stack) : Prop :=
  ∀ s, .text s ∈ stack → '\n' ∉ s.toList

def heading : String := "Data stack (top first):\n"

theorem listing_eq (stack : Stack) : listing stack = heading ++ String.join (stack.map entry) := rfl

def ofEntries? (cs : List Char) : Option Stack :=
  if _some : cs = [] then some []
  else
    (ofLine? (Text.takeLine cs)).bind fun v =>
      (ofEntries? (Text.behindLine cs)).map (v :: ·)
termination_by cs.length
decreasing_by exact Text.length_behindLine_lt _some

/-- The stack behind a listing, and nothing for any other text. -/
def ofListing? (text : String) : Option Stack :=
  (text.toList.dropPrefix? heading.toList).bind ofEntries?

theorem ofEntries?_nil : ofEntries? [] = some [] := by
  rw [ofEntries?]
  simp

theorem ofEntries?_of_ne_nil {cs : List Char} (some : cs ≠ []) :
    ofEntries? cs = (ofLine? (Text.takeLine cs)).bind fun v =>
      (ofEntries? (Text.behindLine cs)).map (v :: ·) := by
  rw [ofEntries?, dif_neg some]

theorem IsSingleLined.cons {v : Value} {stack : Stack} (single : IsSingleLined (v :: stack)) :
    '\n' ∉ v.render.toList ∧ stack.IsSingleLined := by
  refine ⟨?_, fun s member => single s (List.mem_cons_of_mem v member)⟩
  cases v with
  | int n => exact n.not_mem_render
  | text s => exact single s List.mem_cons_self

theorem exists_entry_eq {v : Value} (single : '\n' ∉ v.render.toList) :
    ∃ line, (∀ c ∈ line, c ≠ '\n') ∧ (entry v).toList = line ++ ['\n'] := by
  refine ⟨(lead v.kind).toList ++ v.render.toList ++ ['\''], ?_, by simp [entry_eq]⟩
  have front : '\n' ∉ (lead v.kind).toList := by cases v.kind <;> decide
  rintro c member rfl
  simp [front, single] at member

theorem ofEntries?_entries {stack : Stack} (single : stack.IsSingleLined) :
    ofEntries? (String.join (stack.map entry)).toList = some stack := by
  induction stack with
  | nil => exact ofEntries?_nil
  | cons v stack ih =>
    obtain ⟨plain, rest⟩ := single.cons
    obtain ⟨line, inside, whole⟩ := exists_entry_eq plain
    have first : ofLine? (line ++ ['\n']) = some v := ofLine?_eq_some_iff.mpr whole
    have cut : (String.join ((v :: stack).map entry)).toList =
        line ++ '\n' :: (String.join (stack.map entry)).toList := by
      simp [String.join_cons, whole]
    rw [cut, ofEntries?_of_ne_nil (by simp), Text.takeLine_append_lineFeed inside,
      Text.behindLine_append_lineFeed inside, first, ih rest]
    rfl

theorem entries_of_ofEntries? {cs : List Char} {stack : Stack}
    (read : ofEntries? cs = some stack) : (String.join (stack.map entry)).toList = cs := by
  fun_induction ofEntries? cs generalizing stack with
  | case1 =>
    cases read
    rfl
  | case2 cs some ih =>
    obtain ⟨v, first, more⟩ := Option.bind_eq_some_iff.mp read
    obtain ⟨stack, rest, rfl⟩ := Option.map_eq_some_iff.mp more
    calc
      (String.join ((v :: stack).map entry)).toList
          = (entry v).toList ++ (String.join (stack.map entry)).toList := by
        rw [List.map_cons, String.join_cons, String.toList_append]
      _ = Text.takeLine cs ++ Text.behindLine cs := by
        rw [ofLine?_eq_some_iff.mp first, ih rest]
      _ = cs := Text.takeLine_append_behindLine cs

theorem ofListing?_listing {stack : Stack} (single : stack.IsSingleLined) :
    ofListing? stack.listing = some stack := by
  have body := List.dropPrefix?_append_of_beq (String.join (stack.map entry)).toList
    (beq_self_eq_true heading.toList)
  rw [ofListing?, listing_eq, String.toList_append, body]
  exact ofEntries?_entries single

theorem listing_of_ofListing? {text : String} {stack : Stack}
    (read : ofListing? text = some stack) : stack.listing = text := by
  obtain ⟨body, headed, entries⟩ := Option.bind_eq_some_iff.mp read
  obtain ⟨front, whole, same⟩ := List.dropPrefix?_eq_some_iff.mp headed
  apply String.toList_inj.mp
  rw [listing_eq, String.toList_append, entries_of_ofEntries? entries, whole, eq_of_beq same]

/-- A listing of texts without line feeds is the listing of one stack only, and that stack is read
back from it and from no other text. -/
theorem listing_faithful {a b : Stack} (single : a.IsSingleLined) (single' : b.IsSingleLined) :
    (a.listing = b.listing → a = b) ∧ ∀ text, ofListing? text = some a ↔ a.listing = text := by
  refine ⟨fun same => ?_, fun text => ⟨listing_of_ofListing?, ?_⟩⟩
  · have read := ofListing?_listing single
    rw [same, ofListing?_listing single'] at read
    exact (Option.some.inj read).symm
  · rintro rfl
    exact ofListing?_listing single

theorem listing_faithful_quotes :
    let rest : Stack := [.text "7'", .text "- type int, value '-1', value '", .text "", .int (-1)]
    let a : Stack := .int 7 :: .text "7" :: rest
    let b : Stack := .text "7" :: .int 7 :: rest
    a.IsSingleLined ∧ b.IsSingleLined ∧ a.listing ≠ b.listing ∧ ofListing? a.listing = some a := by
  intro rest a b
  have single : a.IsSingleLined := by simp [IsSingleLined, a, rest]
  have single' : b.IsSingleLined := by simp [IsSingleLined, b, rest]
  obtain ⟨only, reads⟩ := listing_faithful single single'
  exact ⟨single, single', fun same => absurd (only same) (by decide), (reads _).mpr rfl⟩

/-- A line feed in a text can begin what looks like another entry. -/
example : listing [.text "a'\n- type int, value '1"] = listing [.text "a", .int 1] := by decide

end Stack

end StackMachine

import Workflow.Proofs.Expression.Paths
import Workflow.Proofs.Expression.Verdicts

/-!
# The variables that texts mention

The operands of a condition, the texts of an input and the list of a loop are read in one way: a
text mentions the variable whose name follows the sigil, up to the first dot. `Text.Mentions` says
so of the characters, and `Condition.IsOperand` says by the grammar what the operands of a condition
are.

Contexts that agree on the variables that are mentioned cannot be told apart: each text stands for
the same value in both, and so the input becomes the same and the condition gives the same verdict.
-/
namespace Workflow

/-- A text mentions a variable: blank space around it aside, it is the sigil and the name, and ends
there or goes on with a dot. -/
structure Text.Mentions (text : List Char) (name : String) : Prop where
  named : name ≠ ""
  undotted : '.' ∉ name.toList
  written : ∃ rest, Text.trim text = sigil :: (name.toList ++ rest) ∧
    ∀ next ∈ rest.head?, next = '.'

/-- The variable that a text mentions, if there is one, is bound to the same value in two contexts
or in none of them. -/
def Context.AgreeOn (first second : Context) (text : List Char) : Prop :=
  ∀ name, Text.Mentions text name → first.get? name = second.get? name

/-! ## Finding the variable -/

/-- The variable that a text mentions. -/
def Text.mentioned? (text : List Char) : Option String :=
  match Text.trim text with
  | [] => none
  | first :: path =>
    let root := (Reference.ofPath path).root
    if first = sigil ∧ root ≠ "" then some root else none

/-- The name of a variable and the part of a path after it are found again. -/
theorem Reference.root_ofPath {name : String} (undotted : '.' ∉ name.toList) {rest : List Char}
    (ends : ∀ next ∈ rest.head?, next = '.') : (ofPath (name.toList ++ rest)).root = name := by
  have cut : Text.splitAt '.' (name.toList ++ rest) =
      (name.toList ++ (Text.splitAt '.' rest).1, (Text.splitAt '.' rest).2) :=
    Text.splitAt_append undotted rest
  have nothing : (Text.splitAt '.' rest).1 = [] := by
    cases rest with
    | nil => rfl
    | cons next later =>
      obtain rfl : next = '.' := ends next rfl
      rw [Text.splitAt_separator]
  rw [ofPath, cut, nothing, List.append_nil]
  exact String.ofList_toList

/-- A reference mentions the variable that it starts from. -/
theorem Text.mentions_root {text path : List Char} (trimmed : Text.trim text = sigil :: path)
    (named : (Reference.ofPath path).root ≠ "") :
    Text.Mentions text (Reference.ofPath path).root := by
  obtain ⟨whole, clear, -⟩ := Reference.joined_ofPath path
  refine ⟨named, clear, _, trimmed.trans (congrArg (sigil :: ·) whole.symm), ?_⟩
  intro next starts
  cases segments : (Reference.ofPath path).path with
  | nil => simp [segments] at starts
  | cons segment others =>
    rw [segments, List.map_cons, List.flatMap_cons] at starts
    exact (Option.some.inj starts).symm

/-- The name that is read from a text is the one that it mentions. -/
theorem Text.mentioned?_eq_some_iff (text : List Char) (name : String) :
    Text.mentioned? text = some name ↔ Text.Mentions text name := by
  rw [mentioned?]
  constructor
  · intro found
    cases trimmed : Text.trim text with
    | nil => simp [trimmed] at found
    | cons first path =>
      simp only [trimmed, Option.ite_none_right_eq_some, Option.some.injEq] at found
      obtain ⟨⟨rfl, named⟩, rfl⟩ := found
      exact mentions_root trimmed named
  · rintro ⟨named, undotted, rest, trimmed, ends⟩
    simp [trimmed, Reference.root_ofPath undotted ends, named]

/-! ## Agreement -/

variable {first second : Context}

/-- One more variable that is the same in both contexts cannot tell them apart. -/
theorem Context.AgreeOn.bind {text : List Char} (agree : first.AgreeOn second text)
    (name : String) (value : Value) :
    (first.bind name value).AgreeOn (second.bind name value) text := by
  intro mentioned mentions
  show List.lookup mentioned ((name, value) :: first.bindings) =
    List.lookup mentioned ((name, value) :: second.bindings)
  have older : first.bindings.lookup mentioned = second.bindings.lookup mentioned :=
    agree mentioned mentions
  rw [List.lookup_cons, List.lookup_cons, older]

/-- A reference leads to the same value in contexts that agree on its text. -/
theorem Context.AgreeOn.reference {text path : List Char} (agree : first.AgreeOn second text)
    (trimmed : Text.trim text = sigil :: path) :
    (Reference.ofPath path).resolve? first = (Reference.ofPath path).resolve? second := by
  rw [Reference.resolve?, Reference.resolve?]
  by_cases empty : (Reference.ofPath path).root = ""
  · rw [if_pos empty, if_pos empty]
  · rw [if_neg empty, if_neg empty, agree _ (Text.mentions_root trimmed empty)]

/-- A text stands for the same value in contexts that agree on it. -/
theorem resolve?_congr {text : String} (agree : first.AgreeOn second text.toList) :
    resolve? text first = resolve? text second := by
  rw [resolve?, resolve?, Expression.ofText]
  cases trimmed : Text.trim text.toList with
  | nil => rfl
  | cons character path =>
    by_cases refers : character = sigil
    · subst refers
      exact agree.reference trimmed
    · simp only [if_neg refers, Expression.resolve?]

/-! ## Inputs -/

mutual

/-- The texts in a value. The keys of records are not among them. -/
def Value.texts : Value → List String
  | .text text => [text]
  | .list items => itemTexts items
  | .record fields => fieldTexts fields
  | .null | .bool _ | .number _ => []

/-- The texts in several values. -/
def itemTexts : List Value → List String
  | [] => []
  | item :: rest => item.texts ++ itemTexts rest

/-- The texts in the values of several fields. -/
def fieldTexts : List (String × Value) → List String
  | [] => []
  | (_, value) :: rest => value.texts ++ fieldTexts rest

end

mutual

/-- An input becomes the same in contexts that agree on its texts. -/
theorem resolveInput_congr (value : Value)
    (agree : ∀ text ∈ value.texts, first.AgreeOn second text.toList) :
    resolveInput first value = resolveInput second value := by
  cases value with
  | null | bool _ | number _ => rfl
  | text text =>
    rw [Value.texts, List.forall_mem_singleton] at agree
    rw [resolveInput, resolveInput, resolve?_congr agree]
  | list items =>
    rw [Value.texts] at agree
    rw [resolveInput, resolveInput, resolveItems_congr items agree]
  | record fields =>
    rw [Value.texts] at agree
    rw [resolveInput, resolveInput, resolveFields_congr fields agree]

/-- Items resolve alike where contexts agree on what their texts mention. -/
theorem resolveItems_congr (items : List Value)
    (agree : ∀ text ∈ itemTexts items, first.AgreeOn second text.toList) :
    resolveItems first items = resolveItems second items := by
  cases items with
  | nil => rfl
  | cons item rest =>
    rw [itemTexts, List.forall_mem_append] at agree
    rw [resolveItems, resolveItems, resolveInput_congr item agree.1,
      resolveItems_congr rest agree.2]

/-- Fields resolve alike where contexts agree on what their texts mention. -/
theorem resolveFields_congr (fields : List (String × Value))
    (agree : ∀ text ∈ fieldTexts fields, first.AgreeOn second text.toList) :
    resolveFields first fields = resolveFields second fields := by
  match fields with
  | [] => rfl
  | (key, value) :: rest =>
    rw [fieldTexts, List.forall_mem_append] at agree
    rw [resolveFields, resolveFields, resolveInput_congr value agree.1,
      resolveFields_congr rest agree.2]

end

/-! ## Conditions -/

namespace Condition

/-- A token is an operand of a condition: the whole of it if it is clean, or a part of it if it is
cut. -/
inductive IsOperand (condition : List Char) : List Char → Prop where
  | whole (clean : Clean condition) : IsOperand condition condition
  | left {parts : Split} (cuts : parts.Cuts condition) : IsOperand condition parts.left
  | right {parts : Split} (cuts : parts.Cuts condition) : IsOperand condition parts.right

/-- The operands of a condition. -/
def operands (condition : List Char) : List (List Char) :=
  match split condition with
  | .ok none => [condition]
  | .ok (some parts) => [parts.left, parts.right]
  | .error _ => []

/-- The listed operands of a condition are its operands. -/
theorem mem_operands_iff (condition token : List Char) :
    token ∈ operands condition ↔ IsOperand condition token := by
  rw [operands]
  constructor
  · intro among
    match cut : split condition with
    | .error cause => simp [cut] at among
    | .ok none =>
      simp only [cut, List.mem_singleton] at among
      subst among
      exact .whole ((split_whole_iff token).mp cut)
    | .ok (some parts) =>
      have cuts : parts.Cuts condition := (split_parts_iff condition parts).mp cut
      simp only [cut, List.mem_cons, List.not_mem_nil, or_false] at among
      rcases among with rfl | rfl
      · exact .left cuts
      · exact .right cuts
  · intro operand
    cases operand with
    | whole clean => simp [(split_whole_iff condition).mpr clean]
    | left cuts => simp [(split_parts_iff condition _).mpr cuts]
    | right cuts => simp [(split_parts_iff condition _).mpr cuts]

/-- An operand is the same where contexts agree on what it mentions. -/
theorem operand_congr {token : List Char} (agree : first.AgreeOn second token) :
    operand token first = operand token second := by
  rw [operand, operand]
  cases trimmed : Text.trim token with
  | nil => rfl
  | cons character path =>
    by_cases refers : character = sigil
    · subst refers
      simp only [agree.reference trimmed]
    · simp only [if_neg refers]

/-- A condition is judged alike where contexts agree on what its operands mention. -/
theorem judge_congr {condition : List Char}
    (agree : ∀ token, IsOperand condition token → first.AgreeOn second token) :
    judge condition first = judge condition second := by
  match cut : split condition with
  | .error cause => rw [judge, judge, cut]; rfl
  | .ok none =>
    have clean : Clean condition := (split_whole_iff condition).mp cut
    rw [judge_clean clean, judge_clean clean, operand_congr (agree condition (.whole clean))]
  | .ok (some parts) =>
    have cuts : parts.Cuts condition := (split_parts_iff condition parts).mp cut
    rw [judge_parts cuts, judge_parts cuts, operand_congr (agree parts.left (.left cuts)),
      operand_congr (agree parts.right (.right cuts))]

/-- A condition gives the same verdict in contexts that agree on its operands. -/
theorem evaluate_congr {condition : Option String}
    (agree : ∀ text ∈ condition, ∀ token, IsOperand (Text.trim text.toList) token →
      first.AgreeOn second token) :
    evaluate condition first = evaluate condition second := by
  cases condition with
  | none => rfl
  | some text =>
    have same : judge (Text.trim text.toList) first = judge (Text.trim text.toList) second :=
      judge_congr (agree text rfl)
    by_cases blank : Text.trim text.toList = []
    · rw [evaluate, evaluate, Option.map_some, blank]
    · rw [evaluate_filled blank, evaluate_filled blank, same]

end Condition

end Workflow

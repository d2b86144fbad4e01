import Workflow.Proofs.Expression.Integers
import Workflow.Proofs.Expression.Outputs

/-!
# Comparing a variable with a quoted text

Between quotes stands a text as it is: operators, the sigil, the other quote and blanks at the ends
have no meaning there. So a condition that compares a variable with a quoted text can always be
read, and it holds if the variable is bound to that very text. It also holds if both read as numbers
and the floating-point numbers nearest to them are the same, which whole numbers beyond `2 ^ 53` can
be without being equal.

`Condition.Token` is what can stand on either side of a comparison, and `Condition.evaluate_tokens`
says that two tokens with a comparison between them are compared.
-/
namespace Workflow.Condition

/-- A name that can be written after the sigil in a condition. -/
structure IsPlainName (name : String) : Prop where
  named : name ≠ ""
  unblank : ∀ character ∈ name.toList, Text.isBlank character = false
  undotted : '.' ∉ name.toList
  unquoted : ∀ character ∈ name.toList, isQuote character = false
  wordly : ∀ character ∈ name.toList, isOperator character = false

/-- A plain name is not empty and holds no dot, no blank, no quote and no operator. -/
theorem isPlainName_iff (name : String) : IsPlainName name ↔
    name ≠ "" ∧ '.' ∉ name.toList ∧ name.toList.all (fun character =>
      !Text.isBlank character && !isQuote character && !isOperator character) = true := by
  simp only [List.all_eq_true, Bool.and_eq_true, Bool.not_eq_true']
  constructor
  · intro plain
    exact ⟨plain.named, plain.undotted, fun character among =>
      ⟨⟨plain.unblank character among, plain.unquoted character among⟩,
        plain.wordly character among⟩⟩
  · rintro ⟨named, undotted, each⟩
    exact ⟨named, fun character among => (each character among).1.1, undotted,
      fun character among => (each character among).1.2,
      fun character among => (each character among).2⟩

instance (name : String) : Decidable (IsPlainName name) :=
  decidable_of_iff' _ (isPlainName_iff name)

/-- A text between two quotes. -/
def quoted (quote : Char) (text : String) : String :=
  String.singleton quote ++ text ++ String.singleton quote

/-- The floating-point number that a value denotes: a whole number denotes the nearest one, and a
text the one that it reads as without the blanks at its ends. -/
inductive Denotes : Value → Binary64 → Prop where
  | integer (value : Int) : Denotes (.ofInt value) (.ofInt value)
  | float (value : Binary64) : Denotes (.number (.float value)) value
  | text {text : String} {number : Binary64}
      (reads : Binary64.ofText? (Text.trim text.toList) = some number) :
      Denotes (.text text) number

/-- A value is a whole number, or a text that writes one in the range of 64 bits. -/
inductive IsWhole : Value → Int → Prop where
  | number (value : Int) : IsWhole (.ofInt value) value
  | text {text : String} {value : Int} (writes : IsInteger (Text.trim text.toList) value)
      (least : -(2 ^ 63) ≤ value) (greatest : value < 2 ^ 64) : IsWhole (.text text) value

/-! ## Tokens -/

/-- A text that can stand on either side of a comparison and has a value there. -/
structure Token (context : Context) (text : List Char) (value : Option Value) : Prop where
  clean : Clean text
  filled : text ≠ []
  starts : ∀ first ∈ text.head?, Text.isBlank first = false
  ends : ∀ last ∈ text.getLast?, Text.isBlank last = false
  reads : operand text context = .ok value

variable {context : Context}

/-- A blank in front of a token is trimmed away. -/
theorem Token.trim_cons {text : List Char} {value : Option Value}
    (token : Token context text value) : Text.trim (' ' :: text) = text :=
  Text.trim_eq_self token.starts token.ends

/-- So is a blank behind it. -/
theorem Token.trim_concat {text : List Char} {value : Option Value}
    (token : Token context text value) : Text.trim (text ++ [' ']) = text := by
  have started : Text.trimStart (text ++ [' ']) = text ++ [' '] :=
    Text.trimStart_eq_self fun first begins =>
      token.starts first (by rwa [List.head?_append_of_ne_nil _ token.filled] at begins)
  rw [Text.trim, started, Text.trimEnd_concat rfl]
  exact Text.trimEnd_eq_self_iff.mpr token.ends

/-- A comparison with a token on both sides is read as it is written. -/
theorem evaluate_tokens {left right : List Char} {first second : Option Value}
    (one : Token context left first) (other : Token context right second)
    (comparison : Comparison) (condition : String)
    (written : condition.toList = left ++ ' ' :: comparison.token ++ ' ' :: right) :
    evaluate (some condition) context = ⟨compare comparison first second, none⟩ := by
  let parts : Split := ⟨left ++ [' '], comparison, ' ' :: right⟩
  have starts : ∀ first ∈ condition.toList.head?, Text.isBlank first = false := by
    intro first begins
    apply one.starts
    rw [written, List.append_assoc, List.head?_append_of_ne_nil _ one.filled] at begins
    exact begins
  have ends : ∀ last ∈ condition.toList.getLast?, Text.isBlank last = false := by
    intro last final
    apply other.ends
    rw [written, List.getLast?_append_of_ne_nil _ (List.cons_ne_nil _ _),
      List.getLast?_cons_of_ne_nil other.filled] at final
    exact final
  have trimmed : Text.trim condition.toList = condition.toList := Text.trim_eq_self starts ends
  have cuts : parts.Cuts (Text.trim condition.toList) := by
    refine ⟨?_, one.clean.append (.of_plain rfl rfl), .plain rfl rfl other.clean⟩
    rw [trimmed, written]
    simp [parts]
  have before : Text.trim parts.left = left := one.trim_concat
  have after : Text.trim parts.right = right := other.trim_cons
  obtain ⟨value, against, readLeft, readRight, verdict⟩ :=
    (evaluate_judges condition context).compared parts cuts (before.symm ▸ one.filled)
      (after.symm ▸ other.filled)
  rw [before, one.reads] at readLeft
  rw [after, other.reads] at readRight
  cases readLeft
  cases readRight
  exact verdict

/-- A quote is neither blank nor the sigil. -/
theorem quote_cases {quote : Char} (opens : isQuote quote = true) :
    Text.isBlank quote = false ∧ quote ≠ sigil := by
  simp only [isQuote, Bool.or_eq_true, decide_eq_true_eq] at opens
  rcases opens with rfl | rfl <;> decide

/-- A quoted text is a token that stands for the text, whatever is in it. -/
theorem token_quoted {quote : Char} (opens : isQuote quote = true) {text : String}
    (inside : quote ∉ text.toList) :
    Token context (quote :: text.toList ++ [quote]) (some (.text text)) := by
  obtain ⟨unblank, other⟩ := quote_cases opens
  have starts : ∀ first ∈ (quote :: text.toList ++ [quote]).head?,
      Text.isBlank first = false := by
    rintro first ⟨⟩
    exact unblank
  have ends : ∀ last ∈ (quote :: text.toList ++ [quote]).getLast?,
      Text.isBlank last = false := by
    intro last final
    rw [List.getLast?_concat] at final
    cases final
    exact unblank
  have between : unquote? (quote :: (text.toList ++ [quote])) = some text.toList := by
    rw [unquote?, if_pos ⟨opens, List.getLast?_concat⟩, List.dropLast_concat]
  refine ⟨.of_quoted opens inside, List.cons_ne_nil _ _, starts, ends, ?_⟩
  rw [operand, Text.trim_eq_self starts ends, List.cons_append]
  simp only [if_neg other, between, String.ofList_toList]

/-- The sigil and a plain name are a token that stands for the value of the variable. -/
theorem token_variable {name : String} (plain : IsPlainName name) :
    Token context (sigil :: name.toList) (context.get? name) := by
  have nonempty : name.toList ≠ [] := by simpa using plain.named
  have starts : ∀ first ∈ (sigil :: name.toList).head?, Text.isBlank first = false := by
    rintro first ⟨⟩
    rfl
  have ends : ∀ last ∈ (sigil :: name.toList).getLast?, Text.isBlank last = false := by
    intro last final
    rw [List.getLast?_cons_of_ne_nil nonempty] at final
    exact plain.unblank last (List.mem_of_getLast? final)
  have clean (word : List Char) (unquoted : ∀ character ∈ word, isQuote character = false)
      (wordly : ∀ character ∈ word, isOperator character = false) : Clean word := by
    induction word with
    | nil => exact .nothing
    | cons first rest ih =>
      rw [List.forall_mem_cons] at unquoted wordly
      exact .plain unquoted.1 wordly.1 (ih unquoted.2 wordly.2)
  refine ⟨.plain rfl rfl (clean _ plain.unquoted plain.wordly), List.cons_ne_nil _ _, starts,
    ends, ?_⟩
  rw [operand, Text.trim_eq_self starts ends]
  simp only [if_true, Reference.ofPath_name plain.undotted, Reference.resolve?_name plain.named]

/-! ## Numbers -/

/-- A value denotes the number that is read from it. -/
theorem denotes_iff (value : Value) (number : Binary64) :
    Denotes value number ↔ numeric? (some value) = some number := by
  constructor
  · rintro (whole | float | reads)
    · rfl
    · rfl
    · exact reads
  · intro found
    match value with
    | .number (.integer whole) =>
      cases found
      exact .integer whole
    | .number (.float float) =>
      cases found
      exact .float float
    | .text text => exact .text found
    | .null | .bool _ | .list _ | .record _ => cases found

/-- Operands have one measure just if they denote numbers of one value, or none and their values are
equal. -/
theorem measure_eq_iff (first second : Option Value) :
    measure first = measure second ↔
      (∃ left right, numeric? first = some left ∧ numeric? second = some right ∧
        left.scaled = right.scaled) ∨
      (numeric? first = none ∧ numeric? second = none ∧
        (first.getD .null).normal = (second.getD .null).normal) := by
  rw [measure, measure]
  cases numeric? first <;> cases numeric? second <;> simp

/-- An operand has the measure of a text just if it is the text or both denote numbers of one value.
-/
theorem measure_eq_text_iff (operand : Option Value) (text : String) :
    measure operand = measure (some (.text text)) ↔ operand = some (.text text) ∨
      ∃ value left right, operand = some value ∧ Denotes value left ∧
        Denotes (.text text) right ∧ left.scaled = right.scaled := by
  simp only [denotes_iff]
  constructor
  · intro same
    rcases (measure_eq_iff _ _).mp same with ⟨left, right, first, second, equal⟩ | ⟨-, -, normal⟩
    · cases operand with
      | none => cases first
      | some value => exact .inr ⟨value, left, right, rfl, first, second, equal⟩
    · -- A text is the normal form of no value but itself.
      match operand with
      | some (.text word) =>
        cases normal
        exact .inl rfl
      | none | some .null | some (.bool _) | some (.number _) | some (.list _)
      | some (.record _) => cases normal
  · rintro (rfl | ⟨value, left, right, rfl, first, second, equal⟩)
    · rfl
    · exact (measure_eq_iff _ _).mpr (.inl ⟨left, right, first, second, equal⟩)

/-- The measure of a whole number is the nearest number to it. -/
theorem IsWhole.measure {value : Value} {number : Int} (whole : IsWhole value number) :
    measure (some value) = .number (Binary64.nearest number * Binary64.unitsPerOne) := by
  cases whole with
  | number => exact (measure_of_numeric rfl).trans (congrArg _ (Binary64.scaled_ofInt number))
  | @text text _ writes least greatest =>
    obtain ⟨read, reads, value⟩ := Binary64.ofText?_of_isInteger writes (by omega)
    have numeric : numeric? (some (.text text)) = some read := reads
    exact (measure_of_numeric numeric).trans (congrArg _ value)

/-! ## Conditions with a quoted text -/

/-- Equality is symmetric. -/
theorem compare_equal_symm (left right : Option Value) :
    compare .equal left right = compare .equal right left := by
  rw [Bool.eq_iff_iff, compare_equal_iff, compare_equal_iff, eq_comm]

/-- Operands are unequal if they are not equal. -/
theorem compare_unequal (left right : Option Value) :
    compare .unequal left right = !compare .equal left right := by
  simp [compare_eq, Measure.compare]

/-- A condition that compares a variable with a quoted text can be read, on whichever side the text
stands. It holds just if the variable is bound to the text, or both denote numbers of one value; of
whole numbers these are the nearest ones, so that it tells two whole numbers apart just if they do.
-/
theorem quoted_texts_compared (context : Context) {name : String} (plain : IsPlainName name)
    {quote : Char} (opens : isQuote quote = true) {text : String} (inside : quote ∉ text.toList) :
    let literal := quoted quote text
    let equal := evaluate (some ("$" ++ name ++ " == " ++ literal)) context
    let unequal := evaluate (some ("$" ++ name ++ " != " ++ literal)) context
    equal.unreadable = none ∧ unequal.unreadable = none ∧
    (equal.holds = true ↔ context.get? name = some (.text text) ∨
      ∃ value left right, context.get? name = some value ∧ Denotes value left ∧
        Denotes (.text text) right ∧ left.scaled = right.scaled) ∧
    unequal.holds = !equal.holds ∧
    evaluate (some (literal ++ " == " ++ "$" ++ name)) context = equal ∧
    evaluate (some (literal ++ " != " ++ "$" ++ name)) context = unequal ∧
    ∀ value first second, context.get? name = some value → IsWhole value first →
      IsWhole (.text text) second →
      (equal.holds = true ↔ Binary64.nearest first = Binary64.nearest second) ∧
      (Binary64.Separate first second → (equal.holds = true ↔ first = second)) ∧
      (first.natAbs ≤ 2 ^ 53 → second.natAbs ≤ 2 ^ 53 → Binary64.Separate first second) := by
  have bound : Token context (sigil :: name.toList) (context.get? name) := token_variable plain
  have literal : Token context (quote :: text.toList ++ [quote]) (some (.text text)) :=
    token_quoted opens inside
  have equal := evaluate_tokens bound literal .equal
    ("$" ++ name ++ " == " ++ quoted quote text)
    (by simp [quoted, sigil, Comparison.token])
  have unequal := evaluate_tokens bound literal .unequal
    ("$" ++ name ++ " != " ++ quoted quote text)
    (by simp [quoted, sigil, Comparison.token])
  have equalSwapped := evaluate_tokens literal bound .equal
    (quoted quote text ++ " == " ++ "$" ++ name)
    (by simp [quoted, sigil, Comparison.token])
  have unequalSwapped := evaluate_tokens literal bound .unequal
    (quoted quote text ++ " != " ++ "$" ++ name)
    (by simp [quoted, sigil, Comparison.token])
  dsimp only
  rw [equal, unequal, equalSwapped, unequalSwapped, compare_unequal, compare_unequal,
    compare_equal_symm (some (.text text))]
  refine ⟨rfl, rfl, ?_, rfl, rfl, rfl, ?_⟩
  · exact (compare_equal_iff _ _).trans (measure_eq_text_iff _ _)
  · intro value first second holds whole other
    have nearest : compare .equal (context.get? name) (some (.text text)) = true ↔
        Binary64.nearest first = Binary64.nearest second := by
      rw [holds, compare_eq, whole.measure, other.measure]
      exact Measure.compare_whole .equal _ _
    refine ⟨nearest, ?_, Binary64.separate_of_small⟩
    intro separate
    exact nearest.trans (separate.holds_iff .equal)

/-- A variable may be equal to a quoted whole number that is not the one it holds. -/
theorem other_number_quoted :
    IsPlainName "id" ∧ isQuote '\'' = true ∧ '\'' ∉ "9007199254740992".toList ∧
      (holding 9007199254740993).get? "id" = some (.ofInt 9007199254740993) ∧
      IsWhole (.text "9007199254740992") 9007199254740992 ∧
      ¬((evaluate (some ("$" ++ "id" ++ " == " ++ quoted '\'' "9007199254740992"))
          (holding 9007199254740993)).holds = true ↔
        (holding 9007199254740993).get? "id" = some (.text "9007199254740992") ∨
          (9007199254740993 : Int) = 9007199254740992) := by
  have plain : IsPlainName "id" := by decide
  have numeral : IsNumeral "9007199254740992".toList 9007199254740992 :=
    ⟨by decide, by decide, by decide⟩
  have bound : (holding 9007199254740993).get? "id" = some (.ofInt 9007199254740993) := rfl
  have equal : (evaluate (some ("$" ++ "id" ++ " == " ++ quoted '\'' "9007199254740992"))
      (holding 9007199254740993)).holds = true := by decide +kernel
  refine ⟨plain, rfl, by decide, bound, .text (.plain numeral) (by decide) (by decide), ?_⟩
  intro right
  rcases right.mp equal with same | same
  · rw [bound] at same
    cases same
  · exact absurd same (by decide)

/-- Operators, the other quote, the sigil and blanks between the quotes are part of the text. -/
theorem quoted_texts_compared_verbatim :
    let text := " $a == \"ü\" "
    let context := (Context.start "w" "run" .null).setOutput "título" (.text text)
    IsPlainName "título" ∧ isQuote '\'' = true ∧ '\'' ∉ text.toList ∧
      (evaluate (some ("$" ++ "título" ++ " == " ++ quoted '\'' text)) context).holds = true ∧
      (evaluate (some ("$" ++ "título" ++ " != " ++ quoted '\'' text)) context).holds = false := by
  intro text context
  have plain : IsPlainName "título" := by decide
  have quote : isQuote '\'' = true := rfl
  have inside : '\'' ∉ text.toList := by decide
  obtain ⟨-, -, equal, unequal, -⟩ :=
    quoted_texts_compared context plain quote inside
  have holds := equal.mpr (.inl rfl)
  exact ⟨plain, quote, inside, holds, by rw [unequal, holds, Bool.not_true]⟩

end Workflow.Condition

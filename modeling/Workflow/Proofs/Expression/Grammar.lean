import Workflow.Expression.Condition

/-!
# The grammar of conditions

A text is clean if every quoted span in it is closed and no operator stands outside quotes. A
condition is a clean text, or two of them with a comparison in between, and it can be cut in at most
one such way.

`Scan.Reads` says by this grammar what a scan gives that has come part of the way. Scanning gives
just that: a clean part is read without a trace, and whatever is read to the end was of that form.
-/
namespace Workflow

/-- What comes after a comparison does not make it a longer one. -/
def Comparison.Ends : Comparison → List Char → Prop
  | .greater, rest | .less, rest => rest.head? ≠ some '='
  | _, _ => True

namespace Condition

/-! ## Clean texts -/

/-- The characters of which comparisons are written. -/
def isOperator (character : Char) : Bool :=
  character = '<' || character = '>' || character = '=' || character = '!'

/-- Characters other than those of the operators make none. -/
theorem isOperator_eq_false {character : Char} (less : character ≠ '<') (greater : character ≠ '>')
    (word : ¬(character = '=' ∨ character = '!')) : isOperator character = false := by
  obtain ⟨equal, negation⟩ := not_or.mp word
  simpa [isOperator] using ⟨⟨⟨less, greater⟩, equal⟩, negation⟩

/-- Every quoted span is closed by the quote that opened it, and there is no operator outside. -/
inductive Clean : List Char → Prop where
  | nothing : Clean []
  | plain {character : Char} {rest : List Char} (unquoted : isQuote character = false)
      (word : isOperator character = false) (later : Clean rest) : Clean (character :: rest)
  /-- Inside a span every other character is ordinary. -/
  | quoted {quote : Char} {span rest : List Char} (opens : isQuote quote = true)
      (inside : quote ∉ span) (later : Clean rest) : Clean (quote :: span ++ quote :: rest)

/-- Clean texts one after the other are clean. -/
theorem Clean.append {first second : List Char} (clean : Clean first) (others : Clean second) :
    Clean (first ++ second) := by
  induction clean with
  | nothing => exact others
  | plain unquoted word _ ih => exact .plain unquoted word ih
  | quoted opens inside _ ih =>
    rw [List.append_assoc]
    exact .quoted opens inside ih

/-- A character that is neither a quote nor an operator is clean. -/
theorem Clean.of_plain {character : Char} (unquoted : isQuote character = false)
    (word : isOperator character = false) : Clean [character] := .plain unquoted word .nothing

/-- A quoted span is clean, whatever other characters it holds. -/
theorem Clean.of_quoted {quote : Char} {span : List Char} (opens : isQuote quote = true)
    (inside : quote ∉ span) : Clean (quote :: span ++ [quote]) := .quoted opens inside .nothing

/-- No clean text begins with an operator. -/
theorem Clean.isOperator_head {character : Char} {rest : List Char}
    (clean : Clean (character :: rest)) : isOperator character = false := by
  cases clean with
  | plain _ word _ => exact word
  | quoted opens _ _ =>
    simp only [isQuote, Bool.or_eq_true, decide_eq_true_eq] at opens
    rcases opens with rfl | rfl <;> rfl

/-- What is not followed by an equals sign does not have one at its head. -/
theorem head?_ne {rest : List Char} (other : ∀ later, rest = '=' :: later → False) :
    rest.head? ≠ some '=' := by
  intro head
  obtain ⟨later, same⟩ := List.head?_eq_some_iff.mp head
  exact other later same

/-- So a clean text makes no longer comparison of the one in front of it. -/
theorem Clean.ends {rest : List Char} (clean : Clean rest) (comparison : Comparison) :
    comparison.Ends rest := by
  have other : rest.head? ≠ some '=' := head?_ne fun later same => by
    subst same
    cases clean.isOperator_head
  cases comparison with
  | greater | less => exact other
  | atLeast | atMost | equal | unequal => trivial

/-! ## What a scan does with the beginning of a text -/

/-- Read some characters that are no operators. -/
def Scan.read (scan : Scan) (text : List Char) : Scan :=
  { scan with reversed := text.reverse ++ scan.reversed }

/-- To read nothing changes nothing. -/
@[simp] theorem Scan.read_nil (scan : Scan) : scan.read [] = scan := rfl

/-- To read a character, then a text, is to read the longer text. -/
@[simp] theorem Scan.read_push (scan : Scan) (character : Char) (text : List Char) :
    (scan.push character).read text = scan.read (character :: text) := by
  simp [read, push]

/-- To read two texts is to read one after the other. -/
theorem Scan.read_append (scan : Scan) (first second : List Char) :
    scan.read (first ++ second) = (scan.read first).read second := by
  simp [read]

/-- The scanner reads on over a plain character. -/
theorem scanOutside_plain (scan : Scan) {character : Char} (unquoted : isQuote character = false)
    (word : isOperator character = false) (rest : List Char) :
    scanOutside scan (character :: rest) = scanOutside (scan.push character) rest := by
  simp only [isOperator, Bool.or_eq_false_iff, decide_eq_false_iff_not] at word
  rw [scanOutside] <;> simp_all

/-- At a quote the scanner enters a quoted span. -/
theorem scanOutside_quote (scan : Scan) {quote : Char} (opens : isQuote quote = true)
    (rest : List Char) :
    scanOutside scan (quote :: rest) = scanQuoted quote (scan.push quote) rest := by
  simp only [isQuote, Bool.or_eq_true, decide_eq_true_eq] at opens
  rcases opens with rfl | rfl <;> rw [scanOutside] <;> simp [isQuote]

/-- The two characters of a comparison are not taken apart. -/
theorem scanOutside_token (scan : Scan) {comparison : Comparison} {rest : List Char}
    (ends : comparison.Ends rest) : scanOutside scan (comparison.token ++ rest) =
      (scan.compare comparison).bind fun scan => scanOutside scan rest := by
  cases comparison with
  | greater => exact scanOutside.eq_6 scan rest fun later same => ends (same ▸ rfl)
  | less => exact scanOutside.eq_7 scan rest fun later same => ends (same ▸ rfl)
  | atLeast | atMost | equal | unequal => rfl

/-- A quoted span is read up to the quote that closes it. -/
theorem scanQuoted_span (quote : Char) (scan : Scan) {span : List Char} (inside : quote ∉ span)
    (rest : List Char) : scanQuoted quote scan (span ++ quote :: rest) =
      scanOutside (scan.read (span ++ [quote])) rest := by
  induction span generalizing scan with
  | nil => simp [scanQuoted, ← Scan.read_push]
  | cons character span ih =>
    obtain ⟨other, later⟩ := List.ne_and_not_mem_of_not_mem_cons inside
    rw [List.cons_append, scanQuoted, if_neg (Ne.symm other), ih _ later, Scan.read_push,
      List.cons_append]

/-- A clean part is read without a trace. -/
theorem scanOutside_clean {part : List Char} (clean : Clean part) (scan : Scan)
    (rest : List Char) : scanOutside scan (part ++ rest) = scanOutside (scan.read part) rest := by
  induction clean generalizing scan with
  | nothing => rfl
  | plain unquoted word _ ih =>
    rw [List.cons_append, scanOutside_plain scan unquoted word, ih, Scan.read_push]
  | @quoted quote span later opens inside _ ih =>
    have closed : quote :: span ++ quote :: later = quote :: (span ++ [quote]) ++ later := by simp
    rw [closed, List.append_assoc, List.cons_append, scanOutside_quote scan opens,
      List.append_assoc, List.singleton_append,
      scanQuoted_span quote _ inside, ih, ← Scan.read_append, Scan.read_push]
    simp

/-! ## What a scan gives -/

/-- By the grammar, what a scan gives when a text is still to be read. -/
inductive Scan.Reads : Scan → List Char → Option Split → Prop where
  | simple {reversed text : List Char} (clean : Clean text) : Reads ⟨none, reversed⟩ text none
  /-- The comparison is still to come. -/
  | compared {reversed left right : List Char} (comparison : Comparison) (first : Clean left)
      (second : Clean right) : Reads ⟨none, reversed⟩ (left ++ comparison.token ++ right)
        (some ⟨reversed.reverse ++ left, comparison, right⟩)
  /-- The comparison has been read. -/
  | right {left reversed text : List Char} (comparison : Comparison) (clean : Clean text) :
      Reads ⟨some (left, comparison), reversed⟩ text
        (some ⟨left, comparison, reversed.reverse ++ text⟩)

/-- What is read behind a clean part is read with the part in front of it. -/
theorem Scan.Reads.behind {scan : Scan} {part rest : List Char} {result : Option Split}
    (reads : (scan.read part).Reads rest result) (clean : Clean part) :
    scan.Reads (part ++ rest) result := by
  obtain ⟨found, reversed⟩ := scan
  rcases found with _ | ⟨left, comparison⟩
  · cases reads with
    | simple later => exact .simple (clean.append later)
    | compared comparison first second =>
      have cut := @Scan.Reads.compared reversed _ _ comparison (clean.append first) second
      simpa using cut
  · cases reads with
    | right _ later =>
      have cut := @Scan.Reads.right left reversed _ comparison (clean.append later)
      simpa using cut

/-- The comparison comes at once if a scan gets past it and on to the end. -/
theorem Scan.Reads.token {scan : Scan} (comparison : Comparison) {rest : List Char}
    {result : Option Split}
    (given : ((scan.compare comparison).bind fun next => scanOutside next rest) = .ok result)
    (reads : ∀ next, scanOutside next rest = .ok result → next.Reads rest result) :
    scan.Reads (comparison.token ++ rest) result := by
  obtain ⟨found, reversed⟩ := scan
  cases found with
  | some => cases given
  | none =>
    cases reads _ given with
    | right _ clean =>
      have cut := @Scan.Reads.compared reversed _ _ comparison .nothing clean
      simpa using cut

/-- A scan that comes to the end has read a text of the grammar. -/
theorem reads_of_scanOutside (scan : Scan) (text : List Char) :
    ∀ result, scanOutside scan text = .ok result → scan.Reads text result := by
  -- Inside a span the text has to close it first; what comes then is read outside.
  let closes (quote : Char) (scan : Scan) (text : List Char) : Prop :=
    ∀ result, scanQuoted quote scan text = .ok result → ∃ span rest,
      text = span ++ quote :: rest ∧ quote ∉ span ∧
        (scan.read (span ++ [quote])).Reads rest result
  refine scanOutside.induct
    (fun scan text => ∀ result, scanOutside scan text = .ok result → scan.Reads text result) closes
    ?done ?atLeast ?atMost ?equal ?unequal ?greater ?less ?stray ?opens ?plain ?unclosed ?closed
    ?inside scan text
  case done =>
    intro scan result given
    obtain ⟨_ | ⟨left, comparison⟩, reversed⟩ := scan
    · cases given
      exact .simple .nothing
    · cases given
      simpa [Scan.finish] using @Scan.Reads.right left reversed [] comparison .nothing
  case atLeast => exact fun _ _ ih result given => .token .atLeast given fun next => ih next result
  case atMost => exact fun _ _ ih result given => .token .atMost given fun next => ih next result
  case equal => exact fun _ _ ih result given => .token .equal given fun next => ih next result
  case unequal => exact fun _ _ ih result given => .token .unequal given fun next => ih next result
  case greater =>
    intro scan rest other ih result given
    rw [scanOutside.eq_6 scan rest other] at given
    exact .token .greater given fun next => ih next result
  case less =>
    intro scan rest other ih result given
    rw [scanOutside.eq_7 scan rest other] at given
    exact .token .less given fun next => ih next result
  case stray =>
    intro scan character rest _ _ _ _ greater less stray result given
    rw [scanOutside] at given <;> simp_all
  case opens =>
    intro scan quote rest _ _ _ _ _ _ _ opens ih result given
    rw [scanOutside_quote scan opens] at given
    obtain ⟨span, later, rfl, inside, reads⟩ := ih result given
    have clean : Clean (quote :: (span ++ [quote])) := .of_quoted opens inside
    rw [Scan.read_push] at reads
    simpa using reads.behind clean
  case plain =>
    intro scan character rest _ _ _ _ greater less word unquoted ih result given
    have unquoted : isQuote character = false := by simpa using unquoted
    have word : isOperator character = false := isOperator_eq_false less greater word
    rw [scanOutside_plain scan unquoted word] at given
    have reads : (scan.read [character]).Reads rest result := ih result given
    exact reads.behind (.of_plain unquoted word)
  case unclosed =>
    intro quote scan result given
    cases given
  case closed =>
    intro scan quote rest ih result given
    rw [scanQuoted, if_pos rfl] at given
    exact ⟨[], rest, rfl, List.not_mem_nil, ih result given⟩
  case inside =>
    intro quote scan character rest other ih result given
    rw [scanQuoted, if_neg other] at given
    obtain ⟨span, later, rfl, inside, reads⟩ := ih result given
    refine ⟨character :: span, later, rfl, ?_, by simpa using reads⟩
    simp [inside, Ne.symm other]

/-- The scanner reads a clean text to its end and finds no operator. -/
theorem scanOutside_end {text : List Char} (clean : Clean text) (scan : Scan) :
    scanOutside scan text = .ok (scan.read text).finish := by
  have all := scanOutside_clean clean scan []
  rwa [List.append_nil, scanOutside] at all

/-- A text of the grammar is read to the end. -/
theorem Scan.Reads.scanOutside_eq {scan : Scan} {text : List Char} {result : Option Split}
    (reads : scan.Reads text result) : scanOutside scan text = .ok result := by
  cases reads with
  | simple clean => exact scanOutside_end clean _
  | @compared _ left right comparison first second =>
    rw [List.append_assoc, scanOutside_clean first, scanOutside_token _ (second.ends comparison)]
    simp [Scan.read, Scan.compare, Except.bind, scanOutside_end second, Scan.finish]
  | right comparison clean =>
    rw [scanOutside_end clean]
    simp [Scan.read, Scan.finish]

/-! ## Conditions that are cut -/

/-- The parts are clean, and together they are the text. -/
structure Split.Cuts (parts : Split) (text : List Char) : Prop where
  whole : text = parts.left ++ parts.comparison.token ++ parts.right
  left : Clean parts.left
  right : Clean parts.right

/-- A condition is left whole just if it is clean. -/
theorem split_whole_iff (text : List Char) : split text = .ok none ↔ Clean text := by
  constructor
  · intro given
    cases reads_of_scanOutside .start text _ given with
    | simple clean => exact clean
  · exact fun clean => (Scan.Reads.simple clean).scanOutside_eq

/-- A condition is cut just as the grammar says. -/
theorem split_parts_iff (text : List Char) (parts : Split) :
    split text = .ok (some parts) ↔ parts.Cuts text := by
  constructor
  · intro given
    cases reads_of_scanOutside .start text _ given with
    | compared comparison first second => exact ⟨rfl, first, second⟩
  · rintro ⟨rfl, first, second⟩
    exact (@Scan.Reads.compared [] _ _ parts.comparison first second).scanOutside_eq

/-- There is one way to cut a condition, since cutting it gives what the grammar says. -/
theorem Split.Cuts.unique {text : List Char} {parts others : Split} (cuts : parts.Cuts text)
    (again : others.Cuts text) : parts = others := by
  have given : split text = .ok (some parts) := (split_parts_iff text parts).mpr cuts
  rw [(split_parts_iff text others).mpr again] at given
  cases given
  rfl

/-- A condition is refused just if it is neither clean nor two clean parts. -/
theorem split_error_iff (text : List Char) :
    (∃ cause, split text = .error cause) ↔
      ¬Clean text ∧ ∀ parts : Split, ¬parts.Cuts text := by
  constructor
  · rintro ⟨cause, given⟩
    constructor
    · intro clean
      cases given.symm.trans ((split_whole_iff text).mpr clean)
    · intro parts cuts
      cases given.symm.trans ((split_parts_iff text parts).mpr cuts)
  · rintro ⟨unclean, uncut⟩
    match given : split text with
    | .ok none => exact absurd ((split_whole_iff text).mp given) unclean
    | .ok (some parts) => exact absurd ((split_parts_iff text parts).mp given) (uncut parts)
    | .error cause => exact ⟨cause, rfl⟩

end Condition

end Workflow

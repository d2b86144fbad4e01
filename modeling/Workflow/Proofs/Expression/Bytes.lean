import Workflow.Proofs.Expression.Grammar

/-!
# Conditions read byte by byte

A condition may also be read as its bytes in UTF-8. Every operator and every quote is a single byte
below 128, which no longer character contains, so the bytes of a longer character are passed over
one by one. Only where an operator may stand, and around the operator at the end, is the text itself
cut; `cutAt?` refuses to cut inside a character.

`splitBytes_eq` says that this reading never comes upon such a refusal and that it agrees with
`split` on every text.
-/
namespace Workflow

/-- No operator is empty. -/
theorem Comparison.token_length_pos (comparison : Comparison) : 0 < comparison.token.length := by
  cases comparison <;> decide

namespace Condition

/-! ## Texts as bytes -/

/-- A text in UTF-8. -/
def bytes (text : List Char) : List UInt8 := text.flatMap String.utf8EncodeChar

/-- The bytes of a text begin with those of its first character. -/
theorem bytes_cons (character : Char) (rest : List Char) :
    bytes (character :: rest) = String.utf8EncodeChar character ++ bytes rest := List.flatMap_cons

/-- The bytes of one text come before those of the next. -/
@[simp] theorem bytes_append (first second : List Char) :
    bytes (first ++ second) = bytes first ++ bytes second := List.flatMap_append

/-- A text cut at the position of a byte, unless the position is inside a character. -/
def cutAt? : List Char → Nat → Option (List Char × List Char)
  | [], position => if position = 0 then some ([], []) else none
  | character :: rest, position =>
    if position = 0 then some ([], character :: rest)
    else if character.utf8Size ≤ position then
      (cutAt? rest (position - character.utf8Size)).map fun parts =>
        (character :: parts.1, parts.2)
    else none

/-- Between two parts a text can be cut. -/
theorem cutAt?_append (before after : List Char) :
    cutAt? (before ++ after) (bytes before).length = some (before, after) := by
  induction before with
  | nil => cases after <;> simp [cutAt?, bytes]
  | cons character before ih =>
    have position : (bytes (character :: before)).length =
        character.utf8Size + (bytes before).length := by simp [bytes]
    have filled : character.utf8Size + (bytes before).length ≠ 0 := by
      have := character.utf8Size_pos
      omega
    rw [List.cons_append, cutAt?, position, if_neg filled, if_pos (Nat.le_add_right _ _),
      Nat.add_sub_cancel_left, ih]
    rfl

/-- A character below 128 is one byte. -/
theorem utf8EncodeChar_narrow {character : Char} (narrow : character.toNat < 128) :
    String.utf8EncodeChar character = [character.toUInt8] := by
  have small : character.val.toNat ≤ 127 := Nat.le_of_lt_succ narrow
  rw [String.utf8EncodeChar, if_pos small]
  rfl

/-- All bytes of any other character are at least 128. -/
theorem le_of_mem_utf8EncodeChar {character : Char} (wide : 128 ≤ character.toNat) {byte : UInt8}
    (among : byte ∈ String.utf8EncodeChar character) : 128 ≤ byte := by
  have large : ¬character.val.toNat ≤ 127 := Nat.not_le.mpr wide
  rw [String.utf8EncodeChar, if_neg large] at among
  rw [UInt8.le_iff_toNat_le]
  split at among
  · simp only [List.mem_cons, List.not_mem_nil, or_false] at among
    rcases among with rfl | rfl <;> simp <;> omega
  · split at among
    · simp only [List.mem_cons, List.not_mem_nil, or_false] at among
      rcases among with rfl | rfl | rfl <;> simp <;> omega
    · simp only [List.mem_cons, List.not_mem_nil, or_false] at among
      rcases among with rfl | rfl | rfl | rfl <;> simp <;> omega

/-! ## The scan -/

/-- The comparisons in the order in which they are tried: the longer ones first. -/
def tried : List Comparison := [.atLeast, .atMost, .equal, .unequal, .greater, .less]

/-- What is found at the end: the parts of the text around the comparison. -/
def finishBytes (text : List Char) : Option (Nat × Comparison) → Option (Option Split)
  | none => some none
  | some (position, comparison) => do
    let (left, _) ← cutAt? text position
    let (_, right) ← cutAt? text (position + comparison.token.length)
    return some ⟨left, comparison, right⟩

/-- Scan a text from the position of a byte. There is no result if the text would have to be cut
inside a character. -/
def scanBytes (text : List Char) (quote : Option UInt8) (mark : Option (Nat × Comparison))
    (position : Nat) : Option (Except ConditionError (Option Split)) :=
  if more : position < (bytes text).length then
    let byte := (bytes text)[position]
    match quote with
    | some opened =>
      scanBytes text (if byte = opened then none else some opened) mark (position + 1)
    | none =>
      if byte = '\''.toUInt8 ∨ byte = '"'.toUInt8 then
        scanBytes text (some byte) mark (position + 1)
      else if 128 ≤ byte then scanBytes text none mark (position + 1)
      else (cutAt? text position).bind fun parts =>
        match tried.find? fun comparison => comparison.token.isPrefixOf parts.2 with
        | some comparison =>
          if mark.isSome then some (.error .severalOperators)
          else scanBytes text none (some (position, comparison))
            (position + comparison.token.length)
        | none =>
          if byte = '='.toUInt8 ∨ byte = '!'.toUInt8 then
            some (.error (.strayOperator (Char.ofUInt8 byte)))
          else scanBytes text none mark (position + 1)
  else match quote with
    | some _ => some (.error .openQuote)
    | none => (finishBytes text mark).map .ok
termination_by (bytes text).length - position
decreasing_by
  all_goals have := Comparison.token_length_pos
  all_goals grind

/-- Cut a condition, reading its bytes. -/
def splitBytes (condition : List Char) : Option (Except ConditionError (Option Split)) :=
  scanBytes condition none none 0

/-! ## One character at a time -/

/-- What has been read of the text. -/
def Scan.before (scan : Scan) : List Char :=
  match scan.found with
  | none => scan.reversed.reverse
  | some (left, comparison) => left ++ comparison.token ++ scan.reversed.reverse

/-- Where the comparison was found. -/
def Scan.mark (scan : Scan) : Option (Nat × Comparison) :=
  scan.found.map fun found => ((bytes found.1).length, found.2)

/-- A character that is read leaves the mark of an operator as it is. -/
@[simp] theorem Scan.mark_push (scan : Scan) (character : Char) :
    (scan.push character).mark = scan.mark := rfl

/-- A character that is read comes after those before it. -/
theorem Scan.before_push (scan : Scan) (character : Char) :
    (scan.push character).before = scan.before ++ [character] := by
  obtain ⟨_ | found, reversed⟩ := scan <;> simp [before, push]

/-- The bytes of a scan that goes on with some characters. -/
theorem getElem?_bytes (before rest : List Char) (position : Nat) :
    (bytes (before ++ rest))[(bytes before).length + position]? = (bytes rest)[position]? := by
  simp [List.getElem?_append_right]

/-- Characters of one byte are told apart by their bytes. -/
theorem toUInt8_inj {first second : Char} (narrow : first.toNat < 128)
    (other : second.toNat < 128) : first.toUInt8 = second.toUInt8 ↔ first = second := by
  constructor
  · intro same
    have values : first.toNat % 2 ^ 8 = second.toNat % 2 ^ 8 := by
      calc first.toNat % 2 ^ 8
          = first.toUInt8.toNat := (UInt32.toNat_toUInt8 first.val).symm
        _ = second.toUInt8.toNat := by rw [same]
        _ = second.toNat % 2 ^ 8 := UInt32.toNat_toUInt8 second.val
    exact Char.toNat_inj.mp (by omega)
  · exact congrArg _

section

variable {text : List Char} {position : Nat} {byte : UInt8}
  (given : (bytes text)[position]? = some byte)
include given

/-- Inside a span only its quote counts. -/
theorem scanBytes_inside (opened : UInt8) (mark : Option (Nat × Comparison)) :
    scanBytes text (some opened) mark position =
      scanBytes text (if byte = opened then none else some opened) mark (position + 1) := by
  obtain ⟨more, rfl⟩ := List.getElem?_eq_some_iff.mp given
  rw [scanBytes.eq_def text _ mark position, dif_pos more]

/-- A quote outside a quoted span opens one. -/
theorem scanBytes_opens (opens : byte = '\''.toUInt8 ∨ byte = '"'.toUInt8)
    (mark : Option (Nat × Comparison)) :
    scanBytes text none mark position = scanBytes text (some byte) mark (position + 1) := by
  obtain ⟨more, rfl⟩ := List.getElem?_eq_some_iff.mp given
  rw [scanBytes.eq_def text _ mark position, dif_pos more]
  exact if_pos opens

/-- A byte of a longer character is passed over. -/
theorem scanBytes_wide (wide : 128 ≤ byte) {quote : Option UInt8}
    (narrow : ∀ opened ∈ quote, opened < 128) (mark : Option (Nat × Comparison)) :
    scanBytes text quote mark position = scanBytes text quote mark (position + 1) := by
  cases quote with
  | some opened =>
    have other : byte ≠ opened := by
      rintro rfl
      exact absurd (narrow byte rfl) (UInt8.not_lt.mpr wide)
    rw [scanBytes_inside given, if_neg other]
  | none =>
    obtain ⟨more, rfl⟩ := List.getElem?_eq_some_iff.mp given
    rw [scanBytes.eq_def text _ mark position, dif_pos more]
    have unquoted : ¬((bytes text)[position] = '\''.toUInt8 ∨
        (bytes text)[position] = '"'.toUInt8) := by
      rintro (same | same) <;> rw [same] at wide <;> exact absurd wide (by decide)
    exact (if_neg unquoted).trans (if_pos wide)

/-- Where an operator may stand the text is cut. -/
theorem scanBytes_cut {before after : List Char} (cut : cutAt? text position = some (before, after))
    (narrow : byte < 128) (unquoted : ¬(byte = '\''.toUInt8 ∨ byte = '"'.toUInt8))
    (mark : Option (Nat × Comparison)) : scanBytes text none mark position =
      match tried.find? fun comparison => comparison.token.isPrefixOf after with
      | some comparison =>
        if mark.isSome then some (.error .severalOperators)
        else scanBytes text none (some (position, comparison)) (position + comparison.token.length)
      | none =>
        if byte = '='.toUInt8 ∨ byte = '!'.toUInt8 then
          some (.error (.strayOperator (Char.ofUInt8 byte)))
        else scanBytes text none mark (position + 1) := by
  obtain ⟨more, rfl⟩ := List.getElem?_eq_some_iff.mp given
  rw [scanBytes.eq_def text _ mark position, dif_pos more]
  refine (if_neg unquoted).trans ((if_neg (UInt8.not_le.mpr narrow)).trans ?_)
  rw [cut]
  rfl

end

/-- The bytes of a longer character are passed over, inside a span and outside. -/
theorem scanBytes_pass (before rest : List Char) {character : Char}
    (wide : 128 ≤ character.toNat) {quote : Option UInt8}
    (narrow : ∀ opened ∈ quote, opened < 128) (mark : Option (Nat × Comparison)) :
    scanBytes (before ++ character :: rest) quote mark (bytes before).length =
      scanBytes (before ++ character :: rest) quote mark
        (bytes (before ++ [character])).length := by
  have size : (bytes (before ++ [character])).length =
      (bytes before).length + (String.utf8EncodeChar character).length := by simp [bytes]
  rw [size]
  -- One byte after the other, as far as the character goes.
  have upTo : ∀ count ≤ (String.utf8EncodeChar character).length,
      scanBytes (before ++ character :: rest) quote mark (bytes before).length =
        scanBytes (before ++ character :: rest) quote mark ((bytes before).length + count) := by
    intro count within
    induction count with
    | zero => rfl
    | succ count ih =>
      have inside : count < (String.utf8EncodeChar character).length := within
      have given : (bytes (before ++ character :: rest))[(bytes before).length + count]? =
          some ((String.utf8EncodeChar character)[count]) := by
        rw [getElem?_bytes, bytes_cons, List.getElem?_append_left inside,
          List.getElem?_eq_getElem inside]
      rw [ih (Nat.le_of_lt inside),
        scanBytes_wide given (le_of_mem_utf8EncodeChar wide (List.getElem_mem inside)) narrow]
      rfl
  exact upTo _ (Nat.le_refl _)

/-- The byte of a short character is found where it stands. -/
theorem bytes_narrow (before rest : List Char) {character : Char}
    (narrow : character.toNat < 128) :
    (bytes (before ++ character :: rest))[(bytes before).length]? = some character.toUInt8 := by
  have found := getElem?_bytes before (character :: rest) 0
  rwa [bytes_cons, utf8EncodeChar_narrow narrow] at found

/-- A character of one byte makes a text one byte longer. -/
theorem length_bytes_narrow (before : List Char) {character : Char}
    (narrow : character.toNat < 128) :
    (bytes (before ++ [character])).length = (bytes before).length + 1 := by
  simp [bytes, utf8EncodeChar_narrow narrow]

/-- The byte of a character of one byte is less than 128. -/
theorem toUInt8_lt {character : Char} (narrow : character.toNat < 128) :
    character.toUInt8 < 128 := by
  have value : character.toUInt8.toNat = character.toNat % 2 ^ 8 :=
    UInt32.toNat_toUInt8 character.val
  rw [UInt8.lt_iff_toNat_lt, value]
  show character.toNat % 2 ^ 8 < 128
  omega

/-- A character of one byte is a quote if its byte is that of a quote. -/
theorem isQuote_iff {character : Char} (narrow : character.toNat < 128) :
    (character.toUInt8 = '\''.toUInt8 ∨ character.toUInt8 = '"'.toUInt8) ↔
      isQuote character = true := by
  rw [toUInt8_inj narrow (by decide), toUInt8_inj narrow (by decide)]
  simp [isQuote]

/-- A quote is a character of one byte. -/
theorem isQuote_narrow {character : Char} (opens : isQuote character = true) :
    character.toNat < 128 := by
  simp only [isQuote, Bool.or_eq_true, decide_eq_true_eq] at opens
  rcases opens with rfl | rfl <;> decide

/-! ## Both readings agree -/

/-- Inside a span both readings go on in the same way. -/
theorem scanBytes_quoted (scan : Scan) {quote : Char} (opens : isQuote quote = true)
    (character : Char) (rest : List Char) :
    scanBytes (scan.before ++ character :: rest) (some quote.toUInt8) scan.mark
        (bytes scan.before).length =
      scanBytes ((scan.push character).before ++ rest)
        (if character = quote then none else some quote.toUInt8) (scan.push character).mark
        (bytes (scan.push character).before).length := by
  have quoteNarrow : quote.toNat < 128 := isQuote_narrow opens
  rw [Scan.before_push, Scan.mark_push, List.append_assoc, List.singleton_append]
  by_cases narrow : character.toNat < 128
  · rw [scanBytes_inside (bytes_narrow scan.before rest narrow), length_bytes_narrow _ narrow]
    simp only [toUInt8_inj narrow quoteNarrow]
  · have other : character ≠ quote := by
      rintro rfl
      exact narrow quoteNarrow
    rw [if_neg other]
    refine scanBytes_pass scan.before rest (Nat.not_lt.mp narrow) ?_ scan.mark
    rintro opened ⟨⟩
    exact toUInt8_lt quoteNarrow

/-- The comparison at the beginning of a text is the one that is found first. -/
theorem find?_token {comparison : Comparison} {rest : List Char} (ends : comparison.Ends rest) :
    (tried.find? fun other => other.token.isPrefixOf (comparison.token ++ rest)) =
      some comparison := by
  cases comparison with
  | atLeast | atMost | equal | unequal => rfl
  | greater | less =>
    cases rest with
    | nil => rfl
    | cons character later =>
      have other : ('=' == character) = false := by
        rw [beq_eq_false_iff_ne]
        rintro rfl
        exact ends rfl
      simp [tried, Comparison.token, List.find?, List.isPrefixOf, other]

/-- Where no operator stands none is found. -/
theorem find?_word {character : Char} (rest : List Char) (less : character ≠ '<')
    (greater : character ≠ '>') (lone : character = '=' ∨ character = '!' → rest.head? ≠ some '=') :
    (tried.find? fun other => other.token.isPrefixOf (character :: rest)) = none := by
  rw [List.find?_eq_none]
  intro comparison _ starts
  obtain ⟨later, whole⟩ := List.isPrefixOf_iff_prefix.mp starts
  cases comparison with
  | greater | atLeast => exact greater (List.cons.inj whole).1.symm
  | less | atMost => exact less (List.cons.inj whole).1.symm
  | equal =>
    cases whole
    exact lone (.inl rfl) rfl
  | unequal =>
    cases whole
    exact lone (.inr rfl) rfl

/-- An operator has as many bytes as characters. -/
theorem length_bytes_token (comparison : Comparison) :
    (bytes comparison.token).length = comparison.token.length := by
  cases comparison <;> decide

/-- Both readings take a comparison at once, and refuse a second one. -/
theorem scanBytes_token (scan : Scan) (comparison : Comparison) {rest : List Char}
    (ends : comparison.Ends rest)
    (later : ∀ next : Scan, scanBytes (next.before ++ rest) none next.mark
      (bytes next.before).length = some (scanOutside next rest)) :
    scanBytes (scan.before ++ (comparison.token ++ rest)) none scan.mark
      (bytes scan.before).length = some (scanOutside scan (comparison.token ++ rest)) := by
  obtain ⟨first, others, token, narrow, unquoted⟩ : ∃ first others,
      comparison.token = first :: others ∧ first.toNat < 128 ∧ isQuote first = false := by
    cases comparison <;> exact ⟨_, _, rfl, by decide, by decide⟩
  have given := bytes_narrow scan.before (others ++ rest) narrow
  rw [← List.cons_append, ← token] at given
  have ordinary : ¬(first.toUInt8 = '\''.toUInt8 ∨ first.toUInt8 = '"'.toUInt8) := by
    rw [isQuote_iff narrow, unquoted]
    decide
  rw [scanBytes_cut given (cutAt?_append scan.before (comparison.token ++ rest))
    (toUInt8_lt narrow) ordinary, scanOutside_token scan ends]
  simp only [find?_token ends]
  obtain ⟨_ | found, reversed⟩ := scan
  · have next := later ⟨some (reversed.reverse, comparison), []⟩
    simpa [Scan.before, Scan.mark, Scan.compare, Except.bind, length_bytes_token] using next
  · rfl

/-- Where no operator stands, a character goes by unless it only occurs in comparisons. -/
theorem scanBytes_word (scan : Scan) {character : Char} {rest : List Char}
    (narrow : character.toNat < 128) (unquoted : isQuote character = false)
    (less : character ≠ '<') (greater : character ≠ '>')
    (lone : character = '=' ∨ character = '!' → rest.head? ≠ some '=') :
    scanBytes (scan.before ++ character :: rest) none scan.mark (bytes scan.before).length =
      if character = '=' ∨ character = '!' then some (.error (.strayOperator character))
      else scanBytes (scan.before ++ character :: rest) none scan.mark
        ((bytes scan.before).length + 1) := by
  have ordinary : ¬(character.toUInt8 = '\''.toUInt8 ∨ character.toUInt8 = '"'.toUInt8) := by
    rw [isQuote_iff narrow, unquoted]
    decide
  rw [scanBytes_cut (bytes_narrow scan.before rest narrow)
    (cutAt?_append scan.before (character :: rest)) (toUInt8_lt narrow) ordinary]
  simp only [find?_word rest less greater lone]
  by_cases alone : character = '=' ∨ character = '!'
  · rcases alone with rfl | rfl <;> rfl
  · rw [if_neg alone, if_neg]
    rwa [toUInt8_inj narrow (by decide), toUInt8_inj narrow (by decide)]

/-- Outside of spans the reading of the bytes passes over what is no operator. -/
theorem scanBytes_plain (scan : Scan) {character : Char} (unquoted : isQuote character = false)
    (word : isOperator character = false) (rest : List Char) :
    scanBytes (scan.before ++ character :: rest) none scan.mark (bytes scan.before).length =
      scanBytes ((scan.push character).before ++ rest) none (scan.push character).mark
        (bytes (scan.push character).before).length := by
  rw [Scan.before_push, Scan.mark_push, List.append_assoc, List.singleton_append]
  by_cases narrow : character.toNat < 128
  · simp only [isOperator, Bool.or_eq_false_iff, decide_eq_false_iff_not] at word
    obtain ⟨⟨⟨less, greater⟩, equal⟩, negation⟩ := word
    have alone : ¬(character = '=' ∨ character = '!') := not_or.mpr ⟨equal, negation⟩
    rw [scanBytes_word scan narrow unquoted less greater (fun lone => absurd lone alone),
      if_neg alone, length_bytes_narrow _ narrow]
  · exact scanBytes_pass scan.before rest (Nat.not_lt.mp narrow) (by simp) scan.mark

/-- At the end the text is cut around the comparison. -/
theorem finishBytes_parts (left right : List Char) (comparison : Comparison) :
    finishBytes (left ++ comparison.token ++ right) (some ((bytes left).length, comparison)) =
      some (some ⟨left, comparison, right⟩) := by
  have before : cutAt? (left ++ comparison.token ++ right) (bytes left).length =
      some (left, comparison.token ++ right) := by
    rw [List.append_assoc]
    exact cutAt?_append left _
  have after := cutAt?_append (left ++ comparison.token) right
  rw [bytes_append, List.length_append, length_bytes_token] at after
  simp only [finishBytes, before, after, Option.bind_eq_bind, Option.bind_some]
  rfl

/-- Both readings give the same wherever a scan stands. -/
theorem scanBytes_eq (scan : Scan) (rest : List Char) :
    scanBytes (scan.before ++ rest) none scan.mark (bytes scan.before).length =
      some (scanOutside scan rest) := by
  let agrees (quote : Char) (scan : Scan) (rest : List Char) : Prop :=
    isQuote quote = true → scanBytes (scan.before ++ rest) (some quote.toUInt8) scan.mark
      (bytes scan.before).length = some (scanQuoted quote scan rest)
  refine scanOutside.induct
    (fun scan rest => scanBytes (scan.before ++ rest) none scan.mark (bytes scan.before).length =
      some (scanOutside scan rest)) agrees
    ?done ?atLeast ?atMost ?equal ?unequal ?greater ?less ?stray ?opens ?plain ?unclosed ?closed
    ?inside scan rest
  case done =>
    intro scan
    rw [List.append_nil, scanBytes, dif_neg (Nat.lt_irrefl _)]
    obtain ⟨_ | ⟨left, comparison⟩, reversed⟩ := scan
    · rfl
    · exact congrArg (Option.map Except.ok) (finishBytes_parts left reversed.reverse comparison)
  case atLeast => exact fun scan _ ih => scanBytes_token scan .atLeast trivial ih
  case atMost => exact fun scan _ ih => scanBytes_token scan .atMost trivial ih
  case equal => exact fun scan _ ih => scanBytes_token scan .equal trivial ih
  case unequal => exact fun scan _ ih => scanBytes_token scan .unequal trivial ih
  case greater => exact fun scan _ other ih => scanBytes_token scan .greater (head?_ne other) ih
  case less => exact fun scan _ other ih => scanBytes_token scan .less (head?_ne other) ih
  case stray =>
    intro scan character rest _ _ notEqual notUnequal greater less stray
    have narrow : character.toNat < 128 := by
      rcases stray with rfl | rfl <;> decide
    have refused : scanOutside scan (character :: rest) = .error (.strayOperator character) := by
      rw [scanOutside] <;> simp_all
    have lone : character = '=' ∨ character = '!' → rest.head? ≠ some '=' := by
      rintro (same | same)
      · exact head?_ne fun later => notEqual later same
      · exact head?_ne fun later => notUnequal later same
    rw [scanBytes_word scan narrow (by rcases stray with rfl | rfl <;> decide) less greater lone,
      if_pos stray, refused]
  case opens =>
    intro scan quote rest _ _ _ _ _ _ _ opens ih
    have narrow : quote.toNat < 128 := isQuote_narrow opens
    rw [scanOutside_quote scan opens, ← ih opens, Scan.before_push, Scan.mark_push,
      scanBytes_opens (bytes_narrow scan.before rest narrow) ((isQuote_iff narrow).mpr opens),
      length_bytes_narrow _ narrow]
    simp
  case plain =>
    intro scan character rest _ _ _ _ greater less word unquoted ih
    have unquoted : isQuote character = false := by simpa using unquoted
    have word : isOperator character = false := isOperator_eq_false less greater word
    rw [scanBytes_plain scan unquoted word, scanOutside_plain scan unquoted word]
    exact ih
  case unclosed =>
    intro quote scan opens
    rw [List.append_nil, scanBytes, dif_neg (Nat.lt_irrefl _)]
    rfl
  case closed =>
    intro scan quote rest ih opens
    rw [scanBytes_quoted scan opens, if_pos rfl, scanQuoted, if_pos rfl]
    exact ih
  case inside =>
    intro quote scan character rest other ih opens
    rw [scanBytes_quoted scan opens, if_neg other, scanQuoted, if_neg other]
    exact ih opens

/-- Reading the bytes of a text never cuts it inside a character, and cuts it as `split` does. -/
theorem splitBytes_eq (text : List Char) : splitBytes text = some (split text) :=
  scanBytes_eq .start text

end Condition

end Workflow

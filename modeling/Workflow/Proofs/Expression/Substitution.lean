import Workflow.Proofs.Expression.Mentions

/-!
# Putting values in the place of references

An input is a tree of lists and records, and its leaves are looked at once. A leaf that is a text
whose first character other than blank ones is the sigil gives way to the value that it refers to,
or to null. Every other leaf stays as it is, and so do the keys of records and the order of lists.

`Substituted` says this position by position. Behind a text that refers, the result is the value
that was put in and nothing else, so texts inside of that value are not looked at again, whatever
they begin with.
-/
namespace Workflow

/-- The first character of a text that is not blank is the sigil. -/
def Text.Refers (text : String) : Prop :=
  ∃ blanks rest, text.toList = blanks ++ sigil :: rest ∧
    ∀ character ∈ blanks, isBlank character = true

/-! ## Positions -/

/-- One step from a value to a part of it. Unlike the positions that references spell, the indexes
of items have no bound. -/
inductive Branch where
  | field (key : String)
  | item (index : Nat)
deriving DecidableEq

namespace Value

/-- The part of a value at one step from it. -/
def branch? : Value → Branch → Option Value
  | .record fields, .field key => fields.lookup key
  | .list items, .item index => items[index]?
  | _, _ => none

/-- The part of a value at a position. -/
def at? (value : Value) : (position : List Branch) → Option Value
  | [] => some value
  | branch :: rest => (value.branch? branch).bind fun part => part.at? rest

/-- There is nothing inside a value. -/
def IsLeaf : Value → Prop
  | .list _ | .record _ => False
  | _ => True

/-- A longer way through a value is one way after another. -/
theorem at?_append (value : Value) (front further : List Branch) :
    value.at? (front ++ further) = (value.at? front).bind (·.at? further) := by
  induction front generalizing value with
  | nil => rfl
  | cons branch rest ih =>
    rw [List.cons_append, at?, at?, Option.bind_assoc]
    exact congrArg _ (funext ih)

end Value

/-- A result is an input in which every text that refers to a variable has given way to what it
refers to. -/
structure Substituted (context : Context) (input result : Value) : Prop where
  /-- A text that refers is read as a reference, and there and behind it the result is the value of
  the reference, or null. -/
  inserted : ∀ position text, input.at? position = some (.text text) → Text.Refers text →
    ∃ reference, Expression.ofText text = .reference reference ∧
      ∀ further, result.at? (position ++ further) =
        ((reference.resolve? context).getD .null).at? further
  /-- Every other leaf stays. -/
  kept : ∀ position leaf, input.at? position = some leaf → leaf.IsLeaf →
    (∀ text, leaf = .text text → ¬Text.Refers text) → result.at? position = some leaf
  lists : ∀ position items, input.at? position = some (.list items) →
    ∃ results, result.at? position = some (.list results) ∧ results.length = items.length
  /-- Keys stay, in their order. -/
  records : ∀ position fields, input.at? position = some (.record fields) →
    ∃ results, result.at? position = some (.record results) ∧
      results.map Prod.fst = fields.map Prod.fst
  /-- A position of the result is one of the input, or it lies behind a text that refers. -/
  nothingElse : ∀ position part, result.at? position = some part →
    (∃ original, input.at? position = some original) ∨
      ∃ front further text, position = front ++ further ∧
        input.at? front = some (.text text) ∧ Text.Refers text

/-! ## Texts that refer -/

/-- A text refers to a variable if it begins with the sigil, blanks apart. -/
theorem Text.refers_iff (text : String) :
    Refers text ↔ ∃ rest, trimStart text.toList = sigil :: rest := by
  constructor
  · rintro ⟨blanks, rest, written, blank⟩
    refine ⟨rest, ?_⟩
    rw [written, trimStart, List.dropWhile_append_of_pos blank]
    rfl
  · rintro ⟨rest, left⟩
    refine ⟨text.toList.takeWhile isBlank, rest, ?_, fun _ => List.mem_takeWhile_imp⟩
    rw [← left]
    exact List.takeWhile_append_dropWhile.symm

/-- The test for the sigil tests for a reference. -/
theorem startsWithSigil_iff (text : String) : startsWithSigil text = true ↔ Text.Refers text := by
  rw [startsWithSigil, beq_iff_eq, List.head?_eq_some_iff, Text.refers_iff]

/-- What looks like a reference from the front is read as one, although only the reader takes away
the blanks at the end. -/
theorem Text.Refers.ofText {text : String} (refers : Refers text) :
    ∃ reference, Expression.ofText text = .reference reference := by
  obtain ⟨rest, left⟩ := (refers_iff text).mp refers
  have trimmed : trim text.toList = sigil :: trimEnd rest := by
    rw [trim, left]
    exact trimEnd_cons rfl rest
  exact ⟨.ofPath (trimEnd rest), by rw [Expression.ofText, trimmed]; rfl⟩

/-! ## Resolving an input -/

variable (context : Context)

/-- Each item of a list is resolved for itself. -/
theorem resolveItems_eq (items : List Value) :
    resolveItems context items = items.map (resolveInput context) := by
  induction items with
  | nil => rfl
  | cons item rest ih => rw [resolveItems, ih, List.map_cons]

/-- Each field of a record is resolved for itself and keeps its key. -/
theorem resolveFields_eq (fields : List (String × Value)) :
    resolveFields context fields =
      fields.map fun field => (field.1, resolveInput context field.2) := by
  induction fields with
  | nil => rfl
  | cons field rest ih => rw [resolveFields, ih, List.map_cons]

/-- Under each key there is what the field under it resolves to. -/
theorem lookup_resolveFields (fields : List (String × Value)) (key : String) :
    (resolveFields context fields).lookup key =
      (fields.lookup key).map (resolveInput context) := by
  induction fields with
  | nil => rfl
  | cons field rest ih =>
    rw [resolveFields, List.lookup_cons, List.lookup_cons, ih]
    cases key == field.1 <;> rfl

/-- A text that refers to a variable gives way to what it refers to, and to null if there is
nothing. -/
theorem resolveInput_refers {text : String} (refers : Text.Refers text) :
    resolveInput context (.text text) = (resolve? text context).getD .null := by
  rw [resolveInput, if_pos ((startsWithSigil_iff text).mpr refers)]

/-- Whatever is no text that refers keeps its place at the top. -/
theorem resolveInput_text {text : String} (plain : ¬Text.Refers text) :
    resolveInput context (.text text) = .text text := by
  rw [resolveInput, if_neg (mt (startsWithSigil_iff text).mp plain)]

/-- The parts of a list or record are resolved one by one. -/
theorem branch?_resolveInput {value part : Value} {branch : Branch}
    (found : value.branch? branch = some part) :
    (resolveInput context value).branch? branch = some (resolveInput context part) := by
  match value, branch with
  | .record fields, .field key =>
    have here : fields.lookup key = some part := found
    rw [resolveInput, Value.branch?, lookup_resolveFields, here, Option.map_some]
  | .list items, .item index =>
    have here : items[index]? = some part := found
    rw [resolveInput, Value.branch?, resolveItems_eq, List.getElem?_map, here, Option.map_some]
  | .record _, .item _ | .list _, .field _ | .null, _ | .bool _, _ | .number _, _ | .text _, _ =>
    cases found

/-- And nothing is added to them, unless the value is a text that refers. -/
theorem branch?_of_resolveInput {value result : Value} {branch : Branch}
    (plain : ∀ text, value = .text text → ¬Text.Refers text)
    (found : (resolveInput context value).branch? branch = some result) :
    ∃ part, value.branch? branch = some part ∧ result = resolveInput context part := by
  match value, branch with
  | .record fields, .field key =>
    rw [resolveInput, Value.branch?, lookup_resolveFields] at found
    obtain ⟨part, here, rfl⟩ := Option.map_eq_some_iff.mp found
    exact ⟨part, here, rfl⟩
  | .list items, .item index =>
    rw [resolveInput, Value.branch?, resolveItems_eq, List.getElem?_map] at found
    obtain ⟨part, here, rfl⟩ := Option.map_eq_some_iff.mp found
    exact ⟨part, here, rfl⟩
  | .text text, branch =>
    rw [resolveInput_text context (plain text rfl)] at found
    cases found
  | .record _, .item _ | .list _, .field _ | .null, _ | .bool _, _ | .number _, _ => cases found

/-- What comes of a part of an input lies where the part was. -/
theorem at?_resolveInput {input part : Value} {position : List Branch}
    (found : input.at? position = some part) :
    (resolveInput context input).at? position = some (resolveInput context part) := by
  induction position generalizing input with
  | nil =>
    cases found
    rfl
  | cons branch rest ih =>
    obtain ⟨inner, step, onward⟩ := Option.bind_eq_some_iff.mp found
    rw [Value.at?, branch?_resolveInput context step]
    exact ih onward

/-- What lies in the result comes of a part of the input or lies behind a text that refers. -/
theorem at?_of_resolveInput {input result : Value} {position : List Branch}
    (found : (resolveInput context input).at? position = some result) :
    (∃ part, input.at? position = some part) ∨
      ∃ front further text, position = front ++ further ∧
        input.at? front = some (.text text) ∧ Text.Refers text := by
  induction position generalizing input with
  | nil => exact .inl ⟨input, rfl⟩
  | cons branch rest ih =>
    by_cases refers : ∃ text, input = .text text ∧ Text.Refers text
    · obtain ⟨text, rfl, refers⟩ := refers
      exact .inr ⟨[], branch :: rest, text, rfl, rfl, refers⟩
    · obtain ⟨inner, step, onward⟩ := Option.bind_eq_some_iff.mp found
      obtain ⟨part, here, rfl⟩ := branch?_of_resolveInput context
        (fun text same refersHere => refers ⟨text, same, refersHere⟩) step
      rcases ih onward with ⟨original, there⟩ | ⟨front, further, text, rfl, there, refersThere⟩
      · exact .inl ⟨original, by rw [Value.at?, here]; exact there⟩
      · exact .inr ⟨branch :: front, further, text, rfl, by rw [Value.at?, here]; exact there,
          refersThere⟩

/-- What an input resolves to is the input with every reference substituted. -/
theorem resolveInput_substituted (input : Value) :
    Substituted context input (resolveInput context input) where
  inserted := by
    intro position text found refers
    obtain ⟨reference, read⟩ := refers.ofText
    refine ⟨reference, read, fun further => ?_⟩
    rw [Value.at?_append, at?_resolveInput context found, resolveInput_refers context refers,
      resolve?, read]
    rfl
  kept := by
    intro position leaf found whole plain
    have same : resolveInput context leaf = leaf := by
      cases leaf with
      | text text => exact resolveInput_text context (plain text rfl)
      | null | bool _ | number _ => rfl
      | list _ | record _ => exact whole.elim
    rw [at?_resolveInput context found, same]
  lists := by
    intro position items found
    refine ⟨_, at?_resolveInput context found, ?_⟩
    rw [resolveItems_eq, List.length_map]
  records := by
    intro position fields found
    refine ⟨_, at?_resolveInput context found, ?_⟩
    rw [resolveFields_eq, List.map_map]
    rfl
  nothingElse _ _ := at?_of_resolveInput context

mutual

/-- A value without texts that refer stays as it is. -/
theorem resolveInput_eq_self (value : Value) (plain : ∀ text ∈ value.texts, ¬Text.Refers text) :
    resolveInput context value = value := by
  cases value with
  | null | bool _ | number _ => rfl
  | text text => exact resolveInput_text context (plain text (by simp [Value.texts]))
  | list items =>
    rw [Value.texts] at plain
    rw [resolveInput, resolveItems_eq_self items plain]
  | record fields =>
    rw [Value.texts] at plain
    rw [resolveInput, resolveFields_eq_self fields plain]

/-- Items in which no text refers to a variable stay as they are. -/
theorem resolveItems_eq_self (items : List Value)
    (plain : ∀ text ∈ itemTexts items, ¬Text.Refers text) :
    resolveItems context items = items := by
  cases items with
  | nil => rfl
  | cons item rest =>
    rw [itemTexts, List.forall_mem_append] at plain
    rw [resolveItems, resolveInput_eq_self item plain.1, resolveItems_eq_self rest plain.2]

/-- Fields in which no text refers to a variable stay as they are. -/
theorem resolveFields_eq_self (fields : List (String × Value))
    (plain : ∀ text ∈ fieldTexts fields, ¬Text.Refers text) :
    resolveFields context fields = fields := by
  match fields with
  | [] => rfl
  | (key, value) :: rest =>
    rw [fieldTexts, List.forall_mem_append] at plain
    rw [resolveFields, resolveInput_eq_self value plain.1, resolveFields_eq_self rest plain.2]

end

/-! ## Parts of a payload -/

/-- A text refers to a variable if it begins with the sigil when it is trimmed. -/
theorem Text.Refers.of_trim {text : String} {path : List Char}
    (trimmed : trim text.toList = sigil :: path) : Refers text := by
  have shorter : sigil :: path <+: trimStart text.toList := by
    rw [← trimmed, trim]
    exact trimEnd_prefix (trimStart text.toList)
  obtain ⟨more, whole⟩ := shorter
  exact (refers_iff text).mpr ⟨path ++ more, whole.symm⟩

variable {context}

/-- A text that spells a way through the value of a variable refers to where the way leads. -/
theorem resolve?_of_walks {root : String} {payload node : Value} {text : String}
    {segments : List String} (bound : context.get? root = some payload) (named : root ≠ "")
    (undotted : '.' ∉ root.toList) (clear : ∀ segment ∈ segments, '.' ∉ segment.toList)
    (spells : Text.trim text.toList =
      sigil :: Text.joined '.' root.toList (segments.map String.toList))
    (walks : Reference.Walks payload segments node) : resolve? text context = some node := by
  rw [Reference.resolve?_reference spells, Reference.ofPath_joined undotted clear,
    Reference.resolve?_eq_some_iff]
  exact ⟨named, payload, bound, Reference.follow?_of_walks walks⟩

/-- In an input the references give way to their values, once and for all: the rest of it stays,
all of it if there is no reference, and where a reference spells a way through the payload that a
variable holds, such as that of the trigger, the part of the payload is put in as it is. -/
theorem references_substituted (context : Context) (input : Value) :
    Substituted context input (resolveInput context input) ∧
    ((∀ text ∈ input.texts, ¬Text.Refers text) → resolveInput context input = input) ∧
    ∀ root payload, context.get? root = some payload → root ≠ "" → '.' ∉ root.toList →
      ∀ position text segments node, input.at? position = some (.text text) →
        (∀ segment ∈ segments, '.' ∉ segment.toList) →
        Text.trim text.toList =
          sigil :: Text.joined '.' root.toList (segments.map String.toList) →
        Reference.Walks payload segments node →
          (resolveInput context input).at? position = some node := by
  refine ⟨resolveInput_substituted context input, resolveInput_eq_self context input, ?_⟩
  intro root payload bound named undotted position text segments node found clear spells walks
  rw [at?_resolveInput context found, resolveInput_refers context (.of_trim spells),
    resolve?_of_walks bound named undotted clear spells walks]
  rfl

/-- A payload with a text that looks like a reference. -/
def sly : Value := .record [("notes", .list [.text "$password"]), ("price", .text "5 $")]

/-- A context in which there is something for it to refer to. -/
def overheard : Context := (Context.start "w" "run" sly).setOutput "password" (.text "secret")

/-- An input with references to the payload between other things. -/
def letter : Value :=
  .record [("$password", .null), ("lines", .list [.text "\t$trigger.notes.0 ", .text "a $password",
    .text "$nobody"])]

/-- The text of the payload is put in and not looked at, and neither is the key. -/
theorem references_substituted_letter :
    overheard.get? triggerName = some sly ∧
    letter.at? [.field "lines", .item 0] = some (.text "\t$trigger.notes.0 ") ∧
    (resolveInput overheard letter).at? [.field "lines", .item 0] = some (.text "$password") ∧
    (resolveInput overheard letter).at? [.field "lines", .item 1] = some (.text "a $password") ∧
    (resolveInput overheard letter).at? [.field "lines", .item 2] = some .null ∧
    (resolveInput overheard letter).at? [.field "$password"] = some .null := by
  obtain ⟨substituted, -, payload⟩ := references_substituted overheard letter
  have bound : overheard.get? triggerName = some sly := rfl
  have line : letter.at? [.field "lines", .item 0] = some (.text "\t$trigger.notes.0 ") := rfl
  have walks : Reference.Walks sly ["notes", toString 0] (.text "$password") :=
    .field rfl (.item (Reference.namesPosition_toString (by decide)) rfl (.here _))
  have first := payload triggerName sly bound (by decide) (by decide) _ _ _ _ line
    (by decide +kernel : ∀ segment ∈ ["notes", toString 0], '.' ∉ segment.toList)
    (by decide +kernel) walks
  have plain : ¬Text.Refers "a $password" := by
    rw [← startsWithSigil_iff]
    decide
  have second := substituted.kept [.field "lines", .item 1] (.text "a $password") rfl trivial
    (by rintro text ⟨⟩; exact plain)
  obtain ⟨reference, read, third⟩ := substituted.inserted [.field "lines", .item 2] "$nobody" rfl
    ((startsWithSigil_iff _).mp (by decide))
  have undefined : reference.resolve? overheard = none := by
    have resolved : resolve? "$nobody" overheard = none := by decide +kernel
    rwa [resolve?, read] at resolved
  have null := third []
  rw [undefined] at null
  exact ⟨bound, line, first, second, null,
    substituted.kept [.field "$password"] .null rfl trivial (by rintro text ⟨⟩)⟩

end Workflow

import Workflow.Proofs.Numerals
import Workflow.Proofs.Parts
import Workflow.Proofs.Trimming

/-!
# References and the parts of values

Every part of a value that a variable holds has a reference, as long as no name on the way to it
contains a dot: the names of the fields and the positions on the way, printed after dots. And a
reference leads to nothing else but such a part, or to the length of one.
-/
namespace Workflow

namespace Reference

/-! ## Ways through a value -/

/-- One step from a value to a part of it: to the field of a record or to an item of a list. -/
inductive Hop where
  | field (key : String)
  /-- Positions count from zero and are words of 64 bits. -/
  | item (position : UInt64)

/-- A step as it is written in a reference. -/
def Hop.segment : Hop → String
  | .field key => key
  | .item position => toString position.toNat

/-- A way leads from a value to a part of it. -/
inductive Leads : Value → List Hop → Value → Prop where
  | here (value : Value) : Leads value [] value
  | field {fields : List (String × Value)} {key : String} {part node : Value} {way : List Hop}
      (found : fields.lookup key = some part) (onward : Leads part way node) :
      Leads (.record fields) (.field key :: way) node
  | item {items : List Value} {position : UInt64} {part node : Value} {way : List Hop}
      (found : items[position.toNat]? = some part) (onward : Leads part way node) :
      Leads (.list items) (.item position :: way) node

/-- Segments lead from a value to a part of it: each names a field of a record or a position in a
list. -/
inductive Walks : Value → List String → Value → Prop where
  | here (value : Value) : Walks value [] value
  | field {fields : List (String × Value)} {key : String} {part node : Value} {rest : List String}
      (found : fields.lookup key = some part) (onward : Walks part rest node) :
      Walks (.record fields) (key :: rest) node
  | item {items : List Value} {segment : String} {position : Nat} {part node : Value}
      {rest : List String} (names : NamesPosition segment position)
      (found : items[position]? = some part) (onward : Walks part rest node) :
      Walks (.list items) (segment :: rest) node

/-- The number of items, characters or fields of a value. -/
inductive HasLength : Value → Nat → Prop where
  | list (items : List Value) : HasLength (.list items) items.length
  | text (text : String) : HasLength (.text text) text.length
  | record (fields : List (String × Value)) : HasLength (.record fields) fields.length

/-- What a reference may lead to from the value of its variable. -/
inductive Reaches (value : Value) (segments : List String) : Value → Prop where
  | part {node : Value} (walks : Walks value segments node) : Reaches value segments node
  /-- A last segment asks for the length of a value that has no part of this name. -/
  | length {front : List String} {whole : Value} {count : Nat}
      (asks : segments = front ++ [lengthSegment]) (walks : Walks value front whole)
      (missing : ∀ part, ¬Walks whole [lengthSegment] part) (length : HasLength whole count) :
      Reaches value segments (.ofNat count)

/-- The way is one of segments. -/
theorem Leads.walks {value node : Value} {way : List Hop} (leads : Leads value way node) :
    Walks value (way.map Hop.segment) node := by
  induction leads with
  | here value => exact .here value
  | field found _ ih => exact .field found ih
  | item found _ ih => exact .item (namesPosition_toString (UInt64.toNat_lt _)) found ih

/-! ## Following segments -/

/-- The part under a segment is the one to which the segment walks. -/
theorem child?_eq_some_iff (value : Value) (segment : String) (part : Value) :
    child? value segment = some part ↔ Walks value [segment] part := by
  constructor
  · intro found
    match value with
    | .record fields => exact .field found (.here part)
    | .list items =>
      obtain ⟨position, named, there⟩ := Option.bind_eq_some_iff.mp found
      exact .item ((position?_eq_some_iff segment position).mp named) there (.here part)
    | .null | .bool _ | .number _ | .text _ => cases found
  · intro walks
    cases walks with
    | field found onward =>
      cases onward
      exact found
    | item names found onward =>
      cases onward
      exact Option.bind_eq_some_iff.mpr ⟨_, (position?_eq_some_iff segment _).mpr names, found⟩

/-- To walk a path is to walk its first segment, then the others. -/
theorem walks_cons_iff (value : Value) (segment : String) (rest : List String) (node : Value) :
    Walks value (segment :: rest) node ↔
      ∃ part, child? value segment = some part ∧ Walks part rest node := by
  constructor
  · intro walks
    cases walks with
    | field found onward => exact ⟨_, found, onward⟩
    | item names found onward =>
      have named := (position?_eq_some_iff segment _).mpr names
      exact ⟨_, Option.bind_eq_some_iff.mpr ⟨_, named, found⟩, onward⟩
  · rintro ⟨part, found, onward⟩
    cases (child?_eq_some_iff value segment part).mp found with
    | field there here =>
      cases here
      exact .field there onward
    | item names there here =>
      cases here
      exact .item names there onward

/-- The length that is read from a value is the one that it has. -/
theorem length?_eq_some_iff (value node : Value) :
    length? value = some node ↔ ∃ count, HasLength value count ∧ node = .ofNat count := by
  constructor
  · intro counted
    match value with
    | .list items => exact ⟨_, .list items, (Option.some.inj counted).symm⟩
    | .text text => exact ⟨_, .text text, (Option.some.inj counted).symm⟩
    | .record fields => exact ⟨_, .record fields, (Option.some.inj counted).symm⟩
    | .null | .bool _ | .number _ => cases counted
  · rintro ⟨count, length, rfl⟩
    cases length <;> rfl

/-- Whatever other parts there are, the part that the segments lead to is found. -/
theorem follow?_of_walks {value node : Value} {segments : List String}
    (walks : Walks value segments node) : follow? value segments = some node := by
  induction segments generalizing value with
  | nil =>
    cases walks
    rfl
  | cons segment rest ih =>
    obtain ⟨part, found, onward⟩ := (walks_cons_iff value segment rest node).mp walks
    rw [follow?, found]
    exact ih onward

/-- Where following has come to is where the segments lead, unless the last one asks for a
length. -/
theorem reaches_of_follow? {value node : Value} {segments : List String}
    (found : follow? value segments = some node) : Reaches value segments node := by
  induction segments generalizing value with
  | nil =>
    cases found
    exact .part (.here node)
  | cons segment rest ih =>
    rw [follow?] at found
    cases child : child? value segment with
    | some part =>
      rw [child] at found
      cases ih found with
      | part walks =>
        exact .part ((walks_cons_iff value segment rest node).mpr ⟨part, child, walks⟩)
      | @length front whole count asks walks missing length =>
        have behind : Walks value (segment :: front) whole :=
          (walks_cons_iff value segment front whole).mpr ⟨part, child, walks⟩
        exact .length (congrArg (segment :: ·) asks) behind missing length
    | none =>
      rw [child] at found
      have counted : (if segment = lengthSegment ∧ rest = [] then length? value else none) =
          some node := found
      by_cases last : segment = lengthSegment ∧ rest = []
      · rw [if_pos last] at counted
        obtain ⟨rfl, rfl⟩ := last
        have missing : ∀ part, ¬Walks value [lengthSegment] part := by
          intro part walks
          rw [(child?_eq_some_iff value lengthSegment part).mpr walks] at child
          cases child
        obtain ⟨count, length, rfl⟩ := (length?_eq_some_iff value node).mp counted
        exact .length (List.nil_append [lengthSegment]).symm (.here value) missing length
      · rw [if_neg last] at counted
        cases counted

/-! ## References as texts -/

/-- The first part of a path is the root, and the others are the segments. -/
theorem ofPath_eq (path : List Char) : ofPath path =
    ⟨String.ofList (Text.splitAt '.' path).1, (Text.splitAt '.' path).2.map String.ofList⟩ := rfl

/-- The text of a reference is cut into its name and its segments. -/
theorem ofPath_joined {root : String} {segments : List String} (clear : '.' ∉ root.toList)
    (allClear : ∀ segment ∈ segments, '.' ∉ segment.toList) :
    ofPath (Text.joined '.' root.toList (segments.map String.toList)) = ⟨root, segments⟩ := by
  have cut : Text.splitAt '.' (Text.joined '.' root.toList (segments.map String.toList)) =
      (root.toList, segments.map String.toList) := by
    apply Text.splitAt_joined clear
    intro part among
    obtain ⟨segment, listed, rfl⟩ := List.mem_map.mp among
    exact allClear segment listed
  have kept : (segments.map String.toList).map String.ofList = segments := by
    rw [List.map_map]
    exact List.map_id'' (fun _ => String.ofList_toList) segments
  rw [ofPath_eq, cut]
  exact congrArg₂ Reference.mk String.ofList_toList kept

/-- A text is the name and the segments that are read from it, with dots between them. -/
theorem joined_ofPath (path : List Char) :
    Text.joined '.' (ofPath path).root.toList ((ofPath path).path.map String.toList) = path ∧
      '.' ∉ (ofPath path).root.toList ∧ ∀ segment ∈ (ofPath path).path, '.' ∉ segment.toList := by
  obtain ⟨whole, clear, allClear⟩ := Text.joined_splitAt '.' path
  have kept : ((Text.splitAt '.' path).2.map String.ofList).map String.toList =
      (Text.splitAt '.' path).2 := by
    rw [List.map_map]
    exact List.map_id'' (fun _ => String.toList_ofList) _
  rw [ofPath_eq]
  refine ⟨by rw [String.toList_ofList, kept, whole], by rwa [String.toList_ofList], ?_⟩
  intro segment among
  obtain ⟨part, listed, rfl⟩ := List.mem_map.mp among
  rw [String.toList_ofList]
  exact allClear part listed

/-- A reference is written as its root and its segments with dots between them. -/
theorem print_eq (reference : Reference) : reference.print =
    String.ofList (sigil :: Text.joined '.' reference.root.toList
      (reference.path.map String.toList)) := by
  rw [print, Text.joined, List.flatMap_map, List.cons_append]

/-- A text that begins with the sigil, blank space aside, is read as a reference. -/
theorem resolve?_reference {text : String} {path : List Char}
    (trimmed : Text.trim text.toList = sigil :: path) (context : Context) :
    Workflow.resolve? text context = (ofPath path).resolve? context := by
  rw [Workflow.resolve?, Expression.ofText, trimmed]
  rfl

/-- A reference resolves to what its path reaches from the value of its root. -/
theorem resolve?_eq_some_iff (reference : Reference) (context : Context) (node : Value) :
    reference.resolve? context = some node ↔ reference.root ≠ "" ∧
      ∃ value, context.get? reference.root = some value ∧
        follow? value reference.path = some node := by
  rw [resolve?]
  by_cases nameless : reference.root = ""
  · simp [nameless]
  · rw [if_neg nameless, Option.bind_eq_some_iff]
    exact (and_iff_right nameless).symm

/-- A position is printed without a dot. -/
theorem Hop.segment_clear {hop : Hop} (clear : ∀ key, hop = .field key → '.' ∉ key.toList) :
    '.' ∉ hop.segment.toList := by
  cases hop with
  | field key => exact clear key rfl
  | item position =>
    rw [segment, Nat.toString_eq_ofList_toDigits, String.toList_ofList]
    intro among
    cases Nat.isDigit_of_mem_toDigits (by decide) (by decide) among

/-- A text that begins with the sigil and ends with no blank character is not trimmed. -/
theorem trim_sigil {text : List Char}
    (ends : ∀ last ∈ (sigil :: text).getLast?, Text.isBlank last = false) :
    Text.trim (sigil :: text) = sigil :: text := by
  have started : Text.trimStart (sigil :: text) = sigil :: text := rfl
  rw [Text.trim, started, Text.trimEnd_eq_self_iff.mpr ends]

/-- Every part of the value of a variable is found by its reference, if that ends with no blank
character; and where a reference leads is such a part, or the length of one. -/
theorem parts_addressed (context : Context) :
    (∀ root value way node, context.get? root = some value → root ≠ "" → '.' ∉ root.toList →
      Leads value way node → (∀ key, Hop.field key ∈ way → '.' ∉ key.toList) →
      let text := print ⟨root, way.map Hop.segment⟩
      (∀ last ∈ text.toList.getLast?, Text.isBlank last = false) →
        Workflow.resolve? text context = some node) ∧
    ∀ text path node, Text.trim text.toList = sigil :: path →
      Workflow.resolve? text context = some node →
        ∃ root segments value,
          path = Text.joined '.' root.toList (segments.map String.toList) ∧
          '.' ∉ root.toList ∧ (∀ segment ∈ segments, '.' ∉ segment.toList) ∧
          root ≠ "" ∧ context.get? root = some value ∧ Reaches value segments node := by
  constructor
  · intro root value way node bound named clear leads allClear text ends
    have segments : ∀ segment ∈ way.map Hop.segment, '.' ∉ segment.toList := by
      intro segment among
      obtain ⟨hop, along, rfl⟩ := List.mem_map.mp among
      apply Hop.segment_clear
      rintro key rfl
      exact allClear key along
    have written : text.toList = sigil :: Text.joined '.' root.toList
        ((way.map Hop.segment).map String.toList) := by
      rw [show text = print ⟨root, way.map Hop.segment⟩ from rfl, print_eq, String.toList_ofList]
    have trimmed : Text.trim text.toList = text.toList := by
      rw [written] at ends ⊢
      exact trim_sigil ends
    rw [resolve?_reference (trimmed.trans written), ofPath_joined clear segments,
      resolve?_eq_some_iff]
    exact ⟨named, value, bound, follow?_of_walks leads.walks⟩
  · intro text path node trimmed found
    rw [resolve?_reference trimmed, resolve?_eq_some_iff] at found
    obtain ⟨named, value, bound, reached⟩ := found
    obtain ⟨whole, clear, allClear⟩ := joined_ofPath path
    exact ⟨_, _, value, whole.symm, clear, allClear, named, bound, reaches_of_follow? reached⟩

/-- A record with a field named like the question for a length. -/
def misleading : Value :=
  .record [("0", .ofInt 7), ("length", .list [.text "a", .record [("length", .bool true)]])]

/-- A context in which a variable holds it. -/
def misled : Context := (Context.start "w" "run" .null).setOutput "data" misleading

/-- The fields come before the length, which is found where there is no such field. -/
theorem parts_addressed_misleading :
    misled.get? "data" = some misleading ∧
    Leads misleading [.field "length", .item 1, .field "length"] (.bool true) ∧
    Workflow.resolve? "$data.length.1.length" misled = some (.bool true) ∧
    Workflow.resolve? " $data.length.length " misled = some (.ofNat 2) ∧
    ∃ root segments value,
      "data.length.length".toList = Text.joined '.' root.toList (segments.map String.toList) ∧
      misled.get? root = some value ∧ Reaches value segments (.ofNat 2) := by
  have bound : misled.get? "data" = some misleading := rfl
  have leads : Leads misleading [.field "length", .item 1, .field "length"] (.bool true) :=
    .field rfl (.item rfl (.field rfl (.here _)))
  have clear : ∀ key, Hop.field key ∈ [Hop.field "length", .item 1, .field "length"] →
      '.' ∉ key.toList := by
    intro key among
    simp only [List.mem_cons, Hop.field.injEq, reduceCtorEq, List.not_mem_nil, or_false,
      false_or] at among
    rcases among with rfl | rfl <;> decide
  have printed : print ⟨"data", [.field "length", .item 1, .field "length"].map Hop.segment⟩ =
      "$data.length.1.length" := by decide +kernel
  obtain ⟨addressed, reached⟩ := parts_addressed misled
  have node := addressed "data" misleading _ _ bound (by decide) (by decide) leads clear
  rw [printed] at node
  have ends : ∀ last ∈ "$data.length.1.length".toList.getLast?, Text.isBlank last = false := by
    intro last among
    obtain rfl : 'h' = last := Option.some.inj among
    decide
  have asked : Workflow.resolve? " $data.length.length " misled = some (.ofNat 2) := by
    decide +kernel
  obtain ⟨root, segments, value, whole, -, -, -, found, reaches⟩ :=
    reached " $data.length.length " "data.length.length".toList _ (by decide +kernel) asked
  exact ⟨bound, leads, node ends, asked, root, segments, value, whole, found,
    reaches⟩

end Reference

end Workflow

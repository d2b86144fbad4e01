import Mathlib.Data.List.Induction
import Mathlib.Data.List.Nodup
import Workflow.Value

/-!
# Tables as maps

A table in ascending order is determined by what is found in it, so two lists of entries build the
same table exactly if the last entry under each key is the same in both. This is how records are
compared without looking at the order in which their fields were set.
-/
namespace Workflow

namespace Table

variable {A : Type}

/-- The keys are in ascending order, and each occurs once. -/
def Ordered (table : Table A) : Prop := table.Pairwise fun first second => first.1 < second.1

/-- An entry of a table in which one was set is the new one or an earlier one. -/
theorem mem_set {key : String} {entry : A} {table : Table A} {field : String × A}
    (member : field ∈ table.set key entry) : field = (key, entry) ∨ field ∈ table := by
  induction table with
  | nil => exact .inl (List.mem_singleton.mp member)
  | cons head rest ih =>
    rw [set] at member
    split at member
    · rcases List.mem_cons.mp member with rfl | later
      · exact .inl rfl
      · exact .inr (List.mem_cons_of_mem _ later)
    · split at member
      · exact List.mem_cons.mp member
      · rcases List.mem_cons.mp member with rfl | later
        · exact .inr List.mem_cons_self
        · exact (ih later).imp_right (List.mem_cons_of_mem _)

/-- What is found lies in the table under its key. -/
theorem mem_of_get? {key : String} {entry : A} {table : Table A}
    (found : table.get? key = some entry) : (key, entry) ∈ table := by
  obtain ⟨before, after, rfl, -⟩ := List.lookup_eq_some_iff.mp found
  exact List.mem_append_right before List.mem_cons_self

/-- An entry under a key that is not there comes to the others. -/
theorem set_perm {key : String} {table : Table A} (free : table.get? key = none) (entry : A) :
    (table.set key entry).Perm ((key, entry) :: table) := by
  induction table with
  | nil => exact .refl _
  | cons head rest ih =>
    obtain ⟨other, kept⟩ := head
    rw [get?, List.lookup_cons] at free
    split at free
    · cases free
    next differ =>
      have unequal : key ≠ other := by simpa using differ
      rw [set, if_neg unequal]
      split
      · exact .refl _
      · exact ((ih free).cons _).trans (.swap _ _ _)

/-- To set an entry keeps a table ordered. -/
theorem Ordered.set {table : Table A} (ordered : table.Ordered) (key : String) (entry : A) :
    (table.set key entry).Ordered := by
  induction table with
  | nil => exact List.pairwise_singleton _ _
  | cons head rest ih =>
    obtain ⟨other, kept⟩ := head
    obtain ⟨before, restOrdered⟩ := List.pairwise_cons.mp ordered
    rw [Table.set]
    split
    next same =>
      subst same
      exact List.pairwise_cons.mpr ⟨before, restOrdered⟩
    next differ =>
      split
      next first =>
        refine List.pairwise_cons.mpr ⟨List.forall_mem_cons.mpr ⟨first, ?_⟩, ordered⟩
        exact fun field later => String.lt_trans first (before field later)
      next later =>
        refine List.pairwise_cons.mpr ⟨fun field member => ?_, ih restOrdered⟩
        rcases mem_set member with rfl | inRest
        · -- The keys differ, so the one that does not come first comes later.
          by_contra earlier
          exact differ (String.le_antisymm (String.not_lt.mp earlier) (String.not_lt.mp later))
        · exact before field inRest

/-- A field of an ordered table is what is found under its key. -/
theorem Ordered.mem_iff {table : Table A} (ordered : table.Ordered) {field : String × A} :
    field ∈ table ↔ table.get? field.1 = some field.2 := by
  induction table with
  | nil => simp [get?]
  | cons head rest ih =>
    obtain ⟨before, restOrdered⟩ := List.pairwise_cons.mp ordered
    rw [List.mem_cons, ih restOrdered, get?, get?, List.lookup_cons]
    by_cases same : field.1 = head.1
    · have missing : rest.lookup field.1 = none := by
        rw [List.lookup_eq_none_iff]
        intro other member
        have later := before other member
        rw [← same] at later
        simpa using fun equal => String.lt_irrefl _ (equal ▸ later)
      simp [same, Prod.ext_iff, eq_comm, same ▸ missing]
    · have differ : (field.1 == head.1) = false := by simpa using same
      simp [differ, Prod.ext_iff, same]

/-- An ordered table has each key once. -/
theorem Ordered.nodup {table : Table A} (ordered : table.Ordered) :
    (table.map Prod.fst).Nodup := by
  refine List.pairwise_map.mpr (ordered.imp fun {first second} before same => ?_)
  rw [same] at before
  exact String.lt_irrefl _ before

/-- Ordered tables in which the same is found are the same. -/
theorem Ordered.ext {first second : Table A} (firstOrdered : first.Ordered)
    (secondOrdered : second.Ordered) (same : ∀ key, first.get? key = second.get? key) :
    first = second := by
  have permuted : first.Perm second := by
    refine (List.perm_ext_iff_of_nodup (.of_map _ firstOrdered.nodup)
      (.of_map _ secondOrdered.nodup)).mpr fun field => ?_
    rw [firstOrdered.mem_iff, secondOrdered.mem_iff, same]
  refine permuted.eq_of_pairwise (fun one other _ _ before after => ?_) firstOrdered secondOrdered
  exact absurd (String.lt_trans before after) (String.lt_irrefl _)

/-- The table with entries that are set in order. -/
def ofEntries (entries : List (String × A)) : Table A :=
  entries.foldl (fun table entry => table.set entry.1 entry.2) []

/-- To set entries one after another keeps a table ordered. -/
theorem foldl_set_ordered (entries : List (String × A)) {table : Table A}
    (ordered : table.Ordered) :
    (entries.foldl (fun table entry => table.set entry.1 entry.2) table).Ordered := by
  induction entries generalizing table with
  | nil => exact ordered
  | cons entry rest ih => exact ih (ordered.set entry.1 entry.2)

/-- A table that is made of entries is ordered. -/
theorem ofEntries_ordered (entries : List (String × A)) : (ofEntries entries).Ordered :=
  foldl_set_ordered entries List.Pairwise.nil

/-- Of several entries under one key the last one is found. -/
theorem get?_ofEntries (entries : List (String × A)) (key : String) :
    (ofEntries entries).get? key = entries.reverse.lookup key := by
  induction entries using List.reverseRecOn with
  | nil => rfl
  | append_singleton earlier entry ih =>
    rw [ofEntries, List.foldl_append, List.foldl_cons, List.foldl_nil, ← ofEntries,
      List.reverse_append, List.reverse_singleton, List.singleton_append, List.lookup_cons]
    by_cases same : key = entry.1
    · rw [same, get?_set_self, beq_self_eq_true]
    · have differ : (key == entry.1) = false := by simpa using same
      rw [get?_set_of_ne same, ih, differ]

/-- Entries build the same table if the last one under each key is the same. -/
theorem ofEntries_eq {first second : List (String × A)}
    (same : ∀ key, first.reverse.lookup key = second.reverse.lookup key) :
    ofEntries first = ofEntries second := by
  refine (ofEntries_ordered first).ext (ofEntries_ordered second) fun key => ?_
  rw [get?_ofEntries, get?_ofEntries, same]

/-- Where each key has one entry, that entry is found. -/
theorem get?_ofEntries_of_mem {entries : List (String × A)}
    (distinct : (entries.map Prod.fst).Nodup) {entry : String × A} (member : entry ∈ entries) :
    (ofEntries entries).get? entry.1 = some entry.2 := by
  obtain ⟨before, after, rfl⟩ := List.append_of_mem member
  rw [get?_ofEntries, List.lookup_eq_some_iff]
  refine ⟨after.reverse, before.reverse, by simp, fun other inside => ?_⟩
  rw [List.map_append, List.map_cons, List.nodup_append] at distinct
  have fresh := (List.nodup_cons.mp distinct.2.1).1
  rw [bne_iff_ne]
  exact fun same => fresh (same ▸ List.mem_map_of_mem (List.mem_reverse.mp inside))

/-- Where each key has one entry, the keys are those of the entries. -/
theorem keys_ofEntries {entries : List (String × A)}
    (distinct : (entries.map Prod.fst).Nodup) :
    ((ofEntries entries).map Prod.fst).Perm (entries.map Prod.fst) := by
  refine (List.perm_ext_iff_of_nodup (ofEntries_ordered entries).nodup distinct).mpr fun key => ?_
  constructor
  · intro known
    obtain ⟨field, member, rfl⟩ := List.mem_map.mp known
    rw [(ofEntries_ordered entries).mem_iff, get?_ofEntries, List.lookup_eq_some_iff] at member
    obtain ⟨before, after, reversed, -⟩ := member
    have inside : field ∈ entries := by
      rw [← List.mem_reverse, reversed]
      exact List.mem_append_right _ List.mem_cons_self
    exact List.mem_map_of_mem inside
  · intro known
    obtain ⟨entry, member, rfl⟩ := List.mem_map.mp known
    have found := get?_ofEntries_of_mem distinct member
    exact List.mem_map_of_mem ((ofEntries_ordered entries).mem_iff.mpr found)

end Table

/-! ## Records -/

namespace Value

/-- A record that is made of fields is the table of them. -/
theorem ofFields_eq (fields : List (String × Value)) :
    ofFields fields = .record (Table.ofEntries fields) := rfl

/-- In a record the last value under a name counts. -/
theorem field?_ofFields (fields : List (String × Value)) (name : String) :
    (ofFields fields).field? name = fields.reverse.lookup name :=
  Table.get?_ofEntries fields name

end Value

end Workflow

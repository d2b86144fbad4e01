/-!
# Tables

A table holds entries under texts, each text once, in ascending order of code points.
-/
namespace Workflow

/-- Entries under texts in ascending order. -/
abbrev Table (A : Type u) := List (String × A)

namespace Table

variable {A : Type u}

/-- Put an entry under a key, in place of the one that is there. -/
def set (key : String) (entry : A) : Table A → Table A
  | [] => [(key, entry)]
  | (other, kept) :: rest =>
    if key = other then (key, entry) :: rest
    else if key < other then (key, entry) :: (other, kept) :: rest
    else (other, kept) :: set key entry rest

/-- The entry under a key. -/
def get? (key : String) (table : Table A) : Option A := table.lookup key

/-- There is an entry under a key. -/
def contains (key : String) (table : Table A) : Bool := (table.get? key).isSome

/-- The table without the entry under a key. -/
def erase (key : String) (table : Table A) : Table A := table.filter (·.1 ≠ key)

/-- The keys in ascending order. -/
def keys (table : Table A) : List String := table.map Prod.fst

/-- The entry just set is found. -/
theorem get?_set_self (key : String) (entry : A) (table : Table A) :
    (table.set key entry).get? key = some entry := by
  induction table with
  | nil => simp [set, get?]
  | cons head rest ih =>
    obtain ⟨other, kept⟩ := head
    by_cases same : key = other
    · simp [set, get?, same]
    · by_cases before : key < other
      · simp [set, get?, same, before]
      · have differ : (key == other) = false := by simpa using same
        simpa [set, get?, same, before, List.lookup_cons, differ] using ih

/-- Setting an entry leaves those under other keys alone. -/
theorem get?_set_of_ne {key other : String} (differ : other ≠ key) (entry : A)
    (table : Table A) : (table.set key entry).get? other = table.get? other := by
  have unequal : (other == key) = false := by simpa using differ
  induction table with
  | nil => simp [set, get?, List.lookup_cons, unequal]
  | cons head rest ih =>
    obtain ⟨third, kept⟩ := head
    by_cases same : key = third
    · subst same
      simp [set, get?, List.lookup_cons, unequal]
    · by_cases before : key < third
      · simp [set, get?, same, before, List.lookup_cons, unequal]
      · by_cases found : other == third
        · simp [set, get?, same, before, List.lookup_cons, found]
        · simpa [set, get?, same, before, List.lookup_cons, found] using ih

end Table

end Workflow

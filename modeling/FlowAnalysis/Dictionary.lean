/-!
# Dictionaries

A dictionary holds values under text keys in the order in which the keys were first set. Setting a
key again replaces its value and keeps its place.
-/

namespace FlowAnalysis

/-- Values under text keys, in order. -/
abbrev Dictionary (Value : Type) := List (String × Value)

namespace Dictionary

variable {Value : Type}

/-- The value under a key. -/
def get? (dictionary : Dictionary Value) (key : String) : Option Value :=
  List.lookup key dictionary

/-- Whether a key is set. -/
def hasKey (dictionary : Dictionary Value) (key : String) : Bool :=
  (dictionary.get? key).isSome

/-- The keys in order. -/
def keys (dictionary : Dictionary Value) : List String :=
  dictionary.map Prod.fst

/-- Sets the value under a key, in place when the key is already set and at the end otherwise. -/
def insert : Dictionary Value → String → Value → Dictionary Value
  | [], key, value => [(key, value)]
  | (present, old) :: rest, key, value =>
      if present = key then (key, value) :: rest
      else (present, old) :: insert rest key value

/-- Sets every entry of the second dictionary in the first. -/
def extend (dictionary additions : Dictionary Value) : Dictionary Value :=
  additions.foldl (fun result entry => result.insert entry.1 entry.2) dictionary

/-- The dictionary that results from setting the entries of a list one after the other. -/
def ofEntries (entries : List (String × Value)) : Dictionary Value :=
  extend [] entries

@[simp]
theorem get?_nil (key : String) : get? ([] : Dictionary Value) key = none := rfl

theorem get?_cons (present key : String) (value : Value) (rest : Dictionary Value) :
    get? ((present, value) :: rest) key = if key = present then some value else get? rest key := by
  by_cases same : key = present
  · subst same
    simp [get?]
  · have differs : (key == present) = false := by simpa using same
    simp [get?, List.lookup_cons, differs, same]

/-- After setting a key, that key has the new value and every other key its old one. -/
theorem get?_insert (dictionary : Dictionary Value) (key sought : String) (value : Value) :
    (dictionary.insert key value).get? sought =
      if sought = key then some value else dictionary.get? sought := by
  induction dictionary with
  | nil => simp [insert, get?_cons]
  | cons entry rest ih =>
      rcases entry with ⟨present, old⟩
      by_cases same : present = key
      · subst same
        by_cases found : sought = present <;> simp [insert, get?_cons, found]
      · by_cases found : sought = present
        · subst found
          simp [insert, get?_cons, same]
        · simp [insert, get?_cons, same, found, ih]

/-- Setting a key adds it at the end unless it is already set. -/
theorem keys_insert (dictionary : Dictionary Value) (key : String) (value : Value) :
    (dictionary.insert key value).keys =
      if key ∈ dictionary.keys then dictionary.keys else dictionary.keys ++ [key] := by
  induction dictionary with
  | nil => simp [insert, keys]
  | cons entry rest ih =>
      rcases entry with ⟨present, old⟩
      by_cases same : present = key
      · subst same
        simp [insert, keys]
      · have differs : key ≠ present := fun equal => same equal.symm
        simp only [keys] at ih
        by_cases found : key ∈ rest.map Prod.fst
        · simp [insert, keys, same, ih, found]
        · simp [insert, keys, same, differs, ih, found]

end Dictionary

end FlowAnalysis

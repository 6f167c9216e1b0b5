import FlowAnalysis.Binary64
import FlowAnalysis.Dictionary

/-!
# JSON values

The value type of documents. An object keeps its members in the order of the text, repeated keys
included: a record reader refuses repetition, a map reader lets the last value win, and both decide
on the same value.
-/

namespace FlowAnalysis

/-- A JSON number: an exact integer or a floating-point value. -/
inductive Number where
  | integer (value : Int)
  | float (value : Binary64)
deriving DecidableEq, Repr

/-- A JSON value. -/
inductive Json where
  | null
  | bool (value : Bool)
  | number (value : Number)
  | string (text : String)
  | array (items : List Json)
  | object (members : List (String × Json))
deriving Repr, Inhabited

namespace Json

/-- The JSON form of a natural number. -/
def natural (value : Nat) : Json :=
  .number (.integer value)

/-- The JSON form of an optional text, null when it is absent. -/
def optionalString : Option String → Json
  | none => .null
  | some text => .string text

mutual

/-- The value in which every object has each key once, with its last value in its first place. -/
def merged : Json → Json
  | .array items => .array (mergedItems items)
  | .object members => .object (Dictionary.ofEntries (mergedMembers members))
  | .null => .null
  | .bool value => .bool value
  | .number value => .number value
  | .string text => .string text

def mergedItems : List Json → List Json
  | [] => []
  | item :: rest => merged item :: mergedItems rest

def mergedMembers : List (String × Json) → List (String × Json)
  | [] => []
  | (key, value) :: rest => (key, merged value) :: mergedMembers rest

end

/-- How deep containers nest in a value. -/
def depth : Json → Nat
  | .array items => 1 + depthItems items
  | .object members => 1 + depthMembers members
  | .null | .bool _ | .number _ | .string _ => 0
where
  depthItems : List Json → Nat
    | [] => 0
    | item :: rest => max (depth item) (depthItems rest)
  depthMembers : List (String × Json) → Nat
    | [] => 0
    | (_, value) :: rest => max (depth value) (depthMembers rest)

/-- The text of a string value. -/
def text? : Json → Option String
  | .string text => some text
  | _ => none

/-- The truth value of a Boolean. -/
def bool? : Json → Option Bool
  | .bool value => some value
  | _ => none

/-- The value of a nonnegative integer. -/
def natural? : Json → Option Nat
  | .number (.integer (.ofNat value)) => some value
  | _ => none

/-- The items of an array. -/
def items? : Json → Option (List Json)
  | .array items => some items
  | _ => none

/-- The members of an object. -/
def members? : Json → Option (List (String × Json))
  | .object members => some members
  | _ => none

/-- The items that a reader makes of the items of an array. -/
def listOf? {Item : Type} (read : Json → Option Item) (value : Json) : Option (List Item) := do
  (← value.items?).mapM read

/-- The members of a record with the given keys: an object, or an array of the first fields in the
order of the keys. -/
def record? (keys : List String) : Json → Option (List (String × Json))
  | .object members => some members
  | .array items => if items.length ≤ keys.length then some (keys.zip items) else none
  | _ => none

/-- The text of a string value or the absence that null stands for. -/
def optionalText? : Json → Option (Option String)
  | .null => some none
  | .string text => some (some text)
  | _ => none

/-- The texts of an array of strings. -/
def texts? : Json → Option (List String)
  | .array items => items.mapM text?
  | _ => none

/-- The value under a key that must occur in a record exactly once. -/
def required? (members : List (String × Json)) (key : String) : Option Json :=
  match members.filter (·.1 = key) with
  | [(_, value)] => some value
  | _ => none

/-- The value under a key that may occur in a record at most once. -/
def optional? (members : List (String × Json)) (key : String) : Option (Option Json) :=
  match members.filter (·.1 = key) with
  | [] => some none
  | [(_, value)] => some (some value)
  | _ => none

end Json

end FlowAnalysis

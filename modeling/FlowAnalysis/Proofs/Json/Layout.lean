import FlowAnalysis.Proofs.Json.Distinct
import FlowAnalysis.Proofs.Json.Text

/-!
# Documents are read as they are written

Both ways to write a value differ only in where blanks stand, so what is read back is shown once,
for any `Layout`. A reader takes a part of a text for an item if it makes the item of the part
whatever follows; a container is taken for its items if its parts are, and a value nests too deep
exactly if one of its items does.
-/

namespace FlowAnalysis

namespace Json

/-- Where blanks stand in a text: in front of the items of a container and of its closing mark,
according to how deep the container is, and behind a colon. -/
structure Layout where
  lead : Nat → List Char
  trail : Nat → List Char
  colon : List Char
  blankLead : ∀ level, AllBlank (lead level)
  blankTrail : ∀ level, AllBlank (trail level)
  blankColon : AllBlank colon

namespace Layout

/-- No blanks at all. -/
def line : Layout where
  lead _ := []
  trail _ := []
  colon := []
  blankLead _ := nofun
  blankTrail _ := nofun
  blankColon := nofun

theorem allBlank_indent (level : Nat) : AllBlank ('\n' :: List.replicate (2 * level) ' ') := by
  simp only [AllBlank, List.forall_mem_cons]
  refine ⟨rfl, fun character isBlank => ?_⟩
  rw [List.eq_of_mem_replicate isBlank]
  rfl

/-- A line for each item, indented by two spaces a level. -/
def lines : Layout where
  lead level := '\n' :: List.replicate (2 * (level + 1)) ' '
  trail level := '\n' :: List.replicate (2 * level) ' '
  colon := [' ']
  blankLead level := allBlank_indent (level + 1)
  blankTrail := allBlank_indent
  blankColon := by simp [AllBlank, isBlank]

/-- The text of a container, given those of its parts. -/
def enclose (layout : Layout) (level : Nat) (opening closing : Char) : List (List Char) → List Char
  | [] => [opening, closing]
  | part :: parts =>
      opening :: (layout.lead level ++ part ++
        parts.flatMap (fun part => ',' :: (layout.lead level ++ part)) ++
        layout.trail level ++ [closing])

mutual

/-- The text of a value in a layout. -/
def write (layout : Layout) (level : Nat) : Json → List Char
  | .null => ['n', 'u', 'l', 'l']
  | .bool true => ['t', 'r', 'u', 'e']
  | .bool false => ['f', 'a', 'l', 's', 'e']
  | .number value => value.render.toList
  | .string text => (quoted text).toList
  | .array items => layout.enclose level '[' ']' (layout.writeItems (level + 1) items)
  | .object members => layout.enclose level '{' '}' (layout.writeMembers (level + 1) members)

def writeItems (layout : Layout) (level : Nat) : List Json → List (List Char)
  | [] => []
  | item :: rest => layout.write level item :: layout.writeItems level rest

def writeMembers (layout : Layout) (level : Nat) : List (String × Json) → List (List Char)
  | [] => []
  | (key, value) :: rest =>
      ((quoted key).toList ++ ':' :: (layout.colon ++ layout.write level value)) ::
        layout.writeMembers level rest

end

theorem writeItems_eq_map (layout : Layout) (level : Nat) (items : List Json) :
    layout.writeItems level items = items.map (layout.write level) := by
  induction items with
  | nil => rfl
  | cons item rest ih => simp [writeItems, ih]

theorem writeMembers_eq_map (layout : Layout) (level : Nat) (members : List (String × Json)) :
    layout.writeMembers level members = members.map fun entry =>
      (quoted entry.1).toList ++ ':' :: (layout.colon ++ layout.write level entry.2) := by
  induction members with
  | nil => rfl
  | cons entry rest ih => simp [writeMembers, ih]

theorem intercalate_cons (separator part : List Char) (parts : List (List Char)) :
    separator.intercalate (part :: parts) = part ++ parts.flatMap (separator ++ ·) := by
  induction parts generalizing part with
  | nil => simp [List.intercalate]
  | cons next parts ih =>
      have step : separator.intercalate (part :: next :: parts) =
          part ++ separator ++ separator.intercalate (next :: parts) := by
        simp [List.intercalate]
      simp [step, ih]

mutual

/-- The text of a value on one line has no blanks. -/
theorem toList_compact (level : Nat) : ∀ value : Json,
    value.compact.toList = line.write level value
  | .null | .bool true | .bool false | .number _ | .string _ => rfl
  | .array items => by
      rw [compact, write, ← toList_compactItems (level + 1) items]
      cases compactItems items with
      | nil => rfl
      | cons part parts =>
          simp [String.toList_intercalate, intercalate_cons, enclose, line, List.flatMap_map]
  | .object members => by
      rw [compact, write, ← toList_compactMembers (level + 1) members]
      cases compactMembers members with
      | nil => rfl
      | cons part parts =>
          simp [String.toList_intercalate, intercalate_cons, enclose, line, List.flatMap_map]

theorem toList_compactItems (level : Nat) : ∀ items : List Json,
    (compactItems items).map String.toList = line.writeItems level items
  | [] => rfl
  | item :: rest => by
      simp [compactItems, writeItems, toList_compact level item, toList_compactItems level rest]

theorem toList_compactMembers (level : Nat) : ∀ members : List (String × Json),
    (compactMembers members).map String.toList = line.writeMembers level members
  | [] => rfl
  | (key, value) :: rest => by
      simp [compactMembers, writeMembers, toList_compact level value,
        toList_compactMembers level rest, line]

end

theorem deeper_indent {level : Nat} {indent : String}
    (isIndent : indent.toList = List.replicate (2 * level) ' ') :
    (indent ++ "  ").toList = List.replicate (2 * (level + 1)) ' ' := by
  rw [Nat.mul_add, List.replicate_add, String.toList_append, isIndent]
  rfl

theorem toList_block {indent opening closing : String} {open_ close : Char} {level : Nat}
    (isIndent : indent.toList = List.replicate (2 * level) ' ') (opens : opening.toList = [open_])
    (closes : closing.toList = [close]) (parts : List String) :
    (block indent opening closing parts).toList =
      lines.enclose level open_ close (parts.map String.toList) := by
  have deeper : List.replicate (2 * (level + 1)) ' ' =
      List.replicate (2 * level) ' ' ++ [' ', ' '] := by
    rw [Nat.mul_add, List.replicate_add]
    rfl
  cases parts with
  | nil => simp [block, enclose, opens, closes]
  | cons part parts =>
      simp [block, enclose, lines, opens, closes, isIndent, deeper, String.toList_intercalate,
        intercalate_cons, List.flatMap_map]

mutual

/-- The text of a value over several lines has a line for each item. -/
theorem toList_prettyAt {level : Nat} {indent : String}
    (isIndent : indent.toList = List.replicate (2 * level) ' ') : ∀ value : Json,
    (prettyAt indent value).toList = lines.write level value
  | .null | .bool true | .bool false | .number _ | .string _ => by simp [prettyAt, write]
  | .array items => by
      rw [prettyAt, write, ← toList_prettyItems (deeper_indent isIndent) items]
      exact toList_block isIndent rfl rfl _
  | .object members => by
      rw [prettyAt, write, ← toList_prettyMembers (deeper_indent isIndent) members]
      exact toList_block isIndent rfl rfl _

theorem toList_prettyItems {level : Nat} {indent : String}
    (isIndent : indent.toList = List.replicate (2 * level) ' ') : ∀ items : List Json,
    (prettyItems indent items).map String.toList = lines.writeItems level items
  | [] => rfl
  | item :: rest => by
      simp [prettyItems, writeItems, toList_prettyAt isIndent item,
        toList_prettyItems isIndent rest]

theorem toList_prettyMembers {level : Nat} {indent : String}
    (isIndent : indent.toList = List.replicate (2 * level) ' ') : ∀ members : List (String × Json),
    (prettyMembers indent members).map String.toList = lines.writeMembers level members
  | [] => rfl
  | (key, value) :: rest => by
      simp [prettyMembers, writeMembers, toList_prettyAt isIndent value,
        toList_prettyMembers isIndent rest, lines]

end

end Layout

end Json

end FlowAnalysis

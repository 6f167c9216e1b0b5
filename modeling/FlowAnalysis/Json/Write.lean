import FlowAnalysis.Json.Basic

/-!
# Writing JSON text

Two layouts of one value: `Json.compact` on a single line without blanks, and `Json.pretty` with one
item or member a line, indented by two spaces. Quotes, backslashes and control characters are
escaped; everything else stands for itself.
-/

namespace FlowAnalysis

/-- The text of a positive decimal, a natural times ten to a power. It has a point as long as that
takes at most sixteen digits in front of the point and four zeros behind it, and an exponent
otherwise. -/
def decimalText (digits : Nat) (place : Int) : List Char :=
  let written := Nat.toDigits 10 digits
  let point : Int := written.length + place
  if 0 ≤ place ∧ point ≤ 16 then written ++ List.replicate place.toNat '0' ++ ['.', '0']
  else if 0 < point ∧ point ≤ 16 then
    written.take point.toNat ++ '.' :: written.drop point.toNat
  else if -5 < point ∧ point ≤ 0 then
    '0' :: '.' :: (List.replicate (-point).toNat '0' ++ written)
  else
    let fraction := if written.length = 1 then [] else '.' :: written.drop 1
    written.take 1 ++ fraction ++ 'e' :: (toString (point - 1)).toList

/-- The decimal text of a number. A float is written with the fewest digits that are rounded to it;
the values that have no decimal are null. -/
def Number.render : Number → String
  | .integer value => toString value
  | .float value =>
      if value.isFinite then
        let sign := if value.isNegative then ['-'] else []
        let magnitude :=
          if value.isZero then ['0', '.', '0']
          else decimalText value.shortest.1 value.shortest.2
        String.ofList (sign ++ magnitude)
      else "null"

namespace Json

/-- The hexadecimal digit of a value below sixteen, in lower case. -/
def hexDigit (value : Nat) : Char :=
  if value < 10 then Char.ofNat (48 + value) else Char.ofNat (87 + value)

/-- The written form of one character of a string. -/
def escape (character : Char) : List Char :=
  match character with
  | '\x22' => ['\\', '\x22']
  | '\\' => ['\\', '\\']
  | '\x08' => ['\\', 'b']
  | '\x0c' => ['\\', 'f']
  | '\n' => ['\\', 'n']
  | '\r' => ['\\', 'r']
  | '\t' => ['\\', 't']
  | _ =>
      if character.toNat < 0x20 then
        ['\\', 'u', '0', '0', hexDigit (character.toNat / 16), hexDigit (character.toNat % 16)]
      else [character]

/-- The written form of a string, quotes included. -/
def quoted (text : String) : String :=
  String.ofList ('\x22' :: text.toList.flatMap escape ++ ['\x22'])

mutual

/-- The text of a value on one line. -/
def compact : Json → String
  | .null => "null"
  | .bool true => "true"
  | .bool false => "false"
  | .number value => value.render
  | .string text => quoted text
  | .array items => "[" ++ ",".intercalate (compactItems items) ++ "]"
  | .object members => "\x7b" ++ ",".intercalate (compactMembers members) ++ "\x7d"

def compactItems : List Json → List String
  | [] => []
  | item :: rest => compact item :: compactItems rest

def compactMembers : List (String × Json) → List String
  | [] => []
  | (key, value) :: rest => (quoted key ++ ":" ++ compact value) :: compactMembers rest

end

/-- Lines of a container: each part on its own line, one level deeper than the brackets. -/
def block (indent opening closing : String) (parts : List String) : String :=
  if parts.isEmpty then opening ++ closing
  else
    let inner := "\n" ++ indent ++ "  "
    opening ++ inner ++ ("," ++ inner).intercalate parts ++ "\n" ++ indent ++ closing

mutual

/-- The text of a value over several lines, the first of which is already indented. -/
def prettyAt (indent : String) : Json → String
  | .null => "null"
  | .bool true => "true"
  | .bool false => "false"
  | .number value => value.render
  | .string text => quoted text
  | .array items => block indent "[" "]" (prettyItems (indent ++ "  ") items)
  | .object members => block indent "\x7b" "\x7d" (prettyMembers (indent ++ "  ") members)

def prettyItems (indent : String) : List Json → List String
  | [] => []
  | item :: rest => prettyAt indent item :: prettyItems indent rest

def prettyMembers (indent : String) : List (String × Json) → List String
  | [] => []
  | (key, value) :: rest =>
      (quoted key ++ ": " ++ prettyAt indent value) :: prettyMembers indent rest

end

/-- The text of a value over several lines. -/
def pretty (value : Json) : String :=
  prettyAt "" value

end Json

end FlowAnalysis

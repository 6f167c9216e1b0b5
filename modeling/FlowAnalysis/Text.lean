/-!
# Text conventions

Blank characters, trimming, and the segments of a dotted path.
-/

namespace FlowAnalysis

namespace Text

/-- The characters with the Unicode property `White_Space`. -/
def isBlank (character : Char) : Bool :=
  let code := character.toNat
  (0x09 ≤ code && code ≤ 0x0d) || code == 0x20 || code == 0x85 || code == 0xa0 || code == 0x1680 ||
    (0x2000 ≤ code && code ≤ 0x200a) || code == 0x2028 || code == 0x2029 || code == 0x202f ||
    code == 0x205f || code == 0x3000

/-- A text without the blanks at both ends. -/
def trim (text : List Char) : List Char :=
  ((text.dropWhile isBlank).reverse.dropWhile isBlank).reverse

/-- The parts of a text between the occurrences of a separator; there is always at least one. -/
def split (separator : Char) : List Char → List (List Char)
  | [] => [[]]
  | character :: rest =>
      if character = separator then [] :: split separator rest
      else
        match split separator rest with
        | [] => [[character]]
        | first :: others => (character :: first) :: others

/-- The segments of a dotted path. -/
def segments (path : String) : List String :=
  (split '.' path.toList).map String.ofList

/-- The value of a sequence of decimal digits, at least one. -/
def decimal? (digits : List Char) : Option Nat :=
  if digits.isEmpty ∨ ¬digits.all Char.isDigit then none
  else some (digits.foldl (fun value digit => value * 10 + (digit.toNat - 48)) 0)

end Text

end FlowAnalysis

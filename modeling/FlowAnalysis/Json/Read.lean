import FlowAnalysis.Json.Basic

/-!
# Reading JSON text

`Json.parse?` accepts exactly one value with blanks around it. Containers nest at most 127 deep.
An integer that fits a 64-bit word, signed or unsigned, is kept exactly; every other number becomes
a floating-point value: its digits are collected into a 64-bit significand as long as they fit, and
the significand is then scaled by one power of ten.

A document that is read for some members of its records only has a `Scheme`. The other members must
be well formed, but they may nest at any depth, and neither numbers nor surrogates in them matter.
-/

namespace FlowAnalysis

namespace Json

/-- A reader consumes the front of a text and returns the rest. -/
abbrev Reader (Value : Type) := List Char → Option (Value × List Char)

/-- Blanks are space, line feed, tab and carriage return. -/
def isBlank (character : Char) : Bool :=
  character = ' ' || character = '\n' || character = '\t' || character = '\r'

/-- Drops the blanks at the front of a text. -/
def skipBlanks (text : List Char) : List Char :=
  text.dropWhile isBlank

/-- The value of a hexadecimal digit in either case. -/
def hexDigit? (character : Char) : Option Nat :=
  if '0' ≤ character ∧ character ≤ '9' then some (character.toNat - 48)
  else if 'a' ≤ character ∧ character ≤ 'f' then some (character.toNat - 87)
  else if 'A' ≤ character ∧ character ≤ 'F' then some (character.toNat - 55)
  else none

/-- The 16-bit unit written by four hexadecimal digits. -/
def hexUnit? (first second third fourth : Char) : Option Nat := do
  let high ← hexDigit? first
  let upper ← hexDigit? second
  let lower ← hexDigit? third
  let low ← hexDigit? fourth
  return ((high * 16 + upper) * 16 + lower) * 16 + low

/-- The character written by a backslash and a letter or mark. -/
def escaped? (letter : Char) : Option Char :=
  match letter with
  | '\x22' => some '\x22'
  | '\\' => some '\\'
  | '/' => some '/'
  | 'b' => some '\x08'
  | 'f' => some '\x0c'
  | 'n' => some '\n'
  | 'r' => some '\r'
  | 't' => some '\t'
  | _ => none

/-- Reads the characters of a string up to its closing quote. A surrogate unit counts only in a
pair, and control characters must be escaped. -/
def readText : Reader (List Char)
  | [] => none
  | '\x22' :: rest => some ([], rest)
  | '\\' :: 'u' :: first :: second :: third :: fourth :: rest =>
      match hexUnit? first second third fourth with
      | none => none
      | some unit =>
          if 0xdc00 ≤ unit ∧ unit ≤ 0xdfff then none
          else if 0xd800 ≤ unit ∧ unit ≤ 0xdbff then
            match rest with
            | '\\' :: 'u' :: fifth :: sixth :: seventh :: eighth :: rest =>
                match hexUnit? fifth sixth seventh eighth with
                | none => none
                | some low =>
                    if 0xdc00 ≤ low ∧ low ≤ 0xdfff then
                      (readText rest).map fun (text, rest) =>
                        (Char.ofNat (0x10000 + (unit - 0xd800) * 0x400 + (low - 0xdc00)) :: text,
                          rest)
                    else none
            | _ => none
          else (readText rest).map fun (text, rest) => (Char.ofNat unit :: text, rest)
  | '\\' :: letter :: rest =>
      match escaped? letter with
      | none => none
      | some character => (readText rest).map fun (text, rest) => (character :: text, rest)
  | character :: rest =>
      if character.toNat < 0x20 ∨ character = '\\' then none
      else (readText rest).map fun (text, rest) => (character :: text, rest)

/-- The largest unsigned 64-bit word. -/
def largestWord : Nat := 0xffffffffffffffff

/-- The value of a decimal digit. -/
def digitValue (character : Char) : Nat :=
  character.toNat - 48

/-- Appends digits to a significand while it fits a word; returns also the digits left over. -/
def collectDigits (significand : Nat) : List Char → Nat × List Char
  | [] => (significand, [])
  | digit :: rest =>
      let next := significand * 10 + digitValue digit
      if next ≤ largestWord then collectDigits next rest else (significand, digit :: rest)

/-- A floating-point number with its sign. -/
def signedFloat (negative : Bool) (magnitude : Binary64) : Number :=
  .float (if negative then magnitude.negate else magnitude)

/-- The number with a significand and an exponent of ten, unless it is too large. -/
def scaled? (negative : Bool) (significand : Nat) (exponent : Int) : Option Number :=
  ((Binary64.ofRatio significand 1).scaleByTen? exponent).map (signedFloat negative)

/-- The same number with a further exponent. One of 31 bits or more makes zero if it is negative,
and a number that is too large otherwise. -/
def scaledFurther? (negative : Bool) (significand : Nat) (exponent : Int) (below : Bool)
    (magnitude : Nat) : Option Number :=
  if magnitude < 0x80000000 then
    scaled? negative significand (if below then exponent - magnitude else exponent + magnitude)
  else if significand ≠ 0 ∧ ¬below then none
  else some (signedFloat negative ⟨0⟩)

/-- Whether an exponent is negative, and the text behind its sign. -/
def readSign : List Char → Bool × List Char
  | '-' :: rest => (true, rest)
  | '+' :: rest => (false, rest)
  | text => (false, text)

/-- The value of a row of digits. -/
def digitsValue (digits : List Char) : Nat :=
  digits.foldl (fun value digit => value * 10 + digitValue digit) 0

/-- Reads the exponent of a number, if there is one, and scales the significand. -/
def readExponent (negative : Bool) (significand : Nat) (exponent : Int) : Reader Number :=
    fun text =>
  if text.head? = some 'e' ∨ text.head? = some 'E' then
    let (below, rest) := readSign text.tail
    let digits := rest.takeWhile Char.isDigit
    if digits.isEmpty then none
    else
      (scaledFurther? negative significand exponent below (digitsValue digits)).map
        fun number => (number, rest.dropWhile Char.isDigit)
  else (scaled? negative significand exponent).map fun number => (number, text)

/-- Reads the fraction of a number, if there is one, and its exponent. -/
def readFraction (negative : Bool) (significand : Nat) (exponent : Int) : Reader Number :=
    fun text =>
  if text.head? = some '.' then
    let digits := text.tail.takeWhile Char.isDigit
    let (significand, dropped) := collectDigits significand digits
    if digits.isEmpty then none
    else
      readExponent negative significand (exponent - (digits.length - dropped.length))
        (text.tail.dropWhile Char.isDigit)
  else readExponent negative significand exponent text

/-- The number written by an integer literal whose digits fit a word. -/
def wordNumber (negative : Bool) (significand : Nat) : Number :=
  if ¬negative then .integer significand
  else if significand = 0 ∨ 0x8000000000000000 < significand then
    .float (Binary64.ofRatio significand 1).negate
  else .integer (-significand)

/-- Whether a text begins with a fraction or an exponent. -/
def isScaled (text : List Char) : Bool :=
  text.head?.any fun mark => mark = '.' || mark = 'e' || mark = 'E'

/-- Reads a number after its sign: no superfluous leading zero, digits on both sides of a point. -/
def readMagnitude (negative : Bool) : Reader Number := fun text =>
  let digits := text.takeWhile Char.isDigit
  let rest := text.dropWhile Char.isDigit
  let (significand, dropped) := collectDigits 0 digits
  if digits.isEmpty ∨ (digits.head? = some '0' ∧ digits.length ≠ 1) then none
  else if isScaled rest ∨ ¬dropped.isEmpty then
    readFraction negative significand dropped.length rest
  else some (wordNumber negative significand, rest)

/-! ### What is passed over -/

/-- Passes over a string up to its closing quote. -/
def skipText : Reader (List Char)
  | [] => none
  | '\x22' :: rest => some ([], rest)
  | '\\' :: 'u' :: first :: second :: third :: fourth :: rest =>
      if (hexUnit? first second third fourth).isSome then skipText rest else none
  | '\\' :: letter :: rest => if (escaped? letter).isSome then skipText rest else none
  | character :: rest =>
      if character.toNat < 0x20 ∨ character = '\\' then none else skipText rest

/-- Passes over one or more digits. -/
def skipDigits (text : List Char) : Option (List Char) :=
  if (text.takeWhile Char.isDigit).isEmpty then none else some (text.dropWhile Char.isDigit)

/-- Passes over the exponent of a number, if there is one. -/
def skipExponent : List Char → Option (List Char)
  | [] => some []
  | mark :: rest =>
      if mark = 'e' ∨ mark = 'E' then
        match rest with
        | '-' :: rest => skipDigits rest
        | '+' :: rest => skipDigits rest
        | _ => skipDigits rest
      else some (mark :: rest)

/-- Passes over the fraction of a number, if there is one, and its exponent. -/
def skipFraction : List Char → Option (List Char)
  | '.' :: rest => (skipDigits rest).bind skipExponent
  | text => skipExponent text

/-- Passes over a number behind its sign, however large it is. -/
def skipMagnitude : Reader Number := fun text =>
  let digits := text.takeWhile Char.isDigit
  if digits.head? = some '0' ∧ digits.length ≠ 1 then none
  else ((skipDigits text).bind skipFraction).map fun rest => (.integer 0, rest)

/-! ### Values -/

/-- What a document is read for. -/
inductive Scheme where
  /-- Everything in a value. -/
  | any
  /-- Fields with schemes of their own. Other members of a record count only if it is open. -/
  | record (fields : List (String × Scheme)) (isOpen : Bool)
  /-- The items of an array. -/
  | items (each : Scheme)
  /-- All members of an object. -/
  | entries (each : Scheme)

namespace Scheme

/-- What the item at a place of an array is read for. An array that stands for a record has the
fields in their order. -/
def item : Scheme → Nat → Scheme
  | record fields _, place => (fields[place]?.map Prod.snd).getD any
  | items each, _ => each
  | entries _, _ => any
  | any, _ => any

/-- What a member of an object is read for, if it counts. -/
def member? : Scheme → String → Option Scheme
  | record fields isOpen, key =>
      match fields.lookup key with
      | some scheme => some scheme
      | none => if isOpen then some any else none
  | entries each, _ => some each
  | items _, _ => some any
  | any, _ => some any

end Scheme

/-- How strings, numbers and the members that do not count are read. -/
structure Manner where
  text : Reader (List Char)
  magnitude : Bool → Reader Number
  ignored : Reader Json

/-- Reads one or more items between commas, up to the closing mark. The reader of an item is given
its place. The first argument bounds the number of items, the second one is the place of the first
item. -/
def readSeparated {Item : Type} (item : Nat → Reader Item) (close : Char) :
    Nat → Nat → Reader (List Item)
  | 0, _, _ => none
  | bound + 1, place, text =>
      match item place text with
      | none => none
      | some (first, rest) =>
          match skipBlanks rest with
          | ',' :: rest =>
              (readSeparated item close bound (place + 1) rest).map fun (items, rest) =>
                (first :: items, rest)
          | mark :: rest => if mark = close then some ([first], rest) else none
          | [] => none

/-- Reads what stands between two brackets, the opening one already consumed. -/
def readEnclosed {Item : Type} (item : Nat → Reader Item) (close : Char) : Reader (List Item) :=
    fun text =>
  match skipBlanks text with
  | [] => none
  | mark :: rest =>
      if mark = close then some ([], rest)
      else readSeparated item close text.length 0 (mark :: rest)

/-- Reads a key, a colon and a value that depends on the key. -/
def readMember (text : Reader (List Char)) (value : String → Reader Json) :
    Reader (String × Json) := fun front =>
  match skipBlanks front with
  | '\x22' :: rest =>
      match text rest with
      | none => none
      | some (key, rest) =>
          match skipBlanks rest with
          | ':' :: rest =>
              (value (String.ofList key) rest).map fun (value, rest) =>
                ((String.ofList key, value), rest)
          | _ => none
  | _ => none

/-- Reads a value for what a scheme says. Its containers nest at most as deep as the number says. -/
def readValue (manner : Manner) : Nat → Scheme → Reader Json
  | depth, scheme, text =>
      match skipBlanks text with
      | 'n' :: 'u' :: 'l' :: 'l' :: rest => some (.null, rest)
      | 't' :: 'r' :: 'u' :: 'e' :: rest => some (.bool true, rest)
      | 'f' :: 'a' :: 'l' :: 's' :: 'e' :: rest => some (.bool false, rest)
      | '\x22' :: rest =>
          (manner.text rest).map fun (text, rest) => (.string (String.ofList text), rest)
      | '[' :: rest =>
          match depth with
          | 0 => none
          | depth + 1 =>
              let item (place : Nat) : Reader Json := readValue manner depth (scheme.item place)
              (readEnclosed item ']' rest).map fun (items, rest) => (.array items, rest)
      | '{' :: rest =>
          match depth with
          | 0 => none
          | depth + 1 =>
              let value (key : String) : Reader Json :=
                match scheme.member? key with
                | some inner => readValue manner depth inner
                | none => manner.ignored
              let member (_ : Nat) : Reader (String × Json) := readMember manner.text value
              (readEnclosed member '}' rest).map fun (members, rest) => (.object members, rest)
      | '-' :: rest => (manner.magnitude true rest).map fun (value, rest) => (.number value, rest)
      | text => (manner.magnitude false text).map fun (value, rest) => (.number value, rest)

/-- Checks the form of a value and forgets it. Its containers may nest at any depth. -/
def readIgnored : Reader Json := fun text =>
  let form : Manner :=
    { text := skipText
      magnitude := fun _ => skipMagnitude
      ignored := fun _ => none }
  (readValue form text.length .any text).map fun (_, rest) => (.null, rest)

/-- Reads strings and numbers exactly. -/
def Manner.exact : Manner where
  text := readText
  magnitude := readMagnitude
  ignored := readIgnored

/-- The deepest nesting of containers in a document. -/
def nestingLimit : Nat := 127

/-- The value that a document writes, if it is well formed and nothing but blanks follows. Members
that do not count according to the scheme are null. -/
def parseFor? (scheme : Scheme) (document : String) : Option Json :=
  match readValue .exact nestingLimit scheme document.toList with
  | some (value, rest) => if (skipBlanks rest).isEmpty then some value else none
  | none => none

/-- The value that a document writes, with everything in it. -/
def parse? (document : String) : Option Json :=
  parseFor? .any document

end Json

end FlowAnalysis

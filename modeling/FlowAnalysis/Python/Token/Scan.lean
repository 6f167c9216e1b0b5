import FlowAnalysis.Python.Token
import FlowAnalysis.Text.Identifier

/-!
# Reading a token

Each reader takes the characters from some place on and gives a token with the characters after it.
Numbers may have an underscore in front of a digit. The contents of a text literal go up to the
quotes that opened it, and a character after a backslash never closes it.
-/

namespace FlowAnalysis

namespace Python

namespace Token

/-- What follows a word, if the characters begin with it. -/
def after? : List Char → List Mark → Option (List Mark)
  | [], marks => some marks
  | _ :: _, [] => none
  | character :: word, mark :: rest => if mark.char = character then after? word rest else none

/-! ### Numbers -/

/-- The value of a digit in any base up to sixteen. -/
def digitValue? (character : Char) : Option Nat :=
  if '0' ≤ character ∧ character ≤ '9' then some (character.toNat - 48)
  else if 'a' ≤ character ∧ character ≤ 'f' then some (character.toNat - 87)
  else if 'A' ≤ character ∧ character ≤ 'F' then some (character.toNat - 55)
  else none

/-- Whether a character is a digit in a base. -/
def isDigitOf (base : Nat) (character : Char) : Bool :=
  match digitValue? character with
  | some value => value < base
  | none => false

/-- The digits at the front and what follows them. An underscore in front of a digit is skipped. -/
def digits (base : Nat) : List Mark → List Char × List Mark
  | [] => ([], [])
  | mark :: rest =>
      if isDigitOf base mark.char then
        let (run, rest) := digits base rest
        (mark.char :: run, rest)
      else if mark.char = '_' ∧ rest.head?.any fun next => isDigitOf base next.char then
        digits base rest
      else ([], mark :: rest)

/-- The value of a sequence of digits. -/
def numeral (base : Nat) (run : List Char) : Nat :=
  run.foldl (fun value digit => value * base + (digitValue? digit).getD 0) 0

/-- The base that a letter after a zero announces. -/
def base? (letter : Char) : Option Nat :=
  match letter.toLower with
  | 'x' => some 16
  | 'o' => some 8
  | 'b' => some 2
  | _ => none

/-- Whether an exponent with at least one digit comes next. -/
def startsExponent : List Mark → Bool
  | letter :: next :: rest =>
      letter.char.toLower = 'e' &&
        (next.char.isDigit ||
          ((next.char = '+' || next.char = '-') && rest.head?.any fun digit => digit.char.isDigit))
  | _ => false

/-- The digits after a decimal point, none if there is no point. -/
def fraction? : List Mark → Option (List Char × List Mark)
  | [] => some ([], [])
  | mark :: rest =>
      if mark.char ≠ '.' then some ([], mark :: rest)
      else if rest.head?.any fun next => next.char = '_' then none
      else some (digits 10 rest)

/-- The exponent at the front, zero if there is none. One without digits is an error. -/
def exponent? : List Mark → Option (Int × List Mark)
  | [] => some (0, [])
  | letter :: rest =>
      if letter.char.toLower ≠ 'e' then some (0, letter :: rest)
      else
        let negative := rest.head?.any fun sign => sign.char = '-'
        let signed := rest.head?.any fun sign => sign.char = '-' || sign.char = '+'
        let (run, rest) := digits 10 (if signed then rest.tail else rest)
        if run.isEmpty then none
        else some (if negative then -(numeral 10 run : Int) else numeral 10 run, rest)

/-- A number, imaginary if the letter `j` follows it. -/
def orImaginary (number : Token) : List Mark → Token × List Mark
  | [] => (number, [])
  | mark :: rest => if mark.char.toLower = 'j' then (imaginary, rest) else (number, mark :: rest)

/-- A decimal number. Zeros in front of another integer are an error. -/
def decimalNumber? (marks : List Mark) : Option (Token × List Mark) := do
  let (whole, rest) := digits 10 marks
  if startsExponent rest || rest.head?.any (fun mark => mark.char = '.') then
    let (places, rest) ← fraction? rest
    let (exponent, rest) ← exponent? rest
    let significand := numeral 10 (whole ++ places)
    return orImaginary (float (Binary64.ofDecimal significand (exponent - places.length))) rest
  else
    let value := numeral 10 whole
    match orImaginary (integer value) rest with
    | (integer value, rest) =>
        if whole.head? = some '0' ∧ value ≠ 0 then none else some (integer value, rest)
    | found => some found

/-- A number. -/
def number? (marks : List Mark) : Option (Token × List Mark) :=
  match marks with
  | zero :: letter :: rest =>
      match if zero.char = '0' then base? letter.char else none with
      | some base =>
          let (run, rest) := digits base rest
          if run.isEmpty then none else some (integer (numeral base run), rest)
      | none => decimalNumber? marks
  | _ => decimalNumber? marks

/-! ### Text literals -/

/-- Whether a character is a single or a double quote. -/
def isQuote (character : Char) : Bool :=
  character = '\x22' || character = '\x27'

/-- The contents of a text literal up to its closing quotes. A line feed is allowed only between
tripled quotes. -/
def contents? (closing : List Char) : List Mark → Option (List Char × List Mark)
  | [] => none
  | mark :: rest =>
      match after? closing (mark :: rest) with
      | some rest => some ([], rest)
      | none =>
          if mark.char = '\\' then
            match rest with
            | [] => none
            | escaped :: rest =>
                (contents? closing rest).map fun found =>
                  (mark.char :: escaped.char :: found.1, found.2)
          else if mark.char = '\n' ∧ closing.length < 3 then none
          else (contents? closing rest).map fun found => (mark.char :: found.1, found.2)

/-- A text literal from its opening quotes on. -/
def textLiteral? (kind : TextKind) : List Mark → Option (Token × List Mark)
  | [] => none
  | mark :: rest =>
      let quote := mark.char
      let (closing, inside) :=
        match after? [quote, quote] rest with
        | some inside => ([quote, quote, quote], inside)
        | none => ([quote], rest)
      (contents? closing inside).map fun found =>
        (text kind found.1 (mark.offset + closing.length), found.2)

/-! ### Names and symbols -/

/-- A reserved word or a name, unless it opens a text literal. -/
def word (marks : List Mark) : Token × List Mark :=
  let id := String.ofList ((marks.takeWhile fun mark => Text.isIdentifierContinue mark.char).map
    Mark.char)
  let rest := marks.dropWhile fun mark => Text.isIdentifierContinue mark.char
  (if reservedWords.contains id then reserved id else name id, rest)

/-- The kind of the text literal that the characters open with letters, and the number of the
letters. -/
def literalLetters? : List Mark → Option (TextKind × Nat)
  | first :: second :: rest =>
      if isQuote second.char then (TextKind.ofLetters? [first.char]).map (·, 1)
      else if rest.head?.any fun third => isQuote third.char then
        (TextKind.ofLetters? [first.char, second.char]).map (·, 2)
      else none
  | _ => none

/-- The symbol at the front. -/
def symbol? (marks : List Mark) : Option (Token × List Mark) :=
  symbols.findSome? fun text => (after? text.toList marks).map (symbol text, ·)

/-- The token at the front, which begins neither a blank nor a line nor a comment. -/
def scan? (marks : List Mark) : Option (Token × List Mark) :=
  match marks with
  | [] => none
  | mark :: rest =>
      if Text.isIdentifierStart mark.char then
        match literalLetters? marks with
        | some (kind, count) => textLiteral? kind (marks.drop count)
        | none => some (word marks)
      else if isQuote mark.char then textLiteral? {} marks
      else if mark.char.isDigit ||
          (mark.char = '.' && rest.head?.any fun next => next.char.isDigit) then
        number? marks
      else
        match symbol? marks with
        | some found => some found
        | none =>
            if Text.hasEmojiPresentation mark.char then
              some (name (String.singleton mark.char), rest)
            else none

end Token

end Python

end FlowAnalysis

/-!
# Lenient decoding of UTF-8

Bytes are read as UTF-8. What is no character is replaced: each longest beginning of one that the
next byte does not continue, and each byte that begins none, becomes one U+FFFD.
-/

namespace FlowAnalysis

namespace Text

/-- The smallest and the largest byte that may come second, the payload of the first byte, and the
number of bytes after it; none if a byte begins no character. -/
def leadByte? (byte : Nat) : Option (Nat × Nat × Nat × Nat) :=
  if byte < 0x80 then some (0x80, 0xbf, byte, 0)
  else if 0xc2 ≤ byte ∧ byte ≤ 0xdf then some (0x80, 0xbf, byte - 0xc0, 1)
  else if 0xe0 ≤ byte ∧ byte ≤ 0xef then
    some (if byte = 0xe0 then 0xa0 else 0x80, if byte = 0xed then 0x9f else 0xbf, byte - 0xe0, 2)
  else if 0xf0 ≤ byte ∧ byte ≤ 0xf4 then
    some (if byte = 0xf0 then 0x90 else 0x80, if byte = 0xf4 then 0x8f else 0xbf, byte - 0xf0, 3)
  else none

/-- A character of which some bytes are still to come. -/
structure PartialChar where
  payload : Nat
  missing : Nat
  /-- The bounds of the next byte. -/
  least : Nat
  greatest : Nat

/-- The character that stands for what cannot be decoded. -/
def replacement : Char := '\ufffd'

/-- Decodes bytes after the beginning of a character, if there is one. -/
def decodeFrom : Option PartialChar → List UInt8 → List Char
  | none, [] => []
  | some _, [] => [replacement]
  | pending, byte :: rest =>
      let byte := byte.toNat
      let fresh : List Char × Option PartialChar :=
        match leadByte? byte with
        | some (_, _, payload, 0) => ([Char.ofNat payload], none)
        | some (least, greatest, payload, missing + 1) =>
            ([], some ⟨payload, missing + 1, least, greatest⟩)
        | none => ([replacement], none)
      let (text, pending) :=
        match pending with
        | none => fresh
        | some character =>
            if character.least ≤ byte ∧ byte ≤ character.greatest then
              let payload := character.payload * 64 + byte % 64
              if character.missing ≤ 1 then ([Char.ofNat payload], none)
              else ([], some ⟨payload, character.missing - 1, 0x80, 0xbf⟩)
            else (replacement :: fresh.1, fresh.2)
      text ++ decodeFrom pending rest

/-- The text that bytes encode, with replacements. -/
def decodeLenient (bytes : List UInt8) : String :=
  String.ofList (decodeFrom none bytes)

end Text

end FlowAnalysis

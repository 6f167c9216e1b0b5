import FlowAnalysis.Json.Read
import FlowAnalysis.Json.Write
import Mathlib.Data.List.DropRight

/-!
# Numbers and strings are read as they are written

An integer that fits a 64-bit word is written by its decimal digits, and a string by its characters,
some of them escaped. The readers take back exactly what was written. A float is written by digits
that round to it, but the reader rounds twice, so not every float is read back. Whatever a number is
read as on its own, it is read as in a text, as long as what stands behind does not go on with it.
-/

namespace FlowAnalysis

namespace Json

/-! ### Blanks -/

def AllBlank (text : List Char) : Prop :=
  ∀ character ∈ text, isBlank character = true

theorem skipBlanks_append {blanks : List Char} (allBlank : AllBlank blanks) (text : List Char) :
    skipBlanks (blanks ++ text) = skipBlanks text := by
  apply List.dropWhile_append_of_pos
  exact allBlank

theorem skipBlanks_cons {character : Char} (notBlank : isBlank character = false)
    (text : List Char) : skipBlanks (character :: text) = character :: text :=
  List.dropWhile_cons_of_neg (by simp [notBlank])

theorem skipBlanks_skipBlanks (text : List Char) : skipBlanks (skipBlanks text) = skipBlanks text :=
  List.dropWhile_idempotent isBlank text

theorem readValue_skipBlanks (manner : Manner) (depth : Nat) (scheme : Scheme) (text : List Char) :
    readValue manner depth scheme (skipBlanks text) = readValue manner depth scheme text := by
  rw [readValue, readValue, skipBlanks_skipBlanks]

/-! ### Numbers -/

/-- A text does not go on with a number. -/
def Ends (text : List Char) : Prop :=
  ∀ character ∈ text.head?, character.isDigit = false ∧ character ∉ ['.', 'e', 'E']

/-- An integer is written and read exactly: it fits a 64-bit word, signed or unsigned. -/
def InWord (value : Int) : Prop :=
  -0x8000000000000000 ≤ value ∧ value ≤ largestWord

theorem head?_toDigits_ne_zero {number : Nat} (positive : 0 < number) :
    (Nat.toDigits 10 number).head? ≠ some '0' := by
  induction number using Nat.strongRecOn with
  | ind number ih =>
      by_cases small : number < 10
      · rw [Nat.toDigits_of_lt_base small]
        have noZero : ∀ digit < 10, 0 < digit → [digit.digitChar].head? ≠ some '0' := by decide
        exact noZero number small positive
      · have front := ih (number / 10) (by omega) (by omega)
        rcases List.exists_cons_of_ne_nil (Nat.toDigits_ne_nil (b := 10) (n := number / 10)) with
          ⟨first, rest, digits⟩
        rw [Nat.toDigits_of_base_le (by omega) (by omega), digits]
        rw [digits] at front
        exact front

/-- A number has a leading zero only if it is zero. -/
theorem noLeadingZero_toDigits (number : Nat) :
    ¬((Nat.toDigits 10 number).head? = some '0' ∧ (Nat.toDigits 10 number).length ≠ 1) := by
  rintro ⟨startsZero, notSingle⟩
  by_cases isZero : number = 0
  · subst isZero
    exact notSingle rfl
  · exact head?_toDigits_ne_zero (by omega) startsZero

theorem le_foldl_digits (digits : List Char) (significand : Nat) :
    significand ≤
      digits.foldl (fun value digit => 10 * value + (digit.toNat - '0'.toNat)) significand := by
  induction digits generalizing significand with
  | nil => exact Nat.le_refl _
  | cons digit rest ih =>
      have := ih (10 * significand + (digit.toNat - '0'.toNat))
      rw [List.foldl_cons]
      omega

theorem collectDigits_eq {digits : List Char} {significand : Nat}
    (fits : Nat.ofDigitChars 10 digits significand ≤ largestWord) :
    collectDigits significand digits = (Nat.ofDigitChars 10 digits significand, []) := by
  induction digits generalizing significand with
  | nil => rfl
  | cons digit rest ih =>
      have sameStep : significand * 10 + digitValue digit =
          10 * significand + (digit.toNat - '0'.toNat) := by
        rw [Nat.mul_comm]
        rfl
      have grows := le_foldl_digits rest (10 * significand + (digit.toNat - '0'.toNat))
      rw [Nat.ofDigitChars, List.foldl_cons] at fits
      rw [collectDigits]
      simp only [sameStep]
      rw [if_pos (Nat.le_trans grows fits)]
      exact ih fits

section

variable {text rest : List Char}

theorem takeWhile_append_of_ends (ends : Ends rest) :
    (text ++ rest).takeWhile Char.isDigit = text.takeWhile Char.isDigit := by
  induction text with
  | nil =>
      cases rest with
      | nil => rfl
      | cons first rest => simp [(ends first rfl).1]
  | cons first text ih => simp only [List.cons_append, List.takeWhile_cons, ih]

theorem dropWhile_append_of_ends (ends : Ends rest) :
    (text ++ rest).dropWhile Char.isDigit = text.dropWhile Char.isDigit ++ rest := by
  induction text with
  | nil =>
      cases rest with
      | nil => rfl
      | cons first rest => simp [(ends first rfl).1]
  | cons first text ih =>
      simp only [List.cons_append, List.dropWhile_cons, ih]
      split <;> rfl

variable {negative : Bool} {significand : Nat} {exponent : Int} {number : Number}

theorem readSign_append (notEmpty : text ≠ []) (rest : List Char) :
    readSign (text ++ rest) = ((readSign text).1, (readSign text).2 ++ rest) := by
  fun_cases readSign text with
  | case1 text => rfl
  | case2 text => rfl
  | case3 text noMinus noPlus =>
      cases text with
      | nil => exact absurd rfl notEmpty
      | cons first text =>
          rw [List.cons_append, readSign]
          · rintro others ⟨⟩
            exact noMinus _ rfl
          · rintro others ⟨⟩
            exact noPlus _ rfl

theorem head?_append_of_ends (ends : Ends rest) {mark : Char} (isMark : mark ∈ ['.', 'e', 'E']) :
    (text ++ rest).head? = some mark ↔ text.head? = some mark := by
  cases text with
  | nil =>
      refine ⟨fun isFirst => ?_, nofun⟩
      exact absurd isMark (ends mark isFirst).2
  | cons first text => rfl

theorem readExponent_append (ends : Ends rest)
    (reads : readExponent negative significand exponent text = some (number, [])) :
    readExponent negative significand exponent (text ++ rest) = some (number, rest) := by
  have sameMark : (text ++ rest).head? = some 'e' ∨ (text ++ rest).head? = some 'E' ↔
      text.head? = some 'e' ∨ text.head? = some 'E' :=
    or_congr (head?_append_of_ends ends (by decide)) (head?_append_of_ends ends (by decide))
  rw [readExponent] at reads ⊢
  simp only [sameMark]
  split at reads
  case isFalse noMark =>
    rw [if_neg noMark]
    rcases Option.map_eq_some_iff.1 reads with ⟨_, isScaled, ⟨⟩⟩
    rw [isScaled]
    rfl
  case isTrue isMark =>
    rw [if_pos isMark]
    have notEmpty : text ≠ [] := by
      rintro rfl
      simp at isMark
    rw [List.tail_append_of_ne_nil notEmpty]
    by_cases noDigits : text.tail = []
    · simp [noDigits, readSign] at reads
    · simp only [readSign_append noDigits, takeWhile_append_of_ends ends,
        dropWhile_append_of_ends ends] at reads ⊢
      split at reads
      · cases reads
      · next someDigits =>
          rw [if_neg someDigits]
          rcases Option.map_eq_some_iff.1 reads with ⟨_, isScaled, isPair⟩
          rcases Prod.ext_iff.1 isPair with ⟨rfl, isAll⟩
          simp only at isAll
          rw [isScaled, isAll]
          rfl

theorem readFraction_append (ends : Ends rest)
    (reads : readFraction negative significand exponent text = some (number, [])) :
    readFraction negative significand exponent (text ++ rest) = some (number, rest) := by
  have samePoint : (text ++ rest).head? = some '.' ↔ text.head? = some '.' :=
    head?_append_of_ends ends (by decide)
  rw [readFraction] at reads ⊢
  simp only [samePoint]
  split at reads
  case isFalse noPoint =>
    rw [if_neg noPoint]
    exact readExponent_append ends reads
  case isTrue isPoint =>
    rw [if_pos isPoint]
    have notEmpty : text ≠ [] := by
      rintro rfl
      simp at isPoint
    rw [List.tail_append_of_ne_nil notEmpty]
    simp only [takeWhile_append_of_ends ends, dropWhile_append_of_ends ends] at reads ⊢
    split at reads
    · cases reads
    · next someDigits =>
        rw [if_neg someDigits]
        exact readExponent_append ends reads

/-- What is read as a number on its own is read as that number in a text. -/
theorem readMagnitude_append (ends : Ends rest)
    (reads : readMagnitude negative text = some (number, [])) :
    readMagnitude negative (text ++ rest) = some (number, rest) := by
  have sameScaled : isScaled (text.dropWhile Char.isDigit ++ rest) =
      isScaled (text.dropWhile Char.isDigit) := by
    rw [isScaled, isScaled]
    cases text.dropWhile Char.isDigit with
    | cons first others => rfl
    | nil =>
        cases rest with
        | nil => rfl
        | cons first rest => simpa [and_assoc] using (ends first rfl).2
  rw [readMagnitude] at reads ⊢
  simp only [takeWhile_append_of_ends ends, dropWhile_append_of_ends ends, sameScaled] at reads ⊢
  split at reads
  · cases reads
  · next someDigits =>
      rw [if_neg someDigits]
      split at reads
      · next scales =>
          rw [if_pos scales]
          exact readFraction_append ends reads
      · next isWord =>
          rw [if_neg isWord]
          rcases Option.some.inj reads with isPair
          rcases Prod.ext_iff.1 isPair with ⟨rfl, isAll⟩
          simp only at isAll
          rw [isAll]
          rfl

end

theorem readMagnitude_toDigits {number : Nat} (fits : number ≤ largestWord) (negative : Bool) :
    readMagnitude negative (Nat.toDigits 10 number) = some (wordNumber negative number, []) := by
  have allDigits : ∀ digit ∈ Nat.toDigits 10 number, digit.isDigit = true :=
    fun digit isDigit => Nat.isDigit_of_mem_toDigits (by omega) (by omega) isDigit
  have collected : collectDigits 0 (Nat.toDigits 10 number) = (number, []) := by
    rw [collectDigits_eq] <;> rw [Nat.ofDigitChars_ten_toDigits]
    exact fits
  have wellFormed : ¬((Nat.toDigits 10 number).isEmpty ∨
      ((Nat.toDigits 10 number).head? = some '0' ∧ (Nat.toDigits 10 number).length ≠ 1)) := by
    rintro (isEmpty | leadingZero)
    · exact Nat.toDigits_ne_nil (List.isEmpty_iff.1 isEmpty)
    · exact noLeadingZero_toDigits number leadingZero
  rw [readMagnitude]
  simp only [List.takeWhile_eq_self_iff.2 allDigits, List.dropWhile_eq_nil_iff.2 allDigits, collected]
  rw [if_neg wellFormed]
  rfl

theorem toList_render_ofNat (number : Nat) :
    (Number.render (.integer (.ofNat number))).toList = Nat.toDigits 10 number := by
  have renders : Number.render (.integer (.ofNat number)) = toString number := rfl
  rw [renders]
  simp

theorem toList_render_negSucc (number : Nat) :
    (Number.render (.integer (.negSucc number))).toList = '-' :: Nat.toDigits 10 (number + 1) := by
  have renders : Number.render (.integer (.negSucc number)) = "-" ++ toString (number + 1) := rfl
  simp [renders]

/-! ### Strings -/

theorem hexUnit?_hexDigit {code : Nat} (small : code < 0x20) :
    hexUnit? '0' '0' (hexDigit (code / 16)) (hexDigit (code % 16)) = some code := by
  have all : ∀ code < 0x20,
      hexUnit? '0' '0' (hexDigit (code / 16)) (hexDigit (code % 16)) = some code := by decide
  exact all code small

theorem readText_escape (character : Char) (rest : List Char) :
    readText (escape character ++ rest) =
      (readText rest).map fun (text, rest) => (character :: text, rest) := by
  unfold escape
  split
  all_goals try rfl
  next noQuote noBackslash _ _ _ _ _ =>
    split
    · next isControl =>
        have unit := hexUnit?_hexDigit isControl
        have low : ¬(0xdc00 ≤ character.toNat ∧ character.toNat ≤ 0xdfff) := by omega
        have high : ¬(0xd800 ≤ character.toNat ∧ character.toNat ≤ 0xdbff) := by omega
        simp only [List.cons_append, List.nil_append, readText, unit, if_neg low, if_neg high,
          Char.ofNat_toNat]
    · next notControl =>
        have plain : ¬(character.toNat < 0x20 ∨ character = '\\') := by
          rintro (isControl | isBackslash)
          · exact notControl isControl
          · exact noBackslash isBackslash
        rw [List.singleton_append, readText]
        · rw [if_neg plain]
        all_goals simp_all

/-- The characters of a string are read back from their written form. -/
theorem readText_flatMap_escape (text rest : List Char) :
    readText (text.flatMap escape ++ '\x22' :: rest) = some (text, rest) := by
  induction text with
  | nil => rfl
  | cons character text ih =>
      rw [List.flatMap_cons, List.append_assoc, readText_escape, ih]
      rfl

theorem toList_quoted (text : String) :
    (quoted text).toList = '\x22' :: text.toList.flatMap escape ++ ['\x22'] := by
  simp [quoted]

end Json

end FlowAnalysis

import FlowAnalysis.Json.Read
import FlowAnalysis.Proofs.Json.Numbers
import FlowAnalysis.Proofs.Json.Text

/-!
# What can be read

Whatever is read from a document, its integers fit a word and its containers do not nest too deep.
-/

namespace FlowAnalysis

namespace Json

/-! ### Numbers -/

/-- A number that can be read. -/
def IsReadable (number : Number) : Prop :=
  ∀ value, number = .integer value → InWord value

theorem collectDigits_le {significand : Nat} (fits : significand ≤ largestWord)
    (digits : List Char) : (collectDigits significand digits).1 ≤ largestWord := by
  induction digits generalizing significand with
  | nil => exact fits
  | cons digit rest ih =>
      rw [collectDigits]
      split
      · next fits => exact ih fits
      · exact fits

theorem isReadable_float (value : Binary64) : IsReadable (.float value) :=
  nofun

theorem isReadable_wordNumber (negative : Bool) {significand : Nat}
    (fits : significand ≤ largestWord) : IsReadable (wordNumber negative significand) := by
  rw [wordNumber]
  split
  · rintro _ ⟨⟩
    constructor <;> omega
  · split
    · exact isReadable_float _
    · rintro _ ⟨⟩
      constructor <;> omega

theorem isReadable_scaled? {negative : Bool} {significand : Nat} {exponent : Int}
    {number : Number} (isScaled : scaled? negative significand exponent = some number) :
    IsReadable number := by
  rcases Option.map_eq_some_iff.1 isScaled with ⟨magnitude, -, rfl⟩
  exact isReadable_float _

theorem isReadable_of_readExponent {negative : Bool} {significand : Nat} {exponent : Int}
    {text rest : List Char} {number : Number}
    (reads : readExponent negative significand exponent text = some (number, rest)) :
    IsReadable number := by
  rw [readExponent] at reads
  simp only at reads
  split at reads
  · split at reads
    · cases reads
    · rcases Option.map_eq_some_iff.1 reads with ⟨_, isScaled, ⟨⟩⟩
      rw [scaledFurther?] at isScaled
      split at isScaled
      · exact isReadable_scaled? isScaled
      · split at isScaled
        · cases isScaled
        · cases isScaled
          exact isReadable_float _
  · rcases Option.map_eq_some_iff.1 reads with ⟨_, isScaled, ⟨⟩⟩
    exact isReadable_scaled? isScaled

theorem isReadable_of_readFraction {negative : Bool} {significand : Nat} {exponent : Int}
    {text rest : List Char} {number : Number}
    (reads : readFraction negative significand exponent text = some (number, rest)) :
    IsReadable number := by
  rw [readFraction] at reads
  simp only at reads
  split at reads
  · split at reads
    · cases reads
    · exact isReadable_of_readExponent reads
  · exact isReadable_of_readExponent reads

theorem isReadable_of_readMagnitude {negative : Bool} {text rest : List Char} {number : Number}
    (reads : readMagnitude negative text = some (number, rest)) : IsReadable number := by
  have fits := collectDigits_le (Nat.zero_le _) (text.takeWhile Char.isDigit)
  rw [readMagnitude] at reads
  simp only at reads
  split at reads
  · cases reads
  · split at reads
    · exact isReadable_of_readFraction reads
    · cases reads
      exact isReadable_wordNumber negative fits

section

variable {Item : Type} {readers : Nat → Reader Item} {good : Item → Prop} {close : Char}
  (goodReaders : ∀ {place text item rest}, readers place text = some (item, rest) → good item)

include goodReaders

theorem forall_of_readSeparated {bound place : Nat} {text rest : List Char} {items : List Item}
    (reads : readSeparated readers close bound place text = some (items, rest)) :
    ∀ item ∈ items, good item := by
  induction bound generalizing place text items rest with
  | zero => cases reads
  | succ bound ih =>
      rw [readSeparated] at reads
      split at reads
      · cases reads
      · next isFirst =>
          split at reads
          · rcases Option.map_eq_some_iff.1 reads with ⟨⟨others, rest⟩, areOthers, ⟨⟩⟩
            exact List.forall_mem_cons.2 ⟨goodReaders isFirst, ih areOthers⟩
          · split at reads
            · cases reads
              simpa using goodReaders isFirst
            · cases reads
          · cases reads

theorem forall_of_readEnclosed {text rest : List Char} {items : List Item}
    (reads : readEnclosed readers close text = some (items, rest)) : ∀ item ∈ items, good item := by
  rw [readEnclosed] at reads
  split at reads
  · cases reads
  · split at reads
    · cases reads
      exact nofun
    · exact forall_of_readSeparated goodReaders reads

end

/-- A value that can be read where containers nest as deep as a number says. -/
structure IsReadableWithin (depth : Nat) (value : Json) : Prop where
  numbers : value.AllNumbers IsReadable
  shallow : value.depth ≤ depth

theorem isReadableWithin_of_readMember {value : String → Reader Json} {depth : Nat}
    {key : Reader (List Char)} {text rest : List Char} {entry : String × Json}
    (goodValue : ∀ {key text item rest}, value key text = some (item, rest) →
      item.IsReadableWithin depth)
    (reads : readMember key value text = some (entry, rest)) : entry.2.IsReadableWithin depth := by
  rw [readMember] at reads
  split at reads
  · split at reads
    · cases reads
    · split at reads
      · rcases Option.map_eq_some_iff.1 reads with ⟨⟨item, rest⟩, isItem, ⟨⟩⟩
        exact goodValue isItem
      · cases reads
  · cases reads

theorem isReadableWithin_of_readValue {depth : Nat} {scheme : Scheme} {text rest : List Char}
    {value : Json} (reads : readValue .exact depth scheme text = some (value, rest)) :
    value.IsReadableWithin depth := by
  induction depth using Nat.strongRecOn generalizing scheme text rest value with
  | ind depth ih =>
      rw [readValue] at reads
      split at reads
      · cases reads
        exact ⟨.null, Nat.zero_le _⟩
      · cases reads
        exact ⟨.bool true, Nat.zero_le _⟩
      · cases reads
        exact ⟨.bool false, Nat.zero_le _⟩
      · rcases Option.map_eq_some_iff.1 reads with ⟨⟨text, rest⟩, -, ⟨⟩⟩
        exact ⟨.string _, Nat.zero_le _⟩
      · cases depth with
        | zero => cases reads
        | succ depth =>
            rcases Option.map_eq_some_iff.1 reads with ⟨⟨items, rest⟩, areItems, ⟨⟩⟩
            have good := forall_of_readEnclosed
              (fun isItem => ih depth (Nat.lt_succ_self depth) isItem) areItems
            refine ⟨.array fun item isItem => (good item isItem).numbers, ?_⟩
            rw [Json.depth, Nat.add_comm, Nat.add_le_add_iff_right, depthItems_le_iff]
            exact fun item isItem => (good item isItem).shallow
      · cases depth with
        | zero => cases reads
        | succ depth =>
            rcases Option.map_eq_some_iff.1 reads with ⟨⟨members, rest⟩, areMembers, ⟨⟩⟩
            have good : ∀ entry ∈ members, entry.2.IsReadableWithin depth := by
              refine forall_of_readEnclosed (fun isMember =>
                isReadableWithin_of_readMember (fun {key _ _ _} reads => ?_) isMember) areMembers
              cases found : scheme.member? key with
              | none =>
                  rw [found] at reads
                  rcases Option.map_eq_some_iff.1 reads with ⟨_, -, ⟨⟩⟩
                  exact ⟨.null, Nat.zero_le _⟩
              | some inner =>
                  rw [found] at reads
                  exact ih depth (Nat.lt_succ_self depth) reads
            refine ⟨.object fun entry isMember => (good entry isMember).numbers, ?_⟩
            rw [Json.depth, Nat.add_comm, Nat.add_le_add_iff_right, depthMembers_le_iff]
            exact fun entry isMember => (good entry isMember).shallow
      · rcases Option.map_eq_some_iff.1 reads with ⟨⟨number, rest⟩, isNumber, ⟨⟩⟩
        exact ⟨.number (isReadable_of_readMagnitude isNumber), Nat.zero_le _⟩
      · rcases Option.map_eq_some_iff.1 reads with ⟨⟨number, rest⟩, isNumber, ⟨⟩⟩
        exact ⟨.number (isReadable_of_readMagnitude isNumber), Nat.zero_le _⟩

/-- The integers in a document fit a word, and its containers do not nest too deep. -/
theorem isReadableWithin_of_parseFor? {scheme : Scheme} {document : String} {value : Json}
    (reads : parseFor? scheme document = some value) : value.IsReadableWithin nestingLimit := by
  rw [parseFor?] at reads
  split at reads
  · next isValue =>
      split at reads
      · cases reads
        exact isReadableWithin_of_readValue isValue
      · cases reads
  · cases reads

end Json

end FlowAnalysis

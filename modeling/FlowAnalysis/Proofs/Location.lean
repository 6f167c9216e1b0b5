import FlowAnalysis.Proofs.Reference.DefUse

/-!
# Keys of locations and references

The key of a location is its path and its span in one text. The span has a fixed form, so the key
tells the whole location, whatever the path is. In the key of a reference it is the name that comes
first and has no fixed form: names without colons are told by it.
-/

namespace FlowAnalysis

namespace Location

theorem append_colon_inj_right {first second rest rest' : List Char} (restPlain : ':' ∉ rest)
    (restPlain' : ':' ∉ rest') (equal : first ++ ':' :: rest = second ++ ':' :: rest') :
    first = second ∧ rest = rest' := by
  have reversed := congrArg List.reverse equal
  simp only [List.reverse_append, List.reverse_cons, List.append_assoc, List.cons_append,
    List.nil_append] at reversed
  rcases Reference.append_colon_inj (by simpa using restPlain) (by simpa using restPlain') reversed
    with ⟨sameRest, sameFirst⟩
  exact ⟨List.reverse_inj.1 sameFirst, List.reverse_inj.1 sameRest⟩

theorem not_mem_digits {character : Char} (notDigit : character.isDigit = false) (number : Nat) :
    character ∉ Nat.toDigits 10 number := by
  intro isDigit
  rw [Nat.isDigit_of_mem_toDigits (by simp) (by simp) isDigit] at notDigit
  cases notDigit

theorem digits_inj {number number' : Nat}
    (same : Nat.toDigits 10 number = Nat.toDigits 10 number') : number = number' := by
  rw [← Nat.ofDigitChars_ten_toDigits (n := number), same, Nat.ofDigitChars_ten_toDigits]

/-- What stands before the span in the key of a location. -/
def keyFront (path : Option String) : List Char :=
  match path with
  | some path => path.toList ++ [':']
  | none => []

theorem toList_key (location : Location) :
    location.key.toList =
      ((keyFront location.path ++ Nat.toDigits 10 location.firstLine) ++
        ':' :: (Nat.toDigits 10 location.firstColumn ++
          '-' :: Nat.toDigits 10 location.lastLine)) ++
        ':' :: Nat.toDigits 10 location.lastColumn := by
  rw [key]
  cases location.path <;> simp [display, keyFront]

theorem not_mem_toList_key {character : Char} {location : Location}
    (notDigit : character.isDigit = false) (notSeparator : character ≠ ':' ∧ character ≠ '-')
    (plainPath : ∀ path ∈ location.path, character ∉ path.toList) :
    character ∉ location.key.toList := by
  have noDigit : ∀ number, character ∉ Nat.toDigits 10 number := not_mem_digits notDigit
  rw [toList_key]
  cases pathEq : location.path with
  | none => simp [keyFront, noDigit, notSeparator]
  | some path => simp [keyFront, noDigit, notSeparator, plainPath path pathEq]

theorem keyFront_append_inj {path path' : Option String} {number number' : Nat}
    (same : keyFront path ++ Nat.toDigits 10 number = keyFront path' ++ Nat.toDigits 10 number') :
    path = path' ∧ number = number' := by
  have noColon : ∀ number, ':' ∉ Nat.toDigits 10 number := not_mem_digits rfl
  cases path with
  | none =>
      cases path' with
      | none => exact ⟨rfl, digits_inj same⟩
      | some path' =>
          have isColon : ':' ∈ keyFront none ++ Nat.toDigits 10 number := by
            rw [same]
            simp [keyFront]
          exact absurd isColon (noColon number)
  | some path =>
      cases path' with
      | none =>
          have isColon : ':' ∈ keyFront none ++ Nat.toDigits 10 number' := by
            rw [← same]
            simp [keyFront]
          exact absurd isColon (noColon number')
      | some path' =>
          simp only [keyFront, List.append_assoc, List.cons_append, List.nil_append] at same
          rcases append_colon_inj_right (noColon number) (noColon number') same with
            ⟨samePath, sameNumber⟩
          exact ⟨congrArg some (String.toList_inj.1 samePath), digits_inj sameNumber⟩

/-- Locations are told apart by their keys. -/
theorem key_injective : Function.Injective Location.key := by
  intro left right same
  have noColon : ∀ number, ':' ∉ Nat.toDigits 10 number := not_mem_digits rfl
  have noDash : ∀ number, '-' ∉ Nat.toDigits 10 number := not_mem_digits rfl
  have noColonBetween : ∀ column line,
      ':' ∉ Nat.toDigits 10 column ++ '-' :: Nat.toDigits 10 line := by
    intro column line
    simpa using ⟨noColon column, noColon line⟩
  have characters := congrArg String.toList same
  rw [toList_key, toList_key] at characters
  rcases append_colon_inj_right (noColon _) (noColon _) characters with ⟨characters, sameEnd⟩
  rcases append_colon_inj_right (noColonBetween _ _) (noColonBetween _ _) characters with
    ⟨sameFront, sameBetween⟩
  rcases (List.append_cons_inj_of_notMem (noDash _) (noDash _)).1 sameBetween with
    ⟨sameColumn, -, sameLine⟩
  rcases keyFront_append_inj sameFront with ⟨samePath, sameStart⟩
  rcases left with ⟨_, _, _, _, _⟩
  rcases right with ⟨_, _, _, _, _⟩
  simp only [mk.injEq]
  exact ⟨sameStart, digits_inj sameColumn, digits_inj sameLine, digits_inj sameEnd, samePath⟩

end Location

namespace Reference

/-- Locations are told by their keys, whatever the paths are. References whose names are free of
colons are told by their keys up to what sets tell apart: name, level and location. -/
theorem keys_identify :
    (∀ location location' : Location, location.key = location'.key ↔ location = location') ∧
    ∀ reference reference' : Reference, reference.HasPlainName → reference'.HasPlainName →
      (reference.key = reference'.key ↔
        reference.name = reference'.name ∧ reference.level = reference'.level ∧
          reference.location = reference'.location) := by
  refine ⟨fun location location' => Location.key_injective.eq_iff, ?_⟩
  intro reference reference' plain plain'
  constructor
  · intro same
    rcases name_level_eq_of_key_eq plain plain' same with ⟨sameName, sameLevel⟩
    have sameLocation := location_key_eq_of_key_eq plain plain' same
    exact ⟨sameName, sameLevel, Location.key_injective sameLocation⟩
  · rintro ⟨sameName, sameLevel, sameLocation⟩
    rw [key, key, sameName, sameLevel, sameLocation]

/-- An occurrence of a name at the start of a file. -/
def atStart (name : String) (path : Option String) : Reference :=
  { kind := .plain, level := .use, name, location := ⟨1, 0, 1, 1, path⟩,
    owner := ⟨.pass, ⟨1, 0, 1, 1, path⟩⟩ }

/-- The path may look like a span, be empty, or look like the end of a key: keys differ. -/
theorem key_ne_atStart :
    (⟨1, 0, 1, 1, some "1:0-1:1"⟩ : Location).key ≠
      (⟨1, 0, 1, 1, some "1:0-1:1:1:0-1:1"⟩ : Location).key ∧
    (atStart "x@USE" none).HasPlainName ∧ (atStart "x@USE" (some "")).HasPlainName ∧
    (atStart "x@USE" none).key ≠ (atStart "x@USE" (some "")).key := by
  rcases keys_identify with ⟨locations, references⟩
  have plain : (atStart "x@USE" none).HasPlainName := by decide
  have plain' : (atStart "x@USE" (some "")).HasPlainName := by decide
  refine ⟨fun same => ?_, plain, plain', fun same => ?_⟩
  · exact absurd ((locations _ _).1 same) (by decide)
  · exact absurd ((references _ _ plain plain').1 same).2.2 (by decide)

-- A name with a colon can take over the level and a part of the path.
example : (atStart "x" (some "a:USE@b")).key = (atStart "x:USE@a" (some "b")).key := by
  decide +kernel

end Reference

end FlowAnalysis

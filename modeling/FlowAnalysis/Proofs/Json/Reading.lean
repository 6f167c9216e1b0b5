import FlowAnalysis.Proofs.Json.Layout
import FlowAnalysis.Proofs.Json.Numbers
import Mathlib.Data.List.Forall2

/-!
# What documents are read as

A value whose numbers are read back is read back from its text, in any layout, unless its containers
nest deeper than a document may. This holds for every scheme by which all its members count.
-/

namespace FlowAnalysis

namespace Json

/-- An integer that fits a word. -/
def IsWord (number : Number) : Prop :=
  ∃ value, number = .integer value ∧ InWord value

/-- Reads a number with its sign. -/
def readNumber : Reader Number
  | '-' :: rest => readMagnitude true rest
  | text => readMagnitude false text

/-- The text of a number is read as that number. -/
def ReadsBack (number : Number) : Prop :=
  readNumber number.render.toList = some (number, [])

instance (number : Number) : Decidable (ReadsBack number) :=
  inferInstanceAs (Decidable (_ = _))

/-- All members of a value count for a scheme. -/
inductive Asked : Scheme → Json → Prop where
  | null (scheme : Scheme) : Asked scheme .null
  | bool (scheme : Scheme) (value : Bool) : Asked scheme (.bool value)
  | number (scheme : Scheme) (value : Number) : Asked scheme (.number value)
  | string (scheme : Scheme) (text : String) : Asked scheme (.string text)
  | array {scheme : Scheme} {items : List Json}
      (inItems : ∀ place, ∀ item ∈ items[place]?, Asked (scheme.item place) item) :
      Asked scheme (.array items)
  | object {scheme : Scheme} {members : List (String × Json)}
      (counts : ∀ entry ∈ members, (scheme.member? entry.1).isSome)
      (inMembers : ∀ entry ∈ members, ∀ inner ∈ scheme.member? entry.1, Asked inner entry.2) :
      Asked scheme (.object members)

theorem Asked.any (value : Json) : Asked .any value := by
  cases value with
  | null => exact .null .any
  | bool value => exact .bool .any value
  | number value => exact .number .any value
  | string text => exact .string .any text
  | array items =>
      refine .array fun place item isItem => ?_
      have := List.sizeOf_lt_of_mem (List.mem_of_getElem? isItem)
      exact any item
  | object members =>
      refine .object (fun _ _ => rfl) ?_
      rintro ⟨key, value⟩ isMember _ ⟨⟩
      have smaller : sizeOf value < sizeOf members := by
        have := List.sizeOf_lt_of_mem isMember
        rw [Prod.mk.sizeOf_spec] at this
        omega
      exact any value

/-! ### Readers -/

section

variable {Item : Type} {reader : Reader Item} {readers : Nat → Reader Item} {fits : Item → Bool}
  {close : Char}

/-- A reader passes over blanks in front of what it reads. -/
def PassesBlanks (reader : Reader Item) : Prop :=
  ∀ text, reader (skipBlanks text) = reader text

/-- A reader takes a part of a text for an item if the item fits, and else it takes nothing. -/
def Reads (reader : Reader Item) (fits : Item → Bool) (item : Item) (part : List Char) : Prop :=
  ∀ rest, Ends rest → reader (part ++ rest) = if fits item then some (item, rest) else none

/-- The readers of the items at some places take parts of a text for these items. -/
inductive ReadsAll (readers : Nat → Reader Item) (fits : Item → Bool) :
    Nat → List Item → List (List Char) → Prop where
  | nil (place : Nat) : ReadsAll readers fits place [] []
  | cons {place : Nat} {item : Item} {items : List Item} {part : List Char}
      {parts : List (List Char)} (first : Reads (readers place) fits item part)
      (others : ReadsAll readers fits (place + 1) items parts) :
      ReadsAll readers fits place (item :: items) (part :: parts)

theorem ReadsAll.length_eq {place : Nat} {items : List Item} {parts : List (List Char)}
    (reads : ReadsAll readers fits place items parts) : items.length = parts.length := by
  induction reads with
  | nil => rfl
  | cons _ _ ih => simp [ih]

theorem ReadsAll.map {write : Item → List Char} {place : Nat} {items : List Item}
    (reads : ∀ offset, ∀ item ∈ items[offset]?,
      Reads (readers (place + offset)) fits item (write item)) :
    ReadsAll readers fits place items (items.map write) := by
  induction items generalizing place with
  | nil => exact .nil place
  | cons item items ih =>
      refine .cons (reads 0 item rfl) (ih fun offset other isOther => ?_)
      have readsOther := reads (offset + 1) other isOther
      rwa [← Nat.add_assoc, Nat.add_right_comm] at readsOther

/-- A part of a text starts with a mark that closes nothing. -/
def Starts (part : List Char) : Prop :=
  ∃ first rest, part = first :: rest ∧ isBlank first = false ∧ first ∉ [']', '}']

theorem PassesBlanks.append (passes : PassesBlanks reader) {blanks : List Char}
    (allBlank : AllBlank blanks) (text : List Char) : reader (blanks ++ text) = reader text := by
  rw [← passes, skipBlanks_append allBlank, passes]

theorem noNumber_of_isBlank {character : Char} (blank : isBlank character = true) :
    character.isDigit = false ∧ character ∉ ['.', 'e', 'E'] := by
  simp only [isBlank, Bool.or_eq_true, decide_eq_true_eq] at blank
  rcases blank with ((rfl | rfl) | rfl) | rfl <;> decide

theorem isBlank_of_closes (closes : close ∈ [']', '}']) : isBlank close = false := by
  simp only [List.mem_cons, List.not_mem_nil, or_false] at closes
  rcases closes with rfl | rfl <;> rfl

theorem ends_append {blanks : List Char} (allBlank : AllBlank blanks) {first : Char}
    (isMark : first ∈ [',', ']', '}']) (rest : List Char) : Ends (blanks ++ first :: rest) := by
  rintro character isFirst
  cases blanks with
  | nil =>
      cases isFirst
      simp only [List.mem_cons, List.not_mem_nil, or_false] at isMark
      rcases isMark with rfl | rfl | rfl <;> decide
  | cons blank blanks =>
      cases isFirst
      exact noNumber_of_isBlank (allBlank character List.mem_cons_self)

theorem readSeparated_append (passes : ∀ place, PassesBlanks (readers place)) {blanks : List Char}
    (allBlank : AllBlank blanks) (bound place : Nat) (text : List Char) :
    readSeparated readers close bound place (blanks ++ text) =
      readSeparated readers close bound place text := by
  cases bound with
  | zero => rfl
  | succ bound => rw [readSeparated, readSeparated, (passes place).append allBlank]

theorem readSeparated_reads (passes : ∀ place, PassesBlanks (readers place))
    {lead trail : List Char} (blankLead : AllBlank lead) (blankTrail : AllBlank trail)
    (closes : close ∈ [']', '}']) {place : Nat} {item : Item} {items : List Item}
    {part : List Char} {parts : List (List Char)} (reads : Reads (readers place) fits item part)
    (readsOthers : ReadsAll readers fits (place + 1) items parts) {bound : Nat}
    (enough : items.length < bound) (rest : List Char) :
    readSeparated readers close bound place
        (part ++ (parts.flatMap (fun part => ',' :: (lead ++ part)) ++ (trail ++ close :: rest))) =
      if (item :: items).all fits then some (item :: items, rest) else none := by
  have isMark : close ∈ [',', ']', '}'] := List.mem_cons_of_mem _ closes
  have notBlank := isBlank_of_closes closes
  have notComma : close ≠ ',' := by
    rintro rfl
    exact absurd closes (by decide)
  induction items generalizing place item part parts bound with
  | nil =>
      cases readsOthers
      cases bound with
      | zero => exact absurd enough (Nat.not_lt_zero _)
      | succ bound =>
          rw [List.flatMap_nil, List.nil_append, readSeparated,
            reads _ (ends_append blankTrail isMark rest)]
          cases isFit : fits item with
          | false => simp [isFit]
          | true =>
              have allFit : [item].all fits = true := by simp [isFit]
              rw [if_pos allFit]
              simp only [if_true, skipBlanks_append blankTrail, skipBlanks_cons notBlank]
  | cons next items ih =>
      cases readsOthers with
      | @cons _ _ _ nextPart parts readsNext readsOthers =>
          cases bound with
          | zero => exact absurd enough (Nat.not_lt_zero _)
          | succ bound =>
              have ends : Ends (',' :: (lead ++ nextPart ++
                  (parts.flatMap (fun part => ',' :: (lead ++ part)) ++
                    (trail ++ close :: rest)))) :=
                @ends_append [] (List.forall_mem_nil _) ',' (by simp) _
              have isComma : isBlank ',' = false := rfl
              have enoughOthers : items.length < bound := by simpa using enough
              have goesOn := ih readsNext readsOthers enoughOthers
              rw [List.flatMap_cons, List.cons_append, List.cons_append, List.append_assoc,
                readSeparated, reads _ ends]
              cases isFit : fits item with
              | false => simp [isFit]
              | true =>
                  simp only [if_true, skipBlanks_cons isComma, List.append_assoc,
                    readSeparated_append passes blankLead, goesOn]
                  have sameFit : (item :: next :: items).all fits = (next :: items).all fits := by
                    rw [List.all_cons, isFit, Bool.true_and]
                  rw [sameFit]
                  split <;> rfl

theorem length_le_flatMap_cons (mark : Char) (lead : List Char) (parts : List (List Char)) :
    parts.length ≤ (parts.flatMap fun part => mark :: (lead ++ part)).length := by
  induction parts with
  | nil => simp
  | cons part parts ih =>
      simp only [List.flatMap_cons, List.length_append, List.length_cons]
      omega

/-- A container is taken for its items if its parts are. -/
theorem readEnclosed_enclose (layout : Layout) (passes : ∀ place, PassesBlanks (readers place))
    (closes : close ∈ [']', '}']) {items : List Item} {parts : List (List Char)}
    (reads : ReadsAll readers fits 0 items parts) (starts : ∀ part ∈ parts, Starts part)
    {level : Nat} {opening : Char} {text rest : List Char}
    (isText : layout.enclose level opening close parts ++ rest = opening :: text) :
    readEnclosed readers close text = if items.all fits then some (items, rest) else none := by
  cases reads with
  | nil =>
      rcases isText with ⟨⟩
      simp [readEnclosed, skipBlanks_cons (isBlank_of_closes closes)]
  | @cons _ item items part parts readsFirst readsOthers =>
      rcases List.forall_mem_cons.1 starts with ⟨⟨first, others, rfl, notBlank, notClosing⟩, -⟩
      simp only [Layout.enclose, List.cons_append, List.append_assoc, List.nil_append,
        List.cons.injEq, true_and] at isText
      have isFirst : skipBlanks text = first :: (others ++
          (parts.flatMap (fun part => ',' :: (layout.lead level ++ part)) ++
            (layout.trail level ++ close :: rest))) := by
        rw [← isText, skipBlanks_append (layout.blankLead level), skipBlanks_cons notBlank]
      have notClose : first ≠ close := by
        rintro rfl
        exact notClosing closes
      have enough : items.length < text.length := by
        have := length_le_flatMap_cons ',' (layout.lead level) parts
        have := congrArg List.length isText
        have := readsOthers.length_eq
        simp only [List.length_append, List.length_cons] at *
        omega
      rw [readEnclosed]
      simp only [isFirst]
      rw [if_neg notClose]
      exact readSeparated_reads passes (layout.blankLead level) (layout.blankTrail level) closes
        readsFirst readsOthers enough rest

end

/-! ### Values -/

section

variable {scheme : Scheme} {depth : Nat} {manner : Manner}

theorem passesBlanks_readValue (manner : Manner) (depth : Nat) (scheme : Scheme) :
    PassesBlanks (readValue manner depth scheme) :=
  readValue_skipBlanks manner depth scheme

theorem readValue_quoted (depth : Nat) (scheme : Scheme) (text : String) (rest : List Char) :
    readValue .exact depth scheme ((quoted text).toList ++ rest) = some (.string text, rest) := by
  have notBlank : isBlank '\x22' = false := rfl
  have isText : (quoted text).toList ++ rest =
      '\x22' :: (text.toList.flatMap escape ++ '\x22' :: rest) := by
    simp [toList_quoted]
  rw [readValue, isText, skipBlanks_cons notBlank]
  simp [Manner.exact, readText_flatMap_escape]

theorem readValue_array (text : List Char) :
    readValue manner (depth + 1) scheme ('[' :: text) =
      (readEnclosed (fun place => readValue manner depth (scheme.item place)) ']' text).map
        fun (items, rest) => (.array items, rest) := by
  have notBlank : isBlank '[' = false := rfl
  rw [readValue, skipBlanks_cons notBlank]
  rfl

/-- Reads a member of an object. -/
def readEntry (manner : Manner) (depth : Nat) (scheme : Scheme) : Reader (String × Json) :=
  readMember manner.text fun key =>
    match scheme.member? key with
    | some inner => readValue manner depth inner
    | none => manner.ignored

theorem passesBlanks_readEntry (manner : Manner) (depth : Nat) (scheme : Scheme) :
    PassesBlanks (readEntry manner depth scheme) := by
  intro text
  rw [readEntry, readMember, readMember, skipBlanks_skipBlanks]

theorem readValue_object (text : List Char) :
    readValue manner (depth + 1) scheme ('\x7b' :: text) =
      (readEnclosed (fun _ => readEntry manner depth scheme) '\x7d' text).map
        fun (members, rest) => (.object members, rest) := by
  have notBlank : isBlank '\x7b' = false := rfl
  rw [readValue, skipBlanks_cons notBlank]
  rfl

/-- Without room for a container none is read. -/
theorem readValue_zero {opening : Char} (opens : opening ∈ ['[', '\x7b']) (text : List Char) :
    readValue manner 0 scheme (opening :: text) = none := by
  simp only [List.mem_cons, List.not_mem_nil, or_false] at opens
  rcases opens with rfl | rfl
  · have notBlank : isBlank '[' = false := rfl
    rw [readValue, skipBlanks_cons notBlank]
    rfl
  · have notBlank : isBlank '\x7b' = false := rfl
    rw [readValue, skipBlanks_cons notBlank]
    rfl

theorem isBlank_of_isDigit {character : Char} (isDigit : character.isDigit = true) :
    isBlank character = false := by
  by_contra blank
  have noDigit := (noNumber_of_isBlank (by simpa using blank)).1
  rw [isDigit] at noDigit
  cases noDigit

theorem readValue_digit {first : Char} (isDigit : first.isDigit = true) (text : List Char) :
    readValue manner depth scheme (first :: text) =
      (manner.magnitude false (first :: text)).map fun (value, rest) => (.number value, rest) := by
  rw [readValue, skipBlanks_cons (isBlank_of_isDigit isDigit)]
  split
  case h_8 => rfl
  all_goals
    next isMark =>
      rcases List.cons.inj isMark with ⟨rfl, -⟩
      exact absurd isDigit (by decide)

theorem readValue_minus (text : List Char) :
    readValue manner depth scheme ('-' :: text) =
      (manner.magnitude true text).map fun (value, rest) => (.number value, rest) := by
  have notBlank : isBlank '-' = false := rfl
  rw [readValue, skipBlanks_cons notBlank]
  rfl

/-! ### Numbers -/

/-- A number starts with a digit. -/
theorem exists_digit_of_readMagnitude {negative : Bool} {text rest : List Char} {number : Number}
    (reads : readMagnitude negative text = some (number, rest)) :
    ∃ first others, text = first :: others ∧ first.isDigit = true := by
  cases text with
  | nil => cases reads
  | cons first others =>
      refine ⟨first, others, rfl, ?_⟩
      by_contra noDigit
      simp [readMagnitude, noDigit] at reads

/-- The text of a number that is read back has a sign or starts with a digit. -/
theorem ReadsBack.cases {number : Number} (reads : ReadsBack number) :
    (∃ text, number.render.toList = '-' :: text ∧
      readMagnitude true text = some (number, [])) ∨
    ∃ first others, number.render.toList = first :: others ∧ first.isDigit = true ∧
      readMagnitude false (first :: others) = some (number, []) := by
  unfold ReadsBack readNumber at reads
  split at reads
  · next text isText => exact .inl ⟨text, isText, reads⟩
  · rcases exists_digit_of_readMagnitude reads with ⟨first, others, isText, isDigit⟩
    rw [isText] at reads
    exact .inr ⟨first, others, isText, isDigit, reads⟩

theorem readValue_render {number : Number} (reads : ReadsBack number) (depth : Nat)
    (scheme : Scheme) {rest : List Char} (ends : Ends rest) :
    readValue .exact depth scheme (number.render.toList ++ rest) = some (.number number, rest) := by
  have isExact : Manner.exact.magnitude = readMagnitude := rfl
  rcases reads.cases with ⟨text, isText, reads⟩ | ⟨first, others, isText, isDigit, reads⟩
  · rw [isText, List.cons_append, readValue_minus, isExact, readMagnitude_append ends reads]
    rfl
  · rw [isText, List.cons_append, readValue_digit isDigit, isExact, ← List.cons_append,
      readMagnitude_append ends reads]
    rfl

theorem exists_toDigits_eq_cons (value : Nat) :
    ∃ first others, Nat.toDigits 10 value = first :: others ∧ first.isDigit = true := by
  rcases List.exists_cons_of_ne_nil (Nat.toDigits_ne_nil (b := 10) (n := value)) with
    ⟨first, others, digits⟩
  refine ⟨first, others, digits, ?_⟩
  apply Nat.isDigit_of_mem_toDigits (b := 10) (n := value) (by omega) (by omega)
  simp [digits]

/-- An integer that fits a word is read back. -/
theorem IsWord.readsBack {number : Number} (isWord : IsWord number) : ReadsBack number := by
  rcases isWord with ⟨value, rfl, lower, upper⟩
  cases value with
  | ofNat value =>
      have fits : value ≤ largestWord := Int.ofNat_le.1 upper
      rcases exists_toDigits_eq_cons value with ⟨first, others, digits, isDigit⟩
      have magnitude := readMagnitude_toDigits fits false
      rw [ReadsBack, toList_render_ofNat, digits, readNumber]
      · rw [← digits, magnitude]
        rfl
      · rintro _ ⟨⟩
        exact absurd isDigit (by decide)
  | negSucc value =>
      have small : value + 1 ≤ 0x8000000000000000 := by omega
      have isNumber : wordNumber true (value + 1) = .integer (.negSucc value) := by
        have isInteger : ¬(value + 1 = 0 ∨ 0x8000000000000000 < value + 1) := by omega
        rw [wordNumber, if_neg (by simp), if_neg isInteger]
        rfl
      have fits : value + 1 ≤ largestWord := by
        rw [largestWord]
        omega
      rw [ReadsBack, toList_render_negSucc, readNumber, readMagnitude_toDigits fits true, isNumber]

/-! ### Documents -/

theorem exists_enclose_eq (layout : Layout) (level : Nat) (opening closing : Char)
    (parts : List (List Char)) (rest : List Char) :
    ∃ text, layout.enclose level opening closing parts ++ rest = opening :: text := by
  cases parts with
  | nil => exact ⟨_, rfl⟩
  | cons part parts => exact ⟨_, rfl⟩

theorem starts_quoted (text : String) (rest : List Char) :
    Starts ((quoted text).toList ++ rest) := by
  refine ⟨'\x22', text.toList.flatMap escape ++ '\x22' :: rest, ?_, rfl, by decide⟩
  simp [toList_quoted]

theorem starts_write (layout : Layout) (level : Nat) {value : Json}
    (exact : value.AllNumbers ReadsBack) : Starts (layout.write level value) := by
  cases exact with
  | null => exact ⟨'n', _, rfl, rfl, by decide⟩
  | bool value =>
      cases value with
      | true => exact ⟨'t', _, rfl, rfl, by decide⟩
      | false => exact ⟨'f', _, rfl, rfl, by decide⟩
  | number reads =>
      rcases reads.cases with ⟨text, isText, -⟩ | ⟨first, others, isText, isDigit, -⟩
      · exact ⟨'-', text, isText, rfl, by decide⟩
      · refine ⟨first, others, isText, isBlank_of_isDigit isDigit, ?_⟩
        intro isMark
        simp only [List.mem_cons, List.not_mem_nil, or_false] at isMark
        rcases isMark with rfl | rfl <;> exact absurd isDigit (by decide)
  | string text => simpa [Layout.write] using starts_quoted text []
  | @array items =>
      rcases exists_enclose_eq layout level '[' ']' (layout.writeItems (level + 1) items) [] with
        ⟨text, isText⟩
      rw [List.append_nil] at isText
      exact ⟨'[', text, isText, rfl, by decide⟩
  | @object members =>
      rcases exists_enclose_eq layout level '\x7b' '\x7d'
        (layout.writeMembers (level + 1) members) [] with ⟨text, isText⟩
      rw [List.append_nil] at isText
      exact ⟨'\x7b', text, isText, rfl, by decide⟩

/-- A member is taken if its value is. -/
theorem reads_entry {fits : Json → Bool} {blanks : List Char} (allBlank : AllBlank blanks)
    {entry : String × Json} {part : List Char} {inner : Scheme}
    (counts : scheme.member? entry.1 = some inner)
    (reads : Reads (readValue .exact depth inner) fits entry.2 part) :
    Reads (readEntry .exact depth scheme) (fun entry => fits entry.2) entry
      ((quoted entry.1).toList ++ ':' :: (blanks ++ part)) := by
  intro rest ends
  have quoteNotBlank : isBlank '\x22' = false := rfl
  have colonNotBlank : isBlank ':' = false := rfl
  have isText : (quoted entry.1).toList ++ ':' :: (blanks ++ part) ++ rest =
      '\x22' ::
        (entry.1.toList.flatMap escape ++ '\x22' :: (':' :: (blanks ++ (part ++ rest)))) := by
    simp [toList_quoted]
  rw [readEntry, readMember, isText, skipBlanks_cons quoteNotBlank]
  have readsKey := readText_flatMap_escape entry.1.toList (':' :: (blanks ++ (part ++ rest)))
  have readsValue := (passesBlanks_readValue .exact depth inner).append allBlank (part ++ rest)
  simp only [Manner.exact] at readsValue reads ⊢
  simp only [readsKey, skipBlanks_cons colonNotBlank, String.ofList_toList, counts, readsValue,
    reads rest ends]
  split <;> simp

/-- A value is read back from its text, unless it nests too deep. -/
theorem reads_write (layout : Layout) {value : Json} (exact : value.AllNumbers ReadsBack)
    (asked : Asked scheme value) (depth level : Nat) :
    Reads (readValue .exact depth scheme) (fun value => decide (value.depth ≤ depth)) value
      (layout.write level value) := by
  induction exact generalizing scheme depth level with
  | null =>
      intro rest _
      simp [Layout.write, readValue, skipBlanks, isBlank, Json.depth]
  | bool value =>
      intro rest _
      cases value <;> simp [Layout.write, readValue, skipBlanks, isBlank, Json.depth]
  | number reads =>
      intro rest ends
      simp [Layout.write, readValue_render reads depth scheme ends, Json.depth]
  | string text =>
      intro rest _
      simp [Layout.write, readValue_quoted, Json.depth]
  | @array items inItems ih =>
      intro rest _
      rcases asked with _ | _ | _ | _ | askedItems | _
      rcases exists_enclose_eq layout level '[' ']' (layout.writeItems (level + 1) items) rest with
        ⟨text, isText⟩
      rw [Layout.write, isText]
      cases depth with
      | zero => simp [readValue_zero, Json.depth]
      | succ depth =>
          have reads : ReadsAll (fun place => readValue .exact depth (scheme.item place))
              (fun value => decide (value.depth ≤ depth)) 0 items
              (layout.writeItems (level + 1) items) := by
            rw [Layout.writeItems_eq_map]
            refine .map fun place item isItem => ?_
            rw [Nat.zero_add]
            exact ih item (List.mem_of_getElem? isItem) (askedItems place item isItem) depth
              (level + 1)
          have starts : ∀ part ∈ layout.writeItems (level + 1) items, Starts part := by
            rw [Layout.writeItems_eq_map, List.forall_mem_map]
            exact fun item isItem => starts_write layout (level + 1) (inItems item isItem)
          have sameDepth : (items.all fun value => decide (value.depth ≤ depth)) =
              decide ((Json.array items).depth ≤ depth + 1) := by
            rw [Bool.eq_iff_iff]
            simp only [List.all_eq_true, decide_eq_true_eq, Json.depth, Nat.add_comm 1,
              Nat.add_le_add_iff_right, depthItems_le_iff]
          rw [readValue_array, readEnclosed_enclose layout
            (fun place => passesBlanks_readValue .exact depth (scheme.item place)) (by decide) reads
            starts isText, sameDepth]
          split <;> rfl
  | @object members inMembers ih =>
      intro rest _
      rcases asked with _ | _ | _ | _ | _ | ⟨counts, askedMembers⟩
      rcases exists_enclose_eq layout level '\x7b' '\x7d' (layout.writeMembers (level + 1) members)
        rest with ⟨text, isText⟩
      rw [Layout.write, isText]
      cases depth with
      | zero => simp [readValue_zero, Json.depth]
      | succ depth =>
          have reads : ReadsAll (fun _ => readEntry .exact depth scheme)
              (fun entry => decide (entry.2.depth ≤ depth)) 0 members
              (layout.writeMembers (level + 1) members) := by
            rw [Layout.writeMembers_eq_map]
            refine .map fun place entry isEntry => ?_
            have isMember := List.mem_of_getElem? isEntry
            rcases Option.isSome_iff_exists.1 (counts entry isMember) with ⟨inner, isInner⟩
            exact reads_entry layout.blankColon isInner
              (ih entry isMember (askedMembers entry isMember inner isInner) depth (level + 1))
          have starts : ∀ part ∈ layout.writeMembers (level + 1) members, Starts part := by
            rw [Layout.writeMembers_eq_map, List.forall_mem_map]
            exact fun entry _ => starts_quoted entry.1 _
          have sameDepth : (members.all fun entry => decide (entry.2.depth ≤ depth)) =
              decide ((Json.object members).depth ≤ depth + 1) := by
            rw [Bool.eq_iff_iff]
            simp only [List.all_eq_true, decide_eq_true_eq, Json.depth, Nat.add_comm 1,
              Nat.add_le_add_iff_right, depthMembers_le_iff]
          rw [readValue_object, readEnclosed_enclose layout
            (fun _ => passesBlanks_readEntry .exact depth scheme) (by decide) reads starts isText,
            sameDepth]
          split <;> rfl

variable {value : Json}

/-- A document is read back, with any blanks behind it, unless it nests too deep. -/
theorem parseFor?_write (layout : Layout) (level : Nat) (exact : value.AllNumbers ReadsBack)
    (asked : Asked scheme value) {blanks : List Char} (allBlank : AllBlank blanks)
    {document : String} (isText : document.toList = layout.write level value ++ blanks) :
    parseFor? scheme document = if value.depth ≤ nestingLimit then some value else none := by
  have ends : Ends blanks := by
    cases blanks with
    | nil => nofun
    | cons blank blanks =>
        rintro _ ⟨⟩
        exact noNumber_of_isBlank (allBlank blank List.mem_cons_self)
  have noRest : skipBlanks blanks = [] := by
    have skipped := skipBlanks_append allBlank []
    rwa [List.append_nil] at skipped
  rw [parseFor?, isText, reads_write layout exact asked nestingLimit level blanks ends]
  by_cases shallow : value.depth ≤ nestingLimit <;> simp [shallow, noRest]

theorem parseFor?_compact (exact : value.AllNumbers ReadsBack) (asked : Asked scheme value) :
    parseFor? scheme value.compact = if value.depth ≤ nestingLimit then some value else none := by
  have allBlank : AllBlank [] := by simp [AllBlank]
  apply parseFor?_write .line 0 exact asked allBlank
  rw [Layout.toList_compact 0, List.append_nil]

theorem parseFor?_pretty (exact : value.AllNumbers ReadsBack) (asked : Asked scheme value)
    {blanks : String} (allBlank : AllBlank blanks.toList) :
    parseFor? scheme (value.pretty ++ blanks) =
      if value.depth ≤ nestingLimit then some value else none := by
  have noIndent : "".toList = List.replicate (2 * 0) ' ' := rfl
  apply parseFor?_write .lines 0 exact asked allBlank
  rw [String.toList_append, pretty, Layout.toList_prettyAt noIndent]

end

end Json

end FlowAnalysis

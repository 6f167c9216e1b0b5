import FlowAnalysis.ControlFlow.Graph

/-!
# Facts about postdominators

A fact lists the postdominators of a block with their distances. What matters about it is which
distance it gives to a block, if any; an absent distance counts as less than a finite one, and a
finite one as less than an infinite one. All operations on facts are monotone in this order.
-/

namespace FlowAnalysis

/-- The postdominators of a block with their distances, which are missing as long as they are
infinite. -/
abbrev PostdominatorFact := List (BlockId × Option Nat)

namespace PostdominatorFact

/-- Whether a distance is smaller than another; an infinite one is larger than all others. -/
def nearer : Option Nat → Option Nat → Bool
  | some left, some right => left < right
  | some _, none => true
  | none, _ => false

/-- The distance by one block further. -/
def further (distance : Option Nat) : Option Nat :=
  distance.map (· + 1)

/-- Sets the distance of a block, in place when it has one already and at the end otherwise. -/
def record : PostdominatorFact → BlockId → Option Nat → PostdominatorFact
  | [], id, distance => [(id, distance)]
  | (present, old) :: rest, id, distance =>
      if present = id then (id, distance) :: rest else (present, old) :: record rest id distance

/-- All postdominators one block further away. -/
def behind (fact : PostdominatorFact) : PostdominatorFact :=
  fact.map fun (id, distance) => (id, further distance)

/-- What is in both facts, at the smaller distance; the second is one block further away. -/
def meet (fact successor : PostdominatorFact) : PostdominatorFact :=
  fact.filterMap fun (id, distance) =>
    (successor.lookup id).map fun distance' =>
      (id, if nearer (further distance') distance then further distance' else distance)

/-- Whether two facts are the same up to their order. -/
def same (left right : PostdominatorFact) : Bool :=
  (left ++ right).all fun entry => left.lookup entry.1 == right.lookup entry.1

/-! ### The distances that a fact gives -/

theorem lookup_cons (present id : BlockId) (distance : Option Nat) (rest : PostdominatorFact) :
    List.lookup id ((present, distance) :: rest) =
      if id = present then some distance else List.lookup id rest := by
  rw [List.lookup_cons]
  by_cases found : id = present
  · simp [found]
  · have differs : (id == present) = false := beq_false_of_ne found
    simp [found, differs]

theorem mem_of_lookup_eq_some {fact : PostdominatorFact} {id : BlockId} {distance : Option Nat}
    (found : fact.lookup id = some distance) : (id, distance) ∈ fact := by
  induction fact with
  | nil => simp at found
  | cons entry rest ih =>
      rcases entry with ⟨present, old⟩
      rw [lookup_cons] at found
      split at found
      · next isPresent =>
          rw [isPresent, Option.some.inj found]
          exact List.mem_cons_self
      · exact List.mem_cons_of_mem _ (ih found)

@[simp]
theorem lookup_record (fact : PostdominatorFact) (id sought : BlockId) (distance : Option Nat) :
    (record fact id distance).lookup sought =
      if sought = id then some distance else fact.lookup sought := by
  induction fact with
  | nil => simp [record, lookup_cons]
  | cons entry rest ih =>
      rcases entry with ⟨present, old⟩
      by_cases isPresent : present = id
      · subst isPresent
        by_cases found : sought = present <;> simp [record, lookup_cons, found]
      · by_cases found : sought = present
        · subst found
          simp [record, isPresent]
        · simp [record, lookup_cons, isPresent, found, ih]

@[simp]
theorem lookup_behind (fact : PostdominatorFact) (sought : BlockId) :
    (behind fact).lookup sought = (fact.lookup sought).map further := by
  induction fact with
  | nil => rfl
  | cons entry rest ih =>
      rcases entry with ⟨present, distance⟩
      rw [behind] at ih
      by_cases found : sought = present <;> simp [behind, lookup_cons, found, ih]

/-- The smaller of two distances, if both are there. -/
def lesser : Option (Option Nat) → Option (Option Nat) → Option (Option Nat)
  | some left, some right => some (if nearer right left then right else left)
  | _, _ => none

@[simp]
theorem lookup_meet (fact successor : PostdominatorFact) (sought : BlockId) :
    (meet fact successor).lookup sought =
      lesser (fact.lookup sought) ((successor.lookup sought).map further) := by
  induction fact with
  | nil => rfl
  | cons entry rest ih =>
      rcases entry with ⟨present, distance⟩
      rw [meet] at ih
      by_cases found : sought = present
      · subst found
        cases inSuccessor : successor.lookup sought with
        | none =>
            rw [inSuccessor] at ih
            cases inRest : rest.lookup sought <;>
              simp [meet, inSuccessor, lesser, inRest, ih]
        | some distance' => simp [meet, inSuccessor, lesser]
      · cases inSuccessor : successor.lookup present <;>
          simp [meet, inSuccessor, lookup_cons, found, ih]

theorem lookup_meet_ne_none {fact successor : PostdominatorFact} {sought : BlockId} :
    (meet fact successor).lookup sought ≠ none ↔
      fact.lookup sought ≠ none ∧ successor.lookup sought ≠ none := by
  rw [lookup_meet]
  generalize fact.lookup sought = inFact
  generalize successor.lookup sought = inSuccessor
  cases inFact <;> cases inSuccessor <;> simp [lesser]

theorem same_iff {left right : PostdominatorFact} :
    left.same right = true ↔ ∀ id, left.lookup id = right.lookup id := by
  rw [same, List.all_eq_true]
  constructor
  · intro agree id
    cases inLeft : left.lookup id with
    | some distance =>
        have entryMem := List.mem_append_left right (mem_of_lookup_eq_some inLeft)
        simpa [inLeft] using agree _ entryMem
    | none =>
        cases inRight : right.lookup id with
        | none => rfl
        | some distance =>
            have entryMem := List.mem_append_right left (mem_of_lookup_eq_some inRight)
            simpa [inLeft, inRight] using agree _ entryMem
  · intro agree entry _
    simp [agree entry.1]

/-! ### The order of distances -/

/-- A distance is at most another one: an absent one is the least, an infinite one the greatest. -/
def AtMost : Option (Option Nat) → Option (Option Nat) → Prop
  | none, _ => True
  | some _, some none => True
  | some (some left), some (some right) => left ≤ right
  | some _, _ => False

theorem AtMost.refl : (distance : Option (Option Nat)) → AtMost distance distance
  | none => trivial
  | some none => trivial
  | some (some _) => Nat.le_refl _

theorem AtMost.trans {first second third : Option (Option Nat)} (below : AtMost first second)
    (below' : AtMost second third) : AtMost first third := by
  rcases first with _ | _ | first <;> rcases second with _ | _ | second <;>
    rcases third with _ | _ | third <;> simp_all [AtMost]
  omega

theorem AtMost.further {left right : Option (Option Nat)} (below : AtMost left right) :
    AtMost (left.map further) (right.map further) := by
  rcases left with _ | _ | left <;> rcases right with _ | _ | right <;>
    simp_all [AtMost, PostdominatorFact.further]

theorem AtMost.lesser {left left' right right' : Option (Option Nat)} (below : AtMost left left')
    (below' : AtMost right right') : AtMost (lesser left right) (lesser left' right') := by
  rcases left with _ | _ | left <;> rcases left' with _ | _ | left' <;>
    rcases right with _ | _ | right <;> rcases right' with _ | _ | right' <;>
    simp_all [AtMost, PostdominatorFact.lesser, nearer]
  all_goals grind [AtMost]

theorem AtMost.ne_none {left right : Option (Option Nat)} (below : AtMost left right)
    (present : left ≠ none) : right ≠ none := by
  rintro rfl
  rcases left with _ | _ | left <;> simp_all [AtMost]

/-- A fact gives every block at most the distance that another one gives it. -/
def Below (left right : PostdominatorFact) : Prop :=
  ∀ id, AtMost (left.lookup id) (right.lookup id)

theorem Below.refl (fact : PostdominatorFact) : Below fact fact :=
  fun _ => .refl _

theorem Below.trans {first second third : PostdominatorFact} (below : Below first second)
    (below' : Below second third) : Below first third :=
  fun id => (below id).trans (below' id)

theorem Below.behind {left right : PostdominatorFact} (below : Below left right) :
    Below (behind left) (behind right) := by
  intro id
  simpa using (below id).further

theorem Below.meet {left left' right right' : PostdominatorFact} (below : Below left left')
    (below' : Below right right') : Below (meet left right) (meet left' right') := by
  intro id
  simpa using (below id).lesser (below' id).further

theorem Below.record {left right : PostdominatorFact} (below : Below left right) (id : BlockId)
    (distance : Option Nat) : Below (record left id distance) (record right id distance) := by
  intro sought
  by_cases found : sought = id
  · simpa [found] using AtMost.refl _
  · simpa [found] using below sought

/-! ### How much may still fall -/

/-- The sum of the finite distances, each counted as one more. -/
def finiteTotal : List (Option (Option Nat)) → Nat
  | [] => 0
  | some (some distance) :: rest => distance + 1 + finiteTotal rest
  | _ :: rest => finiteTotal rest

/-- Infinite distances may fall to any finite one, so they are counted apart. -/
def weight (distances : List (Option (Option Nat))) : Nat × Nat :=
  (distances.countP fun distance => distance = some none, finiteTotal distances)

/-- Distances that fall weigh less: first of all fewer of them are infinite, and if as many are, the
finite ones have a smaller sum. -/
theorem weight_le {Index : Type} {left right : Index → Option (Option Nat)} {indices : List Index}
    (below : ∀ index ∈ indices, AtMost (left index) (right index)) :
    (weight (indices.map left)).1 ≤ (weight (indices.map right)).1 ∧
      ((weight (indices.map left)).1 = (weight (indices.map right)).1 →
        (weight (indices.map left)).2 ≤ (weight (indices.map right)).2 ∧
        (indices.map left ≠ indices.map right →
          (weight (indices.map left)).2 < (weight (indices.map right)).2)) := by
  induction indices with
  | nil => simp [weight]
  | cons index rest ih =>
      have restWeight := ih fun index member => below index (List.mem_cons_of_mem _ member)
      have here := below index List.mem_cons_self
      simp only [weight, List.map_cons, List.countP_cons] at restWeight ⊢
      generalize left index = leftDistance at here ⊢
      generalize right index = rightDistance at here ⊢
      generalize rest.map left = leftRest at restWeight ⊢
      generalize rest.map right = rightRest at restWeight ⊢
      rcases leftDistance with _ | _ | leftDistance <;>
        rcases rightDistance with _ | _ | rightDistance <;>
        simp only [AtMost] at here <;> simp [finiteTotal] <;> grind

end PostdominatorFact

end FlowAnalysis

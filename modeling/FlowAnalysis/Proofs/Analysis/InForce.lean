import FlowAnalysis.Proofs.Analysis.Replay
import FlowAnalysis.Proofs.Reference.LastWriters

/-!
# Bindings in force

A binding is in force after some statements if one of them has made it and none of the later ones
has rebound its name. Running statements over a state gives exactly the bindings that they leave in
force, together with what they have left of the state.
-/

namespace FlowAnalysis

namespace Analysis

/-- The bindings that are in force after some statements, as a level of the running state sees
them. Some references are bound before all statements. -/
inductive InForce (known : Node → DefUse) (initial : RefSet) (level : Level) :
    List Node → Reference → Prop where
  | initial {statements : List Node} {reference : Reference} (isSeen : level ≠ .definition)
      (isInitial : reference ∈ initial.toList)
      (untouched : ∀ statement ∈ statements, ¬(known statement).Rebinds level reference.name) :
      InForce known initial level statements reference
  | bound {before after : List Node} {statement : Node} {reference : Reference}
      (binds : (known statement).Binds level reference)
      (untouched : ∀ later ∈ after, ¬(known later).Rebinds level reference.name) :
      InForce known initial level (before ++ statement :: after) reference

/-- A reference of a statement that control can reach, or one of those bound before. -/
def Occurs (known : Node → DefUse) (graph : Graph) (initial : RefSet) (reference : Reference) :
    Prop :=
  reference ∈ initial.toList ∨ ∃ statement ∈ graph.reachableStatements, ∃ level,
    reference ∈ ((known statement).level level).toList

variable {known : Node → DefUse} {graph : Graph} {initial : RefSet} {level : Level}
  {statements first second : List Node} {statement : Node} {reference : Reference} {state : DefUse}

namespace InForce

/-- The last statement binds what is in force, or it leaves it in force. -/
theorem binds_or_of_snoc
    (inForce : InForce known initial level (statements ++ [statement]) reference) :
    (known statement).Binds level reference ∨
      InForce known initial level statements reference ∧
        ¬(known statement).Rebinds level reference.name := by
  generalize allEq : statements ++ [statement] = all at inForce
  cases inForce with
  | initial isSeen isInitial untouched =>
      subst allEq
      exact .inr ⟨.initial isSeen isInitial fun other member =>
        untouched other (List.mem_append_left _ member), untouched statement (by simp)⟩
  | @bound before after binding _ binds untouched =>
      rcases List.eq_nil_or_concat' after with rfl | ⟨after, last, rfl⟩
      · rcases List.append_inj' allEq rfl with ⟨-, lastEq⟩
        rcases List.singleton_inj.1 lastEq with rfl
        exact .inl binds
      · rw [← List.cons_append, ← List.append_assoc] at allEq
        rcases List.append_inj' allEq rfl with ⟨rfl, lastEq⟩
        rcases List.singleton_inj.1 lastEq with rfl
        exact .inr ⟨.bound binds fun other member =>
          untouched other (List.mem_append_left _ member), untouched statement (by simp)⟩

theorem of_nil (inForce : InForce known initial level [] reference) :
    level ≠ .definition ∧ reference ∈ initial.toList := by
  generalize nilEq : [] = none at inForce
  cases inForce with
  | initial isSeen isInitial _ => exact ⟨isSeen, isInitial⟩
  | bound => simp at nilEq

theorem occurs (inForce : InForce known initial level statements reference)
    (areReachable : statements ⊆ graph.reachableStatements) :
    Occurs known graph initial reference := by
  cases inForce with
  | initial _ isInitial _ => exact .inl isInitial
  | @bound before after statement _ binds _ =>
      rcases binds with ⟨source, -, isMember⟩
      exact .inr ⟨statement, areReachable (by simp), source, isMember⟩

/-- What later statements do not rebind stays in force. -/
theorem append (inForce : InForce known initial level first reference)
    (spared : ∀ later ∈ second, ¬(known later).Rebinds level reference.name) :
    InForce known initial level (first ++ second) reference := by
  have stays : ∀ {others : List Node},
      (∀ other ∈ others, ¬(known other).Rebinds level reference.name) →
      ∀ other ∈ others ++ second, ¬(known other).Rebinds level reference.name := by
    intro others untouched other member
    rcases List.mem_append.1 member with member | member
    · exact untouched other member
    · exact spared other member
  cases inForce with
  | initial isSeen isInitial untouched => exact .initial isSeen isInitial (stays untouched)
  | bound binds untouched =>
      rw [List.append_assoc, List.cons_append]
      exact .bound binds (stays untouched)

/-- What statements bind is in force whatever comes before them. -/
theorem prepend (inForce : InForce known .empty level second reference) :
    InForce known initial level (first ++ second) reference := by
  cases inForce with
  | initial _ isInitial _ => exact absurd isInitial List.not_mem_nil
  | bound binds untouched =>
      rw [← List.append_assoc]
      exact .bound binds untouched

/-- What is in force after some statements and others is bound by the others, or they leave it in
force. -/
theorem of_append (inForce : InForce known initial level (first ++ second) reference) :
    InForce known .empty level second reference ∨
      InForce known initial level first reference ∧
        ∀ later ∈ second, ¬(known later).Rebinds level reference.name := by
  induction second using List.reverseRecOn with
  | nil => exact .inr ⟨by simpa using inForce, by simp⟩
  | append_singleton second last ih =>
      rw [← List.append_assoc] at inForce
      rcases inForce.binds_or_of_snoc with binds | ⟨inForce, spared⟩
      · exact .inl (.bound binds (by simp))
      · rcases ih inForce with inSecond | ⟨inFirst, sparedBefore⟩
        · exact .inl (inSecond.append (by simpa using spared))
        · refine .inr ⟨inFirst, fun later member => ?_⟩
          rcases List.mem_append.1 member with member | member
          · exact sparedBefore later member
          · rwa [List.mem_singleton.1 member]

theorem exists_binds (inForce : InForce known .empty level statements reference) :
    ∃ statement ∈ statements, (known statement).Binds level reference := by
  cases inForce with
  | initial _ isInitial _ => exact absurd isInitial List.not_mem_nil
  | @bound _ _ statement _ binds _ => exact ⟨statement, by simp, binds⟩

theorem level_ne_use (owned : ∀ statement, (known statement).OwnedAt statement.key)
    (inForce : InForce known .empty level statements reference) : reference.level ≠ .use := by
  rcases inForce.exists_binds with ⟨statement, -, binds⟩
  exact binds.level_ne_use (owned statement).hasOwnLevels

end InForce

/-! ### Running states -/

theorem stateAfter_eq_foldl : stateAfter known state statements =
    (statements.map known).foldl DefUse.update state :=
  List.foldl_map.symm

theorem mem_stateAfter_of_untouched (isMember : reference ∈ (state.level level).toList)
    (untouched : ∀ statement ∈ statements, ¬(known statement).Rebinds level reference.name) :
    reference ∈ ((stateAfter known state statements).level level).toList := by
  induction statements generalizing state with
  | nil => exact isMember
  | cons first rest ih =>
      rcases List.forall_mem_cons.1 untouched with ⟨spared, sparedLater⟩
      exact ih (DefUse.mem_update_of_not_rebinds isMember spared) sparedLater

/-- With nothing bound before all statements, what is in force is what they leave. -/
theorem inForce_iff_lastBinds : InForce known .empty level statements reference ↔
    DefUse.LastBinds (statements.map known) level reference := by
  constructor
  · intro inForce
    cases inForce with
    | initial _ isInitial _ => exact absurd isInitial List.not_mem_nil
    | @bound before after statement _ binds untouched =>
        exact ⟨before.map known, known statement, after.map known, by simp, binds,
          List.forall_mem_map.2 untouched⟩
  · rintro ⟨_, _, _, splits, binds, untouched⟩
    rcases List.map_eq_append_iff.1 splits with ⟨before, rest, rfl, rfl, restEq⟩
    rcases List.map_eq_cons_iff.1 restEq with ⟨statement, after, rfl, rfl, rfl⟩
    exact .bound binds fun later isLater => untouched _ (List.mem_map_of_mem isLater)

section

variable (owned : ∀ statement, (known statement).OwnedAt statement.key)
  (plain : ∀ statement ∈ statements, (known statement).HasPlainNames)

include owned plain

theorem InForce.mem_stateAfter (inForce : InForce known .empty level statements reference)
    (statePlain : state.HasPlainNames) :
    reference ∈ ((stateAfter known state statements).level level).toList := by
  rw [stateAfter_eq_foldl]
  exact (inForce_iff_lastBinds.1 inForce).mem_foldl_update
    (List.forall_mem_map.2 fun statement _ => (owned statement).hasOwnLevels)
    (List.forall_mem_map.2 plain) statePlain

/-- Nothing else is in a state after some statements. -/
theorem inForce_or_of_mem_stateAfter
    (isBinding : ∀ reference ∈ (state.level level).toList, reference.level ≠ .use)
    (isMember : reference ∈ ((stateAfter known state statements).level level).toList) :
    InForce known .empty level statements reference ∨
      reference ∈ (state.level level).toList ∧
        ∀ statement ∈ statements, ¬(known statement).Rebinds level reference.name := by
  rw [stateAfter_eq_foldl] at isMember
  rcases DefUse.lastBinds_or_of_mem_foldl_update
      (List.forall_mem_map.2 fun statement _ => (owned statement).hasOwnLevels)
      (List.forall_mem_map.2 plain) isBinding isMember with lastBinds | ⟨inState, untouched⟩
  · exact .inl (inForce_iff_lastBinds.2 lastBinds)
  · exact .inr ⟨inState, fun statement member => untouched _ (List.mem_map_of_mem member)⟩

end

end Analysis

end FlowAnalysis

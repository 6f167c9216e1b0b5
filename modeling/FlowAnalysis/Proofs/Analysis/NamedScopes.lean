import FlowAnalysis.Proofs.Analysis.Changes

/-!
# Definitions of functions and classes

A statement that defines a function or a class binds its name and reads what is free in it. It
updates nothing, and it does not tell the type of anything that it defines, whatever the statements
in it do.
-/

namespace FlowAnalysis

/-- A reference reads a name, or it defines one and does not tell a type. -/
def Reference.Declares (reference : Reference) : Prop :=
  reference.level = .use ∨ reference.level = .definition ∧ reference.inferredType = none

theorem declares_of_mem_declaredDefinitions {statement : Node} {reference : Reference}
    (isDeclared : reference ∈ declaredDefinitions statement) : reference.Declares := by
  rcases List.mem_flatMap.1 isDeclared with ⟨node, -, isDeclared⟩
  split at isDeclared
  · rcases List.mem_map.1 isDeclared with ⟨declaration, -, rfl⟩
    exact .inr ⟨rfl, rfl⟩
  · cases isDeclared

theorem AnalysisResult.level_of_mem_freeUses {result : AnalysisResult} {reference : Reference}
    (isFree : reference ∈ result.freeUses.toList) : reference.level = .use :=
  eq_of_beq (KeyedSet.mem_filter.1 isFree).2

namespace Analysis

variable {valid : String → DefUse → Prop} {scope : Node → Prop} {transfer : Transfer}
  {statement : Node}

theorem level_of_mem_definitionUses {definition : Node} {result : AnalysisResult}
    {reference : Reference} (isUse : reference ∈ definitionUses definition result.freeUses) :
    reference.level = .use := by
  rcases List.mem_append.1 isUse with isFree | isOwn
  · rcases List.mem_map.1 isFree with ⟨free, wasFree, rfl⟩
    exact (AnalysisResult.level_of_mem_freeUses wasFree : free.level = .use)
  · rcases List.mem_flatMap.1 isOwn with ⟨expression, -, isUse⟩
    exact level_of_mem_nameUses isUse

/-- What is free in a function is what its analysis finds to be so. -/
theorem freeUses_of_run_functionWith {function : Node} {isMethod : Bool}
    {analyzer after : Analyzer} {analysis : FunctionAnalysis}
    (run : (functionWith transfer function isMethod).run analyzer = .ok (analysis, after)) :
    analysis.freeUses = analysis.result.freeUses := by
  rw [functionWith] at run
  split at run
  · rcases exists_of_run_bind run with ⟨_, _, ⟨⟩, run⟩
    dsimp only at run
    split at run
    · rcases exists_of_run_bind run with ⟨_, _, -, run⟩
      rcases exists_of_run_bind run with ⟨graph, between, -, run⟩
      rcases exists_of_run_bind run with ⟨result, last, -, ⟨⟩⟩
      rfl
    · rcases exists_of_run_bind run with ⟨graph, between, -, run⟩
      rcases exists_of_run_bind run with ⟨result, last, -, ⟨⟩⟩
      rfl
  · cases run

/-- What a step is known to end with if it ends, it ends with. -/
theorem Yields.of_run {Result : Type} {step : Analysis Result} {post : Result → Prop}
    (safe : Safe valid step)
    (ends : ∀ {analyzer after result}, step.run analyzer = .ok (result, after) → post result) :
    Yields valid step fun result _ => post result := by
  intro analyzer holds
  rcases safe analyzer holds with ⟨result, after, run, keeps, holdsAfter, -⟩
  exact ⟨result, after, run, keeps, holdsAfter, ends run⟩

/-- What is found out about a statement belongs to it, and a function or a class does nothing but
declare. -/
structure Belongs (statement : Node) (defUse : DefUse) : Prop where
  ownedAt : defUse.OwnedAt statement.key
  declares : opensNamedScope statement = true →
    ∀ level, ∀ reference ∈ (defUse.level level).toList, reference.Declares

/-- A statement that updates something defines no function or class. -/
theorem Belongs.opensNamedScope_eq_false {defUse : DefUse} (belongs : Belongs statement defUse)
    {reference : Reference} (isUpdate : reference ∈ defUse.updates.toList) :
    opensNamedScope statement = false := by
  have isUpdateLevel := (belongs.ownedAt .update reference isUpdate).1
  rw [← Bool.not_eq_true]
  intro opens
  rcases belongs.declares opens .update reference isUpdate with isUse | ⟨isDefinition, -⟩
  · cases isUpdateLevel.symm.trans isUse
  · cases isUpdateLevel.symm.trans isDefinition

section

variable (closed : ∀ {statement inner}, scope statement → LooksInto statement inner → scope inner)
  (transferYields : ∀ {statement}, scope statement → ∀ running,
    Yields valid (transfer statement running) fun defUse _ => defUse.OwnedAt statement.key)

include closed transferYields

theorem functionWith_yields_freeUses {function : Node} {name : String}
    {params body decorators : List Node}
    (isDefinition : function.shape = .definition name params body decorators)
    (inScope : scope function) (isMethod : Bool) :
    Yields valid (functionWith transfer function isMethod) fun analysis _ =>
      analysis.freeUses = analysis.result.freeUses :=
  .of_run (functionWith_safe closed (fun inScope running => (transferYields inScope running).safe)
    isDefinition inScope isMethod) freeUses_of_run_functionWith

/-- The references that are attributed to a class on account of its members are uses. -/
theorem memberReferences_yields_uses {members : List Node}
    (inScope : ∀ member ∈ members, scope member) :
    Yields valid (memberReferences transfer statement members) fun result _ =>
      ∀ reference ∈ result.1, reference.level = .use := by
  have together : ∀ {uses others : List Reference},
      (∀ reference ∈ uses, reference.level = .use) →
      (∀ reference ∈ others, reference.level = .use) →
      ∀ reference ∈ (uses.map fun use => use.ownedBy statement) ++ others,
        reference.level = .use := by
    intro uses others areUses othersUses reference isMember
    rcases List.mem_append.1 isMember with isMember | isMember
    · rcases List.mem_map.1 isMember with ⟨use, isUse, rfl⟩
      exact areUses use isUse
    · exact othersUses reference isMember
  induction members with
  | nil => exact .pure fun _ => by simp
  | cons member rest ih =>
      rcases List.forall_mem_cons.1 inScope with ⟨isInScope, restInScope⟩
      rw [memberReferences]
      split
      · next isDefinition =>
          refine (functionWith_yields_freeUses closed transferYields isDefinition isInScope
            true).bindPure fun analysis freeUsesEq => ?_
          refine (Yields.pureEq).bindPure fun found foundEq => ?_
          refine (ih restInScope).bindPure fun others othersUses => Yields.pure fun _ => ?_
          subst foundEq
          apply together _ othersUses
          rw [freeUsesEq]
          exact fun reference isUse => level_of_mem_definitionUses isUse
      · refine (transferYields isInScope .empty).bindPure fun defUse owned => ?_
        refine (Yields.pureEq).bindPure fun found foundEq => ?_
        refine (ih restInScope).bindPure fun others othersUses => Yields.pure fun _ => ?_
        subst foundEq
        apply together _ othersUses
        exact fun reference isUse => (owned .use reference isUse).1

/-- A statement that defines a function or a class does nothing but declare. -/
theorem ownReferences_yields_declares (inScope : scope statement)
    (opens : opensNamedScope statement = true) :
    Yields valid (ownReferences transfer statement) fun references _ =>
      ∀ reference ∈ references, reference.Declares := by
  rw [opensNamedScope] at opens
  split at opens
  · next isDefinition =>
      rw [ownReferences, isDefinition]
      refine (functionWith_yields_freeUses closed transferYields isDefinition inScope
        false).bindPure fun analysis freeUsesEq => ?_
      refine Yields.get.andThen fun _ => Yields.learnWhen _ ?_
      refine .pure fun _ reference isMember => ?_
      rw [freeUsesEq] at isMember
      rcases List.mem_cons.1 isMember with rfl | isUse
      · exact .inr ⟨rfl, rfl⟩
      · exact .inl (level_of_mem_definitionUses isUse)
  · next isClass =>
      rw [ownReferences, isClass]
      have membersInScope := fun member isMember =>
        closed inScope (LooksInto.member isClass (isMember : member ∈ _))
      refine (memberReferences_yields_uses closed transferYields membersInScope).bindPure
        fun found areUses => ?_
      refine Yields.get.andThen fun _ => Yields.learnWhen _ ?_
      refine .pure fun _ reference isMember => ?_
      rcases List.mem_append.1 isMember with isMember | isMember
      · rcases List.mem_append.1 isMember with isUse | isOwn
        · exact .inl (areUses reference isUse)
        · rcases List.mem_flatMap.1 isOwn with ⟨expression, -, isUse⟩
          exact .inl (level_of_mem_nameUses isUse)
      · rw [List.mem_singleton.1 isMember]
        exact .inr ⟨rfl, rfl⟩
  · cases opens

theorem defUseWith_yields_belongs (inScope : scope statement) (running : RefSet) :
    Yields valid (defUseWith transfer statement running) fun defUse _ =>
      Belongs statement defUse := by
  have describes := defUseWith_yields closed
    (fun inScope running => (transferYields inScope running).safe) inScope running
  by_cases opens : opensNamedScope statement = true
  · have declares : Yields valid (defUseWith transfer statement running) fun defUse _ =>
        ∀ level, ∀ reference ∈ (defUse.level level).toList, reference.Declares := by
      rw [defUseWith]
      refine (ownReferences_yields_declares closed transferYields inScope opens).bindPure
        fun references declare => ?_
      refine Yields.get.andThen fun analyzer => .pure fun _ level reference isMember => ?_
      rw [if_pos opens, List.append_nil] at isMember
      rcases List.mem_append.1 (DefUse.mem_of_mem_ofReferences isMember).1 with isOwn | isDeclared
      · exact declare reference isOwn
      · exact declares_of_mem_declaredDefinitions isDeclared
    exact (describes.and declares).mono fun defUse _ facts => ⟨facts.1.ownedAt, fun _ => facts.2⟩
  · exact describes.mono fun defUse _ describes =>
      ⟨describes.ownedAt, fun isTrue => absurd isTrue opens⟩

end

section

variable (closed : ∀ {statement inner}, scope statement → LooksInto statement inner → scope inner)
  (admits : ∀ {statement defUse}, scope statement → Belongs statement defUse →
    valid statement.key defUse)
  (owned : ∀ {statement defUse}, scope statement → valid statement.key defUse →
    defUse.OwnedAt statement.key)

include closed admits owned

/-- What is found out about statements of a scope is kept with what it belongs to. -/
theorem defUse_yields_belongs (statement : Node) (inScope : scope statement) (running : RefSet) :
    Yields valid (defUse statement running) fun found after =>
      after.cached? statement = some found ∧ found.OwnedAt statement.key := by
  have kept : Yields valid (defUse statement running) fun found after =>
      after.cached? statement = some found := by
    rw [defUse]
    apply remembered_yields
    refine (defUseWith_yields_belongs closed (fun {inner} isInScope reaching => ?_) inScope
      running).mono fun _ _ belongs => admits inScope belongs
    split
    · exact (defUse_yields_belongs inner isInScope reaching).mono fun _ _ found => found.2
    · exact .pure fun _ level reference isMember => by simp at isMember
  intro analyzer holds
  rcases kept analyzer holds with ⟨found, after, run, keeps, holdsAfter, isKept⟩
  exact ⟨found, after, run, keeps, holdsAfter, isKept, owned inScope (holdsAfter _ _ isKept)⟩
termination_by statement.scopeDepth

end

/-! ### What is found out about the statements of a program -/

/-- What is kept for the key of a statement in a program is what belongs to the statement. -/
def BelongsIn (root : Node) (key : String) (defUse : DefUse) : Prop :=
  ∀ statement, Relation.TransGen Node.IsPart root statement → statement.key = key →
    Belongs statement defUse

section

variable {root : Node} {analyzer : Analyzer}

theorem holds_of_uncached
    (uncached : ∀ location ∈ root.innerPlaces, analyzer.cache.get? location.key = none) :
    analyzer.Holds (BelongsIn root) := by
  intro key defUse isKnown statement beneath same
  rw [← same, Node.key, uncached _ (Node.location_mem_innerPlaces beneath)] at isKnown
  cases isKnown

theorem safe_defUse_beneath (distinct : root.innerPlaces.Nodup) {statement : Node}
    (beneath : Relation.TransGen Node.IsPart root statement) (running : RefSet) :
    Safe (BelongsIn root) (defUse statement running) := by
  have closed : ∀ {statement inner}, Relation.TransGen Node.IsPart root statement →
      LooksInto statement inner → Relation.TransGen Node.IsPart root inner :=
    fun beneath looksInto => beneath.trans looksInto.transGen_isPart
  have admits : ∀ {statement defUse}, Relation.TransGen Node.IsPart root statement →
      Belongs statement defUse → BelongsIn root statement.key defUse := by
    intro statement defUse beneath belongs other beneath' same
    rwa [Node.eq_of_key_eq_of_beneath distinct beneath' beneath same]
  have owned : ∀ {statement defUse}, Relation.TransGen Node.IsPart root statement →
      BelongsIn root statement.key defUse → defUse.OwnedAt statement.key :=
    fun beneath belongs => (belongs _ beneath rfl).ownedAt
  exact (defUse_yields_belongs closed admits owned statement beneath running).safe

theorem transGen_isPart_of_mem_statements {statement : Node} {id : BlockId}
    (isPlaced : statement ∈ (Graph.ofStatements root.parts).statements id) :
    Relation.TransGen Node.IsPart root statement := by
  rcases Graph.exists_within_of_mem_statements isPlaced with ⟨part, isPart, within⟩
  exact .head' isPart within

/-- The analysis of a program finds out what belongs to the statements in it. -/
theorem holds_of_run_graph (distinct : root.innerPlaces.Nodup)
    (uncached : ∀ location ∈ root.innerPlaces, analyzer.cache.get? location.key = none)
    {initial : RefSet} {result : AnalysisResult} {after : Analyzer}
    (run : (Analysis.graph (.ofStatements root.parts) initial).run analyzer = .ok (result, after)) :
    after.Holds (BelongsIn root) := by
  have transfers : Transfers (BelongsIn root) (Relation.TransGen Node.IsPart root)
      (fun _ _ _ => True) defUse :=
    ⟨fun beneath running => safe_defUse_beneath distinct beneath running, fun _ _ => trivial⟩
  have built : Graph.ofRoot ⟨.module root.parts, root.location⟩ =
      .ok (.ofStatements root.parts) := rfl
  rcases transfers.ofGraph built (fun _ _ => transGen_isPart_of_mem_statements) initial with
    ⟨controls, -, succeeds⟩
  rcases succeeds analyzer (holds_of_uncached uncached) with ⟨_, _, run', -, holdsAfter, -⟩
  rw [Analysis.graph, run'] at run
  rcases run with ⟨⟩
  exact holdsAfter

end

end Analysis

end FlowAnalysis

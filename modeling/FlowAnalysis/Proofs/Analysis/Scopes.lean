import FlowAnalysis.Proofs.Analysis.Places

/-!
# Statements that an analysis comes to

An analysis knows statements by the keys of their locations. What it looks into from a function or a
class is within that node. So if no location occurs twice in the program, all statements that the
analysis comes to have different keys, and what is kept for a key describes the only statement that
has it.
-/

namespace FlowAnalysis

namespace Analysis

variable {definition statement other inner : Node} {name : String}
  {params body decorators : List Node}

/-- Whatever the analysis of a statement looks into is within the statement. -/
theorem LooksInto.transGen_isPart (looksInto : LooksInto statement inner) :
    Relation.TransGen Node.IsPart statement inner := by
  cases looksInto with
  | @body _ _ body _ id isDefinition isPlaced =>
      rcases Graph.exists_within_of_mem_statements isPlaced with ⟨node, isMember, within⟩
      refine .head' ?_ within
      rw [Node.IsPart, Node.parts, isDefinition]
      exact isMember
  | member isClass isMember =>
      refine .single ?_
      rw [Node.IsPart, Node.parts, isClass]
      exact isMember

/-- The statements that the analysis of a node can come to. -/
def Scope (node : Node) : Node → Prop :=
  Relation.TransGen LooksInto node

theorem Scope.transGen_isPart (inScope : Scope definition statement) :
    Relation.TransGen Node.IsPart definition statement := by
  induction inScope with
  | single looksInto => exact looksInto.transGen_isPart
  | tail _ looksInto ih => exact ih.trans looksInto.transGen_isPart

theorem Scope.location_mem (inScope : Scope definition statement) :
    statement.location ∈ definition.locations :=
  Node.Within.location_mem inScope.transGen_isPart.to_reflTransGen

/-- Where no location occurs twice, the statements that an analysis comes to are told apart by their
keys. -/
theorem Scope.eq_of_key_eq (inScope : Scope definition statement)
    (inScope' : Scope definition other) (distinct : definition.locations.Nodup)
    (same : statement.key = other.key) : statement = other :=
  Node.Within.eq_of_location_eq inScope.transGen_isPart.to_reflTransGen
    inScope'.transGen_isPart.to_reflTransGen distinct (Node.key_eq_iff.1 same)

section

variable (isDefinition : definition.shape = .definition name params body decorators)
  (distinct : definition.locations.Nodup)

include isDefinition

theorem locations_definition : definition.locations =
    definition.location :: (decorators.flatMap Node.locations ++
      (params.flatMap Node.locations ++ body.flatMap Node.locations)) := by
  rw [Node.locations_eq, Node.bindingLocations, Node.children, isDefinition]
  simp [Shape.children, Shape.fields, Field.subtrees]

theorem location_mem_of_param {param : Node} (isParam : param ∈ params) :
    param.location ∈ definition.locations := by
  rw [locations_definition isDefinition]
  apply List.mem_cons_of_mem
  apply List.mem_append_right
  apply List.mem_append_left
  exact List.mem_flatMap.2 ⟨param, isParam, param.location_mem_locations⟩

theorem Scope.of_mem_reachableStatements
    (isReachable : statement ∈ (Graph.ofStatements body).reachableStatements) :
    Scope definition statement := by
  rcases List.mem_flatMap.1 isReachable with ⟨id, -, isPlaced⟩
  exact .single (.body isDefinition isPlaced)

include distinct

theorem nodup_key_params : (params.map Node.key).Nodup := by
  rw [locations_definition isDefinition] at distinct
  have distinctBeneath := (List.nodup_append.1 (List.nodup_cons.1 distinct).2).2.1
  have firsts : (params.map Node.location).Sublist (params.flatMap Node.locations) := by
    rw [List.map_eq_flatMap]
    refine .flatMap_right params fun param _ => ?_
    rw [Node.locations_eq]
    simp
  have distinctParams := (List.nodup_append.1 distinctBeneath).1.sublist firsts
  have keys := distinctParams.map Location.key_injective
  rwa [List.map_map] at keys

/-- Statements have other keys than parameters. -/
theorem Scope.key_ne_key_param (inScope : Scope definition statement) {param : Node}
    (isParam : param ∈ params) : statement.key ≠ param.key := by
  rw [locations_definition isDefinition] at distinct
  have distinctBeneath := (List.nodup_append.1 (List.nodup_cons.1 distinct).2).2.1
  have isInParams : param.location ∈ params.flatMap Node.locations :=
    List.mem_flatMap.2 ⟨param, isParam, param.location_mem_locations⟩
  rcases Relation.TransGen.head'_iff.1 inScope.transGen_isPart with ⟨part, isPart, within⟩
  rw [Node.IsPart, Node.parts, isDefinition] at isPart
  have isInBody : statement.location ∈ body.flatMap Node.locations :=
    List.mem_flatMap.2 ⟨part, isPart, Node.Within.location_mem within⟩
  intro same
  exact (List.nodup_append.1 distinctBeneath).2.2 _ isInParams _ isInBody
    (Node.key_eq_iff.1 same).symm

end

/-! ### What is found out in a function -/

/-- What is kept for the key of a statement that the analysis of a node comes to describes it. -/
def DescribesIn (node : Node) (key : String) (defUse : DefUse) : Prop :=
  ∀ statement, Scope node statement → statement.key = key → Describes statement defUse

/-- If nothing is known about the locations in a function, its analysis finds out what describes the
statements of its body. -/
theorem exists_function_describes {analyzer : Analyzer}
    (isDefinition : definition.shape = .definition name params body decorators)
    (distinct : definition.locations.Nodup)
    (uncached : ∀ location ∈ definition.locations, analyzer.cache.get? location.key = none)
    (isMethod : Bool) :
    ∃ analysis after, (Analysis.function definition isMethod).run analyzer = .ok (analysis, after) ∧
      analysis.spec.updates =
        (analysis.result.mutatedPositions (if isMethod then 0 else 1) params).map .position ∧
      (analysis.result.converged = true →
        (∀ statement ∈ (Graph.ofStatements body).reachableStatements,
          after.cached? statement = some (after.known statement) ∧
            Describes statement (after.known statement)) ∧
        ∃ visits progress controls,
          Run after.known (.ofStatements body) (.start (.ofStatements body) (onEntry params))
            visits progress ∧ analysis.result = progress.result controls) := by
  have closed : ∀ {statement inner : Node}, Scope definition statement →
      LooksInto statement inner → Scope definition inner :=
    fun inScope looksInto => inScope.tail looksInto
  have admits : ∀ {statement : Node} {defUse : DefUse}, Scope definition statement →
      Describes statement defUse → DescribesIn definition statement.key defUse := by
    intro statement defUse inScope describes other otherInScope same
    rwa [otherInScope.eq_of_key_eq inScope distinct same]
  have holds : analyzer.Holds (DescribesIn definition) := by
    intro key defUse isKnown statement inScope same
    rw [← same, Node.key, uncached _ inScope.location_mem] at isKnown
    cases isKnown
  rcases Analyzer.function_yields closed admits isDefinition
      (fun _ _ isPlaced => .single (.body isDefinition isPlaced)) isMethod analyzer holds with
    ⟨analysis, after, run, -, holdsAfter, updatesEq, converges⟩
  refine ⟨analysis, after, run, updatesEq, fun converged => ?_⟩
  rcases converges converged with ⟨allKnown, isRun⟩
  refine ⟨fun statement isReachable => ⟨allKnown statement isReachable, ?_⟩, isRun⟩
  exact holdsAfter _ _ (allKnown statement isReachable) statement
    (.of_mem_reachableStatements isDefinition isReachable) rfl

end Analysis

end FlowAnalysis

import FlowAnalysis.Proofs.Analysis.ReceiverTypes

/-!
# What a specification says and what a call updates

A specification lists positions of a call, and what stands there is rooted in a variable. A call
with a specification updates what it lists only if a bare name is passed: the receiver of a method
call whose method is known always is one, but an attribute or a subscript that is passed is not, and
then the variable that it is rooted in is not updated on account of the call.
-/

namespace FlowAnalysis

section

variable {symbols : SymbolTable} {running : RefSet} {func : Node} {args : List (Argument Node)}
  {spec : FunctionSpec} {mutated : String}

/-- The variable that what stands at a position of a call is rooted in. -/
def rootAt? (func : Node) (args : List (Argument Node)) : Nat → Option String
  | 0 => (receiver? func).bind rootVariable?
  | index + 1 => args[index]?.bind fun argument => rootVariable? argument.actual

theorem mem_mutatedVariables_of_known (resolved : Callee.resolve symbols running func = .known spec) :
    mutated ∈ mutatedVariables symbols running func args ↔ spec.Lists func args mutated := by
  rw [mutatedVariables, resolved, List.mem_filterMap]
  rfl

/-- Where a method is known, its receiver is a bare name. -/
theorem mutatedAt_zero_of_known (resolved : Callee.resolve symbols running func = .known spec) :
    mutatedAt? func args 0 = rootAt? func args 0 := by
  rw [mutatedAt?, rootAt?]
  cases isReceiver : receiver? func with
  | none => rfl
  | some value =>
      rw [receiver?] at isReceiver
      split at isReceiver
      · next value' method isDot =>
          rcases isReceiver with ⟨⟩
          rw [Callee.resolve, isDot] at resolved
          rcases value with ⟨shape, location⟩
          cases shape with
          | name id => rfl
          | _ => cases resolved
      · cases isReceiver

end

namespace Analysis

/-- Statements that bind nothing leave what names stand for as it is. -/
theorem Changes.symbols_eq {scope : Node → Prop} {before after : Analyzer}
    (changes : Changes scope before after)
    (spared : ∀ statement change, scope statement → ¬Binds statement change) :
    after.symbols = before.symbols := by
  induction changes with
  | refl => rfl
  | tail _ change ih =>
      cases change with
      | bind inScope binds => exact absurd binds (spared _ _ inScope)
      | keep => exact ih

/-- A statement that a call is in binds nothing, unless it is a function or a class. -/
theorem not_binds_of_call {statement call func : Node} {args : List (Argument Node)}
    {change : SymbolTable → SymbolTable} (noScope : opensNamedScope statement = false)
    (inScope : call ∈ statement.walkScope) (isCall : call.shape = .call func args) :
    ¬Binds statement change := by
  have notLeaf : statement.children = [] → statement.shape = .call func args := by
    intro leaf
    rwa [(Node.mem_walkScope_of_leaf leaf).1 inScope] at isCall
  rintro (isImport | isImport | isDefinition | isClass)
  · cases isImport.symm.trans (notLeaf (by
      simp [Node.children, isImport, Shape.children, Shape.fields, Field.subtrees]))
  · cases isImport.symm.trans (notLeaf (by
      simp [Node.children, isImport, Shape.children, Shape.fields, Field.subtrees]))
  · simp [opensNamedScope, isDefinition] at noScope
  · simp [opensNamedScope, isClass] at noScope

section

variable {statement : Node} (running : RefSet) {analyzer : Analyzer}
  (unknown : analyzer.cached? statement = none) (noScope : opensNamedScope statement = false)
  (plain : ∀ id, statement.Mentions id → ':' ∉ id.toList)

include unknown noScope plain

/-- Where a specification lists a position of a call, the statement updates the variable that what
stands there is rooted in: always if it is the receiver, and otherwise exactly if the call passes
the variable as a bare name at a listed position, or something else in the statement updates it. -/
theorem exists_defUse_updates_listed :
    ∃ found after, (defUse statement running).run analyzer = .ok (found, after) ∧
      ∀ {call func args spec}, call ∈ statement.walkScope → call.shape = .call func args →
        Callee.resolve analyzer.symbols running func = .known spec →
        ∀ position ∈ spec.positions, ∀ mutated, rootAt? func args position = some mutated →
          (position = 0 → found.Refers .update mutated) ∧
          (call.StandsAlone statement → (found.Refers .update mutated ↔
            spec.Lists func args mutated ∨ ∃ reference ∈ found.updates.toList,
              reference.name = mutated ∧ reference.location ≠ call.location)) := by
  rcases (safe_defUse statement running).exists_run analyzer with ⟨found, after, run⟩
  refine ⟨found, after, run, ?_⟩
  intro call func args spec inScope isCall resolved position isListed mutated isRoot
  rcases exists_own_of_run_defUse unknown run with ⟨own, -, -, updatesOwn, composed⟩
  have sameSymbols : after.symbols = analyzer.symbols := by
    apply (changes_of_run_defUse run).symbols_eq
    intro inner change consulted
    rw [consulted.eq_of_noScope noScope]
    exact not_binds_of_call noScope inScope isCall
  rw [← sameSymbols] at resolved
  have updates : spec.Lists func args mutated → ∃ reference ∈ found.updates.toList,
      reference.name = mutated ∧ reference.location = call.location := fun lists =>
    exists_update_of_composed (updatesOwn noScope) (composed noScope) plain inScope isCall
      ((mem_mutatedVariables_of_known resolved).2 lists)
  constructor
  · rintro rfl
    have isReceiver := (mutatedAt_zero_of_known resolved).trans isRoot
    rcases updates ⟨0, isListed, isReceiver⟩ with ⟨reference, isUpdate, sameName, -⟩
    exact ⟨reference, isUpdate, sameName⟩
  · intro alone
    have updates_iff := exists_update_iff_of_composed (updatesOwn noScope) (composed noScope) plain
      inScope isCall alone mutated
    rw [mem_mutatedVariables_of_known resolved] at updates_iff
    constructor
    · rintro ⟨reference, isUpdate, sameName⟩
      by_cases atCall : reference.location = call.location
      · exact .inl (updates_iff.1 ⟨reference, isUpdate, sameName, atCall⟩)
      · exact .inr ⟨reference, isUpdate, sameName, atCall⟩
    · rintro (lists | ⟨reference, isUpdate, sameName, -⟩)
      · rcases updates lists with ⟨reference, isUpdate, sameName, -⟩
        exact ⟨reference, isUpdate, sameName⟩
      · exact ⟨reference, isUpdate, sameName⟩

end

/-! ### Arguments that are names and arguments that are not -/

/-- A function that mutates its receiver and its first argument. -/
def fillingSpec : FunctionSpec :=
  { name := "f", updates := [.position 0, .position 1] }

/-- An analyzer that knows the function as a member of a module `m`. -/
def knowingFilling : Analyzer :=
  (Analyzer.ofSpecs []).withSymbols fun symbols =>
    symbols.bindModule "m" { ModuleSpec.empty with functions := [fillingSpec] }

/-- A call `m.f(v)`. -/
def bareCall : Node :=
  onLine 1 0 6 (.call (onLine 1 0 3 (.dot (onLine 1 0 1 (.name "m")) "f"))
    [⟨onLine 1 4 5 (.name "v"), none, false, false⟩])

/-- Names at listed positions are updated. -/
theorem updates_bareCall : ∃ found after,
    (defUse bareCall .empty).run knowingFilling = .ok (found, after) ∧
      found.Refers .update "m" ∧ found.Refers .update "v" := by
  rcases exists_defUse_updates_listed .empty
    (rfl : knowingFilling.cached? bareCall = none) rfl (Node.plain_of_walk (by decide +kernel)) with
    ⟨found, after, run, updates⟩
  have alone : bareCall.StandsAlone bareCall :=
    Node.standsAlone_of_nodup (by decide +kernel) bareCall.self_mem_walk
  have areListed : 0 ∈ fillingSpec.positions ∧ 1 ∈ fillingSpec.positions := by decide
  refine ⟨found, after, run, ?_, ?_⟩
  · exact (updates List.mem_cons_self rfl rfl 0 areListed.1 "m" rfl).1 rfl
  · apply ((updates List.mem_cons_self rfl rfl 1 areListed.2 "v" rfl).2 alone).2
    exact .inl ⟨1, areListed.2, rfl⟩

/-- An analyzer that knows a function `f`, which extends its first argument. -/
def knowingExtending : Analyzer :=
  (Analyzer.ofSpecs []).withSymbols fun symbols => symbols.registerFunction extendingSpec

def attributeArguments : List (Argument Node) :=
  [⟨onLine 3 2 5 (.dot (onLine 3 2 3 (.name "a")) "b"), none, false, false⟩]

/-- A call `f(a.b)`. -/
def attributeCall : Node :=
  onLine 3 0 6 (.call (onLine 3 0 1 (.name "f")) attributeArguments)

/-- The function extends the attribute that it is passed, but the object is not updated where this
is known, only where nothing is known about the function. -/
theorem hides_attributeArgument : ∃ found after found' after',
    (defUse attributeCall .empty).run knowingExtending = .ok (found, after) ∧
      attributeCall ∈ attributeCall.walkScope ∧
      Callee.resolve knowingExtending.symbols .empty (onLine 3 0 1 (.name "f")) =
        .known extendingSpec ∧
      1 ∈ extendingSpec.positions ∧
      rootAt? (onLine 3 0 1 (.name "f")) attributeArguments 1 = some "a" ∧
      ¬found.Refers .update "a" ∧
      (defUse attributeCall .empty).run (.ofSpecs []) = .ok (found', after') ∧
      found'.Refers .update "a" := by
  rcases (safe_defUse attributeCall .empty).exists_run knowingExtending with ⟨found, after, run⟩
  rcases (safe_defUse attributeCall .empty).exists_run (.ofSpecs []) with ⟨found', after', run'⟩
  refine ⟨found, after, found', after', run, List.mem_cons_self, rfl, by decide, rfl, ?_, run', ?_⟩
  · exact holds_of_run (fun outcome : DefUse × Analyzer => ¬outcome.1.Refers .update "a")
      (by decide +kernel) run
  · exact holds_of_run (fun outcome : DefUse × Analyzer => outcome.1.Refers .update "a")
      (by decide +kernel) run'

end Analysis

end FlowAnalysis

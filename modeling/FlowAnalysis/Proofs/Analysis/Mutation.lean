import FlowAnalysis.Proofs.Analysis.Exactness
import FlowAnalysis.Proofs.Analysis.Slice

/-!
# Mutations in slices

A binding reaches the next statement that mutates its value, and the mutation reaches whoever reads
the value next, so a slice from a binding follows the value through all mutations. Among mutations
the last one alone is in force. A slice from a mutation follows the value as long as those that
mutate it further read it too; a statement that only overwrites a part of it cuts the slice off.
-/

namespace FlowAnalysis

namespace Analysis

variable {known : Node → DefUse} {graph : Graph} {name : String} {level : Level}
  {before between : List Node} {source target : Node} {progress : Progress}

/-- References with a name and the same key belong to statements with the same key. -/
def ToldApart (known : Node → DefUse) (graph : Graph) (name : String) : Prop :=
  ∀ statement ∈ graph.reachableStatements, ∀ other ∈ graph.reachableStatements,
    ∀ level level' reference reference', reference ∈ ((known statement).level level).toList →
      reference' ∈ ((known other).level level').toList → reference.name = name →
      reference.key = reference'.key → statement.key = other.key

/-- Statements with a property have a last one, if there are any. -/
theorem exists_last (property : Node → Prop) (statements : List Node) :
    (∀ statement ∈ statements, ¬property statement) ∨
      ∃ front last back, statements = front ++ last :: back ∧ property last ∧
        ∀ statement ∈ back, ¬property statement := by
  induction statements with
  | nil => exact .inl (by simp)
  | cons first rest ih =>
      rcases ih with none | ⟨front, last, back, rfl, holds, none⟩
      · by_cases holds : property first
        · exact .inr ⟨[], first, rest, rfl, holds, none⟩
        · exact .inl (List.forall_mem_cons.2 ⟨holds, none⟩)
      · exact .inr ⟨first :: front, last, back, rfl, holds, none⟩

/-- A run has ended, and keys tell the references with a name and the edges apart. -/
structure Followable (known : Node → DefUse) (graph : Graph) (progress : Progress) (name : String) :
    Prop where
  wellFormed : graph.WellFormed
  covered : Covered known graph .empty progress
  nonePending : progress.pending = []
  owned : ∀ statement, (known statement).OwnedAt statement.key
  plain : ∀ reference, Occurs known graph .empty reference → reference.HasPlainName
  keysPlain : ∀ statement ∈ graph.reachableStatements, '>' ∉ statement.key.toList
  toldApart : ToldApart known graph name

namespace Followable

variable (followable : Followable known graph progress name) (controls : List (Node × Node))

include followable

/-- What a statement binds leads on to the statements that it reaches. -/
theorem mem_targets (reaches : graph.Reaches (before ++ source :: between) target)
    (rebinds : (known source).Rebinds level name)
    (untouched : ∀ statement ∈ between, ¬(known statement).Rebinds level name)
    (refers : (known target).Refers level name) :
    target.key ∈ (progress.result controls).targets source.key := by
  rcases rebinds with ⟨binding, binds, rfl⟩
  rcases refers with ⟨needed, isNeeded, sameName⟩
  have sourceReachable := reaches.of_append.mem_reachableStatements followable.wellFormed
  have targetReachable := reaches.mem_reachableStatements followable.wellFormed
  have inForce : InForce known .empty level (before ++ source :: between) binding :=
    .bound binds untouched
  rcases reaches with ⟨blocks, last, later, path, traceEq⟩
  rcases followable.covered.draws followable.plain followable.wellFormed followable.nonePending path
      traceEq inForce isNeeded sameName.symm with ⟨found, sameKey, occurs, draws⟩
  rcases occurs with absent | ⟨holder, holderReachable, _, isHeld⟩
  · exact absurd absent List.not_mem_nil
  · rcases binds with ⟨_, -, isBound⟩
    have foundKey : found.owner.key = source.key := by
      rw [(followable.owned holder _ found isHeld).2]
      exact (followable.toldApart source sourceReachable holder holderReachable _ _ binding found
        isBound isHeld rfl sameKey.symm).symm
    have neededKey := (followable.owned target level needed isNeeded).2
    have sourcePlain := followable.keysPlain source sourceReachable
    have targetPlain := followable.keysPlain target targetReachable
    rw [← foundKey] at sourcePlain
    rw [← neededKey] at targetPlain
    rcases Progress.exists_flow_of_draws draws sourcePlain targetPlain with
      ⟨flow, isFlow, flowSource, flowTarget⟩
    exact AnalysisResult.mem_targets.2 ⟨flow, Progress.mem_result isFlow,
      flowSource.trans foundKey, flowTarget.trans neededKey⟩

/-- The last one of those that mutate a value on the way to a reader leads on to the reader. -/
theorem untouched_or_exists_last (reaches : graph.Reaches (before ++ source :: between) target)
    (kept : ∀ statement ∈ between, ¬(known statement).Refers .definition name)
    (isRead : (known target).Refers .use name) :
    (∀ statement ∈ between, ¬(known statement).Rebinds .use name) ∨
      ∃ front last back, between = front ++ last :: back ∧
        graph.Reaches (before ++ source :: front) last ∧ (known last).Refers .update name ∧
        target.key ∈ (progress.result controls).targets last.key := by
  have untouched : ∀ statements ⊆ between,
      (∀ statement ∈ statements, ¬(known statement).Refers .update name) →
      ∀ statement ∈ statements, ¬(known statement).Rebinds .use name := by
    intro statements inside spared statement member rebinds
    rcases DefUse.rebinds_use_iff.1 rebinds with isMutated | isBound
    · exact spared statement member isMutated
    · exact kept statement (inside member) isBound
  rcases exists_last (fun statement => (known statement).Refers .update name) between with
    spared | ⟨front, last, back, rfl, isMutated, spared⟩
  · exact .inl (untouched between (List.Subset.refl _) spared)
  · have reachesOn : graph.Reaches ((before ++ source :: front) ++ last :: back) target := by
      simpa using reaches
    have inside : back ⊆ front ++ last :: back := by simp
    have leadsOn := followable.mem_targets controls reachesOn
      (DefUse.rebinds_use_iff.2 (.inl isMutated)) (untouched back inside spared) isRead
    exact .inr ⟨front, last, back, rfl, reachesOn.of_append, isMutated, leadsOn⟩

/-- A value that a statement binds is followed through all its mutations. -/
theorem transGen_of_definition (reaches : graph.Reaches (before ++ source :: between) target)
    (isBound : (known source).Refers .definition name)
    (kept : ∀ statement ∈ between, ¬(known statement).Refers .definition name)
    (isRead : (known target).Refers .use name) :
    Relation.TransGen (Search.Steps (progress.result controls).targets) source.key target.key := by
  rcases followable.untouched_or_exists_last controls reaches kept isRead with
    untouched | ⟨front, last, back, rfl, reachesLast, isMutated, leadsOn⟩
  · apply Relation.TransGen.single
    exact followable.mem_targets controls reaches (DefUse.rebinds_use_iff.2 (.inr isBound))
      untouched isRead
  · have untouched : ∀ statement ∈ front, ¬(known statement).Rebinds .update name :=
      fun statement member rebinds =>
        kept statement (by simp [member]) (DefUse.rebinds_update_iff.1 rebinds)
    have leadsToLast := followable.mem_targets controls reachesLast
      (DefUse.rebinds_update_iff.2 isBound) untouched isMutated
    exact .tail (.single leadsToLast) leadsOn

/-- A value that a statement mutates is followed through further mutations that read it. -/
theorem transGen_of_update (reaches : graph.Reaches (before ++ source :: between) target)
    (isMutated : (known source).Refers .update name)
    (kept : ∀ statement ∈ between, ¬(known statement).Refers .definition name)
    (readOn : ∀ statement ∈ between,
      (known statement).Refers .update name → (known statement).Refers .use name)
    (isRead : (known target).Refers .use name) :
    Relation.TransGen (Search.Steps (progress.result controls).targets) source.key target.key := by
  induction lengthEq : between.length using Nat.strongRecOn generalizing between target with
  | ind length ih =>
      rcases followable.untouched_or_exists_last controls reaches kept isRead with
        untouched | ⟨front, last, back, rfl, reachesLast, isMutatedOn, leadsOn⟩
      · apply Relation.TransGen.single
        exact followable.mem_targets controls reaches (DefUse.rebinds_use_iff.2 (.inl isMutated))
          untouched isRead
      · have shorter : front.length < length := by
          simp only [List.length_append, List.length_cons] at lengthEq
          omega
        have leadsToLast := ih front.length shorter reachesLast
          (fun statement member => kept statement (by simp [member]))
          (fun statement member => readOn statement (by simp [member]))
          (readOn last (by simp) isMutatedOn) rfl
        exact leadsToLast.tail leadsOn

end Followable

/-- What a statement binds or mutates lasts until another one reads it: it is not bound anew in
between, and if it is only mutated, those that mutate it further read it too. -/
structure Lasts (known : Node → DefUse) (name : String) (source : Node) (between : List Node)
    (target : Node) : Prop where
  handedOn : (known source).Refers .definition name ∨
    (known source).Refers .update name ∧ ∀ statement ∈ between,
      (known statement).Refers .update name → (known statement).Refers .use name
  kept : ∀ statement ∈ between, ¬(known statement).Refers .definition name
  isRead : (known target).Refers .use name

/-- The analysis of a program succeeds, and if it converges, what a statement binds or mutates makes
every statement a dependent that reads it later, provided that it lasts until then. -/
theorem exists_module_dependents_of_lasts {analyzer : Analyzer} (arises : analyzer.Arises)
    {root : Node} {graph : Graph} (built : Graph.ofRoot root = .ok graph) :
    ∃ result after, (Analysis.module root).run analyzer = .ok (result, after) ∧
      (result.converged = true →
        (∀ statement ∈ graph.reachableStatements,
          after.cached? statement = some (after.known statement)) ∧
        ((∀ reference, Occurs after.known graph .empty reference → reference.HasPlainName) →
          (∀ statement ∈ graph.reachableStatements, '>' ∉ statement.key.toList) →
          ∀ {name before source between target}, ToldApart after.known graph name →
          graph.Reaches (before ++ source :: between) target →
          Lasts after.known name source between target → target.key ≠ source.key →
          ∃ dependent ∈ result.dependentsOf source, dependent.key = target.key)) := by
  have wellFormed := (Graph.ofRoot_laidOut built).wellFormed
  rcases arises.exists_run built .empty with ⟨result, after, run, sound, converges⟩
  refine ⟨result, after, (run_module built analyzer).trans run, fun converged => ?_⟩
  rcases converges converged with ⟨allKnown, visits, progress, controls, -, isRun, rfl⟩
  rcases isRun.covered wellFormed with ⟨covered, nonePending⟩
  refine ⟨allKnown, ?_⟩
  intro plain keysPlain name before source between target toldApart reaches lasts differs
  have followable : Followable after.known graph progress name :=
    { wellFormed, covered, nonePending, owned := sound.ownedAt_known, plain, keysPlain, toldApart }
  apply AnalysisResult.exists_mem_dependentsOf.2
  refine ⟨?_, differs⟩
  rcases lasts.handedOn with isBound | ⟨isMutated, readOn⟩
  · exact followable.transGen_of_definition controls reaches isBound lasts.kept lasts.isRead
  · exact followable.transGen_of_update controls reaches isMutated lasts.kept readOn lasts.isRead

/-- A statement that extends a list, `xs += c`. -/
def extending (line : Nat) : Node :=
  onLine line 0 7 (.assign (some "+") [onLine line 0 2 (.name "xs")] [onLine line 6 7 (.name "c")])

/-- A statement that overwrites a part of a list, `xs[0] = c`. -/
def overwriting (line : Nat) : Node :=
  onLine line 0 9
    (.assign none
      [onLine line 0 5
        (.index (onLine line 0 2 (.name "xs")) [onLine line 3 4 (.literal (.natural 0))])]
      [onLine line 8 9 (.name "c")])

/-- A statement that reads a list, `y = xs`. -/
def reading (line : Nat) : Node :=
  onLine line 0 6 (.assign none [onLine line 0 1 (.name "y")] [onLine line 4 6 (.name "xs")])

/-- A list that is overwritten in part, extended and read. -/
def extendedStatements : List Node :=
  [overwriting 1, extending 2, reading 3]

/-- The reader depends on the first mutation through the second one, which reads the list. -/
theorem dependent_extendedStatements : ∃ result after,
    (Analysis.module ⟨.module extendedStatements, ⟨1, 0, 4, 0, none⟩⟩).run (.ofSpecs []) =
      .ok (result, after) ∧
    Lasts after.known "xs" (overwriting 1) [extending 2] (reading 3) ∧
    ∃ dependent ∈ result.dependentsOf (overwriting 1), dependent.key = "3:0-3:6" := by
  have built : Graph.ofRoot ⟨.module extendedStatements, ⟨1, 0, 4, 0, none⟩⟩ =
      .ok (.ofStatements extendedStatements) := rfl
  rcases exists_module_dependents_of_lasts (.new (.ofSpecs []) true 10000) built with
    ⟨result, after, run, depends⟩
  have facts := holds_of_run
    (fun outcome : AnalysisResult × Analyzer => outcome.1.converged = true ∧
      (∀ statement ∈ extendedStatements, ∀ level ∈ Level.all,
        ∀ reference ∈ ((outcome.2.known statement).level level).toList,
          ':' ∉ reference.name.toList) ∧
      (∀ statement ∈ extendedStatements, ∀ other ∈ extendedStatements, ∀ level ∈ Level.all,
        ∀ level' ∈ Level.all, ∀ reference ∈ ((outcome.2.known statement).level level).toList,
        ∀ reference' ∈ ((outcome.2.known other).level level').toList, reference.name = "xs" →
          reference.key = reference'.key → statement.key = other.key) ∧
      (outcome.2.known (overwriting 1)).Refers .update "xs" ∧
      (outcome.2.known (extending 2)).Refers .use "xs" ∧
      ¬(outcome.2.known (extending 2)).Refers .definition "xs" ∧
      (outcome.2.known (reading 3)).Refers .use "xs") (by decide +kernel)
    ((run_module built _).symm.trans run)
  rcases facts with ⟨converged, plain, toldApart, isMutated, isReadOn, isKept, isRead⟩
  have onlyStatements : (Graph.ofStatements extendedStatements).reachableStatements =
      extendedStatements := rfl
  have lasts : Lasts after.known "xs" (overwriting 1) [extending 2] (reading 3) :=
    ⟨.inr ⟨isMutated, by simpa using fun _ => isReadOn⟩, by simpa using isKept, isRead⟩
  refine ⟨result, after, run, lasts, ?_⟩
  have reaches : (Graph.ofStatements extendedStatements).Reaches
      ([] ++ overwriting 1 :: [extending 2]) (reading 3) := ⟨[1], 1, [], .single 1, rfl⟩
  refine (depends converged).2 ?_ ?_ ?_ reaches lasts (by decide +kernel)
  · rintro reference (absent | ⟨statement, isReachable, level, isMember⟩)
    · exact absurd absent List.not_mem_nil
    · rw [onlyStatements] at isReachable
      exact plain statement isReachable level level.mem_all reference isMember
  · rw [onlyStatements]
    decide +kernel
  · intro statement isReachable other otherReachable level level' reference reference' isMember
      isMember'
    rw [onlyStatements] at isReachable otherReachable
    exact toldApart statement isReachable other otherReachable level level.mem_all level'
      level'.mem_all reference isMember reference' isMember'

/-- A program with distinct locations is made of some statements, one that binds or mutates a value,
others that do not bind it anew, and one that reads it and yet does not depend on the former. -/
def Misses (name : String) (before : List Node) (source : Node) (between : List Node)
    (target : Node) : Prop :=
  let code := before ++ source :: (between ++ [target])
  ((⟨.module code, ⟨1, 0, 9, 0, none⟩⟩ : Node).walk.map Node.key).Nodup ∧
  (Graph.ofStatements code).Reaches (before ++ source :: between) target ∧
  ∃ result after, (Analysis.module ⟨.module code, ⟨1, 0, 9, 0, none⟩⟩).run (.ofSpecs []) =
      .ok (result, after) ∧
    result.converged = true ∧
    ((after.known source).Refers .definition name ∨ (after.known source).Refers .update name) ∧
    (∀ statement ∈ between, ¬(after.known statement).Refers .definition name) ∧
    (after.known target).Refers .use name ∧ target.key ≠ source.key ∧
    ¬∃ dependent ∈ result.dependentsOf source, dependent.key = target.key

theorem misses_of_run {before between : List Node} {name : String} {source target : Node}
    (distinct : ((⟨.module (before ++ source :: (between ++ [target])), ⟨1, 0, 9, 0, none⟩⟩ :
      Node).walk.map Node.key).Nodup)
    (reaches : (Graph.ofStatements (before ++ source :: (between ++ [target]))).Reaches
      (before ++ source :: between) target)
    (check : (match (Analysis.graph (.ofStatements (before ++ source :: (between ++ [target])))
        .empty).run (.ofSpecs []) with
      | .error _ => false
      | .ok (result, after) => decide (result.converged = true ∧
          ((after.known source).Refers .definition name ∨
            (after.known source).Refers .update name) ∧
          (∀ statement ∈ between, ¬(after.known statement).Refers .definition name) ∧
          (after.known target).Refers .use name ∧ target.key ≠ source.key ∧
          target.key ∉ result.reachedKeys source.key)) = true) :
    Misses name before source between target := by
  have arises : (Analyzer.ofSpecs []).Arises := .new (.ofSpecs []) true 10000
  have built : Graph.ofRoot
      ⟨.module (before ++ source :: (between ++ [target])), ⟨1, 0, 9, 0, none⟩⟩ =
        .ok (.ofStatements (before ++ source :: (between ++ [target]))) := rfl
  rcases arises.exists_run built .empty with ⟨result, after, run, -, -⟩
  rw [run] at check
  rcases of_decide_eq_true check with
    ⟨converged, isHandedOn, isKept, isRead, differs, notReached⟩
  refine ⟨distinct, reaches, result, after, (run_module built _).trans run, converged, isHandedOn,
    isKept, isRead, differs, ?_⟩
  rw [AnalysisResult.exists_mem_dependentsOf, ← AnalysisResult.mem_reachedKeys]
  exact fun found => notReached found.1

/-- A reader does not depend on a mutation if another one overwrites a part of the value without
reading it. Nor does it depend on what an edge or a binding with the same key hides, where the paths
of files contain arrows or names contain colons. -/
theorem misses_overwritten_and_hidden :
    Misses "xs" [] (extending 1) [overwriting 2] (reading 3) ∧
    Misses "x"
      [inFile "1:0-1:5->p" (assigning 3 "a" (.name "c")), inFile "q" (assigning 2 "y" (.name "a"))]
      (assigning 1 "x" (.name "c")) [] (inFile "p:3:0-3:5->q" (assigning 2 "y" (.name "x"))) ∧
    Misses "x" [inFile "r" (assigning 1 "x:DEFINITION@p" (.name "c"))]
      (inFile "p:DEFINITION@r" (assigning 1 "x" (.name "c"))) [] (assigning 2 "y" (.name "x")) := by
  refine ⟨misses_of_run ?_ ?_ ?_, misses_of_run ?_ ?_ ?_, misses_of_run ?_ ?_ ?_⟩
  case refine_2 | refine_5 | refine_8 => exact ⟨[1], 1, [], .single 1, rfl⟩
  all_goals decide +kernel

end Analysis

end FlowAnalysis

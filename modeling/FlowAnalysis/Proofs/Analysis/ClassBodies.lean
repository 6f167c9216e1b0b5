import FlowAnalysis.Proofs.Analysis.DeclaredMutation
import FlowAnalysis.Proofs.Analysis.NamedScopes

/-!
# What class statements read

A class statement reads what its members read, each analyzed with what the analyzer has learned from
the members before it, and the names in its bases and decorators. Classes nest, and what is read at
any depth is read by the class around it. None of what the members, the bases or the decorators
update is updated by the class statement: it binds its name, and that is all it does to names.
-/

namespace FlowAnalysis

namespace Analysis

/-! ### Members in turn -/

/-- When the analysis of a class comes to a member, it has gone over the members before it. -/
def ComesTo (statement : Node) (before : Analyzer) (member : Node) (between : Analyzer) : Prop :=
  ∃ name bases body decorators earlier later found,
    statement.shape = .classDefinition name bases body decorators ∧
    body = earlier ++ member :: later ∧
    (memberReferences defUse statement earlier).run before = .ok (found, between)

/-- What the analysis finds a member of a class to read. A method reads what is free in its body,
its decorators and the defaults of its parameters. -/
inductive MemberReads (member : Node) (before : Analyzer) : Reference → Prop where
  | method {name : String} {params body decorators : List Node} {analysis : FunctionAnalysis}
      {after : Analyzer} {reference : Reference}
      (isMethod : member.shape = .definition name params body decorators)
      (run : (function member true).run before = .ok (analysis, after))
      (isUse : reference ∈ definitionUses member analysis.freeUses) :
      MemberReads member before reference
  | other {found : DefUse} {after : Analyzer} {reference : Reference}
      (noMethod : ∀ name params body decorators,
        member.shape ≠ .definition name params body decorators)
      (run : (defUse member .empty).run before = .ok (found, after))
      (isUse : reference ∈ found.uses.toList) : MemberReads member before reference

/-- What the analysis finds a class to read, attributed to the class. -/
inductive ClassReads (statement : Node) (before : Analyzer) : Reference → Prop where
  | header {name : String} {bases body decorators : List Node} {expression : Node}
      {reference : Reference}
      (isClass : statement.shape = .classDefinition name bases body decorators)
      (isHeader : expression ∈ bases ++ decorators)
      (isUse : reference ∈ nameUses expression statement) : ClassReads statement before reference
  | member {member : Node} {between : Analyzer} {reference : Reference}
      (comes : ComesTo statement before member between)
      (reads : MemberReads member between reference) :
      ClassReads statement before (reference.ownedBy statement)

/-- The analysis of a class comes to a class in it at some depth. -/
inductive ReachesClass (statement : Node) (before : Analyzer) : Node → Analyzer → Prop where
  | outermost : ReachesClass statement before statement before
  | inner {outer inner : Node} {between after : Analyzer} {name : String}
      {bases body decorators : List Node} (reaches : ReachesClass statement before outer between)
      (comes : ComesTo outer between inner after)
      (isClass : inner.shape = .classDefinition name bases body decorators)
      (unknown : after.cached? inner = none) : ReachesClass statement before inner after

variable {statement member : Node} {members earlier later : List Node}
  {before between after : Analyzer} {reference : Reference} {uses : List Reference}
  {methods : List FunctionSpec}

/-- What a member contributes to the references and the methods of its class. -/
def ofMember (member : Node) : Analysis (List Reference × List FunctionSpec) :=
  match member.shape with
  | .definition .. => do
      let analysis ← functionWith defUse member true
      pure (definitionUses member analysis.freeUses, [analysis.spec])
  | _ => do
      let found ← defUse member .empty
      pure (found.uses.toList, [])

theorem memberReferences_cons (member : Node) (rest : List Node) :
    memberReferences defUse statement (member :: rest) = (do
      let own ← ofMember member
      let others ← memberReferences defUse statement rest
      return ((own.1.map fun use => use.ownedBy statement) ++ others.1, own.2 ++ others.2)) := by
  rw [memberReferences, ofMember]
  split <;> simp only [*, bind_assoc, pure_bind]

theorem run_memberReferences_cons {rest : List Node}
    {own others : List Reference × List FunctionSpec}
    (run : (ofMember member).run before = .ok (own, between))
    (runRest : (memberReferences defUse statement rest).run between = .ok (others, after)) :
    (memberReferences defUse statement (member :: rest)).run before =
      .ok (((own.1.map fun use => use.ownedBy statement) ++ others.1, own.2 ++ others.2),
        after) := by
  rw [memberReferences_cons]
  exact (run_bind run).trans ((run_bind runRest).trans rfl)

theorem mem_ofMember_iff {own : List Reference × List FunctionSpec}
    (run : (ofMember member).run before = .ok (own, after)) :
    reference ∈ own.1 ↔ MemberReads member before reference := by
  rw [ofMember] at run
  split at run
  · next isMethod =>
      rcases exists_of_run_bind run with ⟨analysis, _, run, ⟨⟩⟩
      constructor
      · exact .method isMethod run
      · intro reads
        cases reads with
        | method _ run' isUse =>
            rw [function, run] at run'
            rcases run' with ⟨⟩
            exact isUse
        | other noMethod => exact absurd isMethod (noMethod _ _ _ _)
  · next noMethod =>
      rcases exists_of_run_bind run with ⟨found, _, run, ⟨⟩⟩
      constructor
      · exact .other noMethod run
      · intro reads
        cases reads with
        | method isMethod => exact absurd isMethod (noMethod _ _ _ _)
        | other _ run' isUse =>
            rw [run] at run'
            rcases run' with ⟨⟩
            exact isUse

/-- The references of a class come from its members in turn. -/
theorem mem_memberReferences_iff
    (run : (memberReferences defUse statement members).run before = .ok ((uses, methods), after)) :
    reference ∈ uses ↔ ∃ earlier member later found between read,
      members = earlier ++ member :: later ∧
      (memberReferences defUse statement earlier).run before = .ok (found, between) ∧
      MemberReads member between read ∧ reference = read.ownedBy statement := by
  induction members generalizing before uses methods with
  | nil =>
      rcases run with ⟨⟩
      simp
  | cons first rest ih =>
      rw [memberReferences_cons] at run
      rcases exists_of_run_bind run with ⟨own, middle, ran, run⟩
      rcases exists_of_run_bind run with ⟨others, _, runRest, ⟨⟩⟩
      rw [List.mem_append, ih runRest]
      constructor
      · rintro (isOwn | ⟨earlier, member, later, found, between, read, rfl, runEarlier, reads, rfl⟩)
        · rcases List.mem_map.1 isOwn with ⟨read, isRead, rfl⟩
          exact ⟨[], first, rest, _, before, read, rfl, rfl, (mem_ofMember_iff ran).1 isRead, rfl⟩
        · exact ⟨first :: earlier, member, later, _, between, read, rfl,
            run_memberReferences_cons ran runEarlier, reads, rfl⟩
      -- The first member is the one that reads, or it is among those before.
      · rintro ⟨_ | ⟨_, earlier⟩, member, later, found, between, read, split, runEarlier, reads,
          rfl⟩
        · rcases split with ⟨⟩
          rcases runEarlier with ⟨⟩
          exact .inl (List.mem_map.2 ⟨read, (mem_ofMember_iff ran).2 reads, rfl⟩)
        · rcases List.cons.inj split with ⟨rfl, rfl⟩
          rw [memberReferences_cons] at runEarlier
          rcases exists_of_run_bind runEarlier with ⟨own', middle', ran', runEarlier⟩
          rw [ran] at ran'
          rcases ran' with ⟨⟩
          rcases exists_of_run_bind runEarlier with ⟨found', _, runEarlier, ⟨⟩⟩
          exact .inr ⟨earlier, member, later, found', _, read, rfl, runEarlier, reads, rfl⟩

/-! ### The references of a class -/

theorem defUse_yields_ownedAt (statement : Node) (running : RefSet) :
    Yields (fun key defUse => defUse.OwnedAt key) (defUse statement running) fun found _ =>
      found.OwnedAt statement.key :=
  (defUse_yields_belongs (fun _ _ => trivial) (fun _ belongs => belongs.ownedAt)
    (fun _ owned => owned) statement (trivial : (fun _ => True) statement) running).mono
      fun _ _ found => found.2

theorem ComesTo.sound (comes : ComesTo statement before member between) (sound : before.Sound) :
    between.Sound := by
  rcases comes with ⟨_, _, _, _, earlier, _, found, -, -, run⟩
  have safe := memberReferences_yields (fun _ _ => trivial)
    (fun {other} _ running => (defUse_yields_ownedAt other running).safe) statement
    (fun _ _ => trivial : ∀ member ∈ earlier, (fun _ => True) member)
  exact Analyzer.Holds.of_yields sound safe run

theorem ReachesClass.sound (reaches : ReachesClass statement before member after)
    (sound : before.Sound) : after.Sound := by
  induction reaches with
  | outermost => exact sound
  | inner _ comes _ _ ih => exact comes.sound ih

/-- Members are read, not updated. -/
theorem MemberReads.level_eq_use (reads : MemberReads member before reference)
    (sound : before.Sound) : reference.level = .use := by
  cases reads with
  | method _ run isUse =>
      rw [freeUses_of_run_functionWith run] at isUse
      exact level_of_mem_definitionUses isUse
  | other _ run isUse =>
      rcases defUse_yields_ownedAt member .empty before sound with ⟨_, _, run', -, -, owned⟩
      rw [run] at run'
      rcases run' with ⟨⟩
      exact (owned .use reference isUse).1

theorem ClassReads.level_eq_use (reads : ClassReads statement before reference)
    (sound : before.Sound) : reference.level = .use := by
  cases reads with
  | header _ _ isUse => exact level_of_mem_nameUses isUse
  | member comes reads => exact reads.level_eq_use (comes.sound sound)

theorem ClassReads.owner_eq (reads : ClassReads statement before reference) :
    reference.owner = statement := by
  cases reads with
  | header _ _ isUse => exact (reads_of_mem_nameUses isUse).1
  | member => rfl

section

variable {name : String} {bases body decorators : List Node}
  (isClass : statement.shape = .classDefinition name bases body decorators)

include isClass

/-- A class refers to what it reads, and to its name. -/
theorem mem_ownReferences_iff_classReads {own : List Reference}
    (run : (ownReferences defUse statement).run before = .ok (own, after)) :
    reference ∈ own ↔ ClassReads statement before reference ∨
      reference = statementDefinition .classType name statement := by
  rw [ownReferences, isClass] at run
  rcases exists_of_run_bind run with ⟨⟨uses, methods⟩, middle, members, run⟩
  have ownEq : own = uses ++ ((bases ++ decorators).flatMap fun expression =>
      nameUses expression statement) ++ [statementDefinition .classType name statement] := by
    rcases exists_of_run_bind run with ⟨_, _, ⟨⟩, run⟩
    dsimp only at run
    split at run
    · rcases exists_of_run_bind run with ⟨_, _, -, ⟨⟩⟩
      rfl
    · rcases run with ⟨⟩
      rfl
  rw [ownEq, List.mem_append, List.mem_append, List.mem_singleton, List.mem_flatMap,
    mem_memberReferences_iff members]
  refine or_congr_left ⟨?_, ?_⟩
  · rintro (⟨earlier, member, later, found, between, read, bodyEq, run, reads, rfl⟩ |
      ⟨expression, isHeader, isUse⟩)
    · exact .member ⟨_, _, _, _, earlier, later, found, isClass, bodyEq, run⟩ reads
    · exact .header isClass isHeader isUse
  · intro reads
    cases reads with
    | header isClass' isHeader isUse =>
        rcases isClass.symm.trans isClass' with ⟨⟩
        exact .inr ⟨_, isHeader, isUse⟩
    | member comes reads =>
        rcases comes with ⟨_, _, _, _, earlier, later, found, isClass', bodyEq, run⟩
        rcases isClass.symm.trans isClass' with ⟨⟩
        exact .inl ⟨earlier, _, later, found, _, _, bodyEq, run, reads, rfl⟩

/-- The uses of a class are what it reads, and it updates nothing. -/
theorem exists_run_defUse_class (unknown : before.cached? statement = none) (sound : before.Sound)
    (running : RefSet) :
    ∃ found after, (defUse statement running).run before = .ok (found, after) ∧
      found.updates.toList = [] ∧
      (∀ use ∈ found.uses.toList, ClassReads statement before use) ∧
      ∀ reference, ClassReads statement before reference →
        ∃ use ∈ found.uses.toList, use.key = reference.key := by
  rcases (safe_defUse statement running).exists_run before with ⟨found, after, run⟩
  refine ⟨found, after, run, ?_⟩
  rcases eq_ofReferences_of_run_defUse unknown run with ⟨own, between, refers, rfl⟩
  have opens : opensNamedScope statement = true := by rw [opensNamedScope, isClass]
  rw [if_pos opens, List.append_nil]
  have given : ∀ {level reference}, reference ∈
      ((DefUse.ofReferences (own ++ declaredDefinitions statement)).level level).toList →
      reference.level = level ∧ (ClassReads statement before reference ∨
        reference.level = .definition) := by
    intro level reference isMember
    rcases DefUse.mem_of_mem_ofReferences isMember with ⟨isGiven, atLevel⟩
    refine ⟨atLevel, ?_⟩
    rcases List.mem_append.1 isGiven with isOwn | isDeclared
    · rcases (mem_ownReferences_iff_classReads isClass refers).1 isOwn with reads | rfl
      · exact .inl reads
      · exact .inr rfl
    · exact .inr (level_of_mem_declaredDefinitions isDeclared)
  refine ⟨List.eq_nil_iff_forall_not_mem.2 fun reference isUpdate => ?_, fun use isUse => ?_,
    fun reference reads => ?_⟩
  · have isMember : reference ∈ ((DefUse.ofReferences
        (own ++ declaredDefinitions statement)).level .update).toList := isUpdate
    rcases given isMember with ⟨isUpdateLevel, reads | isDefinitionLevel⟩
    · cases isUpdateLevel.symm.trans (reads.level_eq_use sound)
    · cases isUpdateLevel.symm.trans isDefinitionLevel
  · have isMember : use ∈ ((DefUse.ofReferences
        (own ++ declaredDefinitions statement)).level .use).toList := isUse
    rcases given isMember with ⟨isUseLevel, reads | isDefinitionLevel⟩
    · exact reads
    · cases isUseLevel.symm.trans isDefinitionLevel
  · have isKey := DefUse.key_mem_ofReferences
      (List.mem_append_left (declaredDefinitions statement)
        ((mem_ownReferences_iff_classReads isClass refers).2 (.inl reads)))
    rw [reads.level_eq_use sound] at isKey
    exact KeyedSet.mem_keys.1 isKey

/-- A class statement updates nothing. It uses what its analysis comes to in it, and what a class in
it reads at any depth, it uses too. -/
theorem exists_run_defUse_reads_within (unknown : before.cached? statement = none)
    (sound : before.Sound) (running : RefSet) :
    ∃ found after, (defUse statement running).run before = .ok (found, after) ∧
      found.updates.toList = [] ∧
      (∀ use ∈ found.uses.toList, use.owner = statement ∧ ClassReads statement before use) ∧
      ∀ inner between reference, ReachesClass statement before inner between →
        ClassReads inner between reference →
          ∃ use ∈ found.uses.toList, use.key = reference.key := by
  rcases exists_run_defUse_class isClass unknown sound running with
    ⟨found, after, run, noUpdates, onlyReads, allReads⟩
  refine ⟨found, after, run, noUpdates, fun use isUse =>
    ⟨(onlyReads use isUse).owner_eq, onlyReads use isUse⟩, ?_⟩
  intro inner between reference reaches reads
  -- What a class reads is in its uses, and these the class around it reads from it.
  induction reaches generalizing reference with
  | outermost => exact allReads reference reads
  | inner reaches comes isInnerClass innerUnknown ih =>
      rcases exists_run_defUse_class isInnerClass innerUnknown (comes.sound (reaches.sound sound))
        .empty with ⟨_, _, innerRun, -, -, innerReads⟩
      rcases innerReads reference reads with ⟨innerUse, isInnerUse, sameKey⟩
      rcases ih _ (.member comes (.other (by simp [isInnerClass]) innerRun isInnerUse)) with
        ⟨use, isUse, useKey⟩
      exact ⟨use, isUse, useKey.trans sameKey⟩

end

/-! ### Calls in classes -/

/-- A call `f(x)`. -/
def innerCall : Node :=
  onLine 3 4 8 (.call (onLine 3 4 5 (.name "f"))
    [⟨onLine 3 6 7 (.name "x"), none, false, false⟩])

/-- A class in which the call is the only statement. -/
def innerClass : Node :=
  ⟨.classDefinition "D" [] [innerCall] [], ⟨2, 2, 3, 8, none⟩⟩

/-- A class with the class in it. -/
def outerClass : Node :=
  ⟨.classDefinition "C" [] [innerClass] [], ⟨1, 0, 3, 8, none⟩⟩

/-- The outer class reads the argument of the call, which the call updates. -/
theorem reads_outerClass : ∃ found after,
    (defUse outerClass .empty).run (.ofSpecs []) = .ok (found, after) ∧
      found.updates.toList = [] ∧ ∃ use ∈ found.uses.toList, use.key = "x:USE@3:6-3:7" := by
  rcases exists_run_defUse_reads_within (rfl : outerClass.shape = .classDefinition "C" [] _ [])
    (rfl : (Analyzer.ofSpecs []).cached? outerClass = none)
    (Analyzer.Arises.new (.ofSpecs []) true 10000).sound .empty with
    ⟨found, after, run, noUpdates, -, readsWithin⟩
  refine ⟨found, after, run, noUpdates, ?_⟩
  have comesToInner : ComesTo outerClass (.ofSpecs []) innerClass (.ofSpecs []) :=
    ⟨_, _, _, _, [], [], _, rfl, rfl, rfl⟩
  have comesToCall : ComesTo innerClass (.ofSpecs []) innerCall (.ofSpecs []) :=
    ⟨_, _, _, _, [], [], _, rfl, rfl, rfl⟩
  rcases (safe_defUse innerCall .empty).exists_run (.ofSpecs []) with ⟨called, last, runCall⟩
  rcases holds_of_run (fun outcome : DefUse × Analyzer =>
    ∃ use ∈ outcome.1.uses.toList, use.key = "x:USE@3:6-3:7") (by decide +kernel) runCall with
    ⟨read, isRead, readKey⟩
  have reads : ClassReads innerClass (.ofSpecs []) (read.ownedBy innerClass) :=
    .member comesToCall (.other (by simp [innerCall, onLine]) runCall isRead)
  rcases readsWithin innerClass _ _ (.inner .outermost comesToInner rfl rfl) reads with
    ⟨use, isUse, sameKey⟩
  exact ⟨use, isUse, sameKey.trans readKey⟩

def decoratorArguments : List (Argument Node) :=
  [⟨onLine 1 3 4 (.name "y"), none, false, false⟩]

def baseArguments : List (Argument Node) :=
  [⟨onLine 2 10 11 (.name "z"), none, false, false⟩]

/-- A class with a decorator `g(y)`, a base `h(z)` and a statement `f(x)`. -/
def callingClass : Node :=
  ⟨.classDefinition "C" [onLine 2 8 12 (.call (onLine 2 8 9 (.name "h")) baseArguments)]
    [innerCall] [onLine 1 1 5 (.call (onLine 1 1 2 (.name "g")) decoratorArguments)],
    ⟨1, 0, 3, 8, none⟩⟩

/-- All three calls update what they are passed, but the class updates nothing. -/
theorem not_refers_update_callingClass : ∃ found after called last,
    (defUse callingClass .empty).run (.ofSpecs []) = .ok (found, after) ∧
      (defUse innerCall .empty).run (.ofSpecs []) = .ok (called, last) ∧
      called.Refers .update "x" ∧
      "y" ∈ mutatedVariables (.ofSpecs []) .empty (onLine 1 1 2 (.name "g")) decoratorArguments ∧
      "z" ∈ mutatedVariables (.ofSpecs []) .empty (onLine 2 8 9 (.name "h")) baseArguments ∧
      ∀ id ∈ ["x", "y", "z"], ¬found.Refers .update id := by
  rcases (safe_defUse callingClass .empty).exists_run (.ofSpecs []) with ⟨found, after, run⟩
  rcases (safe_defUse innerCall .empty).exists_run (.ofSpecs []) with ⟨called, last, runCall⟩
  refine ⟨found, after, called, last, run, runCall, ?_, by decide +kernel, by decide +kernel, ?_⟩
  · exact holds_of_run (fun outcome : DefUse × Analyzer => outcome.1.Refers .update "x")
      (by decide +kernel) runCall
  · exact holds_of_run (fun outcome : DefUse × Analyzer =>
      ∀ id ∈ ["x", "y", "z"], ¬outcome.1.Refers .update id) (by decide +kernel) run

end Analysis

end FlowAnalysis

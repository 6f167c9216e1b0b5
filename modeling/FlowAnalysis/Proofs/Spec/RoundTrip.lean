import FlowAnalysis.CommandLine.Run
import FlowAnalysis.Proofs.Analysis.Changes
import FlowAnalysis.Proofs.Spec.Document

/-!
# Round trips of specification documents

A document is read, written and read again without change, unless what is written nests too deep to
be read. What the command for specifications prints never does, whatever parser finds the statements
of its program.
-/

namespace FlowAnalysis

/-! ### Printed specifications -/

/-- The document of a module with functions alone. -/
def Specs.ofFunctions (name : String) (functions : List FunctionSpec) : Specs :=
  [(name, { functions, types := [], modules := [] })]

namespace FunctionSpec

theorem depth_texts_le (texts : List String) : (Json.array (texts.map .string)).depth ≤ 1 := by
  rw [Json.depth, Nat.add_comm, Nat.add_le_add_iff_right, Json.depthItems_le_iff,
    List.forall_mem_map]
  exact fun text _ => Nat.le_refl _

theorem depth_toJson_le (spec : FunctionSpec) : spec.toJson.depth ≤ 2 := by
  have updates : (Json.array (spec.updates.map ParamRef.toJson)).depth ≤ 1 := by
    rw [Json.depth, Nat.add_comm, Nat.add_le_add_iff_right, Json.depthItems_le_iff,
      List.forall_mem_map]
    intro parameter _
    cases parameter <;> exact Nat.le_refl _
  rw [toJson, Json.depth, Nat.add_comm, Nat.add_le_add_iff_right, Json.depthMembers_le_iff]
  intro entry isMember
  simp only [List.mem_append, List.mem_cons, List.not_mem_nil, or_false] at isMember
  rcases isMember with ((rfl | rfl) | isRead) | isReturn
  · exact Nat.zero_le _
  · exact updates
  · split at isRead
    · cases isRead
    · rcases List.mem_singleton.1 isRead with rfl
      exact depth_texts_le spec.reads
  · split at isReturn
    · rcases List.mem_singleton.1 isReturn with rfl
      exact Nat.zero_le _
    · cases isReturn

end FunctionSpec

namespace Specs

theorem depth_ofFunctions_le (name : String) (functions : List FunctionSpec) :
    (toJson (ofFunctions name functions)).depth ≤ 5 := by
  have listed : Json.depth.depthItems (functions.map FunctionSpec.toJson) ≤ 2 := by
    rw [Json.depthItems_le_iff, List.forall_mem_map]
    exact fun function _ => function.depth_toJson_le
  simp only [toJson, ofFunctions, ModuleSpec.toJson, ModuleSpec.toJson.submodulesToJson,
    List.map_cons, List.map_nil, Json.depth, Json.depth.depthMembers]
  omega

theorem wellFormed_ofFunctions {name : String} {functions : List FunctionSpec}
    (fit : ∀ function ∈ functions, function.Fits) : (ofFunctions name functions).WellFormed := by
  refine ⟨by simp [ofFunctions, Dictionary.keys], fun entry isModule => ?_⟩
  rcases List.mem_singleton.1 isModule with rfl
  exact .intro fit List.nodup_nil (by simp) List.nodup_nil (by simp)

end Specs

/-- The specifications of the functions of a program, in the order of the program. -/
def Report.functionSpecs (program : Node) : Analysis (List FunctionSpec) := do
  let _ ← Analysis.module program
  program.body.filterMapM fun statement =>
    match statement.shape with
    | .definition name .. => some <$> functionSpec name statement
    | _ => pure none

theorem Report.exists_run_functionSpecs {name : String} {program : Node}
    {analyzer after : Analyzer} {lines : List String}
    (run : (specs name program).run analyzer = .ok (lines, after)) :
    ∃ functions, (functionSpecs program).run analyzer = .ok (functions, after) ∧
      lines = [(Specs.toJson (.ofFunctions name functions)).pretty] := by
  rw [specs] at run
  rcases Analysis.exists_of_run_bind run with ⟨_, _, analyzed, run⟩
  rcases Analysis.exists_of_run_bind run with ⟨functions, _, found, ⟨⟩⟩
  exact ⟨functions, (Analysis.run_bind analyzed).trans found, rfl⟩

/-- The specifications that a command finds for the functions of its program. -/
def CommandLine.functionSpecs (statements? : Python.StatementParser) (files : Files)
    (invocation : Invocation) : Except CommandFailure (List FunctionSpec) := do
  let settings ← loadSettings files invocation.options
  let program ← loadProgram statements? files invocation.file
  let analyzer ← (Analyzer.ofSettings settings files).mapError .analysis
  ((Report.functionSpecs program).run' analyzer).mapError .analysis

theorem exists_of_bind_eq_ok {Failure First Second : Type} {computation : Except Failure First}
    {next : First → Except Failure Second} {result : Second}
    (computes : computation >>= next = .ok result) :
    ∃ first, computation = .ok first ∧ next first = .ok result := by
  cases computation with
  | error failure => cases computes
  | ok first => exact ⟨first, rfl, computes⟩

theorem eq_ok_of_mapError {Failure Failure' Result : Type} {computation : Except Failure Result}
    {change : Failure → Failure'} {result : Result}
    (computes : computation.mapError change = .ok result) : computation = .ok result := by
  cases computation with
  | error failure => cases computes
  | ok found =>
      cases computes
      rfl

theorem Analysis.exists_run_of_run' {Result : Type} {step : Analysis Result} {analyzer : Analyzer}
    {result : Result} (run : step.run' analyzer = .ok result) :
    ∃ after, step.run analyzer = .ok (result, after) := by
  have mapped : step.run' analyzer = Prod.fst <$> step.run analyzer := rfl
  rw [mapped, ← bind_pure_comp] at run
  rcases exists_of_bind_eq_ok run with ⟨⟨_, after⟩, ran, ⟨⟩⟩
  exact ⟨after, ran⟩

/-- What is printed is a document of one module with the functions found. -/
theorem CommandLine.exists_functionSpecs_of_run {statements? : Python.StatementParser}
    {files : Files} {arguments : List String} {invocation : Invocation} {printed : String}
    (isInvocation : Invocation.ofArguments? arguments = some invocation)
    (isSpecs : invocation.command = .specs)
    (run : runWith statements? files arguments = .ok printed) :
    ∃ name functions, functionSpecs statements? files invocation = .ok functions ∧
      printed = (Specs.toJson (.ofFunctions name functions)).pretty ++ "\n" := by
  rw [CommandLine.runWith, isInvocation] at run
  simp only at run
  rcases exists_of_bind_eq_ok run with ⟨settings, isSettings, run⟩
  rcases exists_of_bind_eq_ok run with ⟨program, isProgram, run⟩
  rcases exists_of_bind_eq_ok run with ⟨lines, reported, ⟨⟩⟩
  have reported := eq_ok_of_mapError reported
  rw [report, isSpecs] at reported
  rcases exists_of_bind_eq_ok reported with ⟨analyzer, isAnalyzer, ran⟩
  rcases Analysis.exists_run_of_run' ran with ⟨after, ran⟩
  rcases Report.exists_run_functionSpecs ran with ⟨functions, found, rfl⟩
  have joined : ∀ text : String, String.join ([text].map fun line => line ++ "\n") = text ++ "\n" := by
    simp [String.join]
  refine ⟨_, functions, ?_, joined _⟩
  have mapped : (Report.functionSpecs program).run' analyzer =
      Prod.fst <$> (Report.functionSpecs program).run analyzer := rfl
  rw [functionSpecs, isSettings, isProgram]
  change (Analyzer.ofSettings settings files).mapError CommandFailure.analysis >>=
    (fun analyzer => ((Report.functionSpecs program).run' analyzer).mapError .analysis) = _
  rw [isAnalyzer]
  change ((Report.functionSpecs program).run' analyzer).mapError CommandFailure.analysis = _
  rw [mapped, found]
  rfl

namespace Specs

/-! ### Documents -/

/-- The document of some specifications is read as these specifications if it does not nest too
deep, and else it is refused; so what is read from a document is read again from what is written for
it. What the command for specifications prints is read as a module with the functions found. -/
theorem parse_roundTrip :
    (∀ {specs : Specs}, specs.WellFormed → ∀ origin : String,
      parse origin specs.toJson.compact =
          (if specs.toJson.depth ≤ Json.nestingLimit then .ok specs else .error (.specFormat origin)) ∧
        ∀ blanks : String, Json.AllBlank blanks.toList →
          parse origin (specs.toJson.pretty ++ blanks) =
            if specs.toJson.depth ≤ Json.nestingLimit then .ok specs
            else .error (.specFormat origin)) ∧
    (∀ {origin document : String} {specs : Specs}, parse origin document = .ok specs →
      specs.WellFormed ∧ (specs.toJson.depth ≤ Json.nestingLimit →
        parse origin specs.toJson.compact = .ok specs)) ∧
    ∀ {statements? : Python.StatementParser} {files : Files} {arguments : List String}
      {invocation : CommandLine.Invocation} {printed : String},
      CommandLine.Invocation.ofArguments? arguments = some invocation →
      invocation.command = .specs →
      CommandLine.runWith statements? files arguments = .ok printed →
        ∃ name functions,
          CommandLine.functionSpecs statements? files invocation = .ok functions ∧
          printed = (toJson (ofFunctions name functions)).pretty ++ "\n" ∧
          ((∀ function ∈ functions, function.Fits) →
            ∀ origin, parse origin printed = .ok (ofFunctions name functions)) := by
  refine ⟨parse_text, ?again, ?printed⟩
  case again =>
    intro origin document specs reads
    have wellFormed := wellFormed_of_parse reads
    refine ⟨wellFormed, fun shallow => ?_⟩
    rw [(parse_text wellFormed origin).1, if_pos shallow]
  case printed =>
    intro statements? files arguments invocation printed isInvocation isSpecs run
    rcases CommandLine.exists_functionSpecs_of_run isInvocation isSpecs run with
      ⟨name, functions, found, rfl⟩
    refine ⟨name, functions, found, rfl, fun fit origin => ?_⟩
    have allBlank : Json.AllBlank "\n".toList := by simp [Json.AllBlank, Json.isBlank]
    have shallow : (toJson (ofFunctions name functions)).depth ≤ Json.nestingLimit :=
      Nat.le_trans (depth_ofFunctions_le name functions) (by decide)
    rw [(parse_text (wellFormed_ofFunctions fit) origin).2 _ allBlank, if_pos shallow]

/-- Specifications of functions by name and by record, of a type, and of a module in a module. -/
def sampleSpecs : Specs :=
  [("m", {
    functions := [{ name := "f", updates := [.position 1, .name "2"], reads := ["x"] }]
    types := [("T", { methods := [{ name := "copy", returns := some "T" }] })]
    modules := [("n", .empty)] })]

theorem wellFormed_sampleSpecs : sampleSpecs.WellFormed := by
  have empty : ModuleSpec.empty.WellFormed :=
    .intro (by simp) List.nodup_nil (by simp) List.nodup_nil (by simp)
  refine ⟨by simp [sampleSpecs, Dictionary.keys], ?_⟩
  simp only [sampleSpecs, List.forall_mem_singleton]
  refine .intro ?_ (by simp [Dictionary.keys]) ?_ (by simp [Dictionary.keys]) (by simpa using empty)
  · simp [FunctionSpec.Fits, ParamRef.Fits, ParamRef.largestPosition]
  · simp [FunctionSpec.Fits]

/-- The definition of a function that extends its parameter. -/
def extendingDefinition : Python.Statement :=
  let extension : Python.Statement :=
    ⟨.augment "+" ⟨.name "a" .store, ⟨12, 13⟩⟩ ⟨.name "c" .load, ⟨17, 18⟩⟩, ⟨12, 18⟩⟩
  ⟨.definition "f" [⟨"a", .single, none, none, ⟨6, 7⟩⟩] none [extension] [], ⟨0, 18⟩⟩

def extendingFiles : Files :=
  [("m.py", "def f(a):\n  a += c\n")]

/-- A parser that finds this definition in every text. -/
def findsExtending : Python.StatementParser :=
  fun _ => some [extendingDefinition]

/-- A function that extends its parameter mutates it, and that is what is read back. -/
theorem parse_roundTrip_sampleSpecs :
    parse "s.json" sampleSpecs.toJson.compact = .ok sampleSpecs ∧
    (∃ specs, parse "t.json" "\x7b\"m\": \x7b\"functions\": [\"f\"]\x7d\x7d" = .ok specs ∧
      parse "t.json" specs.toJson.compact = .ok specs) ∧
    ∃ name printed,
      CommandLine.runWith findsExtending extendingFiles ["spec", "m.py"] = .ok printed ∧
        parse "u.json" printed =
          .ok (ofFunctions name [{ name := "f", updates := [.position 1] }]) := by
  refine ⟨?value, ?document, ?printed⟩
  case value =>
    have shallow : sampleSpecs.toJson.depth ≤ Json.nestingLimit := by decide +kernel
    rw [(parse_roundTrip.1 wellFormed_sampleSpecs "s.json").1, if_pos shallow]
  case document =>
    have check : (match parse "t.json" "\x7b\"m\": \x7b\"functions\": [\"f\"]\x7d\x7d" with
        | .error _ => false
        | .ok specs => decide (specs.toJson.depth ≤ Json.nestingLimit)) = true := by
      decide +kernel
    split at check
    case h_1 => cases check
    case h_2 specs reads =>
      exact ⟨specs, reads, (parse_roundTrip.2.1 reads).2 (of_decide_eq_true check)⟩
  case printed =>
    have isInvocation : CommandLine.Invocation.ofArguments? ["spec", "m.py"] =
        some ⟨.specs, "m.py", { specs := [], config := none }⟩ := by decide +kernel
    have finds : CommandLine.functionSpecs findsExtending extendingFiles
        ⟨.specs, "m.py", { specs := [], config := none }⟩ =
          .ok [{ name := "f", updates := [.position 1] }] := by decide +kernel
    have succeeds : (CommandLine.runWith findsExtending extendingFiles ["spec", "m.py"]).isOk = true := by
      decide +kernel
    cases run : CommandLine.runWith findsExtending extendingFiles ["spec", "m.py"] with
    | error failure => simp [run, Except.isOk, Except.toBool] at succeeds
    | ok printed =>
        rcases parse_roundTrip.2.2 isInvocation rfl run with ⟨name, functions, found, _, reads⟩
        rcases finds.symm.trans found with ⟨⟩
        refine ⟨name, printed, rfl, reads ?_ "u.json"⟩
        simp [FunctionSpec.Fits, ParamRef.Fits, ParamRef.largestPosition]

/-! ### Documents that nest too deep -/

/-- A module in modules with a function that updates nothing. -/
def nestedModule : Nat → ModuleSpec
  | 0 => { functions := [{ name := "f" }], types := [], modules := [] }
  | outer + 1 => { functions := [], types := [], modules := [("m", nestedModule outer)] }

/-- The shortest document of such a module: the function by its name alone, and nothing else. -/
def nestedRecord : Nat → Json
  | 0 => .object [("functions", .array [.string "f"])]
  | outer + 1 => .object [("modules", .object [("m", nestedRecord outer)])]

theorem wellFormed_nestedModule (outer : Nat) : (nestedModule outer).WellFormed := by
  induction outer with
  | zero =>
      refine .intro ?_ List.nodup_nil (by simp) List.nodup_nil (by simp)
      simp [FunctionSpec.Fits]
  | succ outer ih =>
      refine .intro (by simp) List.nodup_nil (by simp) (by simp [Dictionary.keys]) ?_
      simpa using ih

theorem allNumbers_nestedRecord (outer : Nat) :
    (nestedRecord outer).AllNumbers Json.IsWord := by
  induction outer with
  | zero => simp [nestedRecord]
  | succ outer ih => simpa [nestedRecord] using ih

/-- Every member of the document of a nested module counts. -/
theorem asked_nestedRecord (depth outer : Nat) :
    Json.Asked (ModuleSpec.scheme depth) (nestedRecord outer) := by
  induction outer generalizing depth with
  | zero =>
      cases depth with
      | zero => exact .any _
      | succ depth =>
          refine .object ?_ ?_ <;> simp only [List.forall_mem_singleton]
          · rfl
          · rintro _ ⟨⟩
            exact .any _
  | succ outer ih =>
      cases depth with
      | zero => exact .any _
      | succ depth =>
          refine .object ?_ ?_ <;> simp only [List.forall_mem_singleton]
          · rfl
          · rintro _ ⟨⟩
            apply Json.Asked.entries
            simpa using ih depth

theorem lt_depth_nestedRecord (outer : Nat) : outer < (nestedRecord outer).depth := by
  induction outer with
  | zero => decide
  | succ outer ih =>
      simp only [nestedRecord, Json.depth, Json.depth.depthMembers]
      omega

theorem ofJsonWithin?_nestedRecord {outer depth : Nat} (enough : outer < depth) :
    ModuleSpec.ofJsonWithin? depth (nestedRecord outer) = some (nestedModule outer) := by
  induction outer generalizing depth with
  | zero =>
      cases depth with
      | zero => omega
      | succ depth => rfl
  | succ outer ih =>
      cases depth with
      | zero => omega
      | succ depth =>
          have inner := ih (Nat.lt_of_succ_lt_succ enough)
          have submodules : Json.dictionary? (ModuleSpec.ofJsonWithin? depth)
              (.object [("m", nestedRecord outer)]) = some [("m", nestedModule outer)] := by
            simp [Json.dictionary?, Json.members?, inner, Dictionary.ofEntries, Dictionary.extend,
              Dictionary.insert]
          have noTypes : Json.dictionary? TypeSpec.ofJson? (.object []) = some [] := rfl
          simp [nestedRecord, nestedModule, ModuleSpec.ofJsonWithin?, Json.record?, Json.optional?,
            Json.listOf?, Json.items?, noTypes, submodules]

/-- A module that nests too deep in others is not read back, even if a shorter document of it is
read. -/
theorem refuses_nestedModule :
    Specs.WellFormed [("m", nestedModule 62)] ∧
      parse "deep" (toJson [("m", nestedModule 62)]).compact = .error (.specFormat "deep") ∧
      parse "deep" (Json.object [("m", nestedRecord 62)]).compact =
        .ok [("m", nestedModule 62)] := by
  have wellFormed : Specs.WellFormed [("m", nestedModule 62)] := by
    refine ⟨by simp [Dictionary.keys], ?_⟩
    simpa using wellFormed_nestedModule 62
  refine ⟨wellFormed, ?_, ?_⟩
  · rw [(parse_text wellFormed "deep").1, if_neg (by decide +kernel)]
  · have exact : (Json.object [("m", nestedRecord 62)]).AllNumbers Json.IsWord := by
      apply Json.AllNumbers.object
      simpa using allNumbers_nestedRecord 62
    have asked : Json.Asked scheme (.object [("m", nestedRecord 62)]) := by
      apply Json.Asked.entries
      simpa using asked_nestedRecord Json.nestingLimit 62
    have isModule : ModuleSpec.ofJson? (nestedRecord 62) = some (nestedModule 62) :=
      ofJsonWithin?_nestedRecord (lt_depth_nestedRecord 62)
    have reads : ofJson? (.object [("m", nestedRecord 62)]) = some [("m", nestedModule 62)] := by
      simp [ofJson?, Json.dictionary?, Json.members?, isModule, Dictionary.ofEntries,
        Dictionary.extend, Dictionary.insert]
    have isText := Json.parseFor?_compact (exact.mono fun _ isWord => isWord.readsBack) asked
    rw [parse, parse?, isText, if_pos (by decide +kernel), Option.bind_some, reads]

end Specs

end FlowAnalysis

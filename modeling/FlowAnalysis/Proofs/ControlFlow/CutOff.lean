import FlowAnalysis.Proofs.ControlFlow.Access
import FlowAnalysis.Proofs.ControlFlow.LexicalDependence
import FlowAnalysis.Proofs.ControlFlow.Order

/-!
# Jumps cut off the rest of their list

A jump is the last statement of its block, and control does not come to what stands behind it in its
list. `Command.cuts` lists the jumps of a command with what they cut off, and `Command.marked` marks
the nodes of a command to which no execution comes: as the paths of a graph meet what executions
meet, nodes that are placed only once stand in unreachable blocks if they are cut off.
-/

namespace FlowAnalysis

namespace Command

open Executions

/-- The statement of a jump. -/
def jumpStatement? : Command → Option Node
  | .jump _ statement => some statement
  | _ => none

mutual

/-- The jumps in a command, each with the nodes that are placed by what stands behind it in its
list. -/
def cuts : Command → List (Node × List Node)
  | .place _ => []
  | .jump .. => []
  | .branch _ body rest => cutsOfAll body ++ cutsOfAlternatives rest
  | .loop _ _ _ body orelse => cutsOfAll body ++ cutsOfAll orelse
  | .bracket _ body => cutsOfAll body
  | .guarded body handlers orelse finalbody =>
      cutsOfAll body ++ (cutsOfHandlers handlers ++ (cutsOfAll orelse ++ cutsOfAll finalbody))

def cutsOfAll : List Command → List (Node × List Node)
  | [] => []
  | command :: rest =>
      command.jumpStatement?.toList.map (·, (nestingAll rest).labels) ++
        (cuts command ++ cutsOfAll rest)

def cutsOfAlternatives : Alternatives → List (Node × List Node)
  | .none => []
  | .further _ body rest => cutsOfAll body ++ cutsOfAlternatives rest
  | .otherwise _ body => cutsOfAll body

def cutsOfHandlers : List (List Command) → List (Node × List Node)
  | [] => []
  | handler :: rest => cutsOfAll handler ++ cutsOfHandlers rest

end

mutual

/-- The nodes that a command places, each with whether an execution may come to it, if one may come
to the command. -/
def marked (live : Bool) : Command → List (Node × Bool)
  | .place statement => [(statement, live)]
  | .jump _ statement => [(statement, live)]
  | .branch cond body rest => (cond, live) :: (markedAll live body ++ markedAlternatives live rest)
  | .loop _ head _ body orelse => (head, live) :: (markedAll live body ++ markedAll live orelse)
  | .bracket bindings body => bindings.map (·, live) ++ markedAll live body
  | .guarded body handlers orelse finalbody =>
      markedAll live body ++ (markedHandlers live handlers ++
        (markedAll live orelse ++ markedAll live finalbody))

def markedAll (live : Bool) : List Command → List (Node × Bool)
  | [] => []
  | command :: rest =>
      marked live command ++ markedAll (live && command.jumpStatement?.isNone) rest

def markedAlternatives (live : Bool) : Alternatives → List (Node × Bool)
  | .none => []
  | .further cond body rest => (cond, live) :: (markedAll live body ++ markedAlternatives live rest)
  | .otherwise header body => (header, live) :: markedAll live body

def markedHandlers (live : Bool) : List (List Command) → List (Node × Bool)
  | [] => []
  | handler :: rest => markedAll live handler ++ markedHandlers live rest

end

mutual

/-- The marked nodes are those that are placed. -/
theorem map_marked : (command : Command) → (live : Bool) →
    (marked live command).map Prod.fst = (nesting command).labels
  | .place statement, live => rfl
  | .jump _ statement, live => rfl
  | .branch cond body rest, live => by
      simp [marked, nesting, Forest.labels, map_markedAll body, map_markedAlternatives rest]
  | .loop _ head bound body orelse, live => by
      simp [marked, nesting, Forest.labels, map_markedAll body, map_markedAll orelse]
  | .bracket bindings body, live => by
      simp [marked, nesting, map_markedAll body, Function.comp_def]
  | .guarded body handlers orelse finalbody, live => by
      simp [marked, nesting, map_markedAll body, map_markedHandlers handlers,
        map_markedAll orelse, map_markedAll finalbody]

theorem map_markedAll : (commands : List Command) → (live : Bool) →
    (markedAll live commands).map Prod.fst = (nestingAll commands).labels
  | [], live => rfl
  | command :: rest, live => by
      simp [markedAll, nestingAll, map_marked command, map_markedAll rest]

theorem map_markedAlternatives : (rest : Alternatives) → (live : Bool) →
    (markedAlternatives live rest).map Prod.fst = (nestingAlternatives rest).labels
  | .none, live => rfl
  | .further cond body rest, live => by
      simp [markedAlternatives, nestingAlternatives, Forest.labels, map_markedAll body,
        map_markedAlternatives rest]
  | .otherwise header body, live => by
      simp [markedAlternatives, nestingAlternatives, Forest.labels, map_markedAll body]

theorem map_markedHandlers : (handlers : List (List Command)) → (live : Bool) →
    (markedHandlers live handlers).map Prod.fst = (nestingHandlers handlers).labels
  | [], live => rfl
  | handler :: rest, live => by
      simp [markedHandlers, nestingHandlers, map_markedAll handler, map_markedHandlers rest]

end

mutual

/-- No execution comes to a part of what it does not come to. -/
theorem marked_false : (command : Command) →
    marked false command = (nesting command).labels.map (·, false)
  | .place statement => rfl
  | .jump _ statement => rfl
  | .branch cond body rest => by
      simp [marked, nesting, Forest.labels, markedAll_false body, markedAlternatives_false rest]
  | .loop _ head bound body orelse => by
      simp [marked, nesting, Forest.labels, markedAll_false body, markedAll_false orelse]
  | .bracket bindings body => by
      simp [marked, nesting, markedAll_false body]
  | .guarded body handlers orelse finalbody => by
      simp [marked, nesting, markedAll_false body, markedHandlers_false handlers,
        markedAll_false orelse, markedAll_false finalbody]

theorem markedAll_false : (commands : List Command) →
    markedAll false commands = (nestingAll commands).labels.map (·, false)
  | [] => rfl
  | command :: rest => by
      simp [markedAll, nestingAll, marked_false command, markedAll_false rest]

theorem markedAlternatives_false : (rest : Alternatives) →
    markedAlternatives false rest = (nestingAlternatives rest).labels.map (·, false)
  | .none => rfl
  | .further cond body rest => by
      simp [markedAlternatives, nestingAlternatives, Forest.labels, markedAll_false body,
        markedAlternatives_false rest]
  | .otherwise header body => by
      simp [markedAlternatives, nestingAlternatives, Forest.labels, markedAll_false body]

theorem markedHandlers_false : (handlers : List (List Command)) →
    markedHandlers false handlers = (nestingHandlers handlers).labels.map (·, false)
  | [] => rfl
  | handler :: rest => by
      simp [markedHandlers, nestingHandlers, markedAll_false handler, markedHandlers_false rest]

end

/-! ### What is cut off -/

/-- A jump and what it cuts off stand among marked nodes, and no execution comes to the latter. -/
def CutsIn (cut : Node × List Node) (nodes : List (Node × Bool)) : Prop :=
  ∃ live, ((cut.1, live) :: cut.2.map (·, false)).Sublist nodes

theorem CutsIn.mono {cut : Node × List Node} {nodes nodes' : List (Node × Bool)}
    (cutsIn : CutsIn cut nodes) (more : nodes.Sublist nodes') : CutsIn cut nodes' := by
  rcases cutsIn with ⟨live, sublist⟩
  exact ⟨live, sublist.trans more⟩

mutual

theorem cutsIn_of_mem_cuts {cut : Node × List Node} : (command : Command) → (live : Bool) →
    cut ∈ cuts command → CutsIn cut (marked live command)
  | .place _, _, isCut => absurd isCut List.not_mem_nil
  | .jump .., _, isCut => absurd isCut List.not_mem_nil
  | .branch cond body rest, live, isCut => by
      rw [marked]
      rcases List.mem_append.1 isCut with inBody | inRest
      · exact (cutsIn_of_mem_cutsOfAll body live inBody).mono (by simp)
      · exact (cutsIn_of_mem_cutsOfAlternatives rest live inRest).mono (by simp)
  | .loop _ head _ body orelse, live, isCut => by
      rw [marked]
      rcases List.mem_append.1 isCut with inBody | inElse
      · exact (cutsIn_of_mem_cutsOfAll body live inBody).mono (by simp)
      · exact (cutsIn_of_mem_cutsOfAll orelse live inElse).mono (by simp)
  | .bracket bindings body, live, isCut =>
      (cutsIn_of_mem_cutsOfAll body live isCut).mono (List.sublist_append_right _ _)
  | .guarded body handlers orelse finalbody, live, isCut => by
      rw [marked]
      simp only [cuts, List.mem_append] at isCut
      rcases isCut with inBody | inHandlers | inElse | isLast
      · exact (cutsIn_of_mem_cutsOfAll body live inBody).mono (by simp)
      · exact (cutsIn_of_mem_cutsOfHandlers handlers live inHandlers).mono (by grind)
      · exact (cutsIn_of_mem_cutsOfAll orelse live inElse).mono (by grind)
      · exact (cutsIn_of_mem_cutsOfAll finalbody live isLast).mono (by grind)

theorem cutsIn_of_mem_cutsOfAll {cut : Node × List Node} : (commands : List Command) →
    (live : Bool) → cut ∈ cutsOfAll commands → CutsIn cut (markedAll live commands)
  | [], _, isCut => absurd isCut List.not_mem_nil
  | command :: rest, live, isCut => by
      simp only [cutsOfAll, List.mem_append, List.mem_map, Option.mem_toList] at isCut
      rcases isCut with ⟨jump, isJump, rfl⟩ | inFirst | later
      · refine ⟨live, ?_⟩
        cases command <;> cases isJump
        simp [markedAll, marked, jumpStatement?, markedAll_false]
      · exact (cutsIn_of_mem_cuts command live inFirst).mono (List.sublist_append_left _ _)
      · exact (cutsIn_of_mem_cutsOfAll rest _ later).mono (List.sublist_append_right _ _)

theorem cutsIn_of_mem_cutsOfAlternatives {cut : Node × List Node} : (rest : Alternatives) →
    (live : Bool) → cut ∈ cutsOfAlternatives rest → CutsIn cut (markedAlternatives live rest)
  | .none, _, isCut => absurd isCut List.not_mem_nil
  | .further cond body rest, live, isCut => by
      rw [markedAlternatives]
      rcases List.mem_append.1 isCut with inBody | inRest
      · exact (cutsIn_of_mem_cutsOfAll body live inBody).mono (by simp)
      · exact (cutsIn_of_mem_cutsOfAlternatives rest live inRest).mono (by simp)
  | .otherwise header body, live, isCut =>
      (cutsIn_of_mem_cutsOfAll body live isCut).mono (List.sublist_cons_self _ _)

theorem cutsIn_of_mem_cutsOfHandlers {cut : Node × List Node} :
    (handlers : List (List Command)) → (live : Bool) → cut ∈ cutsOfHandlers handlers →
      CutsIn cut (markedHandlers live handlers)
  | [], _, isCut => absurd isCut List.not_mem_nil
  | handler :: rest, live, isCut => by
      rw [markedHandlers]
      rcases List.mem_append.1 isCut with inFirst | later
      · exact (cutsIn_of_mem_cutsOfAll handler live inFirst).mono (by simp)
      · exact (cutsIn_of_mem_cutsOfHandlers rest live later).mono (by simp)

end

theorem sublist_of_mem_cutsOfAll {cut : Node × List Node} (commands : List Command)
    (isCut : cut ∈ cutsOfAll commands) : (cut.1 :: cut.2).Sublist (nestingAll commands).labels := by
  rcases cutsIn_of_mem_cutsOfAll commands true isCut with ⟨live, sublist⟩
  have unmarked := sublist.map Prod.fst
  rw [map_markedAll] at unmarked
  simpa [Function.comp_def] using unmarked

mutual

/-- Every jump is listed once. -/
theorem map_cuts_sublist : (command : Command) →
    ((cuts command).map Prod.fst).Sublist (nesting command).labels
  | .place _ => List.nil_sublist _
  | .jump .. => List.nil_sublist _
  | .branch cond body rest => by
      simp only [cuts, List.map_append, nesting, Forest.labels, Forest.labels_append,
        List.append_nil]
      exact ((map_cutsOfAll_sublist body).append (map_cutsOfAlternatives_sublist rest)).cons _
  | .loop _ head _ body orelse => by
      simp only [cuts, List.map_append, nesting, Forest.labels]
      exact ((map_cutsOfAll_sublist body).append (map_cutsOfAll_sublist orelse)).cons _
  | .bracket bindings body => by
      rw [cuts, nesting, Forest.labels_append]
      exact (map_cutsOfAll_sublist body).trans (List.sublist_append_right _ _)
  | .guarded body handlers orelse finalbody => by
      simp only [cuts, List.map_append, nesting, Forest.labels_append]
      exact (map_cutsOfAll_sublist body).append ((map_cutsOfHandlers_sublist handlers).append
        ((map_cutsOfAll_sublist orelse).append (map_cutsOfAll_sublist finalbody)))

theorem map_cutsOfAll_sublist : (commands : List Command) →
    ((cutsOfAll commands).map Prod.fst).Sublist (nestingAll commands).labels
  | [] => List.nil_sublist _
  | command :: rest => by
      rw [cutsOfAll, ← List.append_assoc, List.map_append, nestingAll, Forest.labels_append]
      refine .append ?_ (map_cutsOfAll_sublist rest)
      cases command with
      | jump target statement => simp [jumpStatement?, cuts, nesting, Forest.labels]
      | _ => simpa [jumpStatement?] using map_cuts_sublist _

theorem map_cutsOfAlternatives_sublist : (rest : Alternatives) →
    ((cutsOfAlternatives rest).map Prod.fst).Sublist (nestingAlternatives rest).labels
  | .none => List.nil_sublist _
  | .further cond body rest => by
      simp only [cutsOfAlternatives, List.map_append, nestingAlternatives, Forest.labels,
        Forest.labels_append, List.append_nil]
      exact ((map_cutsOfAll_sublist body).append (map_cutsOfAlternatives_sublist rest)).cons _
  | .otherwise header body => (map_cutsOfAll_sublist body).cons _

theorem map_cutsOfHandlers_sublist : (handlers : List (List Command)) →
    ((cutsOfHandlers handlers).map Prod.fst).Sublist (nestingHandlers handlers).labels
  | [] => List.nil_sublist _
  | handler :: rest => by
      rw [cutsOfHandlers, List.map_append, nestingHandlers, Forest.labels_append]
      exact (map_cutsOfAll_sublist handler).append (map_cutsOfHandlers_sublist rest)

end

variable {f : Node → Node}

theorem jumpStatement?_map (command : Command) :
    (map f command).jumpStatement? = command.jumpStatement?.map f := by
  cases command <;> rfl

mutual

theorem cuts_map : (command : Command) →
    cuts (map f command) = (cuts command).map (Prod.map f (List.map f))
  | .place _ => rfl
  | .jump .. => rfl
  | .branch cond body rest => by
      simp [map, cuts, cutsOfAll_mapAll body, cutsOfAlternatives_map rest]
  | .loop _ head _ body orelse => by
      simp [map, cuts, cutsOfAll_mapAll body, cutsOfAll_mapAll orelse]
  | .bracket bindings body => by simp [map, cuts, cutsOfAll_mapAll body]
  | .guarded body handlers orelse finalbody => by
      simp [map, cuts, cutsOfAll_mapAll body, cutsOfHandlers_map handlers, cutsOfAll_mapAll orelse,
        cutsOfAll_mapAll finalbody]

theorem cutsOfAll_mapAll : (commands : List Command) →
    cutsOfAll (mapAll f commands) = (cutsOfAll commands).map (Prod.map f (List.map f))
  | [] => rfl
  | command :: rest => by
      simp only [mapAll, cutsOfAll, jumpStatement?_map, nestingAll_mapAll, Forest.labels_map,
        cuts_map command, cutsOfAll_mapAll rest, List.map_append]
      cases command.jumpStatement? <;> rfl

theorem cutsOfAlternatives_map : (rest : Alternatives) →
    cutsOfAlternatives (mapAlternatives f rest) =
      (cutsOfAlternatives rest).map (Prod.map f (List.map f))
  | .none => rfl
  | .further cond body rest => by
      simp [mapAlternatives, cutsOfAlternatives, cutsOfAll_mapAll body, cutsOfAlternatives_map rest]
  | .otherwise header body => by
      simp [mapAlternatives, cutsOfAlternatives, cutsOfAll_mapAll body]

theorem cutsOfHandlers_map : (handlers : List (List Command)) →
    cutsOfHandlers (mapHandlers f handlers) =
      (cutsOfHandlers handlers).map (Prod.map f (List.map f))
  | [] => rfl
  | handler :: rest => by
      simp [mapHandlers, cutsOfHandlers, cutsOfAll_mapAll handler, cutsOfHandlers_map rest]

end

/-! ### Executions meet what they may come to -/

theorem mem_marked_of_rounds {kind : LoopKind} {head : Node} {bound : List Node}
    {body orelse : List Command} {trace : List Node} {outcome : Outcome} {node : Node}
    (ofBody : ∀ {trace outcome}, AllExecute body trace outcome → node ∈ trace →
      (node, true) ∈ markedAll true body)
    (ofElse : ∀ {trace outcome}, AllExecute orelse trace outcome → node ∈ trace →
      (node, true) ∈ markedAll true orelse)
    (executed : Rounds head (AllExecute body) (AllExecute orelse) trace outcome)
    (isMet : node ∈ trace) : (node, true) ∈ marked true (.loop kind head bound body orelse) := by
  rw [marked]
  induction executed with
  | left otherwise =>
      rcases List.mem_cons.1 isMet with rfl | isMet
      · exact List.mem_cons_self
      · exact List.mem_cons_of_mem _ (List.mem_append_right _ (ofElse otherwise isMet))
  | broken breaks =>
      rcases List.mem_cons.1 isMet with rfl | isMet
      · exact List.mem_cons_self
      · exact List.mem_cons_of_mem _ (List.mem_append_left _ (ofBody breaks isMet))
  | raised raises =>
      rcases List.mem_cons.1 isMet with rfl | isMet
      · exact List.mem_cons_self
      · exact List.mem_cons_of_mem _ (List.mem_append_left _ (ofBody raises isMet))
  | again round _ _ ih =>
      rcases List.mem_cons.1 isMet with rfl | isMet
      · exact List.mem_cons_self
      · rcases List.mem_append.1 isMet with inRound | later
        · exact List.mem_cons_of_mem _ (List.mem_append_left _ (ofBody round inRound))
        · exact ih later

mutual

theorem mem_marked_of_executes {node : Node} : (command : Command) → {trace : List Node} →
    {outcome : Outcome} → Executes command trace outcome → node ∈ trace →
      (node, true) ∈ marked true command
  | .place _, _, _, ⟨rfl, _⟩, isMet => by simpa [marked] using isMet
  | .jump .., _, _, ⟨rfl, _⟩, isMet => by simpa [marked] using isMet
  | .branch cond body rest, _, _, .intro executed, isMet => by
      rw [marked]
      rcases List.mem_cons.1 isMet with rfl | isMet
      · exact List.mem_cons_self
      · rcases executed with executed | executed
        · exact List.mem_cons_of_mem _
            (List.mem_append_left _ (mem_markedAll_of_allExecute body executed isMet))
        · exact List.mem_cons_of_mem _ (List.mem_append_right _
            (mem_markedAlternatives_of_alternativesExecute rest executed isMet))
  | .loop _ head _ body orelse, _, _, executed, isMet =>
      mem_marked_of_rounds (mem_markedAll_of_allExecute body) (mem_markedAll_of_allExecute orelse)
        executed isMet
  | .bracket bindings body, _, _, .intro executed, isMet => by
      rw [marked]
      rcases List.mem_append.1 isMet with isBinding | isMet
      · exact List.mem_append_left _ (List.mem_map_of_mem isBinding)
      · exact List.mem_append_right _ (mem_markedAll_of_allExecute body executed isMet)
  | .guarded body handlers orelse finalbody, trace, outcome, executed, isMet => by
      have ofBody := @mem_markedAll_of_allExecute node body
      have ofElse := @mem_markedAll_of_allExecute node orelse
      have ofLast := @mem_markedAll_of_allExecute node finalbody
      have ofHandlers := @mem_markedHandlers_of_someExecutes node handlers
      have ofGuarded : ∀ {trace outcome}, Guarded (AllExecute body)
          (if handlers.isEmpty then none else some (SomeExecutes handlers)) (AllExecute orelse)
          trace outcome → node ∈ trace → (node, true) ∈ markedAll true body ∨
            (node, true) ∈ markedHandlers true handlers ∨ (node, true) ∈ markedAll true orelse := by
        intro trace outcome guarded isMet
        rcases guarded with ⟨ends, otherwise⟩ | ⟨ends, -, isGuarded, goesOn⟩ | ⟨raises, -⟩ |
          ⟨leaves, -⟩
        · rcases List.mem_append.1 isMet with isMet | isMet
          · exact .inl (ofBody ends isMet)
          · exact .inr (.inr (ofElse otherwise isMet))
        · rcases List.mem_append.1 isMet with isMet | isMet
          · exact .inl (ofBody ends isMet)
          · split at isGuarded
            · cases isGuarded
            · cases isGuarded
              exact .inr (.inl (ofHandlers goesOn isMet))
        · exact .inl (ofBody raises isMet)
        · exact .inl (ofBody leaves isMet)
      rw [marked]
      simp only [List.mem_append]
      rcases executed with ⟨ends, goesOn⟩ | ⟨leaves⟩
      · rcases List.mem_append.1 isMet with isMet | isMet
        · rcases ofGuarded ends isMet with inBody | inHandlers | inElse
          · exact .inl inBody
          · exact .inr (.inl inHandlers)
          · exact .inr (.inr (.inl inElse))
        · exact .inr (.inr (.inr (ofLast goesOn isMet)))
      · rcases ofGuarded leaves isMet with inBody | inHandlers | inElse
        · exact .inl inBody
        · exact .inr (.inl inHandlers)
        · exact .inr (.inr (.inl inElse))

theorem mem_markedAll_of_allExecute {node : Node} : (commands : List Command) →
    {trace : List Node} → {outcome : Outcome} → AllExecute commands trace outcome →
      node ∈ trace → (node, true) ∈ markedAll true commands
  | [], _, _, ⟨rfl, _⟩, isMet => absurd isMet List.not_mem_nil
  | command :: rest, _, _, .finished ends goesOn, isMet => by
      rw [markedAll]
      rcases List.mem_append.1 isMet with isMet | isMet
      · exact List.mem_append_left _ (mem_marked_of_executes command ends isMet)
      · -- A command that has run to its end is not a jump.
        have notJump : command.jumpStatement?.isNone = true := by
          cases command with
          | jump target statement => exact absurd ends.2 (by simp)
          | _ => rfl
        rw [notJump]
        exact List.mem_append_right _ (mem_markedAll_of_allExecute rest goesOn isMet)
  | command :: rest, _, _, .jumped leaves, isMet =>
      List.mem_append_left _ (mem_marked_of_executes command leaves isMet)

theorem mem_markedAlternatives_of_alternativesExecute {node : Node} : (rest : Alternatives) →
    {trace : List Node} → {outcome : Outcome} → AlternativesExecute rest trace outcome →
      node ∈ trace → (node, true) ∈ markedAlternatives true rest
  | .none, _, _, ⟨rfl, _⟩, isMet => absurd isMet List.not_mem_nil
  | .further cond body rest, _, _, .intro executed, isMet => by
      rw [markedAlternatives]
      rcases List.mem_cons.1 isMet with rfl | isMet
      · exact List.mem_cons_self
      · rcases executed with executed | executed
        · exact List.mem_cons_of_mem _
            (List.mem_append_left _ (mem_markedAll_of_allExecute body executed isMet))
        · exact List.mem_cons_of_mem _ (List.mem_append_right _
            (mem_markedAlternatives_of_alternativesExecute rest executed isMet))
  | .otherwise header body, _, _, .intro executed, isMet => by
      rw [markedAlternatives]
      rcases List.mem_cons.1 isMet with rfl | isMet
      · exact List.mem_cons_self
      · exact List.mem_cons_of_mem _ (mem_markedAll_of_allExecute body executed isMet)

theorem mem_markedHandlers_of_someExecutes {node : Node} : (handlers : List (List Command)) →
    {trace : List Node} → {outcome : Outcome} → SomeExecutes handlers trace outcome →
      node ∈ trace → (node, true) ∈ markedHandlers true handlers
  | [], _, _, executed, _ => executed.elim
  | handler :: _, _, _, .inl executed, isMet =>
      List.mem_append_left _ (mem_markedAll_of_allExecute handler executed isMet)
  | _ :: rest, _, _, .inr executed, isMet =>
      List.mem_append_right _ (mem_markedHandlers_of_someExecutes rest executed isMet)

end

/-! ### Jumps in lists of statements -/

end Command

/-- The lists of commands that what comes after a condition runs. -/
def Alternatives.lists : Alternatives → List (List Command)
  | .none => []
  | .further _ body rest => body :: rest.lists
  | .otherwise _ body => [body]

namespace Command

/-- The lists of commands that a command runs. -/
def lists : Command → List (List Command)
  | .branch _ body rest => body :: rest.lists
  | .loop _ _ _ body orelse => [body, orelse]
  | .bracket _ body => [body]
  | .guarded body handlers orelse finalbody => body :: (handlers ++ [orelse, finalbody])
  | _ => []

theorem lists_ofClauses (elifs : List (ElifClause Node)) (last : Alternatives) :
    (ofClauses elifs last).lists = elifs.map (ofNodes ∘ ElifClause.body) ++ last.lists := by
  induction elifs with
  | nil => rfl
  | cons clause rest ih => rw [ofClauses, Alternatives.lists, ih, List.map_cons]; rfl

theorem mem_lists_ofOrelse {orelse : Option Node} {node : Node} (isElse : node ∈ orelse)
    (notEmpty : node.body ≠ []) : ofNodes node.body ∈ (ofOrelse orelse).lists := by
  rw [Option.mem_def.1 isElse, ofOrelse_some, Alternatives.ofClause, isEmpty_ofNodes,
    List.isEmpty_eq_false_iff.2 notEmpty]
  exact List.mem_singleton_self _

/-- The lists of statements that a statement runs are run by its command. -/
theorem ofNodes_mem_lists {statement : Node} {list : List Node}
    (runs : list ∈ statement.statementLists) (notEmpty : list ≠ []) :
    ofNodes list ∈ (ofNode statement).lists := by
  rcases statement with ⟨shape, location⟩
  cases shape
  case conditional cond body elifs orelse =>
    simp only [Node.statementLists, List.mem_cons, List.mem_append, List.mem_map,
      Option.mem_toList] at runs
    rw [ofNode, lists, lists_ofClauses]
    rcases runs with rfl | ⟨clause, isClause, rfl⟩ | ⟨node, isElse, rfl⟩
    · exact List.mem_cons_self
    · exact List.mem_cons_of_mem _ (List.mem_append_left _
        (List.mem_map_of_mem isClause))
    · exact List.mem_cons_of_mem _ (List.mem_append_right _ (mem_lists_ofOrelse isElse notEmpty))
  case tryBlock body handlers orelse finalbody =>
    simp only [Node.statementLists, List.mem_cons, List.mem_append, List.mem_map,
      List.not_mem_nil, or_false] at runs
    rw [ofNode, lists, ofHandlers_eq_map]
    simp only [List.mem_cons, List.mem_append, List.mem_map, List.not_mem_nil, or_false]
    rcases runs with rfl | ⟨handler, isHandler, rfl⟩ | rfl | rfl
    · exact .inl rfl
    · exact .inr (.inl ⟨handler, isHandler, rfl⟩)
    · exact .inr (.inr (.inl rfl))
    · exact .inr (.inr (.inr rfl))
  all_goals simp_all [Node.statementLists, ofNode, lists]
  all_goals rcases runs with rfl | rfl <;> simp

theorem cutsOfAll_subset_alternatives {list : List Command} : (rest : Alternatives) →
    list ∈ rest.lists → cutsOfAll list ⊆ cutsOfAlternatives rest
  | .none, runs => absurd runs List.not_mem_nil
  | .further _ body rest, runs => by
      rw [cutsOfAlternatives]
      rcases List.mem_cons.1 runs with rfl | later
      · exact List.subset_append_left _ _
      · exact List.Subset.trans (cutsOfAll_subset_alternatives rest later)
          (List.subset_append_right _ _)
  | .otherwise _ body, runs => by
      rw [List.mem_singleton.1 runs]
      exact List.Subset.refl _

theorem cutsOfAll_subset_handlers {list : List Command} {handlers : List (List Command)}
    (isHandler : list ∈ handlers) : cutsOfAll list ⊆ cutsOfHandlers handlers := by
  induction handlers with
  | nil => cases isHandler
  | cons handler rest ih =>
      rw [cutsOfHandlers]
      rcases List.mem_cons.1 isHandler with rfl | later
      · exact List.subset_append_left _ _
      · exact List.Subset.trans (ih later) (List.subset_append_right _ _)

theorem cutsOfAll_subset_cuts {command : Command} {list : List Command}
    (runs : list ∈ command.lists) : cutsOfAll list ⊆ cuts command := by
  cases command
  case branch cond body rest =>
    rw [cuts]
    rcases List.mem_cons.1 runs with rfl | inRest
    · exact List.subset_append_left _ _
    · exact List.Subset.trans (cutsOfAll_subset_alternatives rest inRest)
        (List.subset_append_right _ _)
  case guarded body handlers orelse finalbody =>
    rw [cuts]
    simp only [lists, List.mem_cons, List.mem_append, List.not_mem_nil, or_false] at runs
    intro cut isCut
    simp only [List.mem_append]
    rcases runs with rfl | isHandler | rfl | rfl
    · exact .inl isCut
    · exact .inr (.inl (cutsOfAll_subset_handlers isHandler isCut))
    · exact .inr (.inr (.inl isCut))
    · exact .inr (.inr (.inr isCut))
  all_goals simp_all [lists, cuts]
  all_goals rcases runs with rfl | rfl <;> simp

theorem cuts_subset_of_mem {statements : List Node} {statement : Node}
    (member : statement ∈ statements) :
    cuts (ofNode statement) ⊆ cutsOfAll (ofNodes statements) := by
  induction statements with
  | nil => cases member
  | cons first rest ih =>
      rw [ofNodes, cutsOfAll]
      apply List.subset_append_of_subset_right
      rcases List.mem_cons.1 member with rfl | later
      · exact List.subset_append_left _ _
      · exact List.subset_append_of_subset_right _ (ih later)

theorem cuts_subset_of_standsIn {statements : List Node} {statement : Node}
    (stands : Node.StandsIn statements statement) :
    cuts (ofNode statement) ⊆ cutsOfAll (ofNodes statements) := by
  induction stands with
  | here member => exact cuts_subset_of_mem member
  | within _ runs member ih =>
      have inList := cutsOfAll_subset_cuts (ofNodes_mem_lists runs (List.ne_nil_of_mem member))
      exact List.Subset.trans (cuts_subset_of_mem member) (List.Subset.trans inList ih)

theorem jumpStatement?_ofNode {statement : Node} {jump : Jump}
    (isJump : statement.jump? = some jump) :
    (ofNode statement).jumpStatement? = some statement := by
  rcases statement with ⟨shape, location⟩
  cases shape
  case raiseError | breakLoop | continueLoop => rfl
  all_goals cases isJump

theorem mem_cutsOfAll_of_append (earlier : List Node) {statement : Node} (rest : List Node)
    {jump : Jump} (isJump : statement.jump? = some jump) :
    (statement, (Node.nestingAll rest).labels) ∈
      cutsOfAll (ofNodes (earlier ++ statement :: rest)) := by
  induction earlier with
  | nil =>
      rw [List.nil_append, ofNodes, cutsOfAll, jumpStatement?_ofNode isJump, nestingAll_ofNodes]
      exact List.mem_append_left _ (List.mem_singleton_self _)
  | cons first earlier ih =>
      rw [List.cons_append, ofNodes, cutsOfAll]
      exact List.mem_append_right _ (List.mem_append_right _ ih)

end Command

/-- A list of statements is laid out where others are: it is these, or a statement that stands in
them runs it. -/
def Node.LaysList (statements list : List Node) : Prop :=
  list = statements ∨ ∃ parent, Node.StandsIn statements parent ∧ list ∈ parent.statementLists

namespace Command

/-- A jump is listed with what is placed behind it in its list. -/
theorem mem_cutsOfAll {statements earlier rest : List Node} {statement : Node} {jump : Jump}
    (laysList : Node.LaysList statements (earlier ++ statement :: rest))
    (isJump : statement.jump? = some jump) :
    (statement, (Node.nestingAll rest).labels) ∈ cutsOfAll (ofNodes statements) := by
  have isCut := mem_cutsOfAll_of_append earlier rest isJump
  rcases laysList with rfl | ⟨parent, stands, runs⟩
  · exact isCut
  · have inList := cutsOfAll_subset_cuts (ofNodes_mem_lists runs (by simp))
    exact cuts_subset_of_standsIn stands (inList isCut)

end Command

namespace Graph

/-- A statement is the last one of its block. -/
def IsLast (graph : Graph) (point : Point) : Prop :=
  point.offset + 1 = (graph.statements point.block).length

end Graph

namespace Command

/-! ### Jumps end their blocks -/

/-- A node is the last one of some block. -/
def EndsBlock (graph : Graph) (node : Node) : Prop :=
  ∃ point, graph.At point node ∧ graph.IsLast point

variable {graph : Graph} {cut : Node × List Node}

theorem endsBlock_of_optionalDetour {commands : List Command} {body : Point → Point → Prop}
    {entry target : BlockId} (laid : graph.OptionalDetour commands body entry target)
    (isCut : cut ∈ cutsOfAll commands)
    (ofBody : ∀ {start stop}, body start stop → EndsBlock graph cut.1) :
    EndsBlock graph cut.1 := by
  cases commands with
  | nil => exact absurd isCut List.not_mem_nil
  | cons command rest =>
      rcases laid with ⟨exit, laid, -⟩
      exact ofBody laid

mutual

theorem LaidOut.endsBlock_of_mem_cuts : (command : Command) → {around : Surroundings} →
    {start stop : Point} → LaidOut graph around command start stop → cut ∈ cuts command →
      EndsBlock graph cut.1
  | .place _, _, _, _, _, isCut => absurd isCut List.not_mem_nil
  | .jump .., _, _, _, _, isCut => absurd isCut List.not_mem_nil
  | .branch cond body rest, _, _, _,
      ⟨_, _, _, _, _, _, ⟨_, bodyLaid, _⟩, restLaid, _⟩, isCut => by
      rcases List.mem_append.1 isCut with inBody | inRest
      · exact AllLaidOut.endsBlock_of_mem_cuts body bodyLaid inBody
      · exact AlternativesLaidOut.endsBlock_of_mem_cuts rest restLaid inRest
  | .loop _ head bound body orelse, _, _, _,
      ⟨_, _, _, _, _, _, ⟨_, bodyLaid, _⟩, elseLaid, _⟩, isCut => by
      rcases List.mem_append.1 isCut with inBody | inElse
      · exact AllLaidOut.endsBlock_of_mem_cuts body bodyLaid inBody
      · exact endsBlock_of_optionalDetour elseLaid inElse fun laid =>
          AllLaidOut.endsBlock_of_mem_cuts orelse laid inElse
  | .bracket bindings body, _, _, _, ⟨_, _, _, _, _, bodyLaid⟩, isCut =>
      AllLaidOut.endsBlock_of_mem_cuts body bodyLaid isCut
  | .guarded body handlers orelse finalbody, _, _, _,
      ⟨_, _, _, _, _, _, _, bodyLaid, _, _, _, handlersLaid, elseLaid, lastLaid, _⟩, isCut => by
      simp only [cuts, List.mem_append] at isCut
      rcases isCut with inBody | inHandlers | inElse | isLast
      · exact AllLaidOut.endsBlock_of_mem_cuts body bodyLaid inBody
      · exact HandlersLaidOut.endsBlock_of_mem_cuts handlers handlersLaid inHandlers
      · exact endsBlock_of_optionalDetour elseLaid inElse fun laid =>
          AllLaidOut.endsBlock_of_mem_cuts orelse laid inElse
      · exact endsBlock_of_optionalDetour lastLaid isLast fun laid =>
          AllLaidOut.endsBlock_of_mem_cuts finalbody laid isLast

theorem AllLaidOut.endsBlock_of_mem_cuts : (commands : List Command) → {around : Surroundings} →
    {start stop : Point} → AllLaidOut graph around commands start stop →
      cut ∈ cutsOfAll commands → EndsBlock graph cut.1
  | [], _, _, _, _, isCut => absurd isCut List.not_mem_nil
  | command :: rest, _, start, _, ⟨_, laid, restLaid⟩, isCut => by
      simp only [cutsOfAll, List.mem_append, List.mem_map, Option.mem_toList] at isCut
      rcases isCut with ⟨jump, isJump, rfl⟩ | inFirst | later
      · cases command <;> cases isJump
        exact ⟨start, laid.1, laid.2.1⟩
      · exact LaidOut.endsBlock_of_mem_cuts command laid inFirst
      · exact AllLaidOut.endsBlock_of_mem_cuts rest restLaid later

theorem AlternativesLaidOut.endsBlock_of_mem_cuts : (rest : Alternatives) →
    {around : Surroundings} → {entry join : BlockId} →
      AlternativesLaidOut graph around rest entry join → cut ∈ cutsOfAlternatives rest →
        EndsBlock graph cut.1
  | .none, _, _, _, _, isCut => absurd isCut List.not_mem_nil
  | .further cond body rest, _, _, _, ⟨_, _, _, _, ⟨_, bodyLaid, _⟩, restLaid⟩, isCut => by
      rcases List.mem_append.1 isCut with inBody | inRest
      · exact AllLaidOut.endsBlock_of_mem_cuts body bodyLaid inBody
      · exact AlternativesLaidOut.endsBlock_of_mem_cuts rest restLaid inRest
  | .otherwise header body, _, _, _, ⟨_, _, _, ⟨_, bodyLaid, _⟩⟩, isCut =>
      AllLaidOut.endsBlock_of_mem_cuts body bodyLaid isCut

theorem HandlersLaidOut.endsBlock_of_mem_cuts : (handlers : List (List Command)) →
    {around : Surroundings} → {entries : List BlockId} → {target : BlockId} →
      HandlersLaidOut graph around handlers entries target → cut ∈ cutsOfHandlers handlers →
        EndsBlock graph cut.1
  | [], _, _, _, _, isCut => absurd isCut List.not_mem_nil
  | handler :: rest, _, _, _, ⟨_, _, _, ⟨_, handlerLaid, _⟩, restLaid⟩, isCut => by
      rcases List.mem_append.1 isCut with inFirst | later
      · exact AllLaidOut.endsBlock_of_mem_cuts handler handlerLaid inFirst
      · exact HandlersLaidOut.endsBlock_of_mem_cuts rest restLaid later

end

end Command

namespace Graph

variable {program : List Command} {cut : Node × List Node}

/-- In the graph of a program that places no node twice, control does not come to what is cut
off. -/
theorem not_mem_reachable_of_mem_cuts (distinct : (Command.nestingAll program).labels.Nodup)
    (isCut : cut ∈ Command.cutsOfAll program) {node : Node} (isBehind : node ∈ cut.2)
    {point : Point} (next : (ofCommands program).At point node) :
    point.block ∉ (ofCommands program).reachable := by
  intro reached
  have laid := ofCommands_laidOut program
  rcases laid.wellFormed.mem_reachable_iff.1 reached with ⟨blocks, path⟩
  have canEnd := canEnd_ofCommands program (laid.wellFormed.lt_size_of_mem_reachable reached)
  rcases path.exists_complete canEnd with ⟨rest, exit, complete, isExit⟩
  rcases laid.path_iff_execution.1 ⟨_, exit, complete, isExit, rfl, rfl⟩ with ⟨_, executed, -⟩
  have isMet : node ∈ (ofCommands program).trace (blocks ++ rest) := by
    rw [trace_append]
    exact List.mem_append_left _ (List.mem_flatMap.2 ⟨_, path.target_mem, next.mem⟩)
  have isLive := Command.mem_markedAll_of_allExecute program executed isMet
  rcases Command.cutsIn_of_mem_cutsOfAll program true isCut with ⟨live, sublist⟩
  have isDead : (node, false) ∈ Command.markedAll true program :=
    sublist.subset (List.mem_cons_of_mem _ (List.mem_map_of_mem isBehind))
  rw [← Command.map_markedAll program true] at distinct
  have same := List.inj_on_of_nodup_map distinct isLive isDead rfl
  cases same

end Graph

end FlowAnalysis

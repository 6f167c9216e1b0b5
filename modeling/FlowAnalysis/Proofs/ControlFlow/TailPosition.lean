import FlowAnalysis.Proofs.ControlFlow.CutOff

/-!
# What nothing comes behind

`Command.endings` lists the statements after which a command lays out nothing but last clauses. Such
a statement is the last one of its block, and control that has passed it meets nothing but those
clauses until it ends.
-/

namespace FlowAnalysis

namespace Command

open Executions FlowAnalysis.Graph

/-- A listed statement behind which some further nodes are placed. -/
def followedBy (later : List Node) (ending : Node × List Node) : Node × List Node :=
  (ending.1, ending.2 ++ later)

mutual

/-- The statements behind which a command lays out nothing but last clauses, each with the nodes
that these place. The body of a loop is followed by the head of the loop, and a body with handlers
by these. -/
def endings : Command → List (Node × List Node)
  | .place statement => [(statement, [])]
  | .jump .. => []
  | .branch _ body rest => endingsOfAll body ++ endingsOfAlternatives rest
  | .loop _ _ _ _ orelse => endingsOfAll orelse
  | .bracket _ body => endingsOfAll body
  | .guarded body handlers orelse finalbody =>
      ((if handlers.isEmpty && orelse.isEmpty then endingsOfAll body else []) ++
        (endingsOfHandlers handlers ++ endingsOfAll orelse)).map
          (followedBy (nestingAll finalbody).labels) ++ endingsOfAll finalbody

def endingsOfAll : List Command → List (Node × List Node)
  | [] => []
  | command :: rest => if rest.isEmpty then endings command else endingsOfAll rest

def endingsOfAlternatives : Alternatives → List (Node × List Node)
  | .none => []
  | .further _ body rest => endingsOfAll body ++ endingsOfAlternatives rest
  | .otherwise _ body => endingsOfAll body

def endingsOfHandlers : List (List Command) → List (Node × List Node)
  | [] => []
  | handler :: rest => endingsOfAll handler ++ endingsOfHandlers rest

end

/-! ### Control behind an ending -/

/-- Control that has passed a statement meets nothing but some nodes before it goes on as after an
execution that stops at a point; the statement is the last one of its block, unless it stands right
before this point. -/
def Trails (graph : Graph) (around : Surroundings) (stop : Point) (ending : Node × List Node) :
    Prop :=
  ∃ point, graph.At point ending.1 ∧
    (stop = ⟨point.block, point.offset + 1⟩ ∨ graph.IsLast point) ∧
    ∀ {moves : Nat} {trace : List Node} {raised : Bool},
      graph.Finishes moves ⟨point.block, point.offset + 1⟩ trace raised →
        ∃ before outcome after left, trace = before ++ after ∧ before ⊆ ending.2 ∧
          graph.Continues around stop outcome left after raised

namespace Trails

variable {graph : Graph} {around : Surroundings} {start stop : Point} {ending : Node × List Node}

theorem place {statement : Node} (next : graph.At start statement) :
    Trails graph around ⟨start.block, start.offset + 1⟩ (statement, []) := by
  refine ⟨start, next, .inl rfl, fun finishes => ?_⟩
  exact ⟨[], .finished, _, _, rfl, List.Subset.refl _, finishes⟩

/-- Control goes on to another block. -/
theorem leave (trails : Trails graph around stop ending) {target : BlockId}
    (ends : graph.EndsIn stop [target]) : Trails graph around ⟨target, 0⟩ ending := by
  rcases trails with ⟨point, next, isLast, goesOn⟩
  refine ⟨point, next, .inr ?_, fun finishes => ?_⟩
  · rcases isLast with rfl | isLast
    · exact ends.1
    · exact isLast
  · rcases goesOn finishes with ⟨before, outcome, after, left, rfl, isLastly, continues⟩
    cases outcome with
    | finished =>
        rcases Finishes.of_endsIn continues ends (List.cons_ne_nil _ _) with
          ⟨_, isTarget, left', -, entered⟩
        rw [List.mem_singleton.1 isTarget] at entered
        exact ⟨before, .finished, after, left', rfl, isLastly, entered⟩
    | jumped jump => exact ⟨before, .jumped jump, after, left, rfl, isLastly, continues⟩

/-- Control runs through a last clause. -/
theorem lastly {entry : BlockId} {finalbody : List Command}
    (trails : Trails graph around ⟨entry, 0⟩ ending)
    (realizes : graph.Realizes around [⟨entry, 0⟩] stop (AllExecute finalbody)) :
    Trails graph around stop (followedBy (nestingAll finalbody).labels ending) := by
  rcases trails with ⟨point, next, isLast, goesOn⟩
  refine ⟨point, next, .inr ?_, fun finishes => ?_⟩
  · rcases isLast with isStop | isLast
    · cases isStop
    · exact isLast
  · rcases goesOn finishes with ⟨before, outcome, after, left, rfl, isLastly, continues⟩
    cases outcome with
    | finished =>
        rcases realizes.complete (List.mem_singleton_self _) continues with
          ⟨met, outcome, after', left', rfl, -, executed, continues⟩
        refine ⟨before ++ met, outcome, after', left', (List.append_assoc ..).symm, ?_, continues⟩
        intro node isMet
        rcases List.mem_append.1 isMet with isMet | isMet
        · exact List.mem_append_left _ (isLastly isMet)
        · exact List.mem_append_right _ (mem_labels_of_allExecute executed isMet)
    | jumped jump =>
        exact ⟨before, .jumped jump, after, left, rfl,
          List.Subset.trans isLastly (List.subset_append_left _ _), continues⟩

theorem optionalDetour {commands : List Command} {entry target : BlockId}
    (laid : graph.OptionalDetour commands (AllLaidOut graph around commands) entry target)
    (isEnding : ending ∈ endingsOfAll commands)
    (trails : ∀ {exit}, AllLaidOut graph around commands ⟨entry, 0⟩ exit →
      Trails graph around exit ending) : Trails graph around ⟨target, 0⟩ ending := by
  cases commands with
  | nil => exact absurd isEnding List.not_mem_nil
  | cons command rest =>
      rcases laid with ⟨exit, laid, ends⟩
      exact (trails laid).leave ends

end Trails

section LaidOut

variable {graph : Graph}

mutual

theorem LaidOut.trails {ending : Node × List Node}
    (exitEmpty : graph.statements graph.exceptionalExit = []) :
    (command : Command) → {around : Surroundings} → {start stop : Point} →
      LaidOut graph around command start stop → ending ∈ endings command →
        Trails graph around stop ending
  | .place statement, _, _, _, ⟨next, stopEq⟩, isEnding => by
      rcases List.mem_singleton.1 isEnding with rfl
      subst stopEq
      exact .place next
  | .jump .., _, _, _, _, isEnding => absurd isEnding List.not_mem_nil
  | .branch cond body rest, _, _, ⟨_, _⟩,
      ⟨_, _, _, _, _, _, ⟨_, bodyLaid, bodyEnds⟩, restLaid, rfl⟩, isEnding => by
      rcases List.mem_append.1 isEnding with inBody | inRest
      · exact (AllLaidOut.trails exitEmpty body bodyLaid inBody).leave bodyEnds
      · exact AlternativesLaidOut.trails exitEmpty rest restLaid inRest
  | .loop _ head bound body orelse, _, _, ⟨_, _⟩, ⟨_, _, _, _, _, _, _, elseLaid, rfl⟩, inElse =>
      .optionalDetour elseLaid inElse fun laid => AllLaidOut.trails exitEmpty orelse laid inElse
  | .bracket bindings body, _, _, _, ⟨_, _, _, _, _, bodyLaid⟩, inBody =>
      AllLaidOut.trails exitEmpty body bodyLaid inBody
  | .guarded body handlers orelse finalbody, around, _, ⟨_, _⟩,
      ⟨dispatch?, _, _, _, _, _, _, bodyLaid, bodyEnds, noHandlers, _, handlersLaid, elseLaid,
        lastLaid, rfl⟩, isEnding => by
      rw [endings, List.mem_append, List.mem_map] at isEnding
      rcases isEnding with ⟨inner, isInner, rfl⟩ | isLast
      · have realizes := realizes_optional lastLaid (AllLaidOut.realizes exitEmpty finalbody)
        suffices trails : Trails graph around ⟨_, 0⟩ inner from trails.lastly realizes
        simp only [List.mem_append] at isInner
        rcases isInner with inBody | inHandlers | inElse
        · split at inBody
          · next isPlain =>
              rw [Bool.and_eq_true, List.isEmpty_iff, List.isEmpty_iff] at isPlain
              rcases isPlain with ⟨rfl, rfl⟩
              -- Without handlers and an `else` clause, the body goes straight on to the last one.
              rcases noHandlers.2 rfl with rfl
              cases elseLaid
              exact (AllLaidOut.trails exitEmpty body bodyLaid inBody).leave bodyEnds
          · exact absurd inBody List.not_mem_nil
        · exact HandlersLaidOut.trails exitEmpty handlers handlersLaid inHandlers
        · exact .optionalDetour elseLaid inElse fun laid =>
            AllLaidOut.trails exitEmpty orelse laid inElse
      · exact .optionalDetour lastLaid isLast fun laid =>
          AllLaidOut.trails exitEmpty finalbody laid isLast

theorem AllLaidOut.trails {ending : Node × List Node}
    (exitEmpty : graph.statements graph.exceptionalExit = []) :
    (commands : List Command) → {around : Surroundings} → {start stop : Point} →
      AllLaidOut graph around commands start stop → ending ∈ endingsOfAll commands →
        Trails graph around stop ending
  | [], _, _, _, _, isEnding => absurd isEnding List.not_mem_nil
  | command :: rest, _, _, _, ⟨_, laid, restLaid⟩, isEnding => by
      rw [endingsOfAll] at isEnding
      split at isEnding
      · next noRest =>
          rcases List.isEmpty_iff.1 noRest with rfl
          rcases restLaid with rfl
          exact LaidOut.trails exitEmpty command laid isEnding
      · exact AllLaidOut.trails exitEmpty rest restLaid isEnding

theorem AlternativesLaidOut.trails {ending : Node × List Node}
    (exitEmpty : graph.statements graph.exceptionalExit = []) :
    (rest : Alternatives) → {around : Surroundings} → {entry join : BlockId} →
      AlternativesLaidOut graph around rest entry join → ending ∈ endingsOfAlternatives rest →
        Trails graph around ⟨join, 0⟩ ending
  | .none, _, _, _, _, isEnding => absurd isEnding List.not_mem_nil
  | .further cond body rest, _, _, _, ⟨_, _, _, _, ⟨_, bodyLaid, bodyEnds⟩, restLaid⟩, isEnding => by
      rcases List.mem_append.1 isEnding with inBody | inRest
      · exact (AllLaidOut.trails exitEmpty body bodyLaid inBody).leave bodyEnds
      · exact AlternativesLaidOut.trails exitEmpty rest restLaid inRest
  | .otherwise header body, _, _, _, ⟨_, _, _, ⟨_, bodyLaid, bodyEnds⟩⟩, isEnding =>
      (AllLaidOut.trails exitEmpty body bodyLaid isEnding).leave bodyEnds

theorem HandlersLaidOut.trails {ending : Node × List Node}
    (exitEmpty : graph.statements graph.exceptionalExit = []) :
    (handlers : List (List Command)) → {around : Surroundings} → {entries : List BlockId} →
      {target : BlockId} → HandlersLaidOut graph around handlers entries target →
        ending ∈ endingsOfHandlers handlers → Trails graph around ⟨target, 0⟩ ending
  | [], _, _, _, _, isEnding => absurd isEnding List.not_mem_nil
  | handler :: rest, _, _, _, ⟨_, _, _, ⟨_, handlerLaid, handlerEnds⟩, restLaid⟩, isEnding => by
      rcases List.mem_append.1 isEnding with inFirst | later
      · exact (AllLaidOut.trails exitEmpty handler handlerLaid inFirst).leave handlerEnds
      · exact HandlersLaidOut.trails exitEmpty rest restLaid later

end

end LaidOut

/-! ### The list of endings -/

mutual

/-- Every ending is listed once. -/
theorem map_endings_sublist : (command : Command) →
    ((endings command).map Prod.fst).Sublist (nesting command).labels
  | .place statement => List.Sublist.refl _
  | .jump .. => List.nil_sublist _
  | .branch cond body rest => by
      simp only [endings, List.map_append, nesting, Forest.labels, Forest.labels_append,
        List.append_nil]
      exact ((map_endingsOfAll_sublist body).append (map_endingsOfAlternatives_sublist rest)).cons _
  | .loop _ head _ body orelse => by
      rw [endings, nesting, Forest.labels]
      exact ((map_endingsOfAll_sublist orelse).trans (List.sublist_append_right _ _)).cons _
  | .bracket bindings body => by
      rw [endings, nesting, Forest.labels_append]
      exact (map_endingsOfAll_sublist body).trans (List.sublist_append_right _ _)
  | .guarded body handlers orelse finalbody => by
      have ofBody : ((if handlers.isEmpty && orelse.isEmpty then endingsOfAll body
          else []).map Prod.fst).Sublist (nestingAll body).labels := by
        split
        · exact map_endingsOfAll_sublist body
        · exact List.nil_sublist _
      have sameStatements : ∀ later, Prod.fst ∘ followedBy later = Prod.fst := fun _ => rfl
      simp only [endings, List.map_append, List.map_map, sameStatements, nesting,
        Forest.labels_append, List.append_assoc]
      exact ofBody.append ((map_endingsOfHandlers_sublist handlers).append
        ((map_endingsOfAll_sublist orelse).append (map_endingsOfAll_sublist finalbody)))

theorem map_endingsOfAll_sublist : (commands : List Command) →
    ((endingsOfAll commands).map Prod.fst).Sublist (nestingAll commands).labels
  | [] => List.nil_sublist _
  | command :: rest => by
      rw [endingsOfAll, nestingAll, Forest.labels_append]
      split
      · exact (map_endings_sublist command).trans (List.sublist_append_left _ _)
      · exact (map_endingsOfAll_sublist rest).trans (List.sublist_append_right _ _)

theorem map_endingsOfAlternatives_sublist : (rest : Alternatives) →
    ((endingsOfAlternatives rest).map Prod.fst).Sublist (nestingAlternatives rest).labels
  | .none => List.nil_sublist _
  | .further cond body rest => by
      simp only [endingsOfAlternatives, List.map_append, nestingAlternatives, Forest.labels,
        Forest.labels_append, List.append_nil]
      exact ((map_endingsOfAll_sublist body).append (map_endingsOfAlternatives_sublist rest)).cons _
  | .otherwise header body => (map_endingsOfAll_sublist body).cons _

theorem map_endingsOfHandlers_sublist : (handlers : List (List Command)) →
    ((endingsOfHandlers handlers).map Prod.fst).Sublist (nestingHandlers handlers).labels
  | [] => List.nil_sublist _
  | handler :: rest => by
      rw [endingsOfHandlers, List.map_append, nestingHandlers, Forest.labels_append]
      exact (map_endingsOfAll_sublist handler).append (map_endingsOfHandlers_sublist rest)

end

theorem sublist_followedBy {ending : Node × List Node} {nodes later : List Node}
    (sublist : (ending.1 :: ending.2).Sublist nodes) :
    ((followedBy later ending).1 :: (followedBy later ending).2).Sublist (nodes ++ later) :=
  sublist.append (List.Sublist.refl later)

mutual

/-- An ending stands in front of the last clauses behind it. -/
theorem sublist_of_mem_endings {ending : Node × List Node} : (command : Command) →
    ending ∈ endings command → (ending.1 :: ending.2).Sublist (nesting command).labels
  | .place statement, isEnding => by
      rcases List.mem_singleton.1 isEnding with rfl
      exact List.Sublist.refl _
  | .jump .., isEnding => absurd isEnding List.not_mem_nil
  | .branch cond body rest, isEnding => by
      rw [nesting, Forest.labels, Forest.labels_append, Forest.labels, List.append_nil]
      apply List.Sublist.cons
      rcases List.mem_append.1 isEnding with inBody | inRest
      · exact (sublist_of_mem_endingsOfAll body inBody).trans (List.sublist_append_left _ _)
      · exact (sublist_of_mem_endingsOfAlternatives rest inRest).trans
          (List.sublist_append_right _ _)
  | .loop _ head _ body orelse, isEnding => by
      rw [nesting, Forest.labels]
      exact ((sublist_of_mem_endingsOfAll orelse isEnding).trans
        (List.sublist_append_right _ _)).cons _
  | .bracket bindings body, isEnding => by
      rw [nesting, Forest.labels_append]
      exact (sublist_of_mem_endingsOfAll body isEnding).trans (List.sublist_append_right _ _)
  | .guarded body handlers orelse finalbody, isEnding => by
      simp only [nesting, Forest.labels_append, ← List.append_assoc]
      rw [endings, List.mem_append, List.mem_map] at isEnding
      rcases isEnding with ⟨inner, isInner, rfl⟩ | isLast
      · apply sublist_followedBy
        simp only [List.mem_append] at isInner
        rcases isInner with inBody | inHandlers | inElse
        · split at inBody
          · exact (sublist_of_mem_endingsOfAll body inBody).trans (by simp)
          · exact absurd inBody List.not_mem_nil
        · exact (sublist_of_mem_endingsOfHandlers handlers inHandlers).trans (by simp)
        · exact (sublist_of_mem_endingsOfAll orelse inElse).trans (by simp)
      · exact (sublist_of_mem_endingsOfAll finalbody isLast).trans (List.sublist_append_right _ _)

theorem sublist_of_mem_endingsOfAll {ending : Node × List Node} : (commands : List Command) →
    ending ∈ endingsOfAll commands → (ending.1 :: ending.2).Sublist (nestingAll commands).labels
  | [], isEnding => absurd isEnding List.not_mem_nil
  | command :: rest, isEnding => by
      rw [endingsOfAll] at isEnding
      rw [nestingAll, Forest.labels_append]
      split at isEnding
      · exact (sublist_of_mem_endings command isEnding).trans (List.sublist_append_left _ _)
      · exact (sublist_of_mem_endingsOfAll rest isEnding).trans (List.sublist_append_right _ _)

theorem sublist_of_mem_endingsOfAlternatives {ending : Node × List Node} : (rest : Alternatives) →
    ending ∈ endingsOfAlternatives rest →
      (ending.1 :: ending.2).Sublist (nestingAlternatives rest).labels
  | .none, isEnding => absurd isEnding List.not_mem_nil
  | .further cond body rest, isEnding => by
      rw [nestingAlternatives, Forest.labels, Forest.labels_append, Forest.labels, List.append_nil]
      apply List.Sublist.cons
      rcases List.mem_append.1 isEnding with inBody | inRest
      · exact (sublist_of_mem_endingsOfAll body inBody).trans (List.sublist_append_left _ _)
      · exact (sublist_of_mem_endingsOfAlternatives rest inRest).trans
          (List.sublist_append_right _ _)
  | .otherwise header body, isEnding => (sublist_of_mem_endingsOfAll body isEnding).cons _

theorem sublist_of_mem_endingsOfHandlers {ending : Node × List Node} :
    (handlers : List (List Command)) → ending ∈ endingsOfHandlers handlers →
      (ending.1 :: ending.2).Sublist (nestingHandlers handlers).labels
  | [], isEnding => absurd isEnding List.not_mem_nil
  | handler :: rest, isEnding => by
      rw [nestingHandlers, Forest.labels_append]
      rcases List.mem_append.1 isEnding with inFirst | later
      · exact (sublist_of_mem_endingsOfAll handler inFirst).trans (List.sublist_append_left _ _)
      · exact (sublist_of_mem_endingsOfHandlers rest later).trans (List.sublist_append_right _ _)

end

section Mapped

variable {f : Node → Node}

theorem map_comp_followedBy (later : List Node) :
    Prod.map f (List.map f) ∘ followedBy later =
      followedBy (later.map f) ∘ Prod.map f (List.map f) := by
  funext ending
  simp [followedBy]

mutual

theorem endings_map : (command : Command) →
    endings (map f command) = (endings command).map (Prod.map f (List.map f))
  | .place _ => rfl
  | .jump .. => rfl
  | .branch cond body rest => by
      simp [map, endings, endingsOfAll_mapAll body, endingsOfAlternatives_map rest]
  | .loop _ head _ body orelse => by simp [map, endings, endingsOfAll_mapAll orelse]
  | .bracket bindings body => by simp [map, endings, endingsOfAll_mapAll body]
  | .guarded body handlers orelse finalbody => by
      simp only [map, endings, isEmpty_mapAll, isEmpty_mapHandlers, endingsOfAll_mapAll body,
        endingsOfHandlers_map handlers, endingsOfAll_mapAll orelse, endingsOfAll_mapAll finalbody,
        nestingAll_mapAll, Forest.labels_map, List.map_append, List.map_map, map_comp_followedBy]
      split <;> simp

theorem endingsOfAll_mapAll : (commands : List Command) →
    endingsOfAll (mapAll f commands) = (endingsOfAll commands).map (Prod.map f (List.map f))
  | [] => rfl
  | command :: rest => by
      rw [mapAll, endingsOfAll, endingsOfAll, isEmpty_mapAll, endings_map command,
        endingsOfAll_mapAll rest]
      split <;> rfl

theorem endingsOfAlternatives_map : (rest : Alternatives) →
    endingsOfAlternatives (mapAlternatives f rest) =
      (endingsOfAlternatives rest).map (Prod.map f (List.map f))
  | .none => rfl
  | .further cond body rest => by
      simp [mapAlternatives, endingsOfAlternatives, endingsOfAll_mapAll body,
        endingsOfAlternatives_map rest]
  | .otherwise header body => by
      simp [mapAlternatives, endingsOfAlternatives, endingsOfAll_mapAll body]

theorem endingsOfHandlers_map : (handlers : List (List Command)) →
    endingsOfHandlers (mapHandlers f handlers) =
      (endingsOfHandlers handlers).map (Prod.map f (List.map f))
  | [] => rfl
  | handler :: rest => by
      simp [mapHandlers, endingsOfHandlers, endingsOfAll_mapAll handler, endingsOfHandlers_map rest]

end

end Mapped

end Command

/-! ### Endings in lists of statements -/

namespace Node

/-- The lists of statements that a statement runs last, but for the last clause of a `try`. -/
def lastLists (statement : Node) : List (List Node) :=
  match statement.shape with
  | .conditional _ body elifs orelse =>
      body :: (elifs.map ElifClause.body ++ orelse.toList.map Node.body)
  | .whileLoop _ _ orelse => [orelse]
  | .forLoop _ _ _ orelse _ => [orelse]
  | .withBlock _ body => [body]
  | .tryBlock body handlers orelse finalbody =>
      (if handlers.isEmpty && orelse.isEmpty then [body] else []) ++
        (handlers.map ExceptHandler.statements ++ [orelse, finalbody])
  | _ => []

/-- A statement is the last one of a list, or the last one of a list that such a statement runs
last. -/
inductive ComesLast (statements : List Node) : Node → Prop where
  | here {earlier : List Node} {statement : Node} (last : statements = earlier ++ [statement]) :
      ComesLast statements statement
  | within {parent statement : Node} {earlier : List Node} (outer : ComesLast statements parent)
      (runs : earlier ++ [statement] ∈ parent.lastLists) : ComesLast statements statement

end Node

namespace Command

/-- The statements that are listed as endings. -/
def endingStatements (commands : List Command) : List Node :=
  (endingsOfAll commands).map Prod.fst

theorem endingStatements_append (earlier : List Node) (statement : Node) :
    endingStatements (ofNodes (earlier ++ [statement])) =
      (endings (ofNode statement)).map Prod.fst := by
  induction earlier with
  | nil => rfl
  | cons first earlier ih =>
      rw [← ih, List.cons_append, ofNodes, endingStatements, endingsOfAll, isEmpty_ofNodes,
        List.isEmpty_eq_false_iff.2 (by simp)]
      rfl

theorem endingStatements_subset_alternatives {list : List Command} : (rest : Alternatives) →
    list ∈ rest.lists → endingStatements list ⊆ (endingsOfAlternatives rest).map Prod.fst
  | .none, runs => absurd runs List.not_mem_nil
  | .further _ body rest, runs => by
      rw [endingsOfAlternatives, List.map_append]
      rcases List.mem_cons.1 runs with rfl | later
      · exact List.subset_append_left _ _
      · exact List.Subset.trans (endingStatements_subset_alternatives rest later)
          (List.subset_append_right _ _)
  | .otherwise _ body, runs => by
      rw [List.mem_singleton.1 runs]
      exact List.Subset.refl _

theorem endingStatements_subset_handlers {list : List Command} {handlers : List (List Command)}
    (isHandler : list ∈ handlers) :
    endingStatements list ⊆ (endingsOfHandlers handlers).map Prod.fst := by
  induction handlers with
  | nil => cases isHandler
  | cons handler rest ih =>
      rw [endingsOfHandlers, List.map_append]
      rcases List.mem_cons.1 isHandler with rfl | later
      · exact List.subset_append_left _ _
      · exact List.Subset.trans (ih later) (List.subset_append_right _ _)

theorem endingStatements_subset {statement : Node} {list : List Node}
    (runs : list ∈ statement.lastLists) (notEmpty : list ≠ []) :
    endingStatements (ofNodes list) ⊆ (endings (ofNode statement)).map Prod.fst := by
  rcases statement with ⟨shape, location⟩
  cases shape
  case conditional cond body elifs orelse =>
    have inCommand :
        ofNodes list ∈ (ofNode ⟨.conditional cond body elifs orelse, location⟩).lists :=
      ofNodes_mem_lists runs notEmpty
    rw [ofNode, endings, List.map_append]
    rcases List.mem_cons.1 inCommand with isBody | inRest
    · rw [isBody]
      exact List.subset_append_left _ _
    · exact List.Subset.trans (endingStatements_subset_alternatives _ inRest)
        (List.subset_append_right _ _)
  case whileLoop cond body orelse =>
    rw [List.mem_singleton.1 runs]
    exact List.Subset.refl _
  case forLoop targets iter body orelse declLocation =>
    rw [List.mem_singleton.1 runs]
    exact List.Subset.refl _
  case withBlock items body =>
    rw [List.mem_singleton.1 runs]
    exact List.Subset.refl _
  case tryBlock body handlers orelse finalbody =>
    have sameStatements : ∀ later, Prod.fst ∘ followedBy later = Prod.fst := fun _ => rfl
    simp only [Node.lastLists, List.mem_append, List.mem_map, List.mem_cons, List.not_mem_nil,
      or_false] at runs
    rw [ofNode, endings, isEmpty_ofHandlers, isEmpty_ofNodes]
    intro node isEnding
    simp only [List.map_append, List.map_map, sameStatements, List.mem_append]
    rcases runs with inBody | ⟨handler, isHandler, rfl⟩ | rfl | rfl
    · split at inBody
      · next isPlain =>
          rw [List.mem_singleton.1 inBody] at isEnding
          rw [if_pos isPlain]
          exact .inl (.inl isEnding)
      · exact absurd inBody List.not_mem_nil
    · have inHandlers : ofNodes handler.statements ∈ ofHandlers handlers := by
        rw [ofHandlers_eq_map]
        exact List.mem_map_of_mem isHandler
      exact .inl (.inr (.inl (endingStatements_subset_handlers inHandlers isEnding)))
    · exact .inl (.inr (.inr isEnding))
    · exact .inr isEnding
  all_goals exact absurd runs List.not_mem_nil

theorem endings_subset_of_comesLast {statements : List Node} {statement : Node}
    (comesLast : Node.ComesLast statements statement) :
    (endings (ofNode statement)).map Prod.fst ⊆ endingStatements (ofNodes statements) := by
  induction comesLast with
  | here last =>
      rw [last, endingStatements_append]
      exact List.Subset.refl _
  | within _ runs ih =>
      rw [← endingStatements_append]
      exact List.Subset.trans (endingStatements_subset runs (by simp)) ih

/-- A plain statement that comes last is listed as an ending. -/
theorem exists_mem_endingsOfAll {statements : List Node} {statement : Node}
    (comesLast : Node.ComesLast statements statement)
    (isPlain : ofNode statement = .place statement) :
    ∃ lastly, (statement, lastly) ∈ endingsOfAll (ofNodes statements) := by
  have subset := endings_subset_of_comesLast comesLast
  rw [isPlain] at subset
  rcases List.mem_map.1 (subset List.mem_cons_self) with ⟨⟨_, lastly⟩, isEnding, rfl⟩
  exact ⟨lastly, isEnding⟩

end Command

end FlowAnalysis

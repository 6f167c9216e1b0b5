import FlowAnalysis.ControlFlow.Command

/-!
# Executions of commands

An execution lists the statements that it meets, and says whether it has run to its end or stopped
at a jump. Conditions may go either way, so a command has many executions; `Command.Executes` gives
them command by command. Nothing here refers to graphs.
-/

namespace FlowAnalysis

/-- How an execution ends. -/
inductive Outcome where
  | finished
  | jumped (jump : Jump)
deriving DecidableEq, Repr

/-- Some executions, each given by the statements that it meets and by how it ends. -/
abbrev Executions := List Node → Outcome → Prop

namespace Executions

/-- The execution that meets some statements and ends. -/
def meeting (statements : List Node) (outcome : Outcome) : Executions :=
  fun trace outcome' => trace = statements ∧ outcome' = outcome

/-- The executions of either kind. -/
def either (left right : Executions) : Executions :=
  fun trace outcome => left trace outcome ∨ right trace outcome

/-- Executions that first meet some statements. -/
inductive After (statements : List Node) (later : Executions) : Executions where
  | intro {trace : List Node} {outcome : Outcome} (goesOn : later trace outcome) :
      After statements later (statements ++ trace) outcome

/-- Executions one after the other; a jump in the first ones leaves out the second ones. -/
inductive Then (first second : Executions) : Executions where
  | finished {before after : List Node} {outcome : Outcome} (ends : first before .finished)
      (goesOn : second after outcome) : Then first second (before ++ after) outcome
  | jumped {trace : List Node} {jump : Jump} (leaves : first trace (.jumped jump)) :
      Then first second trace (.jumped jump)

/-- The executions of a loop. Its head is met before each round. What comes otherwise is executed
when the loop is left through the head, so its jumps are not those of the loop. -/
inductive Rounds (head : Node) (body orelse : Executions) : Executions where
  | left {trace : List Node} {outcome : Outcome} (otherwise : orelse trace outcome) :
      Rounds head body orelse (head :: trace) outcome
  | broken {trace : List Node} (breaks : body trace (.jumped .breaking)) :
      Rounds head body orelse (head :: trace) .finished
  | raised {trace : List Node} (raises : body trace (.jumped .raising)) :
      Rounds head body orelse (head :: trace) (.jumped .raising)
  | again {trace later : List Node} {outcome outcome' : Outcome} (round : body trace outcome)
      (goesOn : outcome = .finished ∨ outcome = .jumped .continuing)
      (rest : Rounds head body orelse later outcome') :
      Rounds head body orelse (head :: (trace ++ later)) outcome'

/-- The executions of a body with a last clause, and with handlers if there are any. A body that has
run to its end goes on in the clause or, as if its last statement had raised, in a handler. -/
inductive Guarded (body : Executions) (handlers? : Option Executions) (orelse : Executions) :
    Executions where
  | passed {before after : List Node} {outcome : Outcome} (ends : body before .finished)
      (otherwise : orelse after outcome) :
      Guarded body handlers? orelse (before ++ after) outcome
  | handled {before after : List Node} {outcome outcome' : Outcome} {handlers : Executions}
      (ends : body before outcome)
      (caught : outcome = .finished ∨ outcome = .jumped .raising)
      (guarded : handlers? = some handlers) (goesOn : handlers after outcome') :
      Guarded body handlers? orelse (before ++ after) outcome'
  | unhandled {trace : List Node} (raises : body trace (.jumped .raising))
      (unguarded : handlers? = none) : Guarded body handlers? orelse trace (.jumped .raising)
  | left {trace : List Node} {jump : Jump} (leaves : body trace (.jumped jump))
      (notRaising : jump ≠ .raising) : Guarded body handlers? orelse trace (.jumped jump)

@[simp]
theorem after_nil (later : Executions) : After [] later = later := by
  funext trace outcome
  refine propext ⟨?_, .intro⟩
  rintro ⟨goesOn⟩
  exact goesOn

/-- Without handlers, a body and its last clause run one after the other. -/
theorem guarded_none (body orelse : Executions) :
    Guarded body none orelse = Then body orelse := by
  funext trace outcome
  refine propext ⟨?_, ?_⟩
  · rintro (⟨ends, otherwise⟩ | ⟨_, _, guarded, _⟩ | ⟨raises, _⟩ | ⟨leaves, _⟩)
    · exact .finished ends otherwise
    · cases guarded
    · exact .jumped raises
    · exact .jumped leaves
  · rintro (⟨ends, otherwise⟩ | ⟨leaves⟩)
    · exact .passed ends otherwise
    · rename_i jump
      by_cases raising : jump = .raising
      · subst raising
        exact .unhandled leaves rfl
      · exact .left leaves raising

end Executions

namespace Command

open Executions

mutual

/-- The executions of a command. -/
def Executes : Command → Executions
  | .place statement => meeting [statement] .finished
  | .jump target statement => meeting [statement] (.jumped target)
  | .branch cond body rest => After [cond] (either (AllExecute body) (AlternativesExecute rest))
  | .loop _ head _ body orelse => Rounds head (AllExecute body) (AllExecute orelse)
  | .bracket bindings body => After bindings (AllExecute body)
  | .guarded body handlers orelse finalbody =>
      Then
        (Guarded (AllExecute body)
          (if handlers.isEmpty then none else some (SomeExecutes handlers)) (AllExecute orelse))
        (AllExecute finalbody)

/-- The executions of commands one after the other. -/
def AllExecute : List Command → Executions
  | [] => meeting [] .finished
  | command :: rest => Then (Executes command) (AllExecute rest)

/-- The executions of what comes after a condition that does not hold. -/
def AlternativesExecute : Alternatives → Executions
  | .none => meeting [] .finished
  | .further cond body rest => After [cond] (either (AllExecute body) (AlternativesExecute rest))
  | .otherwise header body => After [header] (AllExecute body)

/-- The executions of one of some handlers. -/
def SomeExecutes : List (List Command) → Executions
  | [] => fun _ _ => False
  | handler :: rest => either (AllExecute handler) (SomeExecutes rest)

end

mutual

/-- Every command can be executed. -/
theorem exists_executes : (command : Command) → ∃ trace outcome, Executes command trace outcome
  | .place statement => ⟨_, _, rfl, rfl⟩
  | .jump target statement => ⟨_, _, rfl, rfl⟩
  | .branch cond body rest => by
      rcases exists_allExecute body with ⟨trace, outcome, executed⟩
      exact ⟨_, outcome, .intro (.inl executed)⟩
  | .loop kind head loopVariables body orelse => by
      rcases exists_allExecute orelse with ⟨trace, outcome, executed⟩
      exact ⟨_, outcome, .left executed⟩
  | .bracket bindings body => by
      rcases exists_allExecute body with ⟨trace, outcome, executed⟩
      exact ⟨_, outcome, .intro executed⟩
  | .guarded body handlers orelse finalbody => by
      rcases exists_allExecute body with ⟨trace, outcome, executed⟩
      rcases exists_allExecute orelse with ⟨elseTrace, elseOutcome, elseExecuted⟩
      rcases exists_allExecute finalbody with ⟨lastTrace, lastOutcome, lastExecuted⟩
      have guarded : ∃ trace outcome, Guarded (AllExecute body)
          (if handlers.isEmpty then none else some (SomeExecutes handlers)) (AllExecute orelse)
          trace outcome := by
        by_cases raises : outcome = .jumped .raising
        · subst raises
          cases handlers with
          | nil => exact ⟨_, _, .unhandled executed rfl⟩
          | cons handler rest =>
              rcases exists_someExecutes handler rest with ⟨after, outcome, handled⟩
              exact ⟨_, outcome, .handled executed (.inr rfl) rfl handled⟩
        · cases outcome with
          | finished => exact ⟨_, elseOutcome, .passed executed elseExecuted⟩
          | jumped jump => exact ⟨_, _, .left executed fun raising => raises (raising ▸ rfl)⟩
      rcases guarded with ⟨guardedTrace, guardedOutcome, guarded⟩
      cases guardedOutcome with
      | finished => exact ⟨_, lastOutcome, .finished guarded lastExecuted⟩
      | jumped jump => exact ⟨_, _, .jumped guarded⟩

theorem exists_allExecute :
    (commands : List Command) → ∃ trace outcome, AllExecute commands trace outcome
  | [] => ⟨_, _, rfl, rfl⟩
  | command :: rest => by
      rcases exists_executes command with ⟨trace, outcome, executed⟩
      cases outcome with
      | finished =>
          rcases exists_allExecute rest with ⟨later, outcome, goesOn⟩
          exact ⟨_, outcome, .finished executed goesOn⟩
      | jumped jump => exact ⟨_, _, .jumped executed⟩

theorem exists_someExecutes (handler : List Command) :
    (rest : List (List Command)) → ∃ trace outcome, SomeExecutes (handler :: rest) trace outcome := by
  intro rest
  rcases exists_allExecute handler with ⟨trace, outcome, executed⟩
  exact ⟨trace, outcome, .inl executed⟩

end

end Command

end FlowAnalysis

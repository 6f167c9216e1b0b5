import FlowAnalysis.Proofs.Analysis.Growth
import FlowAnalysis.Proofs.ControlFlow.LoopHeads
import Mathlib.Data.Finset.Prod
import Mathlib.Logic.Hydra

/-!
# Pending blocks run out

Once the definitions and uses of all statements are known, an iteration comes to an end from
whatever states it starts. What makes it go on is that states change. That of a loop head changes
once in any way; from then on its statement has left it behind, so it loses no keys, and there are
only finitely many keys to gain. In between, the heads stay as they are: a block that is taken from
the pending ones is replaced by blocks onward from it, and going onward does not come back without
passing a head.
-/

namespace FlowAnalysis

namespace Analysis

/-- All keys of a state are among some. -/
def KeysAmong (keys : Finset String) (state : DefUse) : Prop :=
  ∀ level, ∀ key ∈ (state.level level).keys, key ∈ keys

/-- The states that are stored and the statements of a graph have their keys among some. -/
structure Bounded (known : Node → DefUse) (graph : Graph) (keys : Finset String)
    (progress : Progress) : Prop where
  states : ∀ id, KeysAmong keys (progress.state id)
  statements : ∀ statement ∈ graph.reachableStatements, KeysAmong keys (known statement)

open Classical in
/-- The heads whose states their statements have not left behind. -/
noncomputable def unsettled (known : Node → DefUse) (graph : Graph) (heads : List BlockId)
    (progress : Progress) : Finset BlockId :=
  heads.toFinset.filter fun head => ¬Stored known graph (fun _ => True) progress head

/-- The keys that the states of heads lack, at each level. -/
def missing (keys : Finset String) (heads : List BlockId) (progress : Progress) :
    Finset (BlockId × Level × String) :=
  (heads.toFinset ×ˢ Level.all.toFinset ×ˢ keys).filter fun (head, level, key) =>
    key ∉ ((progress.state head).level level).keys

/-- How far an iteration is from its end: the heads come first, the pending blocks last. -/
noncomputable def distance (known : Node → DefUse) (graph : Graph) (heads : List BlockId)
    (keys : Finset String) (progress : Progress) : Nat × Nat × Multiset BlockId :=
  ((unsettled known graph heads progress).card, (missing keys heads progress).card,
    progress.pending)

/-- One distance is less than another one. -/
def Nearer (graph : Graph) (heads : List BlockId) :
    Nat × Nat × Multiset BlockId → Nat × Nat × Multiset BlockId → Prop :=
  Prod.Lex Nat.lt (Prod.Lex Nat.lt (Relation.CutExpand (graph.Onward heads)))

variable {known : Node → DefUse} {graph : Graph} {keys : Finset String} {heads : List BlockId}
  {progress progress' : Progress} {id : BlockId} {pending : List BlockId} {state : DefUse}

theorem wellFounded_nearer (cutset : graph.Cutset heads) : WellFounded (Nearer graph heads) :=
  Nat.lt_wfRel.wf.prod_lex (Nat.lt_wfRel.wf.prod_lex cutset.wellFounded.cutExpand)

/-! ### Finitely many keys -/

theorem KeysAmong.update {statement : DefUse} (among : KeysAmong keys state)
    (amongStatement : KeysAmong keys statement) : KeysAmong keys (state.update statement) := by
  intro level key isKey
  rcases DefUse.mem_keys_update.1 isKey with spares | isGenerated
  · exact among level key spares.mem_keys
  · rcases KeyedSet.mem_keys.1 isGenerated with ⟨reference, isMember, rfl⟩
    rcases DefUse.binds_of_mem_generated isMember with ⟨source, -, isBound⟩
    exact amongStatement source _ (KeyedSet.key_mem_keys isBound)

theorem KeysAmong.stateAfter {statements : List Node} (among : KeysAmong keys state)
    (amongStatements : ∀ statement ∈ statements, KeysAmong keys (known statement)) :
    KeysAmong keys (stateAfter known state statements) := by
  induction statements generalizing state with
  | nil => exact among
  | cons first rest ih =>
      rcases List.forall_mem_cons.1 amongStatements with ⟨amongFirst, amongRest⟩
      exact ih (among.update amongFirst) amongRest

theorem exists_bounded (known : Node → DefUse) (graph : Graph) (progress : Progress) :
    ∃ keys, Bounded known graph keys progress := by
  let all := progress.states ++ graph.reachableStatements.map known
  let keys := all.flatMap fun state => Level.all.flatMap fun level => (state.level level).keys
  have among : ∀ state ∈ all, KeysAmong keys.toFinset state := by
    intro state isGiven level key isKey
    exact List.mem_toFinset.2 (List.mem_flatMap.2 ⟨state, isGiven,
      List.mem_flatMap.2 ⟨level, level.mem_all, isKey⟩⟩)
  refine ⟨keys.toFinset, fun id => ?_, fun statement isReachable =>
    among _ (List.mem_append_right _ (List.mem_map_of_mem isReachable))⟩
  rw [Progress.state]
  cases stateEq : progress.states[id]? with
  | none =>
      intro level key isKey
      simp at isKey
  | some state => exact among state (List.mem_append_left _ (List.mem_of_getElem? stateEq))

theorem Bounded.leaving (bounded : Bounded known graph keys progress)
    (isReachable : id ∈ graph.reachable) : KeysAmong keys (leaving known graph id progress) := by
  refine KeysAmong.stateAfter (fun level key isKey => ?_) fun statement isPlaced =>
    bounded.statements statement (statements_subset_reachableStatements isReachable isPlaced)
  rcases keys_arriving.1 isKey with isStored | ⟨source, -, isPassed⟩
  · exact bounded.states id level key isStored
  · exact bounded.states source level key isPassed

theorem Bounded.visit (bounded : Bounded known graph keys progress)
    (isReachable : id ∈ graph.reachable) (inRange : id < progress.states.length) :
    Bounded known graph keys (visit known graph id progress) := by
  refine ⟨fun other => ?_, bounded.statements⟩
  rw [state_visit inRange]
  split
  · exact bounded.leaving isReachable
  · exact bounded.states other

/-! ### One visit -/

theorem mem_unsettled : id ∈ unsettled known graph heads progress ↔
    id ∈ heads ∧ ¬Stored known graph (fun _ => True) progress id := by
  simp [unsettled]

theorem unsettled_visit_subset (inRange : id < progress.states.length) :
    unsettled known graph heads (visit known graph id progress) ⊆
      unsettled known graph heads progress := by
  intro head isUnsettled
  rcases mem_unsettled.1 isUnsettled with ⟨isHead, notStored⟩
  exact mem_unsettled.2 ⟨isHead, fun stored => notStored (stored.visit inRange trivial)⟩

theorem missing_subset
    (grown : ∀ head ∈ heads, KeysIn (progress.state head) (progress'.state head)) :
    missing keys heads progress' ⊆ missing keys heads progress := by
  rintro ⟨head, level, key⟩ isMissing
  rcases Finset.mem_filter.1 isMissing with ⟨isMember, lacks⟩
  have isHead := List.mem_toFinset.1 (Finset.mem_product.1 isMember).1
  exact Finset.mem_filter.2 ⟨isMember, fun isKey => lacks (grown head isHead level isKey)⟩

/-- The state of a head that is settled gains a key if it changes. -/
theorem missing_visit_ssubset (bounded : Bounded known graph keys progress)
    (isReachable : id ∈ graph.reachable) (inRange : id < progress.states.length)
    (isHead : id ∈ heads)
    (grows : KeysIn (progress.state id) (leaving known graph id progress))
    (changed : (leaving known graph id progress).sameRefs (progress.state id) = false) :
    missing keys heads (visit known graph id progress) ⊂ missing keys heads progress := by
  have stateEq : (visit known graph id progress).state id = leaving known graph id progress := by
    rw [state_visit inRange, if_pos ⟨rfl, changed⟩]
  have gains : ∃ level, ∃ key ∈ ((leaving known graph id progress).level level).keys,
      key ∉ ((progress.state id).level level).keys := by
    by_contra gainsNothing
    push Not at gainsNothing
    rw [DefUse.sameRefs_iff.2 fun level key => ⟨gainsNothing level key, fun isKey =>
      grows level isKey⟩] at changed
    cases changed
  rcases gains with ⟨level, key, isGained, lacked⟩
  refine Finset.ssubset_iff_subset_ne.2 ⟨missing_subset fun head _ => ?_, fun same => ?_⟩
  · rw [state_visit inRange]
    split
    · next isChanged => exact isChanged.1 ▸ grows
    · exact keysIn_refl _
  · have isMissing : (id, level, key) ∈ missing keys heads progress := by
      refine Finset.mem_filter.2 ⟨Finset.mem_product.2 ⟨List.mem_toFinset.2 isHead,
        Finset.mem_product.2 ⟨List.mem_toFinset.2 level.mem_all, ?_⟩⟩, lacked⟩
      exact bounded.leaving isReachable level key isGained
    rw [← same] at isMissing
    exact (Finset.mem_filter.1 isMissing).2 (stateEq ▸ isGained)

/-- Other blocks are replaced by blocks onward from them. -/
theorem cutExpand_pending_visit (isPending : progress.pending = id :: pending)
    (isReachable : id ∈ graph.reachable)
    (noHead : (leaving known graph id progress).sameRefs (progress.state id) = false → id ∉ heads) :
    Relation.CutExpand (graph.Onward heads) ((visit known graph id progress).pending : Multiset _)
      (progress.pending : Multiset _) := by
  rcases exists_pending_visit_eq known graph id progress with
    ⟨extra, pendingEq, successors, unchanged⟩
  refine ⟨extra, id, fun other isExtra => ?_, ?_⟩
  · have changed : (leaving known graph id progress).sameRefs (progress.state id) = false := by
      rw [← Bool.not_eq_true]
      intro same
      rw [unchanged same] at isExtra
      exact absurd isExtra (Multiset.notMem_zero other)
    exact ⟨isReachable, noHead changed, successors other (Multiset.mem_coe.1 isExtra)⟩
  · rw [pendingEq, isPending, List.tail_cons, ← Multiset.coe_add, ← Multiset.cons_coe,
      ← Multiset.singleton_add]
    ac_rfl

/-- Every visit brings the end nearer. -/
theorem nearer_visit (cutset : graph.Cutset heads) (wellFormed : graph.WellFormed)
    (bounded : Bounded known graph keys progress) (fits : Fits graph progress)
    (isPending : progress.pending = id :: pending) :
    Nearer graph heads (distance known graph heads keys (visit known graph id progress))
      (distance known graph heads keys progress) := by
  have isReachable := fits.isReachable isPending
  have inRange := fits.lt_length wellFormed isPending
  have noneUnsettled : unsettled known graph heads (visit known graph id progress) ⊆
      unsettled known graph heads progress := unsettled_visit_subset inRange
  -- Only a head whose state changes moves one of the first two components.
  by_cases headChanges : id ∈ heads ∧
      (leaving known graph id progress).sameRefs (progress.state id) = false
  · rcases headChanges with ⟨isHead, changed⟩
    by_cases stored : Stored known graph (fun _ => True) progress id
    · rcases cutset.statements id isHead with ⟨statement, single⟩
      have grows := stored.keysIn_leaving_of_single single
      exact Prod.Lex.right' _ (Finset.card_le_card noneUnsettled) (.left _ _ (Finset.card_lt_card
        (missing_visit_ssubset bounded isReachable inRange isHead grows changed)))
    · have settles : Stored known graph (fun _ => True) (visit known graph id progress) id := by
        refine .inr ⟨progress.arriving graph id, trivial, ?_⟩
        rw [state_visit inRange, if_pos ⟨rfl, changed⟩]
        rfl
      refine .left _ _ (Finset.card_lt_card (Finset.ssubset_iff_subset_ne.2 ⟨noneUnsettled, ?_⟩))
      intro same
      have isUnsettled := mem_unsettled.2 ⟨isHead, stored⟩
      rw [← same] at isUnsettled
      exact (mem_unsettled.1 isUnsettled).2 settles
  · have sameHeads : ∀ head ∈ heads,
        (visit known graph id progress).state head = progress.state head := by
      intro head isHead
      rw [state_visit inRange, if_neg]
      rintro ⟨rfl, changed⟩
      exact headChanges ⟨isHead, changed⟩
    have noneMissing : missing keys heads (visit known graph id progress) ⊆
        missing keys heads progress :=
      missing_subset fun head isHead => sameHeads head isHead ▸ keysIn_refl _
    have replaced := cutExpand_pending_visit isPending isReachable fun changed isHead =>
      headChanges ⟨isHead, changed⟩
    exact Prod.Lex.right' _ (Finset.card_le_card noneUnsettled)
      (Prod.Lex.right' _ (Finset.card_le_card noneMissing) replaced)

/-- Whatever is stored for the blocks of a graph and whatever blocks are pending, there is a run to
the end. -/
theorem exists_run (cutset : graph.Cutset heads) (wellFormed : graph.WellFormed)
    (known : Node → DefUse) (fits : Fits graph progress) :
    ∃ visits last, Run known graph progress visits last := by
  rcases exists_bounded known graph progress with ⟨keys, bounded⟩
  generalize away : distance known graph heads keys progress = steps
  induction steps using (wellFounded_nearer cutset).induction generalizing progress with
  | _ steps ih =>
  subst away
  cases isPending : progress.pending with
  | nil => exact ⟨[], progress, .done isPending⟩
  | cons id pending =>
      have bounded' := bounded.visit (fits.isReachable isPending)
        (fits.lt_length wellFormed isPending)
      rcases ih _ (nearer_visit cutset wellFormed bounded fits isPending)
        (fits.visit wellFormed isPending) bounded' rfl with ⟨visits, last, run⟩
      rw [visit_eq isPending] at run
      exact ⟨id :: visits, last, .step isPending run⟩

end Analysis

end FlowAnalysis

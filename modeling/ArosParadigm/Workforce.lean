import ArosParadigm.Requests
import Mathlib.Logic.Function.Iterate

/-!
# Workforce

The part of a world that decides who is paid: the registry of nodes and the
participations of the open epochs. Each stage of a request leaves it as it is,
records work, adds participations, or forgets those of one epoch.
-/

namespace ArosParadigm

/-- Where work is remembered. -/
structure Workforce where
  nodes : Keyed.Table NodeEntity.id
  participation : ℚ → Option ℕ
  arrays : List ParticipationArray

namespace World

/-- The workforce of a world. -/
def workforce (world : World) : Workforce :=
  ⟨world.nodes, world.participation, world.arrays⟩

variable {world after : World}

theorem participations_of_workforce
    (same : after.workforce = world.workforce) (epochNumber : ℚ) :
    after.participations epochNumber =
      world.participations epochNumber := by
  have participation : after.participation = world.participation :=
    congrArg Workforce.participation same
  have arrays : after.arrays = world.arrays :=
    congrArg Workforce.arrays same
  unfold participations entries
  rw [participation, arrays]

/-- An epoch keeps its participations in an array of its own. -/
def Kept (world : World) : Prop :=
  ∀ epochNumber reference,
    world.participation epochNumber = some reference →
      ∃ array, world.arrays[reference]? = some array ∧
        array.epoch = epochNumber

theorem kept_initial : initial.Kept := by
  intro epochNumber reference found
  cases found

theorem Kept.of_workforce (kept : world.Kept)
    (same : after.workforce = world.workforce) : after.Kept := by
  have participation : after.participation = world.participation :=
    congrArg Workforce.participation same
  have arrays : after.arrays = world.arrays :=
    congrArg Workforce.arrays same
  unfold Kept
  rw [participation, arrays]
  exact kept

theorem Kept.of_participation (kept : world.Kept)
    (participation : after.participation = world.participation)
    (arrays : after.arrays = world.arrays) : after.Kept := by
  unfold Kept
  rw [participation, arrays]
  exact kept

/-- A push adds its entries to one epoch. -/
theorem participations_push (kept : world.Kept) (epochNumber : ℚ)
    (added : List Participation) (tested : ℚ) :
    (world.push epochNumber added).participations tested =
      if tested = epochNumber then
        world.participations epochNumber ++ added
      else
        world.participations tested := by
  unfold participations entries
  rw [push_participation, push_arrays]
  by_cases same : tested = epochNumber
  · subst same
    rw [if_pos rfl, Function.update_self]
    cases stored : world.participation tested with
    | none =>
        simp
    | some reference =>
        obtain ⟨array, found, _⟩ := kept tested reference stored
        simp [found]
  · rw [if_neg same, Function.update_of_ne same]
    cases stored : world.participation tested with
    | none =>
        rfl
    | some reference =>
        obtain ⟨array, found, ownEpoch⟩ := kept tested reference stored
        cases changed : world.participation epochNumber with
        | none =>
            have bound : reference < world.arrays.length :=
              (List.getElem?_eq_some_iff.mp found).1
            simp [List.getElem?_append_left bound]
        | some other =>
            obtain ⟨otherArray, otherFound, otherEpoch⟩ :=
              kept epochNumber other changed
            have different : other ≠ reference := by
              intro equal
              subst equal
              rw [found] at otherFound
              cases otherFound
              exact same (ownEpoch.symm.trans otherEpoch)
            simp [List.getElem?_modify, different, found]

theorem Kept.push (kept : world.Kept) (epochNumber : ℚ)
    (added : List Participation) :
    (world.push epochNumber added).Kept := by
  intro tested reference found
  rw [push_participation] at found
  rw [push_arrays]
  by_cases same : tested = epochNumber
  · subst same
    rw [Function.update_self] at found
    cases stored : world.participation tested with
    | none =>
        rw [stored] at found
        cases found
        exact ⟨⟨tested, added⟩, by simp, rfl⟩
    | some known =>
        rw [stored] at found
        cases found
        obtain ⟨array, foundArray, ownEpoch⟩ := kept tested known stored
        exact ⟨{ array with items := array.items ++ added },
          by simp [foundArray], ownEpoch⟩
  · rw [Function.update_of_ne same] at found
    obtain ⟨array, foundArray, ownEpoch⟩ := kept tested reference found
    cases changed : world.participation epochNumber with
    | none =>
        have bound : reference < world.arrays.length :=
          (List.getElem?_eq_some_iff.mp foundArray).1
        exact ⟨array, by simp [List.getElem?_append_left bound,
          foundArray], ownEpoch⟩
    | some other =>
        by_cases here : other = reference
        · subst here
          exact ⟨{ array with items := array.items ++ added },
            by simp [foundArray], ownEpoch⟩
        · exact ⟨array, by simp [here, foundArray],
            ownEpoch⟩

theorem participations_forget (epochNumber tested : ℚ) :
    (world.forget epochNumber).participations tested =
      if tested = epochNumber then []
      else world.participations tested := by
  unfold participations
  rw [forget_participation]
  by_cases same : tested = epochNumber
  · rw [if_pos same, same, Function.update_self]
    rfl
  · rw [if_neg same, Function.update_of_ne same]
    rfl

theorem Kept.forget (kept : world.Kept) (epochNumber : ℚ) :
    (world.forget epochNumber).Kept := by
  intro tested reference found
  rw [forget_participation] at found
  by_cases same : tested = epochNumber
  · rw [same, Function.update_self] at found
    cases found
  · rw [Function.update_of_ne same] at found
    exact kept tested reference found

end World

namespace Orchestrator

variable {env : Environment} {world : World}

theorem workforce_observedWorld :
    (observedWorld env world).workforce = world.workforce := by
  unfold observedWorld AllSeeingEye.comparedWorld
  split <;> rfl

theorem workforce_inadmissibleWorld (body : RunProcessDto) :
    (inadmissibleWorld env world body).workforce = world.workforce :=
  rfl

theorem workforce_verdictWorld (body : RunProcessDto) :
    (verdictWorld env world body).workforce =
      (requestedWorld env world body).workforce := by
  unfold verdictWorld Pot.verifyWorld
  split <;> rfl

/-- A settlement adds the participations of the assigned nodes. -/
theorem workforce_settledWorld (processId : String) (amount epoch : ℚ)
    (nodes : List String) :
    (settledWorld env world processId amount epoch nodes).workforce =
      (world.push epoch
        (nodes.map fun nodeId => ⟨processId, nodeId⟩)).workforce := by
  refine workforce_observedWorld.trans ?_
  unfold recordedWorld balancedWorld Commission.accruedWorld
    Commission.openedWorld
  split <;> rfl

theorem workforce_reportedWorld (epoch : ℚ) (result : FinalizeResult) :
    (reportedWorld env world epoch result).workforce =
      world.workforce :=
  workforce_observedWorld

/-- A finalization forgets the participations of its epoch. -/
theorem workforce_finalizedWorld (row : Epoch) (epochNumber : ℚ)
    (weights : Commission.Weights) :
    (Commission.finalizedWorld env world row epochNumber
      weights).workforce = (world.forget epochNumber).workforce := by
  obtain ⟨_, _, _, _, paid⟩ := Commission.payWorld_eq env
    (Commission.payments weights row.totalFees) world
  unfold Commission.finalizedWorld
  rw [paid]
  rfl

/-! ## The registry -/

def defaultRoster : List NodeEntity :=
  defaultNodes.map fun node => Nodes.freshNode node.1 node.2

/-- The rows of the registry once the assigned nodes are resolved. -/
def staffed (rows : List NodeEntity) :
    Option (List String) → List NodeEntity
  | some (_ :: _) => rows
  | _ => if rows = [] then defaultRoster else rows

/-- The assigned nodes. -/
def assigned (rows : List NodeEntity) :
    Option (List String) → List String
  | some (first :: rest) => first :: rest
  | _ =>
      ((staffed rows none).filter fun node =>
        node.status = .active).map NodeEntity.id

/-- The rows after one unit of successful work for each listed id. -/
def work (ids : List String) (rows : List NodeEntity) :
    List NodeEntity :=
  rows.map fun node =>
    (fun node => Nodes.worked node true)^[ids.count node.id] node

theorem total_worked (node : NodeEntity) (rounds : ℕ) :
    ((fun node => Nodes.worked node true)^[rounds] node).total =
      node.total + rounds := by
  induction rounds generalizing node with
  | zero =>
      rfl
  | succ rounds inductionHypothesis =>
      rw [Function.iterate_succ_apply, inductionHypothesis]
      change node.total + 1 + rounds = _
      omega

theorem successes_worked (node : NodeEntity) (rounds : ℕ) :
    ((fun node => Nodes.worked node true)^[rounds] node).successes =
      node.successes + rounds := by
  induction rounds generalizing node with
  | zero =>
      rfl
  | succ rounds inductionHypothesis =>
      rw [Function.iterate_succ_apply, inductionHypothesis]
      change node.successes + 1 + rounds = _
      omega

theorem rows_rosterWorld (explicit : Option (List String)) :
    (rosterWorld env world explicit).nodes.rows =
      staffed world.nodes.rows explicit := by
  have implicit : (if world.nodes.rows = [] then
      enrolledWorld env world defaultNodes else world).nodes.rows =
        if world.nodes.rows = [] then defaultRoster
        else world.nodes.rows := by
    split
    · next empty =>
        have nodes : world.nodes = .empty := by
          cases isNodes : world.nodes with
          | mk rows unique =>
              rw [isNodes] at empty
              cases empty
              rfl
        simp only [enrolledWorld, defaultNodes, List.foldl_cons,
          List.foldl_nil, Nodes.registered, World.append_nodes,
          World.saveNode_nodes, nodes]
        rfl
    · rfl
  rcases explicit with _ | (_ | ⟨first, rest⟩)
  · exact implicit
  · exact implicit
  · rfl

theorem assignedNodes_eq (explicit : Option (List String)) :
    assignedNodes env world explicit =
      assigned world.nodes.rows explicit := by
  rcases explicit with _ | (_ | ⟨first, rest⟩)
  · unfold assignedNodes assigned
    rw [rows_rosterWorld]
  · unfold assignedNodes assigned
    rw [rows_rosterWorld]
  · rfl

/-- A save of a row with a stored key replaces that row. -/
theorem rows_save_of_find? {table : Keyed.Table NodeEntity.id}
    {row stored : NodeEntity}
    (found : table.find? row.id = some stored) :
    (table.save row).rows =
      table.rows.map fun tested =>
        if tested.id = row.id then row else tested := by
  obtain ⟨rows, unique⟩ := table
  change (rows.find? _) = some stored at found
  change Keyed.upsert NodeEntity.id row rows = _
  induction rows with
  | nil =>
      cases found
  | cons head rest inductionHypothesis =>
      obtain ⟨fresh, restUnique⟩ := List.nodup_cons.mp unique
      by_cases same : head.id = row.id
      · have others : (rest.map fun tested =>
            if tested.id = row.id then row else tested) = rest := by
          refine (List.map_congr_left ?_).trans (List.map_id rest)
          intro tested member
          refine if_neg ?_
          intro equal
          exact fresh (same.trans equal.symm ▸
            List.mem_map_of_mem member)
        simp [Keyed.upsert, same, others]
      · rw [List.find?_cons, decide_eq_false same] at found
        simp [Keyed.upsert, same, inductionHypothesis restUnique found]

/-- Work changes rows in place, up to the first id without a row. -/
theorem rows_workedWorld (ids : List String) :
    (workedWorld world ids).nodes.rows =
      work (ids.takeWhile fun id => (world.nodes.find? id).isSome)
        world.nodes.rows := by
  induction ids generalizing world with
  | nil =>
      simp [workedWorld, work]
  | cons id rest inductionHypothesis =>
      rw [workedWorld]
      cases found : world.nodes.find? id with
      | none =>
          simp [found, work]
      | some node =>
          have key : (Nodes.worked node true).id = id :=
            (Nodes.worked_id node true).trans
              (Keyed.Table.key_of_find? found)
          have same : ∀ other,
              ((world.saveNode (Nodes.worked node true)).nodes.find?
                other).isSome = (world.nodes.find? other).isSome := by
            intro other
            have missing := isNone_find?_work found other
            simpa [← Option.not_isSome] using missing
          rw [inductionHypothesis, List.takeWhile_cons, found,
            World.saveNode_nodes,
            rows_save_of_find? (key.symm ▸ found)]
          simp only [← World.saveNode_nodes, same, Option.isSome_some,
            if_true]
          unfold work
          rw [List.map_map]
          apply List.map_congr_left
          intro tested member
          rw [Function.comp_apply, key, List.count_cons]
          by_cases here : tested.id = id
          · have isNode : tested = node := by
              have listed := Keyed.Table.find?_of_mem member
              rw [here, found] at listed
              exact (Option.some.inj listed).symm
            subst isNode
            rw [if_pos here, Nodes.worked_id, here]
            simp [Function.iterate_succ]
          · simp [here, Ne.symm here]

end Orchestrator

end ArosParadigm

import ArosParadigm.Views

/-!
# Nodes

`NodesService` of `src/nodes/nodes.service.ts`: the registry of nodes, their
work counters, and the receipts of their payments.
-/

namespace ArosParadigm.Nodes

/-- The row that `register` creates. -/
def freshNode (id type : String) : NodeEntity where
  id := id
  type := type
  uptime := 1
  successes := 0
  total := 0
  status := .active
  weight := 1
  reputation := 1

/-- `register(id, type)`. -/
def register (id type : String) : Service NodeEntity := do
  let saved := freshNode id type
  ask (.saveNode saved)
  let _ ← ask (.append "node.registered"
    (.nodeRegistered saved.id saved.type saved.uptime saved.reputation
      saved.weight))
  return saved

def list : Service (List NodeEntity) :=
  ask .listNodes

/-- `get(id)`. -/
def get (id : String) : Service (Option NodeEntity) :=
  ask (.findNode id)

/-- The message of a missing node. -/
def notRegistered (id : String) : ServiceError :=
  .notFound ("Node " ++ id ++ " is not registered")

def requireNode (id : String) : Service NodeEntity := do
  match ← ask (.findNode id) with
  | some node => return node
  | none => .fail (notRegistered id)

/-- `computeReputation(successes, total, uptime)`. -/
def computeReputation (successes total : ℕ) (uptime : ℚ) : ℚ :=
  if total = 0 then 1 else (successes / total : ℚ) * uptime

/-- `computeWeight(reputation, uptime)`. -/
def computeWeight (reputation uptime : ℚ) : ℚ :=
  reputation * uptime

/-- The row after one unit of work. -/
def worked (node : NodeEntity) (success : Bool) : NodeEntity :=
  let total := node.total + 1
  let successes := if success then node.successes + 1 else node.successes
  let reputation := computeReputation successes total node.uptime
  { node with
    total := total
    successes := successes
    reputation := reputation
    weight := computeWeight reputation node.uptime }

/-- `recordExecution(id, success)`. -/
def recordExecution (id : String) (success : Bool) :
    Service NodeEntity := do
  let node ← requireNode id
  let row := worked node success
  ask (.saveNode row)
  return row

def currentWeight (id : String) : Service ℚ := do
  let node ← requireNode id
  return node.weight

/-- `receivePayment(id, amount)`. -/
def receivePayment (id : String) (amount : ℚ) : Service Unit := do
  let node ← requireNode id
  let _ ← ask (.append "node.payment.received"
    (.paymentReceived node.id amount node.weight))
  return ()

/-! ## Running alone -/

section Alone

open Await

variable {env : Environment} {world : World}

/-- The world after `register`. -/
def registered (env : Environment) (world : World) (id type : String) :
    World :=
  (world.saveNode (freshNode id type)).append env "node.registered"
    (.nodeRegistered id type 1 1 1)

@[simp]
theorem run_register (id type : String) :
    run (machine env) (register id type) world =
      (.returned (freshNode id type), registered env world id type) :=
  rfl

@[simp]
theorem run_list :
    run (machine env) list world = (.returned world.nodes.rows, world) :=
  rfl

theorem run_requireNode_of_some {id : String} {node : NodeEntity}
    (found : world.nodes.find? id = some node) :
    run (machine env) (requireNode id) world =
      (.returned node, world) := by
  rw [requireNode, run_bind_of_returned (run_findNode env world id), found]
  rfl

theorem run_requireNode_of_none {id : String}
    (missing : world.nodes.find? id = none) :
    run (machine env) (requireNode id) world =
      (.threw (notRegistered id), world) := by
  rw [requireNode, run_bind_of_returned (run_findNode env world id),
    missing]
  rfl

theorem run_recordExecution_of_some {id : String} {node : NodeEntity}
    (found : world.nodes.find? id = some node) (success : Bool) :
    run (machine env) (recordExecution id success) world =
      (.returned (worked node success),
        world.saveNode (worked node success)) := by
  rw [recordExecution, run_bind_of_returned (run_requireNode_of_some found)]
  rfl

theorem run_recordExecution_of_none {id : String}
    (missing : world.nodes.find? id = none) (success : Bool) :
    run (machine env) (recordExecution id success) world =
      (.threw (notRegistered id), world) := by
  rw [recordExecution, run_bind_of_threw (run_requireNode_of_none missing)]

theorem run_currentWeight_of_some {id : String} {node : NodeEntity}
    (found : world.nodes.find? id = some node) :
    run (machine env) (currentWeight id) world =
      (.returned node.weight, world) := by
  rw [currentWeight, run_bind_of_returned (run_requireNode_of_some found)]
  rfl

theorem run_currentWeight_of_none {id : String}
    (missing : world.nodes.find? id = none) :
    run (machine env) (currentWeight id) world =
      (.threw (notRegistered id), world) := by
  rw [currentWeight, run_bind_of_threw (run_requireNode_of_none missing)]

variable (env) in
theorem run_receivePayment_of_some {id : String} {node : NodeEntity}
    (found : world.nodes.find? id = some node) (amount : ℚ) :
    run (machine env) (receivePayment id amount) world =
      (.returned (), world.append env "node.payment.received"
        (.paymentReceived id amount node.weight)) := by
  rw [receivePayment, run_bind_of_returned (run_requireNode_of_some found),
    Keyed.Table.key_of_find? found]
  rfl

theorem run_receivePayment_of_none {id : String}
    (missing : world.nodes.find? id = none) (amount : ℚ) :
    run (machine env) (receivePayment id amount) world =
      (.threw (notRegistered id), world) := by
  rw [receivePayment, run_bind_of_threw (run_requireNode_of_none missing)]

@[simp]
theorem worked_id (node : NodeEntity) (success : Bool) :
    (worked node success).id = node.id :=
  rfl

end Alone

end ArosParadigm.Nodes

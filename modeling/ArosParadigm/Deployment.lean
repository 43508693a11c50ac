import ArosParadigm.Library.Deployment
import ArosParadigm.Methods
import ArosParadigm.Requests
import ArosParadigm.StoreFaults

/-!
# The deployed services

Calls of public methods come in at any time and take their steps in any order.
A call on the store may be rejected, and a restart drops all calls that are
still running. Each call on a repository or on one of the two ledgers is one
atomic step.
-/

namespace ArosParadigm

open Await

abbrev PublicCall := Method ⊕ Observer

namespace PublicCall

/-- What a call returns. -/
@[reducible]
def Result : PublicCall → Type
  | .inl method => method.Result
  | .inr observer => observer.Result

/-- The body of a call. -/
def handler (env : Environment) :
    (call : PublicCall) → Service call.Result
  | .inl method => method.handler env
  | .inr observer => observer.handler env

abbrev Answer := Σ call : PublicCall, Result call

/-- A call with its answer. -/
def program (env : Environment) (call : PublicCall) : Service Answer := do
  let value ← handler env call
  return ⟨call, value⟩

end PublicCall

/-- The services under failures of the store, restarts and calls of the
admitted kinds. -/
def deployment (env : Environment) (admits : PublicCall → Prop) :
    System signature ServiceError PublicCall.Answer World where
  machine := machine env
  broken := Breaks
  restart := World.restart
  admitted program := ∃ call, admits call ∧ program = call.program env

@[simp]
theorem machine_deployment (env : Environment)
    (admits : PublicCall → Prop) :
    (deployment env admits).machine = machine env :=
  rfl

/-- The services in operation. -/
abbrev Deployed := Pool signature ServiceError PublicCall.Answer World

namespace Deployed

variable {env : Environment} {admits : PublicCall → Prop} {pool : Deployed}

variable (env admits) in
/-- The services come to this from an empty store. -/
def Reached (pool : Deployed) : Prop :=
  (deployment env admits).Reachable World.initial pool

theorem reached_initial : Reached env admits ⟨World.initial, []⟩ :=
  .refl

/-- An admitted call may come in at any time. -/
theorem Reached.call (reached : Reached env admits pool)
    {call : PublicCall} (admitted : admits call) :
    Reached env admits
      ⟨pool.state, pool.threads ++ [⟨[], call.program env⟩]⟩ :=
  .tail reached (.arrive ⟨call, admitted, rfl⟩)

/-- What happens next in operation. -/
inductive Incident where
  | call (call : PublicCall)
  | move (move : Move)
  | restart

/-- The rejected call is one on the store. -/
def spares (pool : Deployed) : Move → Bool
  | .answer _ => true
  | .reject index =>
      match pool.threads[index]? with
      | some ⟨_, .call request _ _⟩ => request.Persists
      | _ => false

/-- The pool after an incident; a move that is not possible is left out. -/
def happen (env : Environment) (pool : Deployed) : Incident → Deployed
  | .call call => ⟨pool.state, pool.threads ++ [⟨[], call.program env⟩]⟩
  | .move move =>
      if pool.spares move then (pool.move (machine env) move).getD pool
      else pool
  | .restart => ⟨pool.state.restart, []⟩

theorem Reached.move (reached : Reached env admits pool) {move : Move}
    (spared : pool.spares move = true) :
    Reached env admits ((pool.move (machine env) move).getD pool) := by
  cases moved : pool.move (machine env) move with
  | none =>
      exact reached
  | some next =>
      cases move with
      | answer index =>
          exact System.Reachable.answers moved reached
      | reject index =>
          refine System.Reachable.rejects moved ?_ reached
          rintro ⟨past, rest⟩ request nextOf rejected found rfl
          rw [spares, found] at spared
          exact .unchanged (by simpa using spared) _

/-- The pool after incidents from an empty store on. -/
def play (env : Environment) (incidents : List Incident) : Deployed :=
  incidents.foldl (happen env) ⟨.initial, []⟩

theorem reached_play (incidents : List Incident)
    (admitted : ∀ call, .call call ∈ incidents → admits call) :
    Reached env admits (play env incidents) := by
  induction incidents using List.reverseRecOn with
  | nil =>
      exact reached_initial
  | append_singleton incidents last inductionHypothesis =>
      have reached := inductionHypothesis fun call member =>
        admitted call (List.mem_append_left _ member)
      rw [play, List.foldl_append]
      change Reached env admits (happen env (play env incidents) last)
      cases last with
      | call call =>
          exact reached.call (admitted call (by simp))
      | move move =>
          rw [happen]
          split
          · next spared =>
              exact reached.move spared
          · exact reached
      | restart =>
          exact .tail reached .restart

/-- The threads take turns. -/
def turns (count : ℕ) (indices : List ℕ) : List Incident :=
  (List.replicate count indices).flatten.map fun index =>
    .move (.answer index)

theorem call_notMem_turns (count : ℕ) (indices : List ℕ)
    (call : PublicCall) : .call call ∉ turns count indices := by
  simp [turns]

/-- A run of a process into an epoch. -/
def runInto (processId : String) (epoch : ℚ) : Incident :=
  .call (.inl (.runProcess { Orchestrator.transferBody processId none
    Orchestrator.none_ne_some_nil with epoch := some epoch }))

/-- Two runs take turns, and a third one with the finalization of their epoch.
A restart comes after the third has minted and before it has burned, and the
accrual of a fourth is rejected. -/
def eventfulDay : List Incident :=
  [runInto "p-1" 1, runInto "p-2" 1] ++ turns 45 [0, 1] ++
    [.call (.inl (.metrics 1))] ++ turns 25 [0, 2, 1] ++
    [.call (.inl (.finalizeEpoch 1)), runInto "p-3" 2] ++
    turns 40 [3, 4] ++
    [.restart, runInto "p-4" 2, .call (.inl (.getProcess "p-3"))] ++
    turns 38 [0, 1] ++
    [.move (.reject 0), .call (.inl (.finalizeEpoch 2))] ++ turns 30 [2]

example :
    let pool := play .plain eventfulDay
    pool.threads.map (fun thread => thread.rest matches .done _) =
        [false, true, true] ∧
      ["emission.minted", "emission.burned",
          "commission.epoch.finalized"].map (fun eventType =>
        pool.state.history.countP (·.eventType = eventType)) =
          [4, 2, 2] := by
  decide +kernel

/-- After that both ledgers are audited in the middle of a last run. -/
def auditedDay : List Incident :=
  eventfulDay ++ [runInto "p-5" 3] ++ turns 20 [3] ++
    [.call (.inr .verifyChain), .call (.inr .verifyLog)] ++
    turns 40 [3, 4, 5]

section Days

variable (runs : ∀ body, admits (.inl (.runProcess body)))
variable (finalizes : ∀ epoch, admits (.inl (.finalizeEpoch epoch)))
variable (metrics : ∀ epoch, admits (.inl (.metrics epoch)))
variable (gets : ∀ processId, admits (.inl (.getProcess processId)))

include runs finalizes metrics gets

private theorem forall_call_eventfulDay :
    ∀ call, .call call ∈ eventfulDay → admits call := by
  intro call member
  simp only [eventfulDay, runInto, List.mem_append, List.mem_cons,
    List.not_mem_nil, call_notMem_turns, Incident.call.injEq, reduceCtorEq,
    or_false, false_or] at member
  rcases member with (((((rfl | rfl) | rfl) | rfl | rfl) | rfl | rfl) | rfl)
  all_goals apply_assumption

theorem reached_eventfulDay :
    Reached .plain admits (play .plain eventfulDay) :=
  reached_play _ (forall_call_eventfulDay runs finalizes metrics gets)

theorem reached_auditedDay (chain : admits (.inr .verifyChain))
    (log : admits (.inr .verifyLog)) :
    Reached .plain admits (play .plain auditedDay) := by
  refine reached_play _ fun call member => ?_
  simp only [auditedDay, runInto, List.mem_append, List.mem_cons,
    List.not_mem_nil, call_notMem_turns, Incident.call.injEq,
    or_false] at member
  rcases member with (eventful | rfl) | rfl | rfl
  · exact forall_call_eventfulDay runs finalizes metrics gets call eventful
  · exact runs _
  · exact chain
  · exact log

end Days

end Deployed

end ArosParadigm

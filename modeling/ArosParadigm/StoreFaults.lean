import ArosParadigm.Library.Faults
import ArosParadigm.Views

/-!
# Rejected calls

Every call on a repository and on one of the two ledgers may throw. Such a
call writes nothing; but an append may have drawn its tick by then, and an
observation the `id` of its entry as well, which the sequence does not take
back. The accesses to the memory of the services do not throw.
-/

namespace ArosParadigm

open Await

def Call.Persists : Call → Prop
  | .tick => False
  | .markCaptured .. => False
  | .readCaptured _ => False
  | .pushParticipation .. => False
  | .readParticipation _ => False
  | .readParticipationAt .. => False
  | .deleteParticipation _ => False
  | .claimInitialization => False
  | .settleInitialization _ => False
  | .awaitInitialization => False
  | _ => True

instance : DecidablePred Call.Persists
  | .tick | .markCaptured .. | .readCaptured _ | .pushParticipation ..
  | .readParticipation _ | .readParticipationAt .. | .deleteParticipation _
  | .claimInitialization | .settleInitialization _ | .awaitInitialization =>
      isFalse id
  | .append .. | .listSnapshots | .findVerdict _ | .saveVerdict _
  | .listVerdicts | .findLedger | .saveLedger _ | .findEpoch _
  | .saveEpoch _ | .listEpochs | .findNode _ | .saveNode _ | .listNodes
  | .findPhase | .savePhase _ | .logOversight .. | .listOversight =>
      isTrue trivial

/-- The calls that draw a tick inside their transaction. -/
def Call.Stamps : Call → Prop
  | .append .. => True
  | .logOversight .. => True
  | _ => False

/-- The calls that draw an `id` from a sequence. -/
def Call.Observes : Call → Prop
  | .logOversight .. => True
  | _ => False

/-- What a call that throws leaves behind. -/
inductive Breaks : Call → World → World → Prop
  | unchanged {request : Call} (persists : request.Persists)
      (world : World) : Breaks request world world
  | ticked {request : Call} (stamps : request.Stamps) (world : World) :
      Breaks request world world.tick
  | numbered {request : Call} (observes : request.Observes)
      (world : World) : Breaks request world world.tick.drawId

/-- A run of a service method in which calls may throw, with the calls that
were answered. -/
abbrev Attempt {result : Type} (env : Environment)
    (program : Service result) (start : World) (trace : List Call)
    (outcome : Outcome ServiceError result) (after : World) : Prop :=
  FaultyRun (machine env) Breaks program start trace outcome after

section Cases

variable {env : Environment} {start after : World} {trace : List Call}

theorem Breaks.eq_or_drawn {request : Call} {before after : World}
    (breaks : Breaks request before after) :
    after = before ∨ after = before.tick ∨ after = before.tick.drawId := by
  cases breaks with
  | unchanged =>
      exact Or.inl rfl
  | ticked =>
      exact Or.inr (Or.inl rfl)
  | numbered =>
      exact Or.inr (Or.inr rfl)

/-- Only an observation draws an `id`. -/
theorem Breaks.eq_or_tick {request : Call} {before after : World}
    (breaks : Breaks request before after)
    (unobserved : ¬ request.Observes) :
    after = before ∨ after = before.tick := by
  cases breaks with
  | unchanged =>
      exact Or.inl rfl
  | ticked =>
      exact Or.inr rfl
  | numbered observes =>
      exact absurd observes unobserved

/-- The memory of the services does not throw. -/
theorem Breaks.persists {request : Call} {before after : World}
    (breaks : Breaks request before after) : request.Persists := by
  cases breaks with
  | unchanged persists =>
      exact persists
  | ticked stamps =>
      cases request <;> first
        | exact stamps.elim
        | exact trivial
  | numbered observes =>
      cases request <;> first
        | exact observes.elim
        | exact trivial

theorem Attempt.ask_cases {request : Call} {reply : request.Reply}
    {next : World}
    (answers : machine env request start = some (reply, next))
    {outcome : Outcome ServiceError request.Reply}
    (ran : Attempt env (ask request) start trace outcome after) :
    after = next ∧ trace = [request] ∧ outcome = .returned reply ∨
      Breaks request start after ∧ trace = [] ∧
        outcome = .threw .storeRejected := by
  rcases ran.perform_cases with ⟨given, answered, isTrace, isOutcome⟩ |
    broke | ⟨blocked, _⟩
  · have same := answered.symm.trans answers
    cases same
    exact Or.inl ⟨rfl, isTrace, isOutcome⟩
  · exact Or.inr broke
  · cases blocked.symm.trans answers

theorem Attempt.ask_bind_cases {result : Type} {request : Call}
    {continuation : request.Reply → Service result}
    {reply : request.Reply} {next : World}
    (answers : machine env request start = some (reply, next))
    {outcome : Outcome ServiceError result}
    (ran : Attempt env (ask request >>= continuation) start trace outcome
      after) :
    (∃ rest, Attempt env (continuation reply) next rest outcome after ∧
        trace = request :: rest) ∨
      Breaks request start after ∧ trace = [] ∧
        outcome = .threw .storeRejected := by
  rcases ran.bind_cases with
    ⟨value, between, first, rest, early, late, rfl⟩ |
    ⟨reason, early, rfl⟩ | ⟨early, rfl⟩
  · rcases Attempt.ask_cases answers early with
      ⟨rfl, rfl, isValue⟩ | ⟨_, _, isValue⟩
    · cases isValue
      exact Or.inl ⟨rest, late, rfl⟩
    · cases isValue
  · rcases Attempt.ask_cases answers early with
      ⟨_, _, isValue⟩ | ⟨breaks, rfl, isValue⟩
    · cases isValue
    · cases isValue
      exact Or.inr ⟨breaks, rfl, rfl⟩
  · rcases Attempt.ask_cases answers early with
      ⟨_, _, isValue⟩ | ⟨_, _, isValue⟩ <;> cases isValue

/-- What answered calls, a tick and a drawn `id` keep, a run with rejected
calls keeps. -/
theorem Attempt.keeps {permitted : Call → Prop}
    {invariant : World → Prop}
    (kept : ∀ request, permitted request → ∀ before reply next,
      machine env request before = some (reply, next) →
        invariant before → invariant next)
    (ticked : ∀ before, invariant before → invariant before.tick)
    (drawn : ∀ before, invariant before → invariant before.drawId)
    {result : Type} {program : Service result}
    (uses : Uses permitted program)
    {outcome : Outcome ServiceError result}
    (ran : Attempt env program start trace outcome after)
    (holds : invariant start) : invariant after := by
  have broke : ∀ request, permitted request → ∀ before next,
      Breaks request before next → invariant before → invariant next := by
    intro request _ before next breaks before_holds
    rcases breaks.eq_or_drawn with rfl | rfl | rfl
    · exact before_holds
    · exact ticked _ before_holds
    · exact drawn _ (ticked _ before_holds)
  have kept := FaultyRun.invariant kept broke uses ran holds
  exact kept

theorem Attempt.of_memory_bind {result : Type} {request : Call}
    {continuation : request.Reply → Service result}
    {reply : request.Reply} {next : World}
    (memory : ¬ request.Persists)
    (answers : machine env request start = some (reply, next))
    {outcome : Outcome ServiceError result}
    (ran : Attempt env (ask request >>= continuation) start trace outcome
      after) :
    ∃ rest, Attempt env (continuation reply) next rest outcome after ∧
      trace = request :: rest := by
  rcases Attempt.ask_bind_cases answers ran with onward | ⟨breaks, _⟩
  · exact onward
  · exact absurd breaks.persists memory

end Cases

end ArosParadigm

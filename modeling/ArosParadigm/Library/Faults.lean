import ArosParadigm.Library.Program

/-!
# Runs with faults

A store may reject a call instead of answering it, and the program then takes
its rejected branch. `FaultyRun` relates a program to all its runs against
such a store, each with the list of the calls that were answered: a run that
throws at a call is one in which that call is rejected.

A relation `broken` says which calls may be rejected, and in which states a
rejected call can leave the store.
-/

namespace Await

section Faults

variable {signature : Signature} {error result middle state : Type}

/-- A run of a program against a store that may reject calls, with the calls
that were answered. -/
inductive FaultyRun (machine : Machine signature state)
    (broken : signature.Call → state → state → Prop) :
    Program signature error result → state → List signature.Call →
      Outcome error result → state → Prop
  | done (value : result) (start : state) :
      FaultyRun machine broken (.done value) start [] (.returned value)
        start
  | fail (reason : error) (start : state) :
      FaultyRun machine broken (.fail reason) start [] (.threw reason)
        start
  | answered {request : signature.Call}
      {next : signature.Reply request → Program signature error result}
      {rejected : Program signature error result}
      {start between after : state} {reply : signature.Reply request}
      {trace : List signature.Call} {outcome : Outcome error result}
      (answer : machine request start = some (reply, between))
      (rest : FaultyRun machine broken (next reply) between trace outcome
        after) :
      FaultyRun machine broken (.call request next rejected) start
        (request :: trace) outcome after
  | rejected {request : signature.Call}
      {next : signature.Reply request → Program signature error result}
      {rejected : Program signature error result}
      {start between after : state} {trace : List signature.Call}
      {outcome : Outcome error result}
      (breaks : broken request start between)
      (rest : FaultyRun machine broken rejected between trace outcome
        after) :
      FaultyRun machine broken (.call request next rejected) start trace
        outcome after
  | waits {request : signature.Call}
      {next : signature.Reply request → Program signature error result}
      {rejected : Program signature error result} {start : state}
      (blocked : machine request start = none) :
      FaultyRun machine broken (.call request next rejected) start []
        .blocked start

/-! ## Programs that rescue nothing -/

/-- Every call is permitted, and the error of a rejected call is thrown. -/
def Strict (permitted : signature.Call → Prop) :
    Program signature error result → Prop
  | .done _ => True
  | .fail _ => True
  | .call request next rejected =>
      permitted request ∧ (∀ reply, Strict permitted (next reply)) ∧
        ∃ reason, rejected = .fail reason

theorem Strict.uses {permitted : signature.Call → Prop}
    {program : Program signature error result}
    (strict : Strict permitted program) : Uses permitted program := by
  induction program with
  | done value =>
      trivial
  | fail reason =>
      trivial
  | call request next rejected nextHypothesis rejectedHypothesis =>
      obtain ⟨allowed, nextStrict, reason, rfl⟩ := strict
      exact ⟨allowed, fun reply => nextHypothesis reply (nextStrict reply),
        trivial⟩

theorem Strict.weaken {permitted wider : signature.Call → Prop}
    {program : Program signature error result}
    (strict : Strict permitted program)
    (implies : ∀ request, permitted request → wider request) :
    Strict wider program := by
  induction program with
  | done value =>
      trivial
  | fail reason =>
      trivial
  | call request next rejected nextHypothesis rejectedHypothesis =>
      obtain ⟨allowed, nextStrict, isFailure⟩ := strict
      exact ⟨implies request allowed,
        fun reply => nextHypothesis reply (nextStrict reply), isFailure⟩

theorem strict_perform {permitted : signature.Call → Prop}
    {request : signature.Call} (allowed : permitted request)
    (reason : error) :
    Strict permitted (Program.perform reason request) :=
  ⟨allowed, fun _ => trivial, reason, rfl⟩

theorem strict_bind {permitted : signature.Call → Prop}
    {program : Program signature error middle}
    {continuation : middle → Program signature error result}
    (first : Strict permitted program)
    (second : ∀ value, Strict permitted (continuation value)) :
    Strict permitted (program >>= continuation) := by
  induction program with
  | done value =>
      exact second value
  | fail reason =>
      trivial
  | call request next rejected nextHypothesis rejectedHypothesis =>
      obtain ⟨allowed, nextStrict, reason, rfl⟩ := first
      exact ⟨allowed, fun reply => nextHypothesis reply (nextStrict reply),
        reason, rfl⟩

namespace FaultyRun

variable {machine : Machine signature state}
variable {broken : signature.Call → state → state → Prop}
variable {start after : state} {trace : List signature.Call}

theorem of_run (program : Program signature error result)
    (start : state) :
    ∃ trace, FaultyRun machine broken program start trace
      (run machine program start).1 (run machine program start).2 := by
  induction program generalizing start with
  | done value =>
      exact ⟨[], .done value start⟩
  | fail reason =>
      exact ⟨[], .fail reason start⟩
  | call request next rejected nextHypothesis rejectedHypothesis =>
      simp only [run]
      cases answer : machine request start with
      | none =>
          exact ⟨[], .waits answer⟩
      | some pair =>
          obtain ⟨reply, between⟩ := pair
          obtain ⟨trace, rest⟩ := nextHypothesis reply between
          exact ⟨request :: trace, .answered answer rest⟩

theorem run_of_strict {permitted : signature.Call → Prop}
    {program : Program signature error result}
    (strict : Strict permitted program) {value : result}
    (ran : FaultyRun machine broken program start trace (.returned value)
      after) :
    run machine program start = (.returned value, after) := by
  induction program generalizing start trace with
  | done value =>
      cases ran
      rfl
  | fail reason =>
      cases ran
  | call request next rejected nextHypothesis rejectedHypothesis =>
      obtain ⟨_, nextStrict, reason, rfl⟩ := strict
      cases ran with
      | answered answer rest =>
          rw [run, answer]
          exact nextHypothesis _ (nextStrict _) rest
      | rejected breaks rest =>
          cases rest

/-- A run of one call. -/
theorem perform_cases {reason : error} {request : signature.Call}
    {outcome : Outcome error (signature.Reply request)}
    (ran : FaultyRun machine broken (Program.perform reason request) start
      trace outcome after) :
    (∃ reply, machine request start = some (reply, after) ∧
        trace = [request] ∧ outcome = .returned reply) ∨
      (broken request start after ∧ trace = [] ∧
        outcome = .threw reason) ∨
      (machine request start = none ∧ after = start ∧ trace = [] ∧
        outcome = .blocked) := by
  cases ran with
  | answered answer rest =>
      cases rest
      exact Or.inl ⟨_, answer, rfl, rfl⟩
  | rejected breaks rest =>
      cases rest
      exact Or.inr (Or.inl ⟨breaks, rfl, rfl⟩)
  | waits blocked =>
      exact Or.inr (Or.inr ⟨blocked, rfl, rfl, rfl⟩)

/-- A run of a sequence ends in its first part, or is a run of the first part
that returns and a run of the second part. -/
theorem bind_cases {program : Program signature error middle}
    {continuation : middle → Program signature error result}
    {outcome : Outcome error result}
    (ran : FaultyRun machine broken (program >>= continuation) start trace
      outcome after) :
    (∃ value between first second,
        FaultyRun machine broken program start first (.returned value)
          between ∧
        FaultyRun machine broken (continuation value) between second
          outcome after ∧ trace = first ++ second) ∨
      (∃ reason, FaultyRun machine broken program start trace
        (.threw reason) after ∧ outcome = .threw reason) ∨
      (FaultyRun machine broken program start trace .blocked after ∧
        outcome = .blocked) := by
  induction program generalizing start trace with
  | done value =>
      exact Or.inl ⟨value, start, [], trace, .done value start, ran, rfl⟩
  | fail reason =>
      cases ran
      exact Or.inr (Or.inl ⟨reason, .fail reason _, rfl⟩)
  | call request next rejected nextHypothesis rejectedHypothesis =>
      cases ran with
      | answered answer rest =>
          rcases nextHypothesis _ rest with
            ⟨value, between, first, second, early, late, rfl⟩ |
            ⟨reason, early, rfl⟩ | ⟨early, rfl⟩
          · exact Or.inl ⟨value, between, request :: first, second,
              .answered answer early, late, rfl⟩
          · exact Or.inr (Or.inl ⟨reason, .answered answer early, rfl⟩)
          · exact Or.inr (Or.inr ⟨.answered answer early, rfl⟩)
      | rejected breaks rest =>
          rcases rejectedHypothesis rest with
            ⟨value, between, first, second, early, late, rfl⟩ |
            ⟨reason, early, rfl⟩ | ⟨early, rfl⟩
          · exact Or.inl ⟨value, between, first, second,
              .rejected breaks early, late, rfl⟩
          · exact Or.inr (Or.inl ⟨reason, .rejected breaks early, rfl⟩)
          · exact Or.inr (Or.inr ⟨.rejected breaks early, rfl⟩)
      | waits blocked =>
          exact Or.inr (Or.inr ⟨.waits blocked, rfl⟩)

/-- A run of a sequence, from runs of its parts. -/
theorem bind {program : Program signature error middle}
    {continuation : middle → Program signature error result}
    {value : middle} {between : state} {first second : List signature.Call}
    {outcome : Outcome error result}
    (early : FaultyRun machine broken program start first (.returned value)
      between)
    (late : FaultyRun machine broken (continuation value) between second
      outcome after) :
    FaultyRun machine broken (program >>= continuation) start
      (first ++ second) outcome after := by
  induction program generalizing start first with
  | done value =>
      cases early
      exact late
  | fail reason =>
      cases early
  | call request next rejected nextHypothesis rejectedHypothesis =>
      cases early with
      | answered answer rest =>
          exact .answered answer (nextHypothesis _ rest)
      | rejected breaks rest =>
          exact .rejected breaks (rejectedHypothesis rest)

/-- A sequence whose first part throws. -/
theorem bind_of_threw {program : Program signature error middle}
    {continuation : middle → Program signature error result}
    {reason : error}
    (early : FaultyRun machine broken program start trace (.threw reason)
      after) :
    FaultyRun machine broken (program >>= continuation) start trace
      (.threw reason) after := by
  induction program generalizing start trace with
  | done value =>
      cases early
  | fail reason =>
      cases early
      exact .fail reason _
  | call request next rejected nextHypothesis rejectedHypothesis =>
      cases early with
      | answered answer rest =>
          exact .answered answer (nextHypothesis _ rest)
      | rejected breaks rest =>
          exact .rejected breaks (rejectedHypothesis rest)

theorem exists_bind_of_run {program : Program signature error middle}
    {continuation : middle → Program signature error result}
    {value : middle} {between : state} {outcome : Outcome error result}
    (early : run machine program start = (.returned value, between))
    (late : ∃ trace, FaultyRun machine broken (continuation value) between
      trace outcome after) :
    ∃ trace, FaultyRun machine broken (program >>= continuation) start
      trace outcome after := by
  obtain ⟨second, onward⟩ := late
  have ⟨first, ran⟩ :=
    @of_run signature error middle state machine broken program start
  rw [early] at ran
  exact ⟨first ++ second, ran.bind onward⟩

/-- A run of a rescued program does not throw, or its handler runs after it
has thrown. -/
theorem rescue_cases {program : Program signature error result}
    {handler : error → Program signature error result}
    {outcome : Outcome error result}
    (ran : FaultyRun machine broken (program.rescue handler) start trace
      outcome after) :
    (FaultyRun machine broken program start trace outcome after ∧
        ∀ reason, outcome ≠ .threw reason) ∨
      ∃ reason between first second,
        FaultyRun machine broken program start first (.threw reason)
          between ∧
        FaultyRun machine broken (handler reason) between second outcome
          after ∧ trace = first ++ second := by
  induction program generalizing start trace with
  | done value =>
      cases ran
      exact Or.inl ⟨.done value _, nofun⟩
  | fail reason =>
      exact Or.inr ⟨reason, start, [], trace, .fail reason start, ran, rfl⟩
  | call request next rejected nextHypothesis rejectedHypothesis =>
      cases ran with
      | answered answer rest =>
          rcases nextHypothesis _ rest with ⟨calm, quiet⟩ |
            ⟨reason, between, first, second, early, late, rfl⟩
          · exact Or.inl ⟨.answered answer calm, quiet⟩
          · exact Or.inr ⟨reason, between, request :: first, second,
              .answered answer early, late, rfl⟩
      | rejected breaks rest =>
          rcases rejectedHypothesis rest with ⟨calm, quiet⟩ |
            ⟨reason, between, first, second, early, late, rfl⟩
          · exact Or.inl ⟨.rejected breaks calm, quiet⟩
          · exact Or.inr ⟨reason, between, first, second,
              .rejected breaks early, late, rfl⟩
      | waits blocked =>
          exact Or.inl ⟨.waits blocked, nofun⟩

theorem run_rescue_of_returned {program : Program signature error result}
    {handler : error → Program signature error result} {value : result}
    (returned : run machine program start = (.returned value, after)) :
    run machine (program.rescue handler) start =
      (.returned value, after) := by
  induction program generalizing start with
  | done value =>
      exact returned
  | fail reason =>
      cases returned
  | call request next rejected nextHypothesis rejectedHypothesis =>
      rw [run] at returned
      rw [Program.rescue, run]
      cases answer : machine request start with
      | none =>
          rw [answer] at returned
          cases returned
      | some pair =>
          rw [answer] at returned
          exact nextHypothesis pair.1 returned

theorem permitted_of_mem {permitted : signature.Call → Prop}
    {program : Program signature error result}
    (uses : Uses permitted program) {outcome : Outcome error result}
    (ran : FaultyRun machine broken program start trace outcome after) :
    ∀ request ∈ trace, permitted request := by
  induction ran with
  | done | fail | waits =>
      exact nofun
  | answered answer rest inductionHypothesis =>
      obtain ⟨allowed, nextUses, _⟩ := uses
      intro request member
      rcases List.mem_cons.mp member with rfl | later
      · exact allowed
      · exact inductionHypothesis (nextUses _) request later
  | rejected breaks rest inductionHypothesis =>
      exact inductionHypothesis uses.2.2

/-- Trace rule: a property that the answered calls keep, and every rejected
one, holds after the run. -/
theorem invariant_of_trace {invariant : state → Prop}
    {program : Program signature error result}
    {outcome : Outcome error result}
    (ran : FaultyRun machine broken program start trace outcome after)
    (kept : ∀ request ∈ trace, ∀ before reply after,
      machine request before = some (reply, after) →
        invariant before → invariant after)
    (broke : ∀ request before after,
      broken request before after → invariant before → invariant after)
    (holds : invariant start) : invariant after := by
  induction ran with
  | done | fail | waits =>
      exact holds
  | answered answer rest inductionHypothesis =>
      have first := kept _ List.mem_cons_self _ _ _ answer holds
      exact inductionHypothesis
        (fun request member => kept request
          (List.mem_cons_of_mem _ member)) first
  | rejected breaks rest inductionHypothesis =>
      exact inductionHypothesis kept (broke _ _ _ breaks holds)

/-- Invariant rule: a property that every permitted call keeps, answered or
rejected, holds after every run that starts with it. -/
theorem invariant {permitted : signature.Call → Prop}
    {invariant : state → Prop}
    (kept : ∀ request, permitted request → ∀ before reply after,
      machine request before = some (reply, after) →
        invariant before → invariant after)
    (broke : ∀ request, permitted request → ∀ before after,
      broken request before after → invariant before → invariant after)
    {program : Program signature error result}
    (uses : Uses permitted program) {outcome : Outcome error result}
    (ran : FaultyRun machine broken program start trace outcome after)
    (holds : invariant start) : invariant after := by
  induction ran with
  | done | fail | waits =>
      exact holds
  | answered answer rest inductionHypothesis =>
      obtain ⟨allowed, nextUses, _⟩ := uses
      exact inductionHypothesis (nextUses _)
        (kept _ allowed _ _ _ answer holds)
  | rejected breaks rest inductionHypothesis =>
      exact inductionHypothesis uses.2.2
        (broke _ uses.1 _ _ breaks holds)

end FaultyRun

end Faults

end Await

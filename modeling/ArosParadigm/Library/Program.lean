import Mathlib.Data.List.Basic

/-!
# Programs that await calls on a shared store

An asynchronous method is a tree: it returns, it throws, or it awaits one
call on a shared store and continues with the reply. Every call is one atomic
step, and everything a method does between two calls is part of the
continuation. The same tree is run alone by `run`; the interleaved runs of
several programs are the subject of the interleaving module.

A call may also be rejected by the environment, and the third argument of
`Program.call` is what the program does then.
-/

namespace Await

/-- The calls that a program can await, and the type of the reply to each. -/
structure Signature where
  Call : Type
  Reply : Call → Type

/-- A program over a signature of calls. -/
inductive Program (signature : Signature) (error result : Type) where
  | done (value : result)
  | fail (reason : error)
  | call (request : signature.Call)
      (next : signature.Reply request → Program signature error result)
      (rejected : Program signature error result)

namespace Program

variable {signature : Signature} {error result middle target : Type}

/-- Continue a program with its result. -/
def bind (program : Program signature error middle)
    (continuation : middle → Program signature error target) :
    Program signature error target :=
  match program with
  | .done value => continuation value
  | .fail reason => .fail reason
  | .call request next rejected =>
      .call request (fun reply => (next reply).bind continuation)
        (rejected.bind continuation)

instance : Monad (Program signature error) where
  pure := .done
  bind := .bind

@[simp]
theorem done_eq_pure (value : result) :
    (Program.done value : Program signature error result) = pure value :=
  rfl

@[simp]
theorem fail_bind (reason : error)
    (continuation : middle → Program signature error target) :
    (Program.fail reason >>= continuation) = Program.fail reason :=
  rfl

@[simp]
theorem call_bind (request : signature.Call)
    (next : signature.Reply request → Program signature error middle)
    (rejected : Program signature error middle)
    (continuation : middle → Program signature error target) :
    (Program.call request next rejected >>= continuation) =
      Program.call request (fun reply => next reply >>= continuation)
        (rejected >>= continuation) :=
  rfl

instance : LawfulMonad (Program signature error) := by
  refine LawfulMonad.mk' (Program signature error) ?_ (fun _ _ => rfl) ?_
  · intro target program
    induction program with
    | done value =>
        rfl
    | fail reason =>
        rfl
    | call request next rejected nextHypothesis rejectedHypothesis =>
        change Program.call request _ _ = _
        congr 1
        exact funext nextHypothesis
  · intro first second third program left right
    induction program with
    | done value =>
        rfl
    | fail reason =>
        rfl
    | call request next rejected nextHypothesis rejectedHypothesis =>
        change Program.call request _ _ = Program.call request _ _
        congr 1
        exact funext nextHypothesis

/-- Await one call; when the environment rejects it, throw `reason`. -/
def perform (reason : error) (request : signature.Call) :
    Program signature error (signature.Reply request) :=
  .call request .done (.fail reason)

/-- Run `handler` in the place of a thrown error. -/
def rescue (program : Program signature error result)
    (handler : error → Program signature error result) :
    Program signature error result :=
  match program with
  | .done value => .done value
  | .fail reason => handler reason
  | .call request next rejected =>
      .call request (fun reply => (next reply).rescue handler)
        (rejected.rescue handler)

end Program

/-! ## Running one program alone -/

/-- How a run ends: with a result, with an error, or waiting for a call that
is not enabled. -/
inductive Outcome (error result : Type) where
  | returned (value : result)
  | threw (reason : error)
  | blocked
  deriving DecidableEq

/-- The store answers a call with a reply and a new state. A call that has to
wait is answered by `none`. -/
abbrev Machine (signature : Signature) (state : Type) :=
  (request : signature.Call) → state →
    Option (signature.Reply request × state)

section Run

variable {signature : Signature} {error result middle state : Type}
variable (machine : Machine signature state)

/-- Run a program from a state, every call being answered at once. -/
def run (program : Program signature error result) (start : state) :
    Outcome error result × state :=
  match program with
  | .done value => (.returned value, start)
  | .fail reason => (.threw reason, start)
  | .call request next _ =>
      match machine request start with
      | some (reply, after) => run (next reply) after
      | none => (.blocked, start)

@[simp]
theorem run_pure (value : result) (start : state) :
    run machine (pure value : Program signature error result) start =
      (.returned value, start) :=
  rfl

@[simp]
theorem run_fail (reason : error) (start : state) :
    run machine (Program.fail reason : Program signature error result) start =
      (.threw reason, start) :=
  rfl

/-- A run of a sequence is a run of its first part and, when that returns, a
run of its second part. -/
theorem run_bind
    (program : Program signature error middle)
    (continuation : middle → Program signature error result)
    (start : state) :
    run machine (program >>= continuation) start =
      match run machine program start with
      | (.returned value, after) => run machine (continuation value) after
      | (.threw reason, after) => (.threw reason, after)
      | (.blocked, after) => (.blocked, after) := by
  induction program generalizing start with
  | done value =>
      rfl
  | fail reason =>
      rfl
  | call request next rejected nextHypothesis rejectedHypothesis =>
      simp only [Program.call_bind, run]
      cases machine request start with
      | none =>
          rfl
      | some answer =>
          exact nextHypothesis answer.1 answer.2

variable {machine}

theorem run_bind_of_returned
    {program : Program signature error middle}
    {continuation : middle → Program signature error result}
    {start after : state} {value : middle}
    (returned : run machine program start = (.returned value, after)) :
    run machine (program >>= continuation) start =
      run machine (continuation value) after := by
  rw [run_bind, returned]

theorem run_bind_of_threw
    {program : Program signature error middle}
    {continuation : middle → Program signature error result}
    {start after : state} {reason : error}
    (threw : run machine program start = (.threw reason, after)) :
    run machine (program >>= continuation) start =
      (.threw reason, after) := by
  rw [run_bind, threw]

/-- A sequence that returns is a first part that returns and a second part
that returns. -/
theorem exists_of_run_bind
    {program : Program signature error middle}
    {continuation : middle → Program signature error result}
    {start after : state} {value : result}
    (returned : run machine (program >>= continuation) start =
      (.returned value, after)) :
    ∃ first between,
      run machine program start = (.returned first, between) ∧
        run machine (continuation first) between =
          (.returned value, after) := by
  rw [run_bind] at returned
  split at returned
  · next first between ran =>
      exact ⟨first, between, ran, returned⟩
  · cases returned
  · cases returned

end Run

section Uses

variable {signature : Signature} {error result middle state view : Type}
variable {machine : Machine signature state}

/-- Every call that the program can make is permitted. -/
def Uses (permitted : signature.Call → Prop) :
    Program signature error result → Prop
  | .done _ => True
  | .fail _ => True
  | .call request next rejected =>
      permitted request ∧
        (∀ reply, Uses permitted (next reply)) ∧
        Uses permitted rejected

theorem uses_true (program : Program signature error result) :
    Uses (fun _ => True) program := by
  induction program with
  | done value =>
      trivial
  | fail reason =>
      trivial
  | call request next rejected nextHypothesis rejectedHypothesis =>
      exact ⟨trivial, nextHypothesis, rejectedHypothesis⟩

theorem Uses.weaken {permitted wider : signature.Call → Prop}
    (implies : ∀ request, permitted request → wider request)
    {program : Program signature error result}
    (uses : Uses permitted program) : Uses wider program := by
  induction program with
  | done value =>
      trivial
  | fail reason =>
      trivial
  | call request next rejected nextHypothesis rejectedHypothesis =>
      obtain ⟨allowed, nextUses, rejectedUses⟩ := uses
      exact ⟨implies request allowed,
        fun reply => nextHypothesis reply (nextUses reply),
        rejectedHypothesis rejectedUses⟩

theorem uses_perform {permitted : signature.Call → Prop}
    {request : signature.Call} (allowed : permitted request)
    (reason : error) :
    Uses permitted (Program.perform reason request) :=
  ⟨allowed, fun _ => trivial, trivial⟩

theorem uses_bind {permitted : signature.Call → Prop}
    {program : Program signature error middle}
    {continuation : middle → Program signature error result}
    (first : Uses permitted program)
    (second : ∀ value, Uses permitted (continuation value)) :
    Uses permitted (program >>= continuation) := by
  induction program with
  | done value =>
      exact second value
  | fail reason =>
      trivial
  | call request next rejected nextHypothesis rejectedHypothesis =>
      obtain ⟨allowed, nextUses, rejectedUses⟩ := first
      exact ⟨allowed,
        fun reply => nextHypothesis reply (nextUses reply),
        rejectedHypothesis rejectedUses⟩

theorem uses_rescue {permitted : signature.Call → Prop}
    {program : Program signature error result}
    {handler : error → Program signature error result}
    (first : Uses permitted program)
    (second : ∀ reason, Uses permitted (handler reason)) :
    Uses permitted (program.rescue handler) := by
  induction program with
  | done value =>
      trivial
  | fail reason =>
      exact second reason
  | call request next rejected nextHypothesis rejectedHypothesis =>
      obtain ⟨allowed, nextUses, rejectedUses⟩ := first
      exact ⟨allowed,
        fun reply => nextHypothesis reply (nextUses reply),
        rejectedHypothesis rejectedUses⟩

/-- Invariant rule: a property that every permitted call keeps holds after
every run that starts with it. -/
theorem run_invariant {permitted : signature.Call → Prop}
    {invariant : state → Prop}
    (kept : ∀ request, permitted request → ∀ before reply after,
      machine request before = some (reply, after) →
        invariant before → invariant after)
    {program : Program signature error result}
    (uses : Uses permitted program) {start : state}
    (holds : invariant start) :
    invariant (run machine program start).2 := by
  induction program generalizing start with
  | done value =>
      exact holds
  | fail reason =>
      exact holds
  | call request next rejected nextHypothesis rejectedHypothesis =>
      obtain ⟨allowed, nextUses, _⟩ := uses
      simp only [run]
      cases answered : machine request start with
      | none =>
          exact holds
      | some answer =>
          exact nextHypothesis answer.1 (nextUses answer.1)
            (kept request allowed start answer.1 answer.2 answered holds)

end Uses

end Await

import Mathlib.Data.List.Basic

/-!
# Machines that answer

A machine takes inputs one after another and gives an output to each. A
simulation of one machine by another carries over every sequence of inputs: the
outputs agree under a view of them.
-/

namespace Mealy

variable {Concrete Abstract Input Output Shown : Type*}

structure Machine (State Input Output : Type*) where
  step : State → Input → Output × State

namespace Machine

variable {State : Type*} (machine : Machine State Input Output)

def outputs : State → List Input → List Output
  | _, [] => []
  | state, input :: rest =>
      (machine.step state input).1 ::
        outputs (machine.step state input).2 rest

/-- The state after a sequence of inputs. -/
def after (state : State) (inputs : List Input) : State :=
  inputs.foldl (fun state input => (machine.step state input).2) state

theorem after_append (state : State) (first second : List Input) :
    machine.after state (first ++ second) =
      machine.after (machine.after state first) second :=
  List.foldl_append

theorem outputs_append (state : State) (first second : List Input) :
    machine.outputs state (first ++ second) =
      machine.outputs state first ++
        machine.outputs (machine.after state first) second := by
  induction first generalizing state with
  | nil =>
      rfl
  | cons input rest inductionHypothesis =>
      exact congrArg _ (inductionHypothesis _)

end Machine

/-- Related states answer alike under a view of the outputs, and stay
related. -/
structure Simulates (concrete : Machine Concrete Input Output)
    (abstract : Machine Abstract Input Shown) (view : Output → Shown)
    (related : Concrete → Abstract → Prop) : Prop where
  answers : ∀ {state model}, related state model → ∀ input,
    view (concrete.step state input).1 = (abstract.step model input).1
  stays : ∀ {state model}, related state model → ∀ input,
    related (concrete.step state input).2 (abstract.step model input).2

namespace Simulates

variable {concrete : Machine Concrete Input Output}
variable {abstract : Machine Abstract Input Shown}
variable {view : Output → Shown}
variable {related : Concrete → Abstract → Prop}
variable {state : Concrete} {model : Abstract}

/-- States stay related along every sequence of inputs. -/
theorem related_after (simulates : Simulates concrete abstract view related)
    (begins : related state model) (inputs : List Input) :
    related (concrete.after state inputs) (abstract.after model inputs) := by
  induction inputs generalizing state model with
  | nil =>
      exact begins
  | cons input rest inductionHypothesis =>
      exact inductionHypothesis (simulates.stays begins input)

/-- Related states give the same outputs to every sequence of inputs. -/
theorem outputs_eq (simulates : Simulates concrete abstract view related)
    (begins : related state model) (inputs : List Input) :
    (concrete.outputs state inputs).map view =
      abstract.outputs model inputs := by
  induction inputs generalizing state model with
  | nil =>
      rfl
  | cons input rest inductionHypothesis =>
      have first := simulates.answers begins input
      have later := inductionHypothesis (simulates.stays begins input)
      rw [Machine.outputs, Machine.outputs, List.map_cons, first, later]

end Simulates

end Mealy

import ArosParadigm.Library.Program

/-!
# Rejected calls

A program is brittle when it cannot return any more once one of its calls has
been rejected, also where it rescues the error first.
-/

namespace Await

variable {signature : Signature} {error result middle state : Type}
variable {machine : Machine signature state}

/-- Run alone from this state on, the program does not return, whichever of
its calls are rejected. -/
def Doomed (machine : Machine signature state) :
    Program signature error result → state → Prop
  | .done _, _ => False
  | .fail _, _ => True
  | .call request next rejected, now =>
      (∀ reply after, machine request now = some (reply, after) →
        Doomed machine (next reply) after) ∧
      Doomed machine rejected now

/-- In every state a rejected call dooms the program. -/
def Brittle (machine : Machine signature state) :
    Program signature error result → Prop
  | .done _ => True
  | .fail _ => True
  | .call _ next rejected =>
      (∀ reply, Brittle machine (next reply)) ∧
      ∀ now, Doomed machine rejected now

theorem Doomed.bind {program : Program signature error middle}
    {now : state} (doomed : Doomed machine program now)
    (continuation : middle → Program signature error result) :
    Doomed machine (program >>= continuation) now := by
  induction program generalizing now with
  | done value =>
      exact doomed.elim
  | fail reason =>
      trivial
  | call request next rejected nextHypothesis rejectedHypothesis =>
      obtain ⟨onward, otherwise⟩ := doomed
      exact ⟨fun reply after answered =>
          nextHypothesis reply (onward reply after answered),
        rejectedHypothesis otherwise⟩

/-- A doomed continuation of a call dooms the sequence. -/
theorem doomed_perform_bind {reason : error} {request : signature.Call}
    {continuation :
      signature.Reply request → Program signature error result}
    {now : state}
    (onward : ∀ reply after, machine request now = some (reply, after) →
      Doomed machine (continuation reply) after) :
    Doomed machine
      (Program.perform reason request >>= continuation) now :=
  ⟨onward, trivial⟩

theorem brittle_perform (reason : error) (request : signature.Call) :
    Brittle machine (Program.perform reason request) :=
  ⟨fun _ => trivial, fun _ => trivial⟩

theorem Brittle.bind {program : Program signature error middle}
    (brittle : Brittle machine program)
    {continuation : middle → Program signature error result}
    (onward : ∀ value, Brittle machine (continuation value)) :
    Brittle machine (program >>= continuation) := by
  induction program with
  | done value =>
      exact onward value
  | fail reason =>
      trivial
  | call request next rejected nextHypothesis rejectedHypothesis =>
      obtain ⟨nextBrittle, doomed⟩ := brittle
      exact ⟨fun reply => nextHypothesis reply (nextBrittle reply),
        fun now => (doomed now).bind continuation⟩

end Await

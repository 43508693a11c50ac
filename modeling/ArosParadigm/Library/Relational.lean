import ArosParadigm.Library.Program

/-!
# Two runs side by side

Two programs are alike when their runs from similar states end the same way,
with related results, in similar states again. A program that leaves every
state similar to what it was similar to goes unnoticed. Calls of unnoticed
programs, put anywhere between the calls of an interface whose methods are
alike, change no answer.
-/

namespace Await

namespace Outcome

variable {error left right result view : Type}

/-- Both runs end the same way, with related results. -/
def Related (related : left → right → Prop) :
    Outcome error left → Outcome error right → Prop
  | .returned first, .returned second => related first second
  | .threw first, .threw second => first = second
  | .blocked, .blocked => True
  | _, _ => False

/-- The outcome with another view of its result. -/
def map (see : result → view) : Outcome error result → Outcome error view
  | .returned value => .returned (see value)
  | .threw reason => .threw reason
  | .blocked => .blocked

theorem map_eq_of_related {see : result → view}
    {first second : Outcome error result}
    (related : Related (fun value other => see value = see other)
      first second) :
    first.map see = second.map see := by
  cases first with
  | returned value =>
      cases second with
      | returned other =>
          exact congrArg Outcome.returned related
      | threw reason =>
          exact related.elim
      | blocked =>
          exact related.elim
  | threw reason =>
      cases second with
      | returned other =>
          exact related.elim
      | threw other =>
          exact congrArg Outcome.threw related
      | blocked =>
          exact related.elim
  | blocked =>
      cases second with
      | returned other =>
          exact related.elim
      | threw reason =>
          exact related.elim
      | blocked =>
          rfl

end Outcome

variable {signature : Signature} {error state : Type}
variable {left right left' right' : Type}
variable (machine : Machine signature state)
variable (similar : state → state → Prop)

/-- From similar states both programs end the same way, with related results
and in similar states. -/
def Alike (related : left → right → Prop)
    (first : Program signature error left)
    (second : Program signature error right) : Prop :=
  ∀ start other, similar start other →
    Outcome.Related related (run machine first start).1
        (run machine second other).1 ∧
      similar (run machine first start).2 (run machine second other).2

/-- The program leaves a state similar to whatever it was similar to. -/
def Unnoticed {result : Type} (program : Program signature error result) :
    Prop :=
  ∀ start other, similar start other →
    similar (run machine program start).2 other

variable {machine similar}

namespace Alike

variable {related : left → right → Prop} {related' : left' → right' → Prop}

theorem of_pure {first : left} {second : right}
    (holds : related first second) :
    Alike machine similar related
      (pure first : Program signature error left)
      (pure second : Program signature error right) :=
  fun _ _ start => ⟨holds, start⟩

theorem of_fail (reason : error) :
    Alike machine similar related (Program.fail reason)
      (Program.fail reason) :=
  fun _ _ start => ⟨rfl, start⟩

theorem bind {first : Program signature error left}
    {second : Program signature error right}
    {next : left → Program signature error left'}
    {next' : right → Program signature error right'}
    (begins : Alike machine similar related first second)
    (continues : ∀ value other, related value other →
      Alike machine similar related' (next value) (next' other)) :
    Alike machine similar related' (first >>= next)
      (second >>= next') := by
  intro start other similarStart
  have both := begins start other similarStart
  rw [run_bind, run_bind]
  revert both
  rcases run machine first start with ⟨_ | _ | _, after⟩ <;>
    rcases run machine second other with ⟨_ | _ | _, after'⟩
  case returned.returned value value' =>
    exact fun both => continues value value' both.1 after after' both.2
  case threw.threw reason reason' =>
    exact id
  case blocked.blocked =>
    exact id
  all_goals exact fun both => both.1.elim

/-- The sequence rule for a first part with equal results. -/
theorem bind_eq {first second : Program signature error left}
    {next : left → Program signature error left'}
    {next' : left → Program signature error right'}
    (begins : Alike machine similar Eq first second)
    (continues : ∀ value,
      Alike machine similar related' (next value) (next' value)) :
    Alike machine similar related' (first >>= next)
      (second >>= next') := by
  refine begins.bind ?_
  rintro value _ rfl
  exact continues value

end Alike

/-- The methods that are called from outside, one after another. -/
structure Interface (signature : Signature) (error : Type) where
  Method : Type
  Result : Method → Type
  handler : (method : Method) → Program signature error (Result method)

namespace Interface

variable (machine)
variable (methods observers : Interface signature error)

/-- A method and how a call of it has ended. -/
abbrev Answer :=
  Σ method : methods.Method, Outcome error (methods.Result method)

/-- Answer the calls one after another. -/
def serve : List methods.Method → state → List methods.Answer × state
  | [], start => ([], start)
  | method :: rest, start =>
      let ran := run machine (methods.handler method) start
      let served := serve rest ran.2
      (⟨method, ran.1⟩ :: served.1, served.2)

/-- Answer the calls one after another, with observers between them. -/
def serveObserved :
    List (observers.Method ⊕ methods.Method) → state →
      List methods.Answer × state
  | [], start => ([], start)
  | .inl observer :: rest, start =>
      serveObserved rest
        (run machine (observers.handler observer) start).2
  | .inr method :: rest, start =>
      let ran := run machine (methods.handler method) start
      let served := serveObserved rest ran.2
      (⟨method, ran.1⟩ :: served.1, served.2)

variable {methods}

/-- What a view of the results shows of an answer. -/
def see {View : methods.Method → Type}
    (view : (method : methods.Method) →
      methods.Result method → View method)
    (answer : methods.Answer) :
    Σ method : methods.Method, Outcome error (View method) :=
  ⟨answer.1, answer.2.map (view answer.1)⟩

variable {machine}

/-- Observers that go unnoticed change no answer and no state beyond
similarity, wherever they are called. -/
theorem serve_of_serveObserved {View : methods.Method → Type}
    (view : (method : methods.Method) →
      methods.Result method → View method)
    (alike : ∀ method, Alike machine similar
      (fun value other => view method value = view method other)
      (methods.handler method) (methods.handler method))
    (unnoticed : ∀ observer,
      Unnoticed machine similar (observers.handler observer))
    (calls : List (observers.Method ⊕ methods.Method))
    {start other : state} (similarStart : similar start other) :
    (serveObserved machine methods observers calls start).1.map
        (see view) =
      (serve machine methods (calls.filterMap Sum.getRight?)
        other).1.map (see view) ∧
    similar (serveObserved machine methods observers calls start).2
      (serve machine methods (calls.filterMap Sum.getRight?) other).2 := by
  induction calls generalizing start other with
  | nil =>
      exact ⟨rfl, similarStart⟩
  | cons call rest inductionHypothesis =>
      cases call with
      | inl observer =>
          exact inductionHypothesis (unnoticed observer _ _ similarStart)
      | inr method =>
          have both := alike method start other similarStart
          have served := inductionHypothesis both.2
          have answered := Outcome.map_eq_of_related both.1
          refine ⟨?_, served.2⟩
          change see view ⟨method, _⟩ :: _ = see view ⟨method, _⟩ :: _
          rw [see, see, answered]
          exact congrArg _ served.1

end Interface

end Await

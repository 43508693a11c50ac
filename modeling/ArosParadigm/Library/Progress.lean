import ArosParadigm.Library.Deployment
import Mathlib.Logic.Hydra

/-!
# Progress of interleaved programs

A gate is a promise that one program makes and settles while the others wait
for it. A program is disciplined when it waits only after it has asked for the
promise, and settles the promise before anything else when it was the one to
make it. Disciplined programs never wait for each other in vain, and since
every program is a finite tree, every order of their steps comes to an end.
-/

namespace Await

section Inevitability

variable {signature : Signature} {error result state : Type}

def Thread.Ended (thread : Thread signature error result) : Prop :=
  (∃ value, thread.rest = .done value) ∨ ∃ reason, thread.rest = .fail reason

/-- All threads have returned or thrown. -/
def Pool.Ended (pool : Pool signature error result state) : Prop :=
  ∀ thread ∈ pool.threads, thread.Ended

/-- Whatever steps are chosen, there is always another one until the goal
holds, and it holds after finitely many. -/
inductive Inevitable {situation : Type}
    (step : situation → situation → Prop) (goal : situation → Prop) :
    situation → Prop
  | now {current : situation} (holds : goal current) :
      Inevitable step goal current
  | later {current : situation} (goesOn : ∃ next, step current next)
      (always : ∀ next, step current next → Inevitable step goal next) :
      Inevitable step goal current

/-- Rule of inevitability: steps cannot go on forever, they keep an invariant,
and under the invariant there is one as long as the goal does not hold. -/
theorem Inevitable.of_invariant {situation : Type}
    {step : situation → situation → Prop}
    {goal invariant : situation → Prop}
    (terminates : WellFounded fun next current => step current next)
    (kept : ∀ current next, invariant current → step current next →
      invariant next)
    (goesOn : ∀ current, invariant current → ¬ goal current →
      ∃ next, step current next)
    {start : situation} (holds : invariant start) :
    Inevitable step goal start := by
  induction start using terminates.induction with
  | _ current inductionHypothesis =>
    by_cases reached : goal current
    · exact .now reached
    · refine .later (goesOn current holds reached) ?_
      intro next steps
      exact inductionHypothesis next steps
        (kept current next holds steps)

/-- What an invariant adds to the goal. -/
theorem Inevitable.strengthen {situation : Type}
    {step : situation → situation → Prop}
    {goal stronger invariant : situation → Prop} {start : situation}
    (inevitable : Inevitable step goal start)
    (kept : ∀ current next, invariant current → step current next →
      invariant next)
    (implies : ∀ current, invariant current → goal current →
      stronger current)
    (holds : invariant start) : Inevitable step stronger start := by
  induction inevitable with
  | now reached =>
      exact .now (implies _ holds reached)
  | later goesOn _ inductionHypothesis =>
      refine .later goesOn fun next steps => ?_
      exact inductionHypothesis next steps (kept _ next holds steps)

namespace Program

/-- A program after its next call. -/
inductive Child :
    Program signature error result → Program signature error result → Prop
  | answered (request : signature.Call)
      (next : signature.Reply request → Program signature error result)
      (rejected : Program signature error result)
      (reply : signature.Reply request) :
      Child (next reply) (.call request next rejected)
  | rejected (request : signature.Call)
      (next : signature.Reply request → Program signature error result)
      (rejected : Program signature error result) :
      Child rejected (.call request next rejected)

theorem wellFounded_child :
    WellFounded fun child parent : Program signature error result =>
      Child child parent := by
  refine ⟨fun program => ?_⟩
  induction program with
  | done value =>
      exact ⟨_, fun _ child => nomatch child⟩
  | fail reason =>
      exact ⟨_, fun _ child => nomatch child⟩
  | call request next rejected nextHypothesis rejectedHypothesis =>
      constructor
      intro later child
      cases child with
      | answered _ _ _ reply =>
          exact nextHypothesis reply
      | rejected =>
          exact rejectedHypothesis

end Program

namespace Pool

/-- What the threads have still to do. -/
def rests (pool : Pool signature error result state) :
    Multiset (Program signature error result) :=
  (pool.threads.map Thread.rest : List (Program signature error result))

private theorem set_add_singleton {item : Type} (items : List item)
    {index : ℕ} {old : item} (new : item)
    (found : items[index]? = some old) :
    ((items.set index new : List item) : Multiset item) + {old} =
      (items : Multiset item) + {new} := by
  induction items generalizing index with
  | nil =>
      cases found
  | cons first rest inductionHypothesis =>
      cases index with
      | zero =>
          cases found
          change (new ::ₘ (rest : Multiset item)) + {old} =
            (old ::ₘ (rest : Multiset item)) + {new}
          rw [add_comm, Multiset.singleton_add, add_comm,
            Multiset.singleton_add, Multiset.cons_swap]
      | succ index =>
          have later := inductionHypothesis found
          change (first ::ₘ ((rest.set index new : List item) :
            Multiset item)) + {old} =
              (first ::ₘ (rest : Multiset item)) + {new}
          rw [Multiset.cons_add, later, Multiset.cons_add]

end Pool

namespace System

variable {system : System signature error result state}
variable {pool next : Pool signature error result state}

theorem cutExpand_of_advances (advances : system.Advances pool next) :
    Relation.CutExpand Program.Child next.rests pool.rests := by
  have replaced : ∀ {threads : List (Thread signature error result)}
      {index : ℕ} {old new : Thread signature error result},
      threads[index]? = some old → Program.Child new.rest old.rest →
        Relation.CutExpand Program.Child
          ((threads.set index new).map Thread.rest :
            Multiset (Program signature error result))
          (threads.map Thread.rest : List _) := by
    intro threads index old new found child
    refine ⟨{new.rest}, old.rest, ?_, ?_⟩
    · intro program member
      rw [Multiset.mem_singleton.mp member]
      exact child
    · have foundRest :
          (threads.map Thread.rest)[index]? = some old.rest := by
        rw [List.getElem?_map, found]
        rfl
      rw [List.map_set]
      exact Pool.set_add_singleton _ _ foundRest
  cases advances with
  | answer found answered =>
      exact replaced found (.answered _ _ _ _)
  | reject found broke =>
      exact replaced found (.rejected _ _ _)

theorem wellFounded_advances (system : System signature error result state) :
    WellFounded fun next pool => system.Advances pool next := by
  have smaller := InvImage.wf
    (fun pool : Pool signature error result state => pool.rests)
    Program.wellFounded_child.cutExpand
  refine Subrelation.wf ?_ smaller
  intro next pool advances
  exact cutExpand_of_advances advances

end System

end Inevitability

/-! ## Gates -/

inductive GatePhase where
  | unclaimed
  | held
  | opened
  deriving DecidableEq

/-- What a call does at a gate. A forbidden call belongs to no disciplined
program. -/
inductive GateRole where
  | plain
  | claim
  | settle
  | wait
  | forbidden
  deriving DecidableEq

/-- Where a program stands: it has not asked for the promise, it has asked, or
it has made the promise and still has to settle it. -/
inductive GatePosition where
  | outside
  | asked
  | holding
  deriving DecidableEq

structure Gate {signature : Signature} {error result state : Type}
    (system : System signature error result state) where
  phase : state → GatePhase
  role : signature.Call → GateRole
  /-- A claim made the promise. -/
  won : Exchange signature → Bool
  answers : ∀ request now, role request ≠ .forbidden →
    (role request = .wait → phase now = .opened) →
      ∃ reply after, system.machine request now = some (reply, after)
  kept : ∀ request now reply after,
    role request = .plain ∨ role request = .wait →
      system.machine request now = some (reply, after) →
        phase after = phase now
  claimed : ∀ request now reply after, role request = .claim →
    system.machine request now = some (reply, after) →
      (phase now = .unclaimed ∧ won ⟨request, reply⟩ = true ∧
        phase after = .held) ∨
      (phase now ≠ .unclaimed ∧ won ⟨request, reply⟩ = false ∧
        phase after = phase now)
  settled : ∀ request now reply after, role request = .settle →
    system.machine request now = some (reply, after) →
      phase after = .opened
  /-- A rejected call leaves the promise alone; a settlement is never
  rejected. -/
  breaks : ∀ request now after, system.broken request now after →
    role request ≠ .settle ∧ phase after = phase now
  restarts : ∀ now, phase (system.restart now) = .unclaimed

namespace Gate

variable {signature : Signature} {error result state : Type}
variable {system : System signature error result state}
variable (gate : Gate system)

section Discipline

variable {first last : Type}

/-- The call may be rejected. -/
def Rejectable (system : System signature error result state)
    (request : signature.Call) : Prop :=
  ∃ now after, system.broken request now after

/-- From its position on the program waits only after it has asked, and it
settles the promise that it holds. -/
def Disciplined : GatePosition → Program signature error last → Prop
  | position, .done _ => position ≠ .holding
  | position, .fail _ => position ≠ .holding
  | position, .call request next rejected =>
      match gate.role request with
      | .plain =>
          (∀ reply, Disciplined position (next reply)) ∧
            (Rejectable system request → Disciplined position rejected)
      | .claim =>
          position ≠ .holding ∧
            (∀ reply, Disciplined
              (if gate.won ⟨request, reply⟩ then .holding else .asked)
              (next reply)) ∧
            (Rejectable system request → Disciplined position rejected)
      | .settle =>
          position = .holding ∧ ∀ reply, Disciplined .asked (next reply)
      | .wait =>
          position = .asked ∧
            (∀ reply, Disciplined .asked (next reply)) ∧
            (Rejectable system request → Disciplined .asked rejected)
      | .forbidden => False

variable {gate}

theorem Disciplined.ask {program : Program signature error last}
    (disciplined : gate.Disciplined .outside program) :
    gate.Disciplined .asked program := by
  induction program with
  | done value =>
      exact nofun
  | fail reason =>
      exact nofun
  | call request next rejected nextHypothesis rejectedHypothesis =>
      simp only [Disciplined] at disciplined ⊢
      cases isRole : gate.role request with
      | plain =>
          rw [isRole] at disciplined
          obtain ⟨nextDisciplined, otherwise⟩ := disciplined
          exact ⟨fun reply => nextHypothesis reply (nextDisciplined reply),
            fun allowed => rejectedHypothesis (otherwise allowed)⟩
      | claim =>
          rw [isRole] at disciplined
          obtain ⟨_, nextDisciplined, otherwise⟩ := disciplined
          exact ⟨nofun, nextDisciplined,
            fun allowed => rejectedHypothesis (otherwise allowed)⟩
      | settle =>
          rw [isRole] at disciplined
          exact nomatch disciplined.1
      | wait =>
          rw [isRole] at disciplined
          exact nomatch disciplined.1
      | forbidden =>
          rw [isRole] at disciplined
          exact disciplined

theorem Disciplined.bind {position : GatePosition}
    {program : Program signature error first}
    {continuation : first → Program signature error last}
    (begins : gate.Disciplined position program)
    (continues : ∀ value, gate.Disciplined .outside (continuation value)) :
    gate.Disciplined position (program >>= continuation) := by
  induction program generalizing position with
  | done value =>
      cases position with
      | outside =>
          exact continues value
      | asked =>
          exact (continues value).ask
      | holding =>
          exact absurd rfl begins
  | fail reason =>
      exact begins
  | call request next rejected nextHypothesis rejectedHypothesis =>
      simp only [Program.call_bind, Disciplined] at begins ⊢
      cases isRole : gate.role request with
      | plain =>
          rw [isRole] at begins
          obtain ⟨nextDisciplined, otherwise⟩ := begins
          exact ⟨fun reply => nextHypothesis reply (nextDisciplined reply),
            fun allowed => rejectedHypothesis (otherwise allowed)⟩
      | claim =>
          rw [isRole] at begins
          obtain ⟨free, nextDisciplined, otherwise⟩ := begins
          exact ⟨free,
            fun reply => nextHypothesis reply (nextDisciplined reply),
            fun allowed => rejectedHypothesis (otherwise allowed)⟩
      | settle =>
          rw [isRole] at begins
          obtain ⟨holds, nextDisciplined⟩ := begins
          exact ⟨holds,
            fun reply => nextHypothesis reply (nextDisciplined reply)⟩
      | wait =>
          rw [isRole] at begins
          obtain ⟨asked, nextDisciplined, otherwise⟩ := begins
          exact ⟨asked,
            fun reply => nextHypothesis reply (nextDisciplined reply),
            fun allowed => rejectedHypothesis (otherwise allowed)⟩
      | forbidden =>
          rw [isRole] at begins
          exact begins

/-- A program of plain calls. -/
theorem Disciplined.of_uses {program : Program signature error last}
    (uses : Uses (fun request => gate.role request = .plain) program) :
    gate.Disciplined .outside program := by
  induction program with
  | done value =>
      exact nofun
  | fail reason =>
      exact nofun
  | call request next rejected nextHypothesis rejectedHypothesis =>
      obtain ⟨isPlain, nextUses, rejectedUses⟩ := uses
      simp only [Disciplined, isPlain]
      exact ⟨fun reply => nextHypothesis reply (nextUses reply),
        fun _ => rejectedHypothesis rejectedUses⟩

end Discipline

variable {gate}

variable (gate) in
/-- Every thread is disciplined from its position on, and the promise is held
by exactly one thread as long as it is not settled. -/
structure Ordered (pool : Pool signature error result state)
    (position : ℕ → GatePosition) : Prop where
  disciplined : ∀ index thread, pool.threads[index]? = some thread →
    gate.Disciplined (position index) thread.rest
  asked : ∀ index thread, pool.threads[index]? = some thread →
    gate.phase pool.state = .unclaimed → position index = .outside
  holder : gate.phase pool.state = .held →
    ∃ index thread, pool.threads[index]? = some thread ∧
      position index = .holding
  held : ∀ index thread, pool.threads[index]? = some thread →
    position index = .holding → gate.phase pool.state = .held
  unique : ∀ index thread other rival,
    pool.threads[index]? = some thread → position index = .holding →
      pool.threads[other]? = some rival → position other = .holding →
        other = index

/-- A restarted system. -/
theorem ordered_restarted {now : state}
    (isUnclaimed : gate.phase now = .unclaimed) :
    gate.Ordered (⟨now, []⟩ : Pool signature error result state)
      fun _ => .outside where
  disciplined _ _ found := nomatch found
  asked _ _ found := nomatch found
  holder isHeld := nomatch isUnclaimed.symm.trans isHeld
  held _ _ found := nomatch found
  unique _ _ _ _ found := nomatch found

variable {pool : Pool signature error result state}
variable {position : ℕ → GatePosition} {index : ℕ}
variable {old new : Thread signature error result}

private theorem Ordered.place (ordered : gate.Ordered pool position)
    {later : GatePosition} {after : state}
    (found : pool.threads[index]? = some old)
    (disciplined : gate.Disciplined later new.rest)
    (asked : gate.phase after = .unclaimed →
      later = .outside ∧ gate.phase pool.state = .unclaimed)
    (holder : gate.phase after = .held →
      later = .holding ∨
        gate.phase pool.state = .held ∧ position index ≠ .holding)
    (holding : later = .holding → gate.phase after = .held)
    (others : ∀ other thread, other ≠ index →
      pool.threads[other]? = some thread → position other = .holding →
        gate.phase after = .held ∧ later ≠ .holding) :
    gate.Ordered ⟨after, pool.threads.set index new⟩
      (Function.update position index later) := by
  have stays : ∀ other, other ≠ index →
      Function.update position index later other = position other :=
    fun other different => Function.update_of_ne different _ _
  constructor
  case disciplined =>
    intro other thread foundOther
    rcases Pool.getElem?_set_cases foundOther with
      ⟨rfl, rfl⟩ | ⟨different, earlier⟩
    · rwa [Function.update_self]
    · rw [stays other different]
      exact ordered.disciplined other thread earlier
  case asked =>
    intro other thread foundOther isUnclaimed
    obtain ⟨isOutside, before⟩ := asked isUnclaimed
    rcases Pool.getElem?_set_cases foundOther with
      ⟨rfl, rfl⟩ | ⟨different, earlier⟩
    · rwa [Function.update_self]
    · rw [stays other different]
      exact ordered.asked other thread earlier before
  case holder =>
    intro isHeld
    rcases holder isHeld with isHolding | ⟨before, notHolding⟩
    · refine ⟨index, new, List.getElem?_set_self ?_, ?_⟩
      · exact (List.getElem?_eq_some_iff.mp found).choose
      · rwa [Function.update_self]
    · obtain ⟨other, thread, foundOther, isHolding⟩ :=
        ordered.holder before
      have different : other ≠ index := by
        rintro rfl
        exact notHolding isHolding
      refine ⟨other, thread, ?_, ?_⟩
      · rwa [List.getElem?_set_ne (Ne.symm different)]
      · rwa [stays other different]
  case held =>
    intro other thread foundOther isHolding
    rcases Pool.getElem?_set_cases foundOther with
      ⟨rfl, rfl⟩ | ⟨different, earlier⟩
    · rw [Function.update_self] at isHolding
      exact holding isHolding
    · rw [stays other different] at isHolding
      exact (others other thread different earlier isHolding).1
  case unique =>
    intro one thread other rival foundOne oneHolds foundOther otherHolds
    rcases Pool.getElem?_set_cases foundOne with
      ⟨rfl, rfl⟩ | ⟨differentOne, earlierOne⟩
    · rw [Function.update_self] at oneHolds
      rcases Pool.getElem?_set_cases foundOther with
        ⟨rfl, rfl⟩ | ⟨different, earlier⟩
      · rfl
      · rw [stays other different] at otherHolds
        exact absurd oneHolds (others other rival different earlier
          otherHolds).2
    · rw [stays one differentOne] at oneHolds
      rcases Pool.getElem?_set_cases foundOther with
        ⟨rfl, rfl⟩ | ⟨different, earlier⟩
      · rw [Function.update_self] at otherHolds
        exact absurd otherHolds (others one thread differentOne earlierOne
          oneHolds).2
      · rw [stays other different] at otherHolds
        exact ordered.unique one thread other rival earlierOne oneHolds
          earlier otherHolds

/-- A step of one thread that changes neither its position nor the phase of
the promise. -/
private theorem Ordered.stay (ordered : gate.Ordered pool position)
    {after : state} (found : pool.threads[index]? = some old)
    (disciplined : gate.Disciplined (position index) new.rest)
    (samePhase : gate.phase after = gate.phase pool.state) :
    gate.Ordered ⟨after, pool.threads.set index new⟩ position := by
  rw [← Function.update_eq_self index position]
  apply ordered.place found disciplined
  case asked =>
    intro isUnclaimed
    rw [samePhase] at isUnclaimed
    exact ⟨ordered.asked index old found isUnclaimed, isUnclaimed⟩
  case holder =>
    intro isHeld
    rw [samePhase] at isHeld
    by_cases isHolding : position index = .holding
    · exact Or.inl isHolding
    · exact Or.inr ⟨isHeld, isHolding⟩
  case holding =>
    intro isHolding
    rw [samePhase]
    exact ordered.held index old found isHolding
  case others =>
    intro other thread different foundOther otherHolds
    refine ⟨?_, fun isHolding => different ?_⟩
    · rw [samePhase]
      exact ordered.held other thread foundOther otherHolds
    · exact ordered.unique index old other thread found isHolding foundOther
        otherHolds

private theorem Ordered.answer (ordered : gate.Ordered pool position)
    {past : List (Exchange signature)} {request : signature.Call}
    {next : signature.Reply request → Program signature error result}
    {rejected : Program signature error result}
    {reply : signature.Reply request} {after : state}
    (found : pool.threads[index]? =
      some ⟨past, .call request next rejected⟩)
    (answered : system.machine request pool.state = some (reply, after)) :
    ∃ later, gate.Ordered ⟨after, pool.threads.set index
      ⟨⟨request, reply⟩ :: past, next reply⟩⟩ later := by
  have disciplined := ordered.disciplined index _ found
  simp only [Disciplined] at disciplined
  cases isRole : gate.role request with
  | plain =>
      rw [isRole] at disciplined
      exact ⟨position, ordered.stay found (disciplined.1 reply)
        (gate.kept request _ reply after (Or.inl isRole) answered)⟩
  | wait =>
      rw [isRole] at disciplined
      obtain ⟨isAsked, nextDisciplined, _⟩ := disciplined
      rw [← isAsked] at nextDisciplined
      exact ⟨position, ordered.stay found (nextDisciplined reply)
        (gate.kept request _ reply after (Or.inr isRole) answered)⟩
  | claim =>
      rw [isRole] at disciplined
      obtain ⟨notHolding, nextDisciplined, _⟩ := disciplined
      rcases gate.claimed request _ reply after isRole answered with
        ⟨isUnclaimed, hasWon, isHeld⟩ | ⟨isClaimed, hasLost, samePhase⟩
      · have holdsNow := nextDisciplined reply
        rw [hasWon, if_pos rfl] at holdsNow
        refine ⟨_, ordered.place found holdsNow ?_ ?_ ?_ ?_⟩
        · exact fun unclaimed => nomatch isHeld.symm.trans unclaimed
        · exact fun _ => Or.inl rfl
        · exact fun _ => isHeld
        · intro other thread _ foundOther otherHolds
          have isOutside := ordered.asked other thread foundOther isUnclaimed
          exact nomatch otherHolds.symm.trans isOutside
      · have asksNow := nextDisciplined reply
        rw [hasLost, if_neg (by simp)] at asksNow
        refine ⟨_, ordered.place found asksNow ?_ ?_ ?_ ?_⟩
        · exact fun unclaimed => absurd (samePhase ▸ unclaimed) isClaimed
        · exact fun isHeld => Or.inr ⟨samePhase ▸ isHeld, notHolding⟩
        · exact nofun
        · intro other thread _ foundOther otherHolds
          refine ⟨?_, nofun⟩
          rw [samePhase]
          exact ordered.held other thread foundOther otherHolds
  | settle =>
      rw [isRole] at disciplined
      obtain ⟨isHolding, nextDisciplined⟩ := disciplined
      have isOpened := gate.settled request _ reply after isRole answered
      refine ⟨_, ordered.place found (nextDisciplined reply) ?_ ?_ ?_ ?_⟩
      · exact fun unclaimed => nomatch isOpened.symm.trans unclaimed
      · exact fun isHeld => nomatch isOpened.symm.trans isHeld
      · exact nofun
      · intro other thread different foundOther otherHolds
        exact absurd (ordered.unique index _ other thread found isHolding
          foundOther otherHolds) different
  | forbidden =>
      rw [isRole] at disciplined
      exact disciplined.elim

private theorem Ordered.reject (ordered : gate.Ordered pool position)
    {past : List (Exchange signature)} {request : signature.Call}
    {next : signature.Reply request → Program signature error result}
    {rejected : Program signature error result} {after : state}
    (found : pool.threads[index]? =
      some ⟨past, .call request next rejected⟩)
    (broke : system.broken request pool.state after) :
    gate.Ordered ⟨after, pool.threads.set index ⟨past, rejected⟩⟩
      position := by
  obtain ⟨notSettle, samePhase⟩ := gate.breaks request _ _ broke
  refine ordered.stay found ?_ samePhase
  have allowed : Rejectable system request := ⟨_, _, broke⟩
  have disciplined := ordered.disciplined index _ found
  simp only [Disciplined] at disciplined
  cases isRole : gate.role request with
  | plain =>
      rw [isRole] at disciplined
      exact disciplined.2 allowed
  | claim =>
      rw [isRole] at disciplined
      exact disciplined.2.2 allowed
  | settle =>
      exact absurd isRole notSettle
  | wait =>
      rw [isRole] at disciplined
      obtain ⟨isAsked, _, otherwise⟩ := disciplined
      rw [isAsked]
      exact otherwise allowed
  | forbidden =>
      rw [isRole] at disciplined
      exact disciplined.elim

private theorem Ordered.arrive (ordered : gate.Ordered pool position)
    {program : Program signature error result}
    (disciplined : gate.Disciplined .outside program) :
    gate.Ordered ⟨pool.state, pool.threads ++ [⟨[], program⟩]⟩
      (Function.update position pool.threads.length .outside) := by
  have cases_of_found : ∀ {other : ℕ} {thread : Thread _ _ _},
      (pool.threads ++ [⟨[], program⟩])[other]? = some thread →
        (other = pool.threads.length ∧ thread = ⟨[], program⟩) ∨
          (other ≠ pool.threads.length ∧
            pool.threads[other]? = some thread) := by
    intro other thread found
    by_cases inside : other < pool.threads.length
    · rw [List.getElem?_append_left inside] at found
      exact Or.inr ⟨by omega, found⟩
    · rw [List.getElem?_append_right (by omega)] at found
      have last : other - pool.threads.length = 0 := by
        by_contra beyond
        rw [List.getElem?_eq_none (by simp; omega)] at found
        exact nomatch found
      rw [last] at found
      cases found
      exact Or.inl ⟨by omega, rfl⟩
  have stays : ∀ other, other ≠ pool.threads.length →
      Function.update position pool.threads.length .outside other =
        position other :=
    fun other different => Function.update_of_ne different _ _
  have old : ∀ {other : ℕ} {thread : Thread _ _ _},
      (pool.threads ++ [⟨[], program⟩])[other]? = some thread →
      Function.update position pool.threads.length .outside other =
        .holding →
        pool.threads[other]? = some thread ∧ position other = .holding := by
    intro other thread found isHolding
    rcases cases_of_found found with ⟨rfl, rfl⟩ | ⟨different, earlier⟩
    · rw [Function.update_self] at isHolding
      exact nomatch isHolding
    · rw [stays other different] at isHolding
      exact ⟨earlier, isHolding⟩
  constructor
  case disciplined =>
    intro other thread found
    rcases cases_of_found found with ⟨rfl, rfl⟩ | ⟨different, earlier⟩
    · rwa [Function.update_self]
    · rw [stays other different]
      exact ordered.disciplined other thread earlier
  case asked =>
    intro other thread found isUnclaimed
    rcases cases_of_found found with ⟨rfl, rfl⟩ | ⟨different, earlier⟩
    · rw [Function.update_self]
    · rw [stays other different]
      exact ordered.asked other thread earlier isUnclaimed
  case holder =>
    intro isHeld
    obtain ⟨holder, thread, found, isHolding⟩ := ordered.holder isHeld
    have inside := (List.getElem?_eq_some_iff.mp found).choose
    refine ⟨holder, thread, ?_, ?_⟩
    · rwa [List.getElem?_append_left inside]
    · rwa [stays holder (by omega)]
  case held =>
    intro other thread found isHolding
    obtain ⟨earlier, holds⟩ := old found isHolding
    exact ordered.held other thread earlier holds
  case unique =>
    intro one thread other rival foundOne oneHolds foundOther otherHolds
    obtain ⟨earlierOne, holdsOne⟩ := old foundOne oneHolds
    obtain ⟨earlierOther, holdsOther⟩ := old foundOther otherHolds
    exact ordered.unique one thread other rival earlierOne holdsOne
      earlierOther holdsOther

theorem Ordered.advance {next : Pool signature error result state}
    (ordered : gate.Ordered pool position)
    (advances : system.Advances pool next) :
    ∃ later, gate.Ordered next later := by
  cases advances with
  | answer found answered =>
      exact ordered.answer found answered
  | reject found broke =>
      exact ⟨position, ordered.reject found broke⟩

theorem Ordered.operate {next : Pool signature error result state}
    (admitted : ∀ program, system.admitted program →
      gate.Disciplined .outside program)
    (ordered : gate.Ordered pool position)
    (operates : system.Operates pool next) :
    ∃ later, gate.Ordered next later := by
  cases operates with
  | arrive isAdmitted =>
      exact ⟨_, ordered.arrive (admitted _ isAdmitted)⟩
  | advance advances =>
      exact ordered.advance advances
  | restart =>
      exact ⟨_, ordered_restarted (gate.restarts _)⟩

variable (gate) in
private theorem exists_advances_of_call
    {past : List (Exchange signature)} {request : signature.Call}
    {next : signature.Reply request → Program signature error result}
    {rejected : Program signature error result}
    (found : pool.threads[index]? =
      some ⟨past, .call request next rejected⟩)
    (known : gate.role request ≠ .forbidden)
    (passes : gate.role request = .wait →
      gate.phase pool.state = .opened) :
    ∃ after, system.Advances pool after := by
  obtain ⟨reply, after, answered⟩ :=
    gate.answers request pool.state known passes
  exact ⟨_, .answer found answered⟩

/-- Deadlock freedom: unless all threads have ended, one can go on. When the
promise is held its holder can; otherwise nobody has to wait. -/
theorem Ordered.exists_advances (ordered : gate.Ordered pool position)
    (unfinished : ¬ pool.Ended) : ∃ next, system.Advances pool next := by
  by_cases isHeld : gate.phase pool.state = .held
  · obtain ⟨holder, ⟨past, rest⟩, found, isHolding⟩ := ordered.holder isHeld
    have disciplined := ordered.disciplined holder _ found
    rw [isHolding] at disciplined
    cases rest with
    | done value =>
        exact absurd rfl disciplined
    | fail reason =>
        exact absurd rfl disciplined
    | call request next rejected =>
        simp only [Disciplined] at disciplined
        refine exists_advances_of_call gate found ?_ ?_
        · intro isForbidden
          rw [isForbidden] at disciplined
          exact disciplined
        · intro isWait
          rw [isWait] at disciplined
          exact nomatch disciplined.1
  · simp only [Pool.Ended, not_forall] at unfinished
    obtain ⟨⟨past, rest⟩, member, goesOn⟩ := unfinished
    obtain ⟨index, found⟩ := List.getElem?_of_mem member
    have disciplined := ordered.disciplined index _ found
    cases rest with
    | done value =>
        exact absurd (Or.inl ⟨value, rfl⟩) goesOn
    | fail reason =>
        exact absurd (Or.inr ⟨reason, rfl⟩) goesOn
    | call request next rejected =>
        simp only [Disciplined] at disciplined
        refine exists_advances_of_call gate found ?_ ?_
        · intro isForbidden
          rw [isForbidden] at disciplined
          exact disciplined
        · intro isWait
          rw [isWait] at disciplined
          have isAsked := disciplined.1
          cases isPhase : gate.phase pool.state with
          | unclaimed =>
              have isOutside := ordered.asked index _ found isPhase
              exact nomatch isAsked.symm.trans isOutside
          | held =>
              exact absurd isPhase isHeld
          | opened =>
              rfl

variable (gate) in
/-- In a system of disciplined programs the calls that have come in by any
time come to their ends, in whatever order they take their steps. -/
theorem inevitably_ended {start : state}
    (free : gate.phase start = .unclaimed)
    (admitted : ∀ program, system.admitted program →
      gate.Disciplined .outside program)
    (reachable : system.Reachable start pool) :
    Inevitable system.Advances Pool.Ended pool := by
  let invariant (pool : Pool signature error result state) : Prop :=
    ∃ position, gate.Ordered pool position
  have holds : invariant pool := by
    induction reachable with
    | refl =>
        exact ⟨_, ordered_restarted free⟩
    | tail _ operates inductionHypothesis =>
        obtain ⟨position, ordered⟩ := inductionHypothesis
        exact ordered.operate admitted operates
  refine Inevitable.of_invariant
    (System.wellFounded_advances system) ?_ ?_ holds
  · rintro current next ⟨position, ordered⟩ advances
    exact ordered.advance advances
  · rintro current ⟨position, ordered⟩ unfinished
    exact ordered.exists_advances unfinished

end Gate

end Await

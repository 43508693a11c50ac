import ArosParadigm.Library.Interleaving
import ArosParadigm.ReleaseRecord

/-!
# Concurrent activations

`ReleaseService.phase` saves an inactive row when it finds none, so a call that
is overtaken by an activation takes the phase back, and two activations that
find the phase inactive are both recorded. When an activation begins while no
other call is past its read of the row, and none goes past its read until the
activation ends, the phase is activated once and stays as it was recorded.
-/

namespace ArosParadigm.ReleaseRace

open Await

/-- A call of `activate` or of `isActive`. -/
inductive ReleaseCall where
  | activate (threshold target processVolume24h : ℚ)
  | isActive

/-- What a call returns. -/
inductive Answer where
  | activation (result : ActivateResult)
  | active (value : Bool)

def ReleaseCall.program (env : Environment) :
    ReleaseCall → Service Answer
  | .activate threshold target processVolume24h => do
      let result ←
        Release.activate env threshold target processVolume24h
      return .activation result
  | .isActive => do
      let value ← Release.isActive
      return .active value

abbrev Calls := Pool signature ServiceError Answer World

/-- A thread that runs a call. -/
abbrev Running := Thread signature ServiceError Answer

/-- The calls before their first steps. -/
def launch (env : Environment) (start : World)
    (requests : List ReleaseCall) : Calls :=
  Pool.fresh start (requests.map (ReleaseCall.program env))

/-- The first call of an activation. -/
def isOpening : Call → Bool
  | .tick => true
  | _ => false

def isActivation : Call → Bool
  | .append .. => true
  | .savePhase row => row.active
  | _ => false

/-- The calls after the read of the phase row. -/
def isLate : Call → Bool
  | .tick => true
  | .append .. => true
  | .savePhase _ => true
  | _ => false

/-- The next call of the thread passes the test. -/
def awaits (test : Call → Bool) : Running → Bool
  | ⟨_, .call request _ _⟩ => test request
  | _ => false

/-- The next call reads the phase row, and more than an answer follows. -/
def goesPast (phase : Option ReleasePhase) : Running → Bool
  | ⟨past, .call .findPhase next _⟩ => awaits isLate ⟨past, next phase⟩
  | _ => false

/-- No call fails. -/
def Reliable (_ : Calls) : Move → Prop
  | .answer _ => True
  | .reject _ => False

/-- No call fails. An activation begins while no other call is past its read
of the phase row, and until it ends no other call goes past its read. -/
def Ordered (calls : Calls) : Move → Prop
  | .answer index =>
      (calls.threads[index]?.any (awaits isOpening) = true →
        ∀ thread ∈ calls.threads.eraseIdx index,
          awaits isLate thread = false) ∧
      (calls.threads[index]?.any (goesPast calls.state.phase) = true →
        ∀ thread ∈ calls.threads.eraseIdx index,
          awaits isActivation thread = false)
  | .reject _ => False

instance (calls : Calls) : DecidablePred (Reliable calls)
  | .answer _ => .isTrue trivial
  | .reject _ => .isFalse id

instance (calls : Calls) : DecidablePred (Ordered calls)
  | .answer index => inferInstanceAs (Decidable
      ((calls.threads[index]?.any (awaits isOpening) = true →
        ∀ thread ∈ calls.threads.eraseIdx index,
          awaits isLate thread = false) ∧
      (calls.threads[index]?.any (goesPast calls.state.phase) = true →
        ∀ thread ∈ calls.threads.eraseIdx index,
          awaits isActivation thread = false)))
  | .reject _ => .isFalse id

/-- From `earlier` to `later` an active row stays as it is, and all in all at
most one activation is recorded. -/
structure OneWay (start : World) (earlier later : Calls) : Prop where
  stays : ∀ row, earlier.state.phase = some row → row.active = true →
    later.state.phase = some row
  once : ∃ added,
    later.state.activations = start.activations ++ added ∧
      added.length ≤ 1

/-- What a call does with the phase row: it reports it, or it decides about an
activation with the metrics of its check. -/
inductive Plan where
  | report
  | decide (check : MaturityCheck) (threshold target : ℚ)

def saving (check : MaturityCheck) (row : ReleasePhase)
    (activatedAt : ℕ) : Service Answer :=
  .call (.savePhase
      { row with
        active := true
        activatedAt := some activatedAt
        reserveIndexAtActivation := some check.reserveIndex
        velocityAtActivation := some check.velocity })
    (fun _ => .done (.activation
      ⟨true, true, check.reserveIndex, check.velocity⟩))
    (.fail .storeRejected)

def recording (check : MaturityCheck) (threshold target : ℚ)
    (row : ReleasePhase) (activatedAt : ℕ) : Service Answer :=
  .call (.append "release.activated"
      (.releaseActivated check.reserveIndex check.velocity threshold
        target))
    (fun _ => saving check row activatedAt) (.fail .storeRejected)

/-- The activation. -/
def opening (check : MaturityCheck) (threshold target : ℚ)
    (row : ReleasePhase) : Service Answer :=
  .call .tick (recording check threshold target row)
    (.fail .storeRejected)

/-- The rest of a call that has the phase row. -/
def Plan.conclude (row : ReleasePhase) : Plan → Service Answer
  | .report => .done (.active row.active)
  | .decide check threshold target =>
      if row.active then
        .done (.activation ⟨false, true, check.reserveIndex, check.velocity⟩)
      else if !check.mature then
        .done (.activation
          ⟨false, false, check.reserveIndex, check.velocity⟩)
      else opening check threshold target row

/-- The rest of a call that has found no phase row. -/
def Plan.create (plan : Plan) : Service Answer :=
  .call (.savePhase .inactive) (fun _ => plan.conclude .inactive)
    (.fail .storeRejected)

def Plan.read (plan : Plan) : Service Answer :=
  .call .findPhase
    (fun
      | some row => plan.conclude row
      | none => plan.create)
    (.fail .storeRejected)

/-- The calls before the read of the phase row. -/
def Prepares : Call → Prop
  | .listSnapshots => True
  | .findLedger => True
  | .saveLedger _ => True
  | .claimInitialization => True
  | .settleInitialization _ => True
  | .awaitInitialization => True
  | _ => False

/-- A call that is not past its read of the phase row, or has ended. -/
inductive Apart : Service Answer → Prop
  | reading (plan : Plan) : Apart plan.read
  | preparing {request : Call} {next : request.Reply → Service Answer}
      {rejected : Service Answer} (prepares : Prepares request)
      (onward : ∀ reply, Apart (next reply)) :
      Apart (.call request next rejected)
  | returned (value : Answer) : Apart (.done value)
  | failed (reason : ServiceError) : Apart (.fail reason)

theorem apart_bind {middle : Type} {program : Service middle}
    {continuation : middle → Service Answer}
    (uses : Uses Prepares program)
    (onward : ∀ value, Apart (continuation value)) :
    Apart (program >>= continuation) := by
  induction program with
  | done value =>
      exact onward value
  | fail reason =>
      exact .failed reason
  | call request next rejected nextHypothesis rejectedHypothesis =>
      obtain ⟨prepares, nextUses, _⟩ := uses
      exact .preparing prepares
        fun reply => nextHypothesis reply (nextUses reply)

theorem uses_check (env : Environment)
    (threshold target processVolume24h : ℚ) :
    Uses Prepares (Release.check env threshold target processVolume24h) := by
  have ledger : Uses Prepares ArosCoin.ledger :=
    ArosCoin.uses_ledger trivial (fun _ => trivial) trivial trivial trivial
  have index : Uses Prepares (Reserve.reserveIndex env) :=
    uses_bind (uses_bind (uses_perform trivial _) fun _ => trivial)
      fun _ => trivial
  have velocity : Uses Prepares (Release.velocity processVolume24h) := by
    refine uses_bind (uses_bind ledger fun _ => trivial) fun supply => ?_
    split <;> trivial
  exact uses_bind index fun _ => uses_bind velocity fun _ => trivial

theorem apart_program (env : Environment) (request : ReleaseCall) :
    Apart (request.program env) := by
  have reads : ∀ plan : Plan,
      (Release.phase >>= fun row => plan.conclude row) = plan.read := by
    intro plan
    change Program.call _ _ _ = Program.call _ _ _
    congr 1
    funext found
    cases found <;> rfl
  cases request with
  | isActive =>
      have same : (ReleaseCall.isActive.program env) =
          Plan.report.read := by
        rw [← reads]
        exact bind_assoc _ _ _
      rw [same]
      exact .reading _
  | activate threshold target processVolume24h =>
      have same :
          (ReleaseCall.activate threshold target
              processVolume24h).program env =
            Release.check env threshold target processVolume24h >>=
              fun check => (Plan.decide check threshold target).read := by
        calc _ = Release.check env threshold target processVolume24h >>=
                fun check => Release.phase >>= fun row =>
                  (Plan.decide check threshold target).conclude row := by
              rw [ReleaseCall.program, Release.activate, bind_assoc]
              congr 1
              funext check
              rw [bind_assoc]
              congr 1
              funext row
              rw [Plan.conclude]
              split_ifs <;> rfl
          _ = _ := by
              congr 1
              funext check
              exact reads _
      rw [same]
      exact apart_bind (uses_check env threshold target processVolume24h)
        fun check => .reading _

/-- A call that has changed nothing but the phase row it may have created. -/
inductive Early : Service Answer → Prop
  | apart {rest : Service Answer} (apart : Apart rest) : Early rest
  | creating (plan : Plan) : Early plan.create
  | opening (check : MaturityCheck) (threshold target : ℚ)
      (row : ReleasePhase) : Early (opening check threshold target row)

theorem early_conclude (plan : Plan) (row : ReleasePhase) :
    Early (plan.conclude row) := by
  cases plan with
  | report =>
      exact .apart (.returned _)
  | decide check threshold target =>
      rw [Plan.conclude]
      split_ifs
      · exact .apart (.returned _)
      · exact .apart (.returned _)
      · exact .opening check threshold target row

theorem conclude_of_active (plan : Plan) {row : ReleasePhase}
    (active : row.active = true) :
    ∃ value, plan.conclude row = .done value := by
  cases plan with
  | report =>
      exact ⟨_, rfl⟩
  | decide check threshold target =>
      exact ⟨_, if_pos active⟩

theorem apart_of_not_late {past : List (Exchange signature)}
    {rest : Service Answer} (early : Early rest)
    (idle : awaits isLate ⟨past, rest⟩ = false) : Apart rest := by
  cases early with
  | apart apart =>
      exact apart
  | creating plan =>
      cases idle
  | opening check threshold target row =>
      cases idle

section Steps

variable {env : Environment} {world after : World} {request : Call}
variable {next : request.Reply → Service Answer}
variable {rejected : Service Answer} {reply : request.Reply}

/-- The step lemma of the calls that are not past their read. -/
theorem Apart.step (past : List (Exchange signature))
    (apart : Apart (.call request next rejected))
    (answered : machine env request world = some (reply, after)) :
    after.phase = world.phase ∧ after.activations = world.activations ∧
      Early (next reply) ∧
      (goesPast world.phase ⟨past, .call request next rejected⟩ = false →
        Apart (next reply)) := by
  generalize same : Program.call request next rejected = rest at apart
  cases apart with
  | reading plan =>
      cases same
      cases answered
      have early : Early (match world.phase with
          | some row => plan.conclude row
          | none => plan.create) := by
        cases world.phase with
        | some row =>
            exact early_conclude plan row
        | none =>
            exact .creating plan
      exact ⟨rfl, rfl, early, fun kept => apart_of_not_late early kept⟩
  | preparing prepares onward =>
      cases same
      have unchanged : after.phase = world.phase ∧
          after.activations = world.activations := by
        cases request <;> cases prepares
        case claimInitialization =>
          simp only [machine] at answered
          split at answered <;> cases answered <;> exact ⟨rfl, rfl⟩
        case awaitInitialization =>
          simp only [machine] at answered
          split at answered <;> cases answered
          exact ⟨rfl, rfl⟩
        all_goals
          cases answered
          exact ⟨rfl, rfl⟩
      exact ⟨unchanged.1, unchanged.2, .apart (onward reply),
        fun _ => onward reply⟩
  | returned value =>
      cases same
  | failed reason =>
      cases same

theorem Apart.not_goesPast {past : List (Exchange signature)}
    {rest : Service Answer} (apart : Apart rest) {row : ReleasePhase}
    (active : row.active = true) :
    goesPast (some row) ⟨past, rest⟩ = false := by
  cases apart with
  | reading plan =>
      obtain ⟨value, ended⟩ := conclude_of_active plan active
      change awaits isLate ⟨past, plan.conclude row⟩ = false
      rw [ended]
      rfl
  | @preparing request next rejected prepares onward =>
      cases request <;> cases prepares <;> rfl
  | returned value =>
      rfl
  | failed reason =>
      rfl

end Steps

/-! ## The course of the calls -/

/-- The rest of an activation after its first step. -/
inductive Underway (start world : World) : Service Answer → Prop
  | recording (check : MaturityCheck) (threshold target : ℚ)
      (row : ReleasePhase) (activatedAt : ℕ)
      (records : world.activations = start.activations) :
      Underway start world
        (recording check threshold target row activatedAt)
  | saving (check : MaturityCheck) (row : ReleasePhase) (activatedAt : ℕ)
      (record : Snapshot)
      (records : world.activations = start.activations ++ [record]) :
      Underway start world (saving check row activatedAt)

/-- Every thread but one is at the stage. -/
def Others (stage : Service Answer → Prop) (threads : List Running)
    (index : ℕ) : Prop :=
  ∀ other thread, other ≠ index → threads[other]? = some thread →
    stage thread.rest

/-- Every thread is at the stage. -/
def All (stage : Service Answer → Prop) (threads : List Running) : Prop :=
  ∀ (index : ℕ) (thread : Running), threads[index]? = some thread →
    stage thread.rest

/-- Before, during and after the activation. -/
inductive Course (start : World) (calls : Calls) : Prop
  | resting (inactive : calls.state.isActive = false)
      (records : calls.state.activations = start.activations)
      (early : All Early calls.threads)
  | activating (worker : ℕ) (thread : Running)
      (inactive : calls.state.isActive = false)
      (found : calls.threads[worker]? = some thread)
      (underway : Underway start calls.state thread.rest)
      (apart : Others Apart calls.threads worker)
  | activated (row : ReleasePhase) (added : List Snapshot)
      (stored : calls.state.phase = some row) (active : row.active = true)
      (records : calls.state.activations = start.activations ++ added)
      (single : added.length ≤ 1) (apart : All Apart calls.threads)

theorem isActive_of_phase {world after : World}
    (same : after.phase = world.phase) :
    after.isActive = world.isActive := by
  rw [World.isActive, World.isActive, same]

theorem activations_append (env : Environment) (world : World)
    (payload : Payload) :
    (world.append env "release.activated" payload).activations =
      world.activations ++
        [world.nextSnapshot env "release.activated" payload] := by
  rw [World.activations, World.history_append, List.filter_append]
  rfl

section Threads

variable {stage : Service Answer → Prop} {threads : List Running}
variable {index : ℕ} {moved : Running}

theorem All.others (all : All stage threads) (index : ℕ) :
    Others stage threads index :=
  fun other thread _ found => all other thread found

theorem Others.set (others : Others stage threads index)
    (onward : stage moved.rest) : All stage (threads.set index moved) :=
  Pool.forall_set others onward

theorem Others.set_other {worker : ℕ} (others : Others stage threads worker)
    (onward : stage moved.rest) :
    Others stage (threads.set index moved) worker :=
  Pool.forall_set_other others onward

theorem Others.set_self (others : Others stage threads index) :
    Others stage (threads.set index moved) index :=
  Pool.forall_set_self others

end Threads

theorem course_launch (env : Environment) (start : World)
    (requests : List ReleaseCall) :
    Course start (launch env start requests) := by
  have apart : All Apart (launch env start requests).threads := by
    apply Pool.forall_fresh
    intro program member
    obtain ⟨request, _, rfl⟩ := List.mem_map.mp member
    exact apart_program env request
  cases active : start.isActive with
  | false =>
      exact .resting active rfl
        fun index thread found => .apart (apart index thread found)
  | true =>
      obtain ⟨row, stored, isActive⟩ :=
        (Option.any_eq_true _ _).mp active
      exact .activated row [] stored isActive (List.append_nil _).symm
        (Nat.zero_le 1) apart

section Answers

variable {env : Environment} {start after : World} {calls : Calls}
variable {index : ℕ} {past : List (Exchange signature)} {request : Call}
variable {next : request.Reply → Service Answer}
variable {rejected : Service Answer} {reply : request.Reply}

theorem course_of_early
    (inactive : calls.state.isActive = false)
    (records : calls.state.activations = start.activations)
    (early : All Early calls.threads)
    (found : calls.threads[index]? =
      some ⟨past, .call request next rejected⟩)
    (ordered : Ordered calls (.answer index))
    (answer : machine env request calls.state = some (reply, after)) :
    Course start ⟨after, calls.threads.set index
      ⟨⟨request, reply⟩ :: past, next reply⟩⟩ := by
  have turn := early index _ found
  generalize same : Program.call request next rejected = rest at turn
  cases turn with
  | apart apart =>
      rw [← same] at apart
      obtain ⟨phase, activations, onward, _⟩ := apart.step past answer
      exact .resting ((isActive_of_phase phase).trans inactive)
        (activations.trans records) ((early.others index).set onward)
  | creating plan =>
      cases same
      cases answer
      exact .resting rfl records
        ((early.others index).set (early_conclude plan _))
  | opening check threshold target row =>
      cases same
      cases answer
      obtain ⟨bound, _⟩ := List.getElem?_eq_some_iff.mp found
      have apart : Others Apart calls.threads index := by
        intro other thread different present
        have idle := ordered.1 (by rw [found]; rfl) thread
          (List.mem_eraseIdx_iff_getElem?.mpr ⟨other, different, present⟩)
        exact apart_of_not_late (early other thread present) idle
      exact .activating index _ inactive (List.getElem?_set_self bound)
        (.recording check threshold target row _ records) apart.set_self

theorem course_of_underway
    (inactive : calls.state.isActive = false)
    (found : calls.threads[index]? =
      some ⟨past, .call request next rejected⟩)
    (underway : Underway start calls.state (.call request next rejected))
    (apart : Others Apart calls.threads index)
    (answer : machine env request calls.state = some (reply, after)) :
    Course start ⟨after, calls.threads.set index
      ⟨⟨request, reply⟩ :: past, next reply⟩⟩ := by
  obtain ⟨bound, _⟩ := List.getElem?_eq_some_iff.mp found
  generalize same : Program.call request next rejected = rest at underway
  cases underway with
  | recording check threshold target row activatedAt records =>
      cases same
      cases answer
      have recorded := activations_append env calls.state
        (.releaseActivated check.reserveIndex check.velocity threshold
          target)
      rw [records] at recorded
      exact .activating index _ inactive (List.getElem?_set_self bound)
        (.saving check row activatedAt _ recorded) apart.set_self
  | saving check row activatedAt record records =>
      cases same
      cases answer
      exact .activated _ [record] rfl rfl records (Nat.le_refl 1)
        (apart.set (.returned _))

theorem course_of_other {worker : ℕ} {thread : Running}
    (inactive : calls.state.isActive = false)
    (present : calls.threads[worker]? = some thread)
    (underway : Underway start calls.state thread.rest)
    (apart : Others Apart calls.threads worker) (different : index ≠ worker)
    (found : calls.threads[index]? =
      some ⟨past, .call request next rejected⟩)
    (ordered : Ordered calls (.answer index))
    (answer : machine env request calls.state = some (reply, after)) :
    Course start ⟨after, calls.threads.set index
      ⟨⟨request, reply⟩ :: past, next reply⟩⟩ := by
  obtain ⟨phase, activations, _, onward⟩ :=
    (apart index _ different found).step past answer
  have held : goesPast calls.state.phase
      ⟨past, .call request next rejected⟩ = false := by
    by_contra goes
    rw [Bool.not_eq_false] at goes
    have idle := ordered.2 (by rw [found]; exact goes) thread
      (List.mem_eraseIdx_iff_getElem?.mpr
        ⟨worker, different.symm, present⟩)
    obtain ⟨past, rest⟩ := thread
    cases underway <;> cases idle
  have kept : (calls.threads.set index
      ⟨⟨request, reply⟩ :: past, next reply⟩)[worker]? = some thread :=
    (List.getElem?_set_ne different).trans present
  have still : Underway start after thread.rest := by
    generalize thread.rest = rest at underway
    cases underway with
    | recording check threshold target row activatedAt records =>
        exact .recording check threshold target row activatedAt
          (activations.trans records)
    | saving check row activatedAt record records =>
        exact .saving check row activatedAt record
          (activations.trans records)
  exact .activating worker thread ((isActive_of_phase phase).trans inactive)
    kept still (apart.set_other (onward held))

/-- The step lemma. -/
theorem Course.answer
    (course : Course start calls) (ordered : Ordered calls (.answer index))
    (found : calls.threads[index]? =
      some ⟨past, .call request next rejected⟩)
    (answer : machine env request calls.state = some (reply, after)) :
    Course start ⟨after, calls.threads.set index
      ⟨⟨request, reply⟩ :: past, next reply⟩⟩ := by
  cases course with
  | resting inactive records early =>
      exact course_of_early inactive records early found ordered answer
  | activating worker thread inactive present underway apart =>
      by_cases same : index = worker
      · subst same
        rw [found] at present
        cases present
        exact course_of_underway inactive found underway apart answer
      · exact course_of_other inactive present underway apart same found
          ordered answer
  | activated row added stored active records single apart =>
      have turn := apart index _ found
      obtain ⟨phase, activations, _, onward⟩ := turn.step past answer
      have held : goesPast calls.state.phase
          ⟨past, .call request next rejected⟩ = false := by
        rw [stored]
        exact turn.not_goesPast active
      exact .activated row added (phase.trans stored) active
        (activations.trans records) single
        ((apart.others index).set (onward held))

theorem Course.stays {row : ReleasePhase}
    (course : Course start calls) (stored : calls.state.phase = some row)
    (active : row.active = true)
    (found : calls.threads[index]? =
      some ⟨past, .call request next rejected⟩)
    (answer : machine env request calls.state = some (reply, after)) :
    after.phase = some row := by
  have isActive : calls.state.isActive = true := by
    rw [World.isActive, stored]
    exact active
  cases course with
  | resting inactive _ _ =>
      rw [isActive] at inactive
      cases inactive
  | activating _ _ inactive _ _ _ =>
      rw [isActive] at inactive
      cases inactive
  | activated _ _ _ _ _ _ apart =>
      exact ((apart index _ found).step past answer).1.trans stored

end Answers

section Runs

variable {env : Environment} {start : World} {earlier later : Calls}

theorem course_of_reaches
    (reached : Reaches (machine env) Ordered earlier later)
    (course : Course start earlier) :
    Course start later ∧
      ∀ row, earlier.state.phase = some row → row.active = true →
        later.state.phase = some row := by
  induction reached with
  | refl =>
      exact ⟨course, fun _ stored _ => stored⟩
  | tail move _ ordered moved inductionHypothesis =>
      obtain ⟨course, stays⟩ := inductionHypothesis
      cases move with
      | answer index =>
          obtain ⟨past, request, next, rejected, reply, after, found,
            answer, rfl⟩ := Pool.exists_of_move_answer moved
          refine ⟨course.answer ordered found answer, ?_⟩
          intro row stored active
          exact course.stays (stays row stored active) active found answer
      | reject index =>
          exact ordered.elim

/-- Under the order of `Ordered` the release is one-way. -/
theorem release_one_way {requests : List ReleaseCall}
    (first : Reaches (machine env) Ordered (launch env start requests)
      earlier)
    (second : Reaches (machine env) Ordered earlier later) :
    OneWay start earlier later := by
  obtain ⟨course, _⟩ :=
    course_of_reaches first (course_launch env start requests)
  obtain ⟨ended, stays⟩ := course_of_reaches second course
  refine ⟨stays, ?_⟩
  cases ended with
  | resting _ records _ =>
      exact ⟨[], records.trans (List.append_nil _).symm, Nat.zero_le 1⟩
  | activating _ thread _ _ underway _ =>
      generalize thread.rest = rest at underway
      cases underway with
      | recording _ _ _ _ _ records =>
          exact ⟨[], records.trans (List.append_nil _).symm, Nat.zero_le 1⟩
      | saving _ _ _ record records =>
          exact ⟨[record], records, Nat.le_refl 1⟩
  | activated _ added _ _ records single _ =>
      exact ⟨added, records, single⟩

end Runs

/-- A process has minted nine coins, so the index is the logarithm of ten. -/
def circulating : World :=
  (World.initial.append .plain "emission.minted"
    (.emissionMinted "p-0" 9)).saveLedger ⟨9, 0, 0⟩

/-- A question and a mature activation. -/
def overtaken : Calls :=
  launch .plain circulating [.isActive, .activate (1 / 2) (1 / 2) 10]

/-- The question has found no phase row before the activation. -/
def activatedMeanwhile : Calls :=
  overtaken.play (machine .plain) Reliable
    ((0 :: List.replicate 11 1).map .answer)

/-- The question has saved the inactive row. -/
def takenBack : Calls :=
  activatedMeanwhile.play (machine .plain) Reliable [.answer 0]

/-- Two mature activations, step by step in turn. -/
def recordedTwice : Calls :=
  (launch .plain circulating
      (List.replicate 2 (.activate (1 / 2) (1 / 2) 10))).play
    (machine .plain) Reliable
    ((List.replicate 11 [0, 1]).flatten.map .answer)

/-- A question that finds no row takes the activation back, and two
activations that find an inactive row are both recorded. -/
theorem activation_taken_back :
    Reaches (machine .plain) Reliable overtaken activatedMeanwhile ∧
      Reaches (machine .plain) Reliable activatedMeanwhile takenBack ∧
      takenBack.Returned ∧
      activatedMeanwhile.state.isActive = true ∧
      takenBack.state.phase = some .inactive ∧
      ¬ OneWay circulating activatedMeanwhile takenBack ∧
      recordedTwice.Returned ∧
      recordedTwice.state.activations.length = 2 := by
  have active : activatedMeanwhile.state.isActive = true := by
    decide +kernel
  have inactive : takenBack.state.phase = some .inactive := by
    decide +kernel
  have notOneWay : ¬ OneWay circulating activatedMeanwhile takenBack := by
    intro oneWay
    obtain ⟨row, stored, isActive⟩ := (Option.any_eq_true _ _).mp active
    have kept := oneWay.stays row stored isActive
    rw [inactive] at kept
    cases kept
    cases isActive
  refine ⟨reaches_play _ .refl, reaches_play _ .refl, ?_, active, inactive,
    notOneWay, ?_⟩
  · decide +kernel
  · decide +kernel

/-- The question comes after the activation. -/
def activatedFirst : Calls :=
  overtaken.play (machine .plain) Ordered
    ((List.replicate 11 1).map .answer)

/-- The question has found the active row. -/
def askedAfterwards : Calls :=
  activatedFirst.play (machine .plain) Ordered [.answer 0]

theorem oneWay_askedAfterwards :
    activatedFirst.state.isActive = true ∧ askedAfterwards.Returned ∧
      OneWay circulating activatedFirst askedAfterwards := by
  refine ⟨by decide +kernel, by decide +kernel, ?_⟩
  exact release_one_way (reaches_play _ .refl) (reaches_play _ .refl)

end ArosParadigm.ReleaseRace

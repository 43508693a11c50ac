import ArosParadigm.Composition

/-!
# The two ledgers of the deployed services

Whatever calls come in, in whatever order they take their steps, and whichever
of them fail or are dropped by a restart, NodeChain and the Oversight Ledger
stay hash-linked, and every audit that returns says so. NodeChain is numbered
without gaps; the ids of the Oversight Ledger increase, with a gap wherever an
observation has failed after drawing its `id`.
-/

namespace ArosParadigm

open Await

/-- The snapshot that an answered call has appended. -/
def appendedSnapshots : Exchange signature → List Snapshot
  | ⟨.append .., snapshot⟩ => [snapshot]
  | _ => []

/-- The observation that an answered call has logged. -/
def loggedEntries : Exchange signature → List OversightLogEntry
  | ⟨.logOversight .., entry⟩ => [entry]
  | _ => []

section Steps

variable {env : Environment} {request : Call} {reply : request.Reply}
variable {world after : World}

theorem history_of_answered
    (answered : machine env request world = some (reply, after)) :
    after.history =
      world.history ++ appendedSnapshots ⟨request, reply⟩ := by
  cases request with
  | append eventType payload =>
      cases answered
      exact World.history_append env world eventType payload
  | claimInitialization =>
      obtain ⟨_, rfl⟩ := eq_of_claimInitialization answered
      exact (List.append_nil _).symm
  | awaitInitialization =>
      obtain rfl := eq_of_awaitInitialization answered
      exact (List.append_nil _).symm
  | _ =>
      cases answered
      exact (List.append_nil _).symm

theorem oversight_of_answered
    (answered : machine env request world = some (reply, after)) :
    after.oversight =
      world.oversight ++ loggedEntries ⟨request, reply⟩ := by
  cases request with
  | logOversight eventType layer description =>
      cases answered
      rfl
  | claimInitialization =>
      obtain ⟨_, rfl⟩ := eq_of_claimInitialization answered
      exact (List.append_nil _).symm
  | awaitInitialization =>
      obtain rfl := eq_of_awaitInitialization answered
      exact (List.append_nil _).symm
  | _ =>
      cases answered
      exact (List.append_nil _).symm

theorem Breaks.history_eq {request : Call} {world after : World}
    (breaks : Breaks request world after) :
    after.history = world.history := by
  rcases breaks.eq_or_drawn with rfl | rfl | rfl <;> rfl

theorem Breaks.oversight_eq {request : Call} {world after : World}
    (breaks : Breaks request world after) :
    after.oversight = world.oversight := by
  rcases breaks.eq_or_drawn with rfl | rfl | rfl <;> rfl

/-- The sequence of the Oversight Ledger never goes back. -/
theorem Breaks.sequence_le {request : Call} {world after : World}
    (breaks : Breaks request world after) :
    world.oversightSequence ≤ after.oversightSequence := by
  rcases breaks.eq_or_drawn with rfl | rfl | rfl
  · exact Nat.le_refl _
  · exact Nat.le_refl _
  · exact Nat.le_succ _

end Steps

/-- Both ledgers are hash-linked. NodeChain is numbered from 1 on, and the ids
of the Oversight Ledger increase up to the last one given out. -/
structure World.Standing (env : Environment) (world : World) : Prop where
  chain : world.Intact env
  chainNumbers : world.history.map ExecutionSnapshot.sequenceId =
    List.range' 1 world.history.length
  oversight : HashChain.Linked (AllSeeingEye.reading env) "GENESIS"
    world.oversight
  oversightIds : (world.oversight.map OversightLogEntry.id).Pairwise
    fun earlier later => earlier < later
  oversightDrawn : ∀ entry ∈ world.oversight,
    entry.id ≤ world.oversightSequence

namespace World

variable {env : Environment} {world : World}

/-- The number after consecutive ones. -/
private theorem range'_append_next {numbers : List ℕ} {length : ℕ}
    (consecutive : numbers = List.range' 1 length) :
    numbers ++ [numbers.getLast?.getD 0 + 1] =
      List.range' 1 (length + 1) := by
  have isNext : numbers.getLast?.getD 0 + 1 = 1 + length := by
    rw [consecutive]
    cases length with
    | zero =>
        rfl
    | succ count =>
        rw [List.range'_concat, List.getLast?_concat]
        simp only [Option.getD_some]
        omega
  rw [isNext, consecutive, List.range'_concat]
  simp

theorem Standing.append (standing : world.Standing env)
    (eventType : String) (payload : Payload) :
    (world.append env eventType payload).Standing env where
  chain := standing.chain.append eventType payload
  chainNumbers := by
    have isNext : (world.nextSnapshot env eventType payload).sequenceId =
        (world.history.map
          ExecutionSnapshot.sequenceId).getLast?.getD 0 + 1 :=
      NodeChain.sequenceId_nextRow env.hasher (.same Payload)
        world.snapshots eventType payload (world.clock + 1)
    rw [history_append, List.map_append, List.length_append,
      List.map_singleton, List.length_singleton, isNext]
    exact range'_append_next standing.chainNumbers
  oversight := standing.oversight
  oversightIds := standing.oversightIds
  oversightDrawn := standing.oversightDrawn

theorem Standing.log (standing : world.Standing env)
    (eventType layer description : String) :
    (world.log env eventType layer description).Standing env where
  chain := standing.chain
  chainNumbers := standing.chainNumbers
  oversight := by
    have named : (world.nextOversight env eventType layer
        description).prevHash =
          HashChain.tip (AllSeeingEye.reading env) "GENESIS"
            world.oversight := by
      unfold nextOversight HashChain.tip
      cases world.oversight.getLast? <;> rfl
    refine standing.oversight.append_singleton named ?_
    rw [← named]
    rfl
  oversightIds := by
    rw [log_oversight, List.map_append, List.map_singleton,
      List.pairwise_append]
    refine ⟨standing.oversightIds, List.pairwise_singleton _ _, ?_⟩
    intro earlier member later isLast
    obtain ⟨entry, isEntry, rfl⟩ := List.mem_map.mp member
    rw [List.mem_singleton.mp isLast]
    exact Nat.lt_succ_of_le (standing.oversightDrawn entry isEntry)
  oversightDrawn := by
    intro entry member
    rw [log_oversight, List.mem_append, List.mem_singleton] at member
    rcases member with old | rfl
    · exact Nat.le_succ_of_le (standing.oversightDrawn entry old)
    · exact Nat.le_refl _

/-- A step that leaves both ledgers alone. -/
theorem Standing.of_same {after : World} (standing : world.Standing env)
    (sameHistory : after.history = world.history)
    (sameOversight : after.oversight = world.oversight)
    (numbered : world.oversightSequence ≤ after.oversightSequence) :
    after.Standing env where
  chain := standing.chain.of_history sameHistory
  chainNumbers := sameHistory ▸ standing.chainNumbers
  oversight := sameOversight ▸ standing.oversight
  oversightIds := sameOversight ▸ standing.oversightIds
  oversightDrawn := by
    rw [sameOversight]
    exact fun entry member =>
      (standing.oversightDrawn entry member).trans numbered

theorem Standing.of_breaks (standing : world.Standing env)
    {request : Call} {after : World}
    (breaks : Breaks request world after) : after.Standing env :=
  standing.of_same breaks.history_eq breaks.oversight_eq breaks.sequence_le

theorem Standing.restart (standing : world.Standing env) :
    world.restart.Standing env :=
  standing.of_same rfl rfl (Nat.le_refl _)

/-- No call breaks a ledger. -/
theorem Standing.step (standing : world.Standing env) {request : Call}
    {reply : request.Reply} {after : World}
    (answered : machine env request world = some (reply, after)) :
    after.Standing env := by
  cases request with
  | append eventType payload =>
      cases answered
      exact standing.append eventType payload
  | logOversight eventType layer description =>
      cases answered
      exact standing.log eventType layer description
  | claimInitialization =>
      obtain ⟨_, rfl⟩ := eq_of_claimInitialization answered
      exact standing.of_same rfl rfl (Nat.le_refl _)
  | awaitInitialization =>
      obtain rfl := eq_of_awaitInitialization answered
      exact standing
  | _ =>
      cases answered
      exact standing.of_same rfl rfl (Nat.le_refl _)

theorem standing_initial : initial.Standing env :=
  ⟨intact_initial, rfl, trivial, List.Pairwise.nil, nofun⟩

theorem Standing.reconstruct (standing : world.Standing env) :
    (NodeChain.reconstruct env.hasher world.history).ok = true :=
  standing.chain.reconstruct

theorem Standing.verifiedLog (standing : world.Standing env) :
    (AllSeeingEye.verifiedLog env world.oversight).ok = true := by
  have unbroken := (HashChain.firstBroken_eq_none_iff
    (AllSeeingEye.reading env) "GENESIS" world.oversight).mpr
      standing.oversight
  rw [AllSeeingEye.verifiedLog, unbroken]

end World

/-! ## Audits -/

/-- The histories that a store with standing ledgers shows. -/
def ShowsStanding (env : Environment) : Exchange signature → Prop
  | ⟨.listSnapshots, history⟩ =>
      (NodeChain.reconstruct env.hasher history).ok = true
  | ⟨.listOversight, entries⟩ =>
      (AllSeeingEye.verifiedLog env entries).ok = true
  | _ => True

theorem World.Standing.shows {env : Environment} {world after : World}
    (standing : world.Standing env) {request : Call}
    {reply : request.Reply}
    (answered : machine env request world = some (reply, after)) :
    ShowsStanding env ⟨request, reply⟩ := by
  cases request with
  | listSnapshots =>
      cases answered
      exact standing.reconstruct
  | listOversight =>
      cases answered
      exact standing.verifiedLog
  | _ =>
      trivial

/-- An audit that returns says that all is well. -/
def PublicCall.Passes : PublicCall.Answer → Prop
  | ⟨.inl .reconstruct, result⟩ => result.ok = true
  | ⟨.inl .verifyChain, result⟩ => result.ok = true
  | ⟨.inr .verifyChain, result⟩ => result.ok = true
  | ⟨.inr .verifyLog, result⟩ => result.ok = true
  | _ => True

section Audits

variable {env : Environment}

/-- The answer passes when the replies were those of standing ledgers. -/
def PassesOn (env : Environment) (answer : PublicCall.Answer)
    (past : List (Exchange signature)) : Prop :=
  (∀ exchange ∈ past, ShowsStanding env exchange) → PublicCall.Passes answer

/-- The postcondition of an audit of its own result. -/
private def Found (env : Environment) (result : ReconstructResult)
    (past : List (Exchange signature)) : Prop :=
  (∀ exchange ∈ past, ShowsStanding env exchange) → result.ok = true

private theorem obeys_reconstruct :
    Obeys (fun _ _ => True) (Found env) (Pot.reconstruct env) [] := by
  refine .perform_bind trivial fun history shown => ?_
  exact shown ⟨.listSnapshots, history⟩ List.mem_cons_self

private theorem obeys_verifyChain :
    Obeys (fun _ _ => True) (Found env)
      (AllSeeingEye.verifyChain env) [] := by
  refine ⟨trivial, fun history => ?_, trivial⟩
  change Obeys _ _ (if _ then _ else _) _
  cases passed : (NodeChain.reconstruct env.hasher history).ok with
  | true =>
      exact fun _ => passed
  | false =>
      refine ⟨trivial, fun entry shown => ?_, trivial⟩
      exact shown ⟨.listSnapshots, history⟩
        (List.mem_cons_of_mem _ List.mem_cons_self)

private theorem verifyLog_eq :
    AllSeeingEye.verifyLog env = do
      let entries ← ask .listOversight
      return AllSeeingEye.verifiedLog env entries := by
  unfold AllSeeingEye.verifyLog AllSeeingEye.verifiedLog
  apply congrArg (Await.Program.bind (ask .listOversight))
  funext entries
  cases HashChain.firstBroken (AllSeeingEye.reading env) "GENESIS"
    entries <;> rfl

private theorem obeys_verifyLog :
    Obeys (fun _ _ => True) (Found env) (AllSeeingEye.verifyLog env)
      [] := by
  rw [verifyLog_eq]
  refine ⟨trivial, fun entries => ?_, trivial⟩
  exact fun shown => shown ⟨.listOversight, entries⟩ List.mem_cons_self

/-- Every public call passes on what it was shown. -/
theorem PublicCall.obeys_passesOn (call : PublicCall) :
    Obeys (fun _ _ => True) (PassesOn env) (call.program env) [] := by
  have others : (∀ value past, PassesOn env ⟨call, value⟩ past) →
      Obeys (fun _ _ => True) (PassesOn env) (call.program env) [] :=
    fun always => Obeys.bind (obeys_of_forall always _) fun _ _ holds =>
      holds
  rcases call with method | observer
  · cases method
    case reconstruct =>
      exact Obeys.bind obeys_reconstruct fun _ _ holds => holds
    case verifyChain =>
      exact Obeys.bind obeys_verifyChain fun _ _ holds => holds
    all_goals exact others fun _ _ _ => trivial
  · cases observer
    case verifyChain =>
      exact Obeys.bind obeys_verifyChain fun _ _ holds => holds
    case verifyLog =>
      exact Obeys.bind obeys_verifyLog fun _ _ holds => holds
    all_goals exact others fun _ _ _ => trivial

end Audits

/-- Standing ledgers in operation. -/
def standingGuard (env : Environment) (admits : PublicCall → Prop) :
    Guarded (deployment env admits) fun _ _ => True where
  invariant := World.Standing env
  knows past _ := ∀ exchange ∈ past, ShowsStanding env exchange
  begins _ _ _ member := nomatch member
  answers past request now reply after standing shown _ answered := by
    have answered : machine env request now = some (reply, after) := answered
    refine ⟨standing.step answered, ?_, fun _ => id⟩
    intro exchange member
    rcases List.mem_cons.mp member with rfl | earlier
    · exact standing.shows answered
    · exact shown exchange earlier
  breaks _ _ _ standing broke := ⟨standing.of_breaks broke, fun _ => id⟩
  restarts _ standing := standing.restart

namespace Deployed

variable {env : Environment} {admits : PublicCall → Prop} {pool : Deployed}

private theorem admitted_passesOn (program : Service PublicCall.Answer)
    (admitted : (deployment env admits).admitted program) :
    Obeys (fun _ _ => True) (PassesOn env) program [] := by
  obtain ⟨call, _, rfl⟩ := admitted
  exact call.obeys_passesOn

theorem Reached.standing (reached : Reached env admits pool) :
    pool.state.Standing env :=
  ((standingGuard env admits).reachable admitted_passesOn
    World.standing_initial reached).1

/-- In operation NodeChain and the Oversight Ledger stay hash-linked, NodeChain
numbered from 1 on and the Oversight Ledger in ascending ids, and every audit
that has returned has found its ledger intact. -/
theorem ledgers_stand (env : Environment) (admits : PublicCall → Prop)
    (pool : Deployed) (reached : Reached env admits pool) :
    pool.state.Standing env ∧
      (NodeChain.reconstruct env.hasher pool.state.history).ok = true ∧
      (AllSeeingEye.verifiedLog env pool.state.oversight).ok = true ∧
      ∀ thread ∈ pool.threads, ∀ answer, thread.rest = .done answer →
        PublicCall.Passes answer := by
  have standing := reached.standing
  refine ⟨standing, standing.reconstruct, standing.verifiedLog, ?_⟩
  intro thread member answer returned
  obtain ⟨shown, passes⟩ := (standingGuard env admits).returned
    admitted_passesOn World.standing_initial reached member returned
  exact passes shown

theorem ledgers_stand_of_auditedDay :
    let pool := play .plain auditedDay
    pool.state.Standing .plain ∧
      (NodeChain.reconstruct Environment.plain.hasher
        pool.state.history).ok = true ∧
      (AllSeeingEye.verifiedLog .plain pool.state.oversight).ok = true ∧
      ∀ thread ∈ pool.threads, ∀ answer, thread.rest = .done answer →
        PublicCall.Passes answer :=
  ledgers_stand .plain (fun _ => True) _
    (reached_auditedDay (fun _ => trivial) (fun _ => trivial)
      (fun _ => trivial) (fun _ => trivial) trivial trivial)

end Deployed

end ArosParadigm

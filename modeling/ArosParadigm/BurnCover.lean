import ArosParadigm.Emission
import ArosParadigm.EmissionOnce
import Mathlib.Algebra.BigOperators.Group.Finset.Piecewise
import Mathlib.Algebra.Order.BigOperators.Group.Finset
import Mathlib.Tactic.Linarith

/-!
# Burns and their mints

Calls of `verify`, `capture`, `emit`, `mint` and `burn`, one after another.
`mint` is gated by the stored verdict and `burn` by nothing, so a process is
burned within its mints exactly in the histories whose direct burns stay within
what was minted for the process and not burned yet.
-/

namespace ArosParadigm.Emission

open Await

/-- A call on the verdicts, on the record of states or on the emission. -/
inductive Call where
  | verify (processId : String)
  | capture (processId eventType : String) (data : Json.JsObject ℚ)
      (validatorId : Option String)
  | emit (processId : String) (amount : ℚ)
  | mint (processId : String) (amount : ℚ)
  | burn (processId : String) (amount : ℚ)

namespace Call

/-- The process that a call is about. -/
def processId : Call → String
  | .verify processId => processId
  | .capture processId .. => processId
  | .emit processId _ => processId
  | .mint processId _ => processId
  | .burn processId _ => processId

def amount : Call → ℚ
  | .verify _ => 0
  | .capture .. => 0
  | .emit _ amount => amount
  | .mint _ amount => amount
  | .burn _ amount => amount

/-- The method of a call. -/
def program (env : Environment) : Call → Service Unit
  | .verify processId => do
      let _ ← Pot.verify env processId
      return ()
  | .capture processId eventType data validatorId => do
      let _ ← StateRecording.capture processId eventType data validatorId
      return ()
  | .emit processId amount => do
      let _ ← Emission.emit processId amount
      return ()
  | .mint processId amount => do
      let _ ← Emission.mint processId amount
      return ()
  | .burn processId amount => do
      let _ ← Emission.burn processId amount
      return ()

def minted (world : World) : Call → ℚ
  | .emit processId amount =>
      if authorizes (world.verdicts.find? processId) then amount else 0
  | .mint processId amount =>
      if authorizes (world.verdicts.find? processId) then amount else 0
  | _ => 0

def burned (world : World) : Call → ℚ
  | .emit processId amount =>
      if authorizes (world.verdicts.find? processId) then amount else 0
  | .burn _ amount => amount
  | _ => 0

end Call

/-- The world after a call. -/
def perform (env : Environment) (world : World) (call : Call) : World :=
  (run (machine env) (call.program env) world).2

/-- The world after calls that are made one after another. -/
def after (env : Environment) (calls : List Call) : World :=
  calls.foldl (perform env) .initial

/-- What the field adds up to over the snapshots of a type about a process. -/
def sumFor (eventType : String) (field : Payload → Option ℚ)
    (world : World) (processId : String) : ℚ :=
  ((ofProcess eventType processId world.events).map fun event =>
    (field event.2).getD 0).sum

/-- The sum of `minted` over the `emission.minted` snapshots of a process. -/
def mintedFor : World → String → ℚ :=
  sumFor "emission.minted" Payload.minted?

/-- The sum of `burned` over the `emission.burned` snapshots of a process. -/
def burnedFor : World → String → ℚ :=
  sumFor "emission.burned" Payload.burned?

section Effect

variable {env : Environment} {world : World}

/-- An append adds to the sum of its own type and process. -/
theorem sumFor_append (summed : String) (field : Payload → Option ℚ)
    (eventType : String) (payload : Payload) (processId : String) :
    sumFor summed field (world.append env eventType payload) processId =
      sumFor summed field world processId +
        if eventType = summed ∧ payload.processId? = some processId then
          (field payload).getD 0
        else 0 := by
  have events : (world.append env eventType payload).events =
      world.events ++ [(eventType, payload)] := by
    simp [World.events]
  unfold sumFor ofProcess
  rw [events, List.filter_append, List.map_append, List.sum_append]
  congr 1
  by_cases about : eventType = summed ∧
      payload.processId? = some processId
  · simp [about]
  · rw [if_neg about, List.filter_cons_of_neg]
    · rfl
    · simpa using about

theorem sumFor_append_of_none {field : Payload → Option ℚ}
    {payload : Payload} (nothing : field payload = none)
    (summed eventType processId : String) :
    sumFor summed field (world.append env eventType payload) processId =
      sumFor summed field world processId := by
  rw [sumFor_append, nothing]
  simp

theorem mintedFor_mintedWorld (processId : String) (amount : ℚ)
    (tested : String) :
    mintedFor (mintedWorld env world processId amount) tested =
      mintedFor world tested + if tested = processId then amount else 0 := by
  unfold mintedFor mintedWorld
  rw [sumFor_append]
  congr 1
  by_cases same : tested = processId
  · simp [same, Payload.processId?, Payload.minted?]
  · simp [same, Ne.symm same, Payload.processId?]

theorem burnedFor_burnedWorld (processId : String) (amount : ℚ)
    (tested : String) :
    burnedFor (burnedWorld env world processId amount) tested =
      burnedFor world tested + if tested = processId then amount else 0 := by
  unfold burnedFor burnedWorld
  rw [sumFor_append]
  congr 1
  by_cases same : tested = processId
  · simp [same, Payload.processId?, Payload.burned?]
  · simp [same, Ne.symm same, Payload.processId?]

theorem mintedFor_burnedWorld (processId : String) (amount : ℚ)
    (tested : String) :
    mintedFor (burnedWorld env world processId amount) tested =
      mintedFor world tested :=
  sumFor_append_of_none rfl _ _ _

theorem burnedFor_mintedWorld (processId : String) (amount : ℚ)
    (tested : String) :
    burnedFor (mintedWorld env world processId amount) tested =
      burnedFor world tested :=
  sumFor_append_of_none rfl _ _ _

/-- What a call does to the sums, to the row of the ledger and to the
verdicts. -/
structure Effect (before next : World) (call : Call) : Prop where
  settled : next.Settled
  minted : ∀ processId, mintedFor next processId =
    mintedFor before processId +
      if processId = call.processId then call.minted before else 0
  burned : ∀ processId, burnedFor next processId =
    burnedFor before processId +
      if processId = call.processId then call.burned before else 0
  processMinted : next.ledgerRow.processMinted =
    before.ledgerRow.processMinted + call.minted before
  processBurned : next.ledgerRow.processBurned =
    before.ledgerRow.processBurned + call.burned before
  authorized : ∀ processId,
    authorizes (before.verdicts.find? processId) = true →
      authorizes (next.verdicts.find? processId) = true

/-- A call that leaves the sums, the row and the verdicts. -/
private theorem effect_of_same {next : World} {call : Call}
    (settled : next.Settled)
    (mints : call.minted world = 0) (burns : call.burned world = 0)
    (minted : ∀ processId,
      mintedFor next processId = mintedFor world processId)
    (burned : ∀ processId,
      burnedFor next processId = burnedFor world processId)
    (ledger : next.ledgerRow = world.ledgerRow)
    (authorized : ∀ processId,
      authorizes (world.verdicts.find? processId) = true →
        authorizes (next.verdicts.find? processId) = true) :
    Effect world next call where
  settled := settled
  minted processId := by
    rw [minted, mints]
    simp
  burned processId := by
    rw [burned, burns]
    simp
  processMinted := by
    rw [ledger, mints, add_zero]
  processBurned := by
    rw [ledger, burns, add_zero]
  authorized := authorized

private theorem effect_verify (settled : world.Settled)
    (processId : String) :
    Effect world (Pot.verifyWorld env world processId)
      (.verify processId) := by
  unfold Pot.verifyWorld
  cases found : world.verdicts.find? processId with
  | some existing =>
      exact effect_of_same settled rfl rfl (fun _ => rfl) (fun _ => rfl)
        rfl (fun _ authorized => authorized)
  | none =>
      refine effect_of_same settled rfl rfl
        (fun _ => sumFor_append_of_none rfl _ _ _)
        (fun _ => sumFor_append_of_none rfl _ _ _) rfl ?_
      intro tested authorized
      have other : (Pot.newVerdict env world processId).processId ≠
          tested := by
        intro same
        have missing : world.verdicts.find? tested = none := by
          rw [← same]
          exact found
        rw [missing] at authorized
        cases authorized
      have kept := Keyed.Table.find?_save_of_ne world.verdicts other
      change authorizes ((world.verdicts.save
        (Pot.newVerdict env world processId)).find? tested) = true
      rw [kept]
      exact authorized

private theorem effect_refused (settled : world.Settled) {call : Call}
    (mints : call.minted world = 0) (burns : call.burned world = 0) :
    Effect world world call :=
  effect_of_same settled mints burns (fun _ => rfl) (fun _ => rfl) rfl
    (fun _ authorized => authorized)

private theorem effect_emitted {processId : String} (amount : ℚ)
    (authorized : authorizes (world.verdicts.find? processId) = true) :
    Effect world
      (burnedWorld env (mintedWorld env world processId amount) processId
        amount)
      (.emit processId amount) where
  settled := by simp [burnedWorld]
  minted tested := by
    rw [mintedFor_burnedWorld, mintedFor_mintedWorld]
    simp [Call.minted, Call.processId, authorized]
  burned tested := by
    rw [burnedFor_burnedWorld, burnedFor_mintedWorld]
    simp [Call.burned, Call.processId, authorized]
  processMinted := by
    simp only [Call.minted, authorized, if_true]
    rfl
  processBurned := by
    simp only [Call.burned, authorized, if_true]
    rfl
  authorized _ given := given

private theorem effect_minted {processId : String} (amount : ℚ)
    (authorized : authorizes (world.verdicts.find? processId) = true) :
    Effect world (mintedWorld env world processId amount)
      (.mint processId amount) where
  settled := by simp [mintedWorld]
  minted tested := by
    rw [mintedFor_mintedWorld]
    simp [Call.minted, Call.processId, authorized]
  burned tested := by
    rw [burnedFor_mintedWorld]
    simp [Call.burned]
  processMinted := by
    simp only [Call.minted, authorized, if_true]
    rfl
  processBurned := (add_zero _).symm
  authorized _ given := given

private theorem effect_burned (processId : String) (amount : ℚ) :
    Effect world (burnedWorld env world processId amount)
      (.burn processId amount) where
  settled := by simp [burnedWorld]
  minted tested := by
    rw [mintedFor_burnedWorld]
    simp [Call.minted]
  burned := burnedFor_burnedWorld processId amount
  processMinted := (add_zero _).symm
  processBurned := rfl
  authorized _ given := given

theorem effect (settled : world.Settled) (call : Call) :
    Effect world (perform env world call) call := by
  cases call with
  | verify processId =>
      have performed : perform env world (.verify processId) =
          Pot.verifyWorld env world processId := by
        unfold perform Call.program
        rw [run_bind_of_returned (Pot.run_verify env world processId)]
        rfl
      rw [performed]
      exact effect_verify settled processId
  | capture processId eventType data validatorId =>
      exact effect_of_same settled rfl rfl
        (fun _ => sumFor_append_of_none rfl _ _ _)
        (fun _ => sumFor_append_of_none rfl _ _ _) rfl
        (fun _ authorized => authorized)
  | emit processId amount =>
      unfold perform Call.program
      cases authorized : authorizes (world.verdicts.find? processId) with
      | false =>
          rw [run_bind_of_returned (run_emit_refused authorized amount)]
          exact effect_refused settled (by simp [Call.minted, authorized])
            (by simp [Call.burned, authorized])
      | true =>
          rw [run_bind_of_returned (run_emit settled authorized amount)]
          exact effect_emitted amount authorized
  | mint processId amount =>
      unfold perform Call.program
      cases authorized : authorizes (world.verdicts.find? processId) with
      | false =>
          rw [run_bind_of_threw (run_mint_refused authorized amount)]
          exact effect_refused settled (by simp [Call.minted, authorized])
            rfl
      | true =>
          rw [run_bind_of_returned (run_mint settled authorized amount)]
          exact effect_minted amount authorized
  | burn processId amount =>
      unfold perform Call.program
      rw [run_bind_of_returned (run_burn settled processId amount)]
      exact effect_burned processId amount

end Effect

/-! ## Every history -/

section Histories

variable {env : Environment} {world : World}

/-- What holds after every history: parts are minted only for processes with
a positive verdict, and the row sums up what the snapshots record. -/
structure Sound (world : World) : Prop where
  settled : world.Settled
  gated : ∀ processId,
    authorizes (world.verdicts.find? processId) = false →
      mintedFor world processId = 0
  burned : ∀ processId, 0 ≤ burnedFor world processId
  summed : ∃ processes : Finset String,
    (∀ processId, processId ∉ processes →
      mintedFor world processId = 0 ∧ burnedFor world processId = 0) ∧
    world.ledgerRow.processMinted =
      ∑ processId ∈ processes, mintedFor world processId ∧
    world.ledgerRow.processBurned =
      ∑ processId ∈ processes, burnedFor world processId

private theorem burned_nonneg {call : Call} (nonneg : 0 ≤ call.amount) :
    0 ≤ call.burned world := by
  cases call with
  | emit processId amount =>
      change 0 ≤ if authorizes (world.verdicts.find? processId) then amount
        else 0
      split
      · exact nonneg
      · exact le_rfl
  | burn processId amount =>
      exact nonneg
  | _ =>
      exact le_rfl

private theorem minted_of_unauthorized {call : Call}
    (refused : authorizes (world.verdicts.find? call.processId) = false) :
    call.minted world = 0 := by
  cases call with
  | emit processId amount =>
      exact if_neg (Bool.eq_false_iff.mp refused)
  | mint processId amount =>
      exact if_neg (Bool.eq_false_iff.mp refused)
  | _ =>
      rfl

private theorem sum_add_single {processes : Finset String}
    {before next : String → ℚ} {processId : String} {added : ℚ}
    (outside : ∀ tested, tested ∉ processes → before tested = 0)
    (step : ∀ tested, next tested =
      before tested + if tested = processId then added else 0) :
    ∑ tested ∈ insert processId processes, next tested =
      ∑ tested ∈ processes, before tested + added := by
  have same : ∑ tested ∈ insert processId processes, before tested =
      ∑ tested ∈ processes, before tested := by
    symm
    apply Finset.sum_subset (Finset.subset_insert _ _)
    intro tested _ absent
    exact outside tested absent
  simp only [step, Finset.sum_add_distrib, same]
  rw [Finset.sum_ite_eq' _ processId,
    if_pos (Finset.mem_insert_self _ _)]

theorem Sound.perform (sound : Sound world) {call : Call}
    (nonneg : 0 ≤ call.amount) : Sound (perform env world call) := by
  have effect := @effect env world sound.settled call
  obtain ⟨processes, outside, minted, burned⟩ := sound.summed
  refine ⟨effect.settled, ?_, ?_,
    insert call.processId processes, ?_, ?_, ?_⟩
  · intro processId refused
    have before : authorizes (world.verdicts.find? processId) = false := by
      by_contra given
      have kept := effect.authorized processId (by simpa using given)
      rw [refused] at kept
      cases kept
    rw [effect.minted, sound.gated processId before, zero_add]
    by_cases about : processId = call.processId
    · rw [if_pos about]
      exact minted_of_unauthorized (about ▸ before)
    · exact if_neg about
  · intro processId
    rw [effect.burned]
    have added := @burned_nonneg world call nonneg
    have known := sound.burned processId
    split
    · linarith
    · linarith
  · intro processId absent
    obtain ⟨different, absent⟩ := not_or.mp
      (mt Finset.mem_insert.mpr absent)
    rw [effect.minted, effect.burned, if_neg different, if_neg different,
      add_zero, add_zero]
    exact outside processId absent
  · rw [effect.processMinted, minted]
    exact (sum_add_single (fun tested absent => (outside tested absent).1)
      effect.minted).symm
  · rw [effect.processBurned, burned]
    exact (sum_add_single (fun tested absent => (outside tested absent).2)
      effect.burned).symm

theorem sound_initial : Sound .initial where
  settled := Or.inl rfl
  gated _ _ := rfl
  burned _ := le_rfl
  summed := ⟨∅, fun _ _ => ⟨rfl, rfl⟩, rfl, rfl⟩

theorem after_append (env : Environment) (before : List Call) (call : Call) :
    after env (before ++ [call]) =
      perform env (after env before) call := by
  unfold after
  rw [List.foldl_append]
  rfl

theorem sound_after (env : Environment) {calls : List Call}
    (nonneg : ∀ call ∈ calls, 0 ≤ call.amount) :
    Sound (after env calls) := by
  induction calls using List.reverseRecOn with
  | nil =>
      exact sound_initial
  | append_singleton before call inductionHypothesis =>
      rw [after_append]
      apply Sound.perform
      · exact inductionHypothesis fun earlier member =>
          nonneg earlier (List.mem_append_left [call] member)
      · exact nonneg call (List.mem_append_right before
          List.mem_cons_self)

/-- In every state of a history no process has burned more than it has
minted, a process without a positive verdict does not change `processBurned`,
and `processNet()` is not negative. -/
structure BurnsCovered (env : Environment) (calls : List Call) : Prop where
  covered : ∀ before, before <+: calls → ∀ processId,
    burnedFor (after env before) processId ≤
      mintedFor (after env before) processId
  gated : ∀ before call, before ++ [call] <+: calls →
    authorizes ((after env before).verdicts.find? call.processId) =
        false →
      (after env (before ++ [call])).ledgerRow.processBurned =
        (after env before).ledgerRow.processBurned
  net : ∀ before, before <+: calls → ∃ figure,
    (run (machine env) ArosCoin.processNet (after env before)).1 =
        .returned figure ∧
      0 ≤ figure

private theorem covered_perform (sound : Sound world) {call : Call}
    (nonneg : 0 ≤ call.amount)
    (covered : ∀ processId,
      burnedFor world processId ≤ mintedFor world processId)
    (within : ∀ processId amount, call = .burn processId amount →
      amount ≤ mintedFor world processId - burnedFor world processId) :
    ∀ processId, burnedFor (perform env world call) processId ≤
      mintedFor (perform env world call) processId := by
  intro processId
  have effect := @effect env world sound.settled call
  have known := covered processId
  rw [effect.burned, effect.minted]
  by_cases about : processId = call.processId
  · rw [if_pos about, if_pos about]
    cases call with
    | mint minted amount =>
        change _ + 0 ≤ _ + if authorizes (world.verdicts.find? minted)
          then amount else 0
        change 0 ≤ amount at nonneg
        split
        · linarith
        · linarith
    | emit emitted amount =>
        exact add_le_add_left known _
    | burn burned amount =>
        have bound := within burned amount rfl
        change processId = burned at about
        subst about
        change _ + amount ≤ _ + 0
        linarith
    | _ =>
        exact add_le_add_left known _
  · rw [if_neg about, if_neg about, add_zero, add_zero]
    exact known

/-- A process without a positive verdict and with nothing to burn burns
nothing. -/
private theorem burned_of_unauthorized (sound : Sound world) {call : Call}
    (nonneg : 0 ≤ call.amount)
    (within : ∀ processId amount, call = .burn processId amount →
      amount ≤ mintedFor world processId - burnedFor world processId)
    (refused : authorizes (world.verdicts.find? call.processId) = false) :
    call.burned world = 0 := by
  cases call with
  | emit processId amount =>
      exact if_neg (Bool.eq_false_iff.mp refused)
  | burn processId amount =>
      have bound := within processId amount rfl
      have nothing := sound.gated processId refused
      have burned := sound.burned processId
      change 0 ≤ amount at nonneg
      change amount = 0
      linarith
  | _ =>
      rfl

private theorem net_nonneg (sound : Sound world)
    (covered : ∀ processId,
      burnedFor world processId ≤ mintedFor world processId) :
    ∃ figure, (run (machine env) ArosCoin.processNet world).1 =
        .returned figure ∧ 0 ≤ figure := by
  obtain ⟨processes, _, minted, burned⟩ := sound.summed
  have bound : world.ledgerRow.processBurned ≤
      world.ledgerRow.processMinted := by
    rw [minted, burned]
    exact Finset.sum_le_sum fun processId _ => covered processId
  refine ⟨world.ledgerRow.processMinted - world.ledgerRow.processBurned,
    ?_, sub_nonneg.mpr bound⟩
  rw [ArosCoin.processNet,
    run_bind_of_returned (ArosCoin.run_ledger sound.settled)]
  rfl

/-- Burns are covered exactly in the histories whose direct burns stay within
what was minted for the process and not burned yet. -/
theorem burnsCovered_iff {calls : List Call}
    (nonneg : ∀ call ∈ calls, 0 ≤ call.amount) :
    BurnsCovered env calls ↔
      ∀ before processId amount,
        before ++ [.burn processId amount] <+: calls →
          amount ≤ mintedFor (after env before) processId -
            burnedFor (after env before) processId := by
  have sound : ∀ before, before <+: calls → Sound (after env before) :=
    fun before listed => sound_after env fun call member =>
      nonneg call (listed.subset member)
  constructor
  · intro covered before processId amount listed
    have earlier : before <+: calls :=
      (List.prefix_append _ _).trans listed
    have effect := @effect env _ (sound before earlier).settled
      (.burn processId amount)
    have bound := covered.covered _ listed processId
    rw [after_append, effect.burned, effect.minted] at bound
    simp only [Call.processId, Call.minted, Call.burned, if_true] at bound
    linarith
  · intro within
    have covered : ∀ before, before <+: calls → ∀ processId,
        burnedFor (after env before) processId ≤
          mintedFor (after env before) processId := by
      intro before
      induction before using List.reverseRecOn with
      | nil =>
          intro _ _
          exact le_rfl
      | append_singleton earlier call inductionHypothesis =>
          intro listed
          have opened : earlier <+: calls :=
            (List.prefix_append _ _).trans listed
          have member : call ∈ calls :=
            listed.subset (List.mem_append_right earlier
              List.mem_cons_self)
          rw [after_append]
          apply covered_perform (sound earlier opened)
            (nonneg call member) (inductionHypothesis opened)
          rintro processId amount rfl
          exact within earlier processId amount listed
    refine ⟨covered, ?_, ?_⟩
    · intro before call listed refused
      have opened : before <+: calls :=
        (List.prefix_append _ _).trans listed
      have member : call ∈ calls :=
        listed.subset (List.mem_append_right before List.mem_cons_self)
      have effect := @effect env _ (sound before opened).settled call
      have nothing := burned_of_unauthorized (sound before opened)
        (nonneg call member) (by
          rintro processId amount rfl
          exact within before processId amount listed) refused
      rw [after_append, effect.processBurned, nothing, add_zero]
    · intro before listed
      exact net_nonneg (sound before listed) (covered before listed)

end Histories

/-- A process that is verified, minted and burned. -/
def coveredCalls : List Call :=
  [.capture "p-1" "initiation" [] none,
    .capture "p-1" "task_assignment" [] none,
    .capture "p-1" "stage_transition" [] none,
    .capture "p-1" "execution_complete" [] none,
    .verify "p-1", .mint "p-1" 10, .emit "p-1" 5, .burn "p-1" 10]

theorem burnsCovered_coveredCalls : BurnsCovered .plain coveredCalls := by
  refine (burnsCovered_iff ?_).mpr ?_
  · simp [coveredCalls, Call.amount]
  · intro before processId amount listed
    have split : coveredCalls =
        coveredCalls.dropLast ++ [.burn "p-1" 10] := rfl
    rw [split] at listed
    rcases List.prefix_concat_iff.mp listed with whole | early
    · obtain ⟨rfl, same⟩ := List.append_inj' whole rfl
      cases same
      decide +kernel
    · have member := early.subset
        (List.mem_append_right before List.mem_cons_self)
      simp [coveredCalls] at member

/-- A burn without any mint or verdict goes through, and the net of the
process parts is negative. -/
theorem burned_without_mint :
    ¬BurnsCovered .plain [.burn "p-1" 1] ∧
      burnedFor (after .plain [.burn "p-1" 1]) "p-1" = 1 ∧
      mintedFor (after .plain [.burn "p-1" 1]) "p-1" = 0 ∧
      (run (machine .plain) ArosCoin.processNet
        (after .plain [.burn "p-1" 1])).1 = .returned (-1) := by
  have burned : burnedFor (after .plain [.burn "p-1" 1]) "p-1" = 1 := by
    decide +kernel
  have minted : mintedFor (after .plain [.burn "p-1" 1]) "p-1" = 0 := by
    decide +kernel
  refine ⟨?_, burned, minted, by decide +kernel⟩
  intro covered
  have bound := covered.covered _ List.prefix_rfl "p-1"
  rw [burned, minted] at bound
  linarith

end ArosParadigm.Emission

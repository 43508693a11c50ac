import ArosParadigm.JustifiedCalls

/-!
# The records of the deployed services

As long as no caller forges a record, everything of value on NodeChain rests on
earlier records, the database says nothing that NodeChain does not say, and
nobody is alarmed about NodeChain for nothing: in every order of the steps of
all public calls, with failing stores and restarts.
-/

namespace ArosParadigm

open Await

namespace Commission

/-- A payment is either no payment at all or three quarters of the fees. -/
theorem paidOf_cases {weights : Weights}
    (unique : (weights.map Prod.fst).Nodup) (total : ℚ) :
    paidOf weights total = 0 ∨
      paidOf weights total = total * (1 - marginRate) := by
  by_cases weighty : 0 < (weights.map Prod.snd).sum
  · right
    have weighed : (weights.map Prod.fst).map (fun nodeId =>
        (weightOf weights nodeId).getD 0) = weights.map Prod.snd := by
      rw [List.map_map]
      refine List.map_congr_left fun pair member => ?_
      rw [Function.comp_apply, weightOf_of_mem unique member,
        Option.getD_some]
    have sorted : (sortedIds (weights.map Prod.fst)).Perm
        (weights.map Prod.fst) :=
      List.perm_insertionSort _ _
    have total_weight : ((sortedIds (weights.map Prod.fst)).map
        fun nodeId => (weightOf weights nodeId).getD 0).sum =
          (weights.map Prod.snd).sum := by
      rw [(sorted.map _).sum_eq, weighed]
    rw [paidOf, payments, if_pos weighty, List.map_map]
    calc ((sortedIds (weights.map Prod.fst)).map fun nodeId =>
          paymentOf weights (total * (1 - marginRate))
            (weights.map Prod.snd).sum nodeId).sum
        = ((sortedIds (weights.map Prod.fst)).map fun nodeId =>
            (weightOf weights nodeId).getD 0).sum *
              (total * (1 - marginRate)) / (weights.map Prod.snd).sum := by
          simp only [paymentOf, div_eq_mul_inv, List.sum_map_mul_right]
      _ = total * (1 - marginRate) := by
          rw [total_weight, mul_div_cancel_left₀ _ weighty.ne']
  · left
    rw [paidOf, payments, if_neg weighty]
    rfl

structure Balanced (totalFees margin paid : ℚ) (reconciled : Bool)
    (distributionLog : List DistributionEntry) : Prop where
  reconciled : reconciled = true
  fees : paid + margin = totalFees
  distributed :
    (distributionLog.map DistributionEntry.amount).sum = totalFees
  rate : paid = 0 ∨ paid = totalFees * (1 - marginRate)

theorem balanced_of_eq {row : Epoch} {weights : Weights}
    (unique : (weights.map Prod.fst).Nodup)
    {recorded epochNumber totalFees margin paid : ℚ} {reconciled : Bool}
    {distributionLog : List DistributionEntry}
    (same : Payload.epochFinalized recorded totalFees margin paid
      reconciled distributionLog =
        finalizedPayload row epochNumber weights) :
    Balanced totalFees margin paid reconciled distributionLog := by
  cases same
  have fees : paidOf weights row.totalFees +
      (row.totalFees - paidOf weights row.totalFees) = row.totalFees :=
    add_sub_cancel _ _
  refine ⟨?_, fees, ?_, paidOf_cases unique _⟩
  · refine decide_eq_true ?_
    rw [fees, sub_self, abs_zero]
    norm_num [reconcileEpsilon]
  · change ((payments weights row.totalFees ++ [_]).map
      DistributionEntry.amount).sum = _
    rw [List.map_append, List.sum_append, List.map_singleton,
      List.sum_singleton]
    exact fees

end Commission

namespace Deployed

variable {env : Environment} {admits : PublicCall → Prop} {pool : Deployed}

theorem Reached.corroborated
    (honest : ∀ call, admits call → ¬ call.Forges)
    (reached : Reached env admits pool) :
    pool.state.Corroborated env := by
  have obeys : ∀ program, (deployment env admits).admitted program →
      Obeys (Justifies env) (fun _ _ => True) program [] := by
    rintro program ⟨call, admitted, rfl⟩
    exact call.obeys_justifies (honest call admitted)
  exact ((corroborationGuard env admits).reachable obeys
    World.corroborated_initial reached).1

private theorem captured_of_confirmed {earlier : List Snapshot}
    {verdict : Snapshot} (supports : Supports earlier verdict)
    {processId : String}
    (records : verdict.payload = .potVerified processId 1 []) :
    ∀ event ∈ requiredBeforeVerdict, Captured earlier processId event := by
  obtain ⟨captured, known, computed, _⟩ := supports.of_potVerified records
  intro event required
  exact known event
    ((Pot.complete_of_verifiedOf computed.symm).1 event required)

/-- In operation every verdict, mint, settlement and release on NodeChain rests
on earlier records: a mint comes after all required events of its process and
a positive verdict on them, and a settlement after the receipts of all that it
distributes. -/
theorem records_grounded (env : Environment) (admits : PublicCall → Prop)
    (honest : ∀ call, admits call → ¬ call.Forges) (pool : Deployed)
    (reached : Reached env admits pool) :
    Grounded Supports pool.state.history ∧
      Grounded (fun earlier snapshot => ∀ processId minted,
        snapshot.payload = .emissionMinted processId minted →
          ∀ event ∈ requiredBeforeVerdict,
            Captured earlier processId event) pool.state.history ∧
      Grounded (fun earlier snapshot =>
        ∀ epochNumber totalFees margin paid reconciled log,
          snapshot.payload = .epochFinalized epochNumber totalFees margin
            paid reconciled log →
          Commission.Balanced totalFees margin paid reconciled log ∧
            Receipted earlier log) pool.state.history := by
  have grounded := (reached.corroborated honest).grounded
  refine ⟨grounded, grounded.weaken ?_, grounded.weaken ?_⟩
  · intro earlier snapshot later split supports processId minted records
    unfold Supports at supports
    rw [records] at supports
    obtain ⟨_, verdict, member, _, confirms⟩ := supports
    obtain ⟨before, between, rfl⟩ := List.append_of_mem member
    have verdictSupports : Supports before verdict := by
      refine grounded before verdict (between ++ snapshot :: later) ?_
      rw [split, List.append_assoc, List.cons_append]
    intro event required
    exact (captured_of_confirmed verdictSupports confirms event
      required).mono (List.subset_append_left _ _)
  · intro earlier snapshot later _ supports epochNumber totalFees margin
      paid reconciled log records
    unfold Supports at supports
    rw [records] at supports
    obtain ⟨_, receipted, row, weights, unique, same⟩ := supports
    exact ⟨Commission.balanced_of_eq unique same, receipted⟩

theorem records_grounded_of_eventfulDay :
    let pool := play .plain eventfulDay
    Grounded Supports pool.state.history ∧
      Grounded (fun earlier snapshot => ∀ processId minted,
        snapshot.payload = .emissionMinted processId minted →
          ∀ event ∈ requiredBeforeVerdict,
            Captured earlier processId event) pool.state.history ∧
      Grounded (fun earlier snapshot =>
        ∀ epochNumber totalFees margin paid reconciled log,
          snapshot.payload = .epochFinalized epochNumber totalFees margin
            paid reconciled log →
          Commission.Balanced totalFees margin paid reconciled log ∧
            Receipted earlier log) pool.state.history :=
  records_grounded .plain (fun call => ¬ call.Forges) (fun _ => id) _
    (reached_eventfulDay (fun _ => id) (fun _ => id) (fun _ => id)
      fun _ => id)

/-- In operation the database says nothing that NodeChain does not say: a
stored verdict, an active release and the distribution of a finalized epoch
repeat their records, the captured events stand on NodeChain, and the metrics
of every node follow from its counters. -/
theorem rows_corroborated (env : Environment)
    (admits : PublicCall → Prop)
    (honest : ∀ call, admits call → ¬ call.Forges) (pool : Deployed)
    (reached : Reached env admits pool) :
    (∀ row ∈ pool.state.verdicts.rows,
        row.Corroborated pool.state.history) ∧
      (∀ row, pool.state.phase = some row →
        row.Corroborated pool.state.history) ∧
      (∀ row ∈ pool.state.epochs.rows,
        row.Corroborated pool.state.history) ∧
      (∀ processId eventType,
        eventType ∈ pool.state.captured processId →
          Captured pool.state.history processId eventType) ∧
      ∀ row ∈ pool.state.nodes.rows, Nodes.Sound row ∧
        0 ≤ row.weight ∧ row.weight ≤ 1 := by
  have corroborated := reached.corroborated honest
  refine ⟨corroborated.verdicts, corroborated.phase, corroborated.epochs,
    corroborated.captured, ?_⟩
  intro row member
  have sound := corroborated.nodes row member
  rw [sound.weight_eq_reputation]
  exact ⟨sound, sound.reputation_nonneg, sound.reputation_le_one⟩

theorem rows_corroborated_of_eventfulDay :
    let pool := play .plain eventfulDay
    (∀ row ∈ pool.state.verdicts.rows,
        row.Corroborated pool.state.history) ∧
      (∀ row, pool.state.phase = some row →
        row.Corroborated pool.state.history) ∧
      (∀ row ∈ pool.state.epochs.rows,
        row.Corroborated pool.state.history) ∧
      (∀ processId eventType,
        eventType ∈ pool.state.captured processId →
          Captured pool.state.history processId eventType) ∧
      ∀ row ∈ pool.state.nodes.rows, Nodes.Sound row ∧
        0 ≤ row.weight ∧ row.weight ≤ 1 :=
  rows_corroborated .plain (fun call => ¬ call.Forges) (fun _ => id) _
    (reached_eventfulDay (fun _ => id) (fun _ => id) (fun _ => id)
      fun _ => id)

end Deployed

/-! ## No false alarm -/

/-- Unalarmed ledgers in operation. -/
def quietGuard (env : Environment) (admits : PublicCall → Prop) :
    Guarded (deployment env admits) (JustifiesAlarm env) where
  invariant world := world.Standing env ∧
    ∀ entry ∈ world.oversight, ¬ IsChainAlarm entry.eventType entry.layer
  knows past _ := ∀ exchange ∈ past, ShowsStanding env exchange
  begins _ _ _ member := nomatch member
  answers past request now reply after holds shown justified := by
    intro answered
    have answered : machine env request now = some (reply, after) :=
      answered
    obtain ⟨standing, silent⟩ := holds
    refine ⟨⟨standing.step answered, ?_⟩, ?_, fun _ => id⟩
    · rw [oversight_of_answered answered]
      intro entry member isAlarm
      rcases List.mem_append.mp member with earlier | new
      · exact silent entry earlier isAlarm
      · cases request
        case logOversight eventType layer description =>
          cases answered
          rw [List.mem_singleton.mp new] at isAlarm
          obtain ⟨history, listed, isBroken⟩ := justified isAlarm
          have intact : (NodeChain.reconstruct env.hasher history).ok =
              true := shown _ listed
          exact absurd (isBroken.symm.trans intact) (by decide)
        all_goals exact nomatch new
    · intro exchange member
      rcases List.mem_cons.mp member with rfl | earlier
      · exact standing.shows answered
      · exact shown exchange earlier
  breaks request now after holds broke := by
    have breaks : Breaks request now after := broke
    refine ⟨⟨holds.1.of_breaks breaks, ?_⟩, fun _ => id⟩
    rw [breaks.oversight_eq]
    exact holds.2
  restarts _ holds := ⟨holds.1.restart, holds.2⟩

/-- Unless a caller raises it, no alarm about NodeChain is ever raised in
operation. -/
theorem Deployed.no_false_alarm (env : Environment)
    (admits : PublicCall → Prop)
    (quiet : ∀ call, admits call → ¬ call.RaisesAlarm) (pool : Deployed)
    (reached : Reached env admits pool) :
    ∀ entry ∈ pool.state.oversight,
      ¬ IsChainAlarm entry.eventType entry.layer := by
  have holds : (quietGuard env admits).invariant World.initial :=
    ⟨World.standing_initial, nofun⟩
  have obeys : ∀ program, (deployment env admits).admitted program →
      Obeys (JustifiesAlarm env) (fun _ _ => True) program [] := by
    rintro program ⟨call, admitted, rfl⟩
    exact call.obeys_justifiesAlarm (quiet call admitted)
  exact ((quietGuard env admits).reachable obeys holds reached).1.2

theorem Deployed.no_false_alarm_of_auditedDay :
    ∃ pool, pool = play .plain auditedDay ∧
      ∀ entry ∈ pool.state.oversight,
        ¬ IsChainAlarm entry.eventType entry.layer :=
  ⟨_, rfl, Deployed.no_false_alarm .plain (fun call => ¬ call.RaisesAlarm)
    (fun _ => id) _
    (reached_auditedDay (fun _ => id) (fun _ => id) (fun _ => id)
      (fun _ => id) id id)⟩

end ArosParadigm

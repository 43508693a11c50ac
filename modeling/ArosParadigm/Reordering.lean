import ArosParadigm.FormulaAgreement
import ArosParadigm.Library.Rearrangement

/-!
# Reordering requests

Processes settle into commutative sums and a payout in sorted order. Once
there are nodes, the order in which processes are served, and in which epochs
are finalized afterwards, cannot be told from the accounts.
-/

namespace ArosParadigm

open Await Rearrangement

namespace Accounts

section Registry

open Orchestrator

variable {nodes : List NodeEntity}

/-- The nodes that work on a body. -/
def hands (nodes : List NodeEntity) (body : RunProcessDto) :
    List String :=
  (assigned nodes body.nodeIds).takeWhile (enrolled nodes)

private theorem staffed_of_ne_nil (someone : nodes ≠ [])
    (explicit : Option (List String)) : staffed nodes explicit = nodes := by
  unfold staffed
  split
  · rfl
  · rw [if_neg someone]

theorem labour_eq_work (someone : nodes ≠ []) (body : RunProcessDto) :
    labour nodes body = work (hands nodes body) nodes := by
  unfold labour hands
  rw [staffed_of_ne_nil someone]

theorem enrolled_work (ids : List String) (nodeId : String) :
    enrolled (work ids nodes) nodeId = enrolled nodes nodeId := by
  apply Bool.eq_iff_iff.mpr
  rw [enrolled_iff, enrolled_iff, ids_work]

private theorem work_ne_nil (someone : nodes ≠ []) (ids : List String) :
    work ids nodes ≠ [] := by
  unfold work
  simpa using someone

private theorem assigned_implicit (trusted : ∀ node ∈ nodes, Trusted node)
    (someone : nodes ≠ []) {explicit : Option (List String)}
    (implicit : ∀ first rest, explicit ≠ some (first :: rest)) :
    assigned nodes explicit = nodes.map NodeEntity.id := by
  have everyone : nodes.filter (fun node => node.status = .active) =
      nodes := by
    rw [List.filter_eq_self]
    intro node member
    simpa using (trusted node member).active
  unfold assigned
  split
  · next first rest =>
      exact absurd rfl (implicit first rest)
  · rw [staffed_of_ne_nil someone, everyone]

/-- Work does not change who is assigned. -/
private theorem assigned_work (trusted : ∀ node ∈ nodes, Trusted node)
    (someone : nodes ≠ []) (ids : List String)
    (explicit : Option (List String)) :
    assigned (work ids nodes) explicit = assigned nodes explicit := by
  by_cases implicit : ∀ first rest, explicit ≠ some (first :: rest)
  · rw [assigned_implicit trusted someone implicit,
      assigned_implicit (trusted_work trusted ids)
        (work_ne_nil someone ids) implicit, ids_work]
  · push Not at implicit
    obtain ⟨first, rest, rfl⟩ := implicit
    rfl

private theorem hands_work (trusted : ∀ node ∈ nodes, Trusted node)
    (someone : nodes ≠ []) (ids : List String) (body : RunProcessDto) :
    hands (work ids nodes) body = hands nodes body := by
  have known : enrolled (work ids nodes) = enrolled nodes :=
    funext (enrolled_work ids)
  unfold hands
  rw [assigned_work trusted someone, known]

/-- Work adds up. -/
theorem work_work (first second : List String) :
    work first (work second nodes) = work (first ++ second) nodes := by
  unfold work
  rw [List.map_map]
  apply List.map_congr_left
  intro node _
  rw [Function.comp_apply, iterate_worked_id, List.count_append,
    Function.iterate_add_apply]

theorem work_comm (first second : List String) :
    work first (work second nodes) = work second (work first nodes) := by
  rw [work_work, work_work]
  unfold work
  apply List.map_congr_left
  intro node _
  rw [List.count_append, List.count_append, Nat.add_comm]

theorem labour_comm (trusted : ∀ node ∈ nodes, Trusted node)
    (someone : nodes ≠ []) (first second : RunProcessDto) :
    labour (labour nodes first) second =
      labour (labour nodes second) first := by
  have stillSomeone := work_ne_nil someone
  rw [labour_eq_work someone first, labour_eq_work someone second,
    labour_eq_work (stillSomeone _), labour_eq_work (stillSomeone _),
    hands_work trusted someone, hands_work trusted someone, work_comm]

end Registry

/-- Healthy accounts with a registry. -/
structure Manned (accounts : Accounts) : Prop where
  healthy : accounts.Healthy
  someone : accounts.nodes ≠ []

section Serving

variable {accounts : Accounts}

theorem nodes_serve (body : RunProcessDto) :
    (accounts.serve body).nodes =
      if body.admissible then labour accounts.nodes body
      else accounts.nodes := by
  unfold serve
  by_cases accepts : accounts.Accepts body
  · rw [if_pos accepts, if_pos accepts.1]
    rfl
  · rw [if_neg accepts]
    split
    · rfl
    · rfl

theorem Manned.serve (manned : accounts.Manned) (body : RunProcessDto) :
    (accounts.serve body).Manned := by
  refine ⟨manned.healthy.serve body, ?_⟩
  rw [nodes_serve]
  split
  · rw [labour_eq_work manned.someone]
    exact work_ne_nil manned.someone _
  · exact manned.someone

private theorem accepts_serve (manned : accounts.Manned)
    (first second : RunProcessDto) :
    (accounts.serve first).Accepts second ↔ accounts.Accepts second := by
  have known : ∀ nodeId,
      enrolled (accounts.serve first).nodes nodeId =
        enrolled accounts.nodes nodeId := by
    intro nodeId
    rw [nodes_serve]
    split
    · rw [labour_eq_work manned.someone, enrolled_work]
    · rfl
  unfold Accepts
  simp only [known]

private theorem participants_serve (manned : accounts.Manned)
    (first second : RunProcessDto) :
    participants (accounts.serve first).nodes second =
      participants accounts.nodes second := by
  unfold participants
  rw [nodes_serve]
  split
  · rw [labour_eq_work manned.someone, assigned_work
      manned.healthy.trusted manned.someone]
  · rfl

/-- The fields that only an accepted body changes. -/
private theorem serve_fields (body : RunProcessDto) :
    (accounts.serve body).ledger =
        (if accounts.Accepts body then
          { accounts.ledger with
            processMinted := accounts.ledger.processMinted + body.amount
            processBurned := accounts.ledger.processBurned + body.amount }
        else accounts.ledger) ∧
      (accounts.serve body).epochs =
        (if accounts.Accepts body then
          adjust (epochOf body) (fun figures =>
            some (accrued figures (Commission.computeFee body.amount)))
            accounts.epochs
        else accounts.epochs) ∧
      (accounts.serve body).participations =
        (if accounts.Accepts body then
          adjust (epochOf body) (· + participants accounts.nodes body)
            accounts.participations
        else accounts.participations) ∧
      (accounts.serve body).verdicts =
        (if accounts.Accepts body then
          adjust body.processId (fun _ => some (1, []))
            accounts.verdicts
        else accounts.verdicts) ∧
      (accounts.serve body).volume =
        (if accounts.Accepts body then accounts.volume + body.amount
        else accounts.volume) := by
  unfold serve
  by_cases accepts : accounts.Accepts body
  · simp only [if_pos accepts]
    exact ⟨rfl, rfl, rfl, rfl, rfl⟩
  · simp only [if_neg accepts]
    split
    · exact ⟨rfl, rfl, rfl, rfl, rfl⟩
    · exact ⟨rfl, rfl, rfl, rfl, rfl⟩

private theorem accrued_comm (figures : Option EpochFigures)
    (first second : ℚ) :
    accrued (some (accrued figures first)) second =
      accrued (some (accrued figures second)) first := by
  unfold accrued
  simp only [Option.getD_some, add_right_comm]

/-- Two processes can be served in either order. -/
theorem serve_comm (manned : accounts.Manned)
    (first second : RunProcessDto) :
    (accounts.serve first).serve second =
      (accounts.serve second).serve first := by
  have registry : ((accounts.serve first).serve second).nodes =
      ((accounts.serve second).serve first).nodes := by
    have commute := labour_comm manned.healthy.trusted manned.someone
      first second
    simp only [nodes_serve]
    split
    · split
      · exact commute
      · rfl
    · rfl
  obtain ⟨ledgerOne, epochsOne, sharesOne, verdictsOne, volumeOne⟩ :=
    @serve_fields accounts first
  obtain ⟨ledgerTwo, epochsTwo, sharesTwo, verdictsTwo, volumeTwo⟩ :=
    @serve_fields accounts second
  obtain ⟨ledger, epochs, shares, verdicts, volume⟩ :=
    @serve_fields (accounts.serve first) second
  obtain ⟨ledger', epochs', shares', verdicts', volume'⟩ :=
    @serve_fields (accounts.serve second) first
  simp only [accepts_serve manned, participants_serve manned] at *
  apply Accounts.ext
  · rw [ledger, ledger', ledgerOne, ledgerTwo]
    split
    · split
      · simp only [add_right_comm]
      · rfl
    · rfl
  · exact registry
  · rw [epochs, epochs', epochsOne, epochsTwo]
    split
    · split
      · apply adjust_comm
        intro _ figures
        rw [accrued_comm]
      · rfl
    · rfl
  · rw [shares, shares', sharesOne, sharesTwo]
    split
    · split
      · apply adjust_comm
        intro _ shared
        exact add_right_comm _ _ _
      · rfl
    · rfl
  · rw [verdicts, verdicts', verdictsOne, verdictsTwo]
    split
    · split
      · apply adjust_comm
        intro _ _
        rfl
      · rfl
    · rfl
  · rw [volume, volume', volumeOne, volumeTwo]
    split
    · split
      · exact add_right_comm _ _ _
      · rfl
    · rfl

end Serving

section Finalizing

variable {accounts : Accounts}

/-- The epoch is open in these accounts. -/
def IsOpen (accounts : Accounts) (epoch : ℚ) : Prop :=
  ∃ figures, accounts.epochs epoch = some figures ∧
    figures.status = .opened

private theorem finalize_of_found {epoch : ℚ} {figures : EpochFigures}
    (found : accounts.epochs epoch = some figures)
    (isOpen : figures.status = .opened) :
    accounts.finalize epoch = accounts.close epoch figures := by
  unfold finalize
  rw [found]
  exact if_pos isOpen

theorem finalize_of_closed {epoch : ℚ}
    (closed : ¬ accounts.IsOpen epoch) :
    accounts.finalize epoch = accounts := by
  unfold finalize
  split
  · next figures found =>
      refine if_neg ?_
      intro isOpen
      exact closed ⟨figures, found, isOpen⟩
  · rfl

private theorem epochs_close_of_ne {epoch tested : ℚ}
    (other : tested ≠ epoch) (figures : EpochFigures) :
    (accounts.close epoch figures).epochs tested =
      accounts.epochs tested := by
  rw [epochs_close, Function.update_of_ne other]

/-- A distribution does not touch what another epoch hands out. -/
private theorem closing_close_of_ne {epoch tested : ℚ}
    (other : tested ≠ epoch) (figures : EpochFigures) (total : ℚ) :
    (accounts.close epoch figures).closing tested total =
      accounts.closing tested total := by
  have crew : (accounts.close epoch figures).crew tested =
      accounts.crew tested := by
    unfold Accounts.crew
    rw [participations_close, Function.update_of_ne other]
    rfl
  have payments : (accounts.close epoch figures).payments tested total =
      accounts.payments tested total := by
    unfold Accounts.payments
    rw [crew]
    rfl
  unfold closing paid
  rw [payments]

private theorem close_comm {first second : ℚ} (other : first ≠ second)
    (figures others : EpochFigures) :
    (accounts.close first figures).close second others =
      (accounts.close second others).close first figures := by
  have later := @closing_close_of_ne accounts first second other.symm
    figures others.totalFees
  have earlier := @closing_close_of_ne accounts second first other
    others figures.totalFees
  unfold close at later earlier ⊢
  rw [later, earlier]
  apply Accounts.ext
  · simp only [add_right_comm]
  · rfl
  · exact Function.update_comm other _ _ _
  · exact Function.update_comm other _ _ _
  · rfl
  · exact add_right_comm _ _ _

/-- Two epochs can be finalized in either order. -/
theorem finalize_comm (first second : ℚ) :
    (accounts.finalize first).finalize second =
      (accounts.finalize second).finalize first := by
  by_cases same : first = second
  · rw [same]
  by_cases firstOpen : accounts.IsOpen first
  swap
  · have stillClosed : ¬ (accounts.finalize second).IsOpen first := by
      rintro ⟨figures, found, isOpen⟩
      by_cases secondOpen : accounts.IsOpen second
      · obtain ⟨others, stored, status⟩ := secondOpen
        rw [finalize_of_found stored status,
          epochs_close_of_ne same] at found
        exact firstOpen ⟨figures, found, isOpen⟩
      · rw [finalize_of_closed secondOpen] at found
        exact firstOpen ⟨figures, found, isOpen⟩
    rw [finalize_of_closed firstOpen, finalize_of_closed stillClosed]
  obtain ⟨figures, found, isOpen⟩ := firstOpen
  have kept : (accounts.close first figures).epochs second =
      accounts.epochs second :=
    epochs_close_of_ne (Ne.symm same) figures
  rw [finalize_of_found found isOpen]
  by_cases secondOpen : accounts.IsOpen second
  · obtain ⟨others, stored, status⟩ := secondOpen
    have firstKept : (accounts.close second others).epochs first =
        accounts.epochs first :=
      epochs_close_of_ne same others
    rw [finalize_of_found (kept.trans stored) status,
      finalize_of_found stored status,
      finalize_of_found (firstKept.trans found) isOpen]
    exact close_comm same figures others
  · have stillClosed :
        ¬ (accounts.close first figures).IsOpen second := by
      rintro ⟨others, stored, status⟩
      exact secondOpen ⟨others, kept.symm.trans stored, status⟩
    rw [finalize_of_closed stillClosed, finalize_of_closed secondOpen,
      finalize_of_found found isOpen]

end Finalizing

end Accounts

/-! ## The requests -/

/-- The world after requests that are answered one after another. -/
def World.answered (env : Environment) (world : World)
    (requests : List Request) : World :=
  requests.foldl (fun world request => (request.handle env world).2) world

/-- Requests do to the accounts what `Accounts.act` says. -/
theorem Reliable.accounts_answered {env : Environment} {world : World}
    (reliable : Reliable env world) (requests : List Request) :
    (world.answered env requests).accounts =
      requests.foldl Accounts.act world.accounts := by
  induction requests generalizing world with
  | nil =>
      rfl
  | cons request rest inductionHypothesis =>
      have later := inductionHypothesis (reliable.handle request)
      rw [(reliable.accounts_handle request).1] at later
      exact later

theorem Reliable.answered {env : Environment} {world : World}
    (reliable : Reliable env world) (requests : List Request) :
    Reliable env (world.answered env requests) := by
  induction requests generalizing world with
  | nil =>
      exact reliable
  | cons request rest inductionHypothesis =>
      exact inductionHypothesis (reliable.handle request)

/-- The worlds cannot be told apart by ledger, registry, epochs, verdicts
and process volume. -/
structure SameFigures (env : Environment) (first second : World) :
    Prop where
  ledger : first.ledgerRow = second.ledgerRow
  nodes : first.nodes.rows = second.nodes.rows
  epochs : ∀ epoch, (first.epochs.find? epoch).map Epoch.figures =
    (second.epochs.find? epoch).map Epoch.figures
  verdicts : ∀ processId,
    (first.verdicts.find? processId).map (fun row =>
        (row.verified, row.reasons)) =
      (second.verdicts.find? processId).map fun row =>
        (row.verified, row.reasons)
  volume : (run (machine env) Reserve.totalProcessVolume first).1 =
    (run (machine env) Reserve.totalProcessVolume second).1

theorem SameFigures.of_accounts (env : Environment)
    {first second : World} (same : first.accounts = second.accounts) :
    SameFigures env first second := by
  constructor
  · exact congrArg Accounts.ledger same
  · exact congrArg Accounts.nodes same
  · intro epoch
    exact congrFun (congrArg Accounts.epochs same) epoch
  · intro processId
    exact congrFun (congrArg Accounts.verdicts same) processId
  · exact congrArg Outcome.returned (congrArg Accounts.volume same)

/-- Serving processes and then finalizing epochs gives the same figures in
whatever order the processes are served and the epochs are finalized. The ids
may repeat, the epochs may be closed, and explicit nodes may be missing. -/
theorem independent_processes_commute (env : Environment)
    (operations : List Operation)
    (registry : (History.of env operations).world.nodes.rows ≠ [])
    (bodies reordered : List RunProcessDto)
    (permuted : bodies.Perm reordered) (closings others : List ℚ)
    (rearranged : closings.Perm others) :
    SameFigures env
      ((History.of env operations).world.answered env
        (bodies.map .runProcess ++ closings.map .finalizeEpoch))
      ((History.of env operations).world.answered env
        (reordered.map .runProcess ++ others.map .finalizeEpoch)) := by
  have reliable := (History.kept_of env operations).reliable
  have manned : (History.of env operations).world.accounts.Manned :=
    ⟨reliable.healthy, registry⟩
  have served : bodies.foldl Accounts.serve
      (History.of env operations).world.accounts =
        reordered.foldl Accounts.serve
          (History.of env operations).world.accounts :=
    foldl_of_perm (fun _ body manned => Accounts.Manned.serve manned body)
      (fun _ first second manned => Accounts.serve_comm manned first second)
      permuted manned
  apply SameFigures.of_accounts
  rw [reliable.accounts_answered, reliable.accounts_answered,
    List.foldl_append, List.foldl_append, List.foldl_map, List.foldl_map,
    List.foldl_map, List.foldl_map]
  change closings.foldl Accounts.finalize (bodies.foldl Accounts.serve _) =
    others.foldl Accounts.finalize (reordered.foldl Accounts.serve _)
  rw [served]
  exact rearranged.foldl_eq'
    (fun first _ second _ _ => Accounts.finalize_comm first second) _

/-- Two processes, one of them with an explicit node. -/
theorem knownProcesses_commute :
    SameFigures .plain
      ((History.of .plain
        [.register "node-7" "validator"]).world.answered .plain
          ([Orchestrator.transferBody "p-1" (some ["node-7"]),
            Orchestrator.transferBody "p-2" none].map .runProcess ++
            [1, 2].map .finalizeEpoch))
      ((History.of .plain
        [.register "node-7" "validator"]).world.answered .plain
          ([Orchestrator.transferBody "p-2" none,
            Orchestrator.transferBody "p-1" (some ["node-7"])].map
              .runProcess ++ [2, 1].map .finalizeEpoch)) :=
  independent_processes_commute .plain
    [.register "node-7" "validator"] (by decide +kernel) _ _
    (.swap _ _ _) _ _ (.swap _ _ _)

end ArosParadigm

import ArosParadigm.ReserveToken

/-!
# What ArosCoinReserveManager has done

Every balance, allowance and the supply follow from the transactions that were
accepted; everything but the spent part of allowances follows from the emitted
events alone. What only the owner may do happens by the owner only.
-/

namespace ArosParadigm.ReserveManager

open Token

section Induction

variable {deployer : Address} {contract : Contract}

def Life.accept (life : Life) (transaction : Transaction)
    (after : Contract) : Life :=
  ⟨life.log ++ [⟨transaction, life.contract, none, after⟩], after⟩

def Life.refuse (life : Life) (transaction : Transaction)
    (revert : Revert) : Life :=
  ⟨life.log ++ [⟨transaction, life.contract, some revert, life.contract⟩],
    life.contract⟩

theorem Life.next_of_ok {life : Life} {transaction : Transaction}
    {after : Contract}
    (returned : execute life.contract transaction = .ok after) :
    life.next transaction = life.accept transaction after := by
  unfold Life.next
  rw [returned]
  rfl

theorem Life.next_of_error {life : Life} {transaction : Transaction}
    {revert : Revert}
    (reverted : execute life.contract transaction = .error revert) :
    life.next transaction = life.refuse transaction revert := by
  unfold Life.next
  rw [reverted]
  rfl

/-- What begins with the deployment and is kept by accepted and by refused
transactions holds all the time. -/
theorem Life.induction {kept : Life → Prop}
    (deployed : deploy deployer = .ok contract)
    (begins : kept ⟨[], contract⟩)
    (accepts : ∀ life : Life, life.contract.Solvent →
      life.contract.Guarded → ∀ transaction after,
        execute life.contract transaction = .ok after → kept life →
          kept (life.accept transaction after))
    (refuses : ∀ life : Life, ∀ transaction revert,
      execute life.contract transaction = .error revert → kept life →
        kept (life.refuse transaction revert))
    (transactions : List Transaction) :
    kept (Life.of contract transactions) := by
  induction transactions using List.reverseRecOn with
  | nil =>
      exact begins
  | append_singleton earlier transaction inductionHypothesis =>
      obtain ⟨solvent, guarded⟩ := sound_of_life deployed earlier
      rw [Life.of_concat]
      cases returned :
          execute (Life.of contract earlier).contract transaction with
      | error revert =>
          rw [Life.next_of_error returned]
          exact refuses _ _ _ returned inductionHypothesis
      | ok after =>
          rw [Life.next_of_ok returned]
          exact accepts _ solvent guarded _ _ returned inductionHypothesis

end Induction

namespace Life

/-- The entries of the accepted transactions. -/
def entries (life : Life) : List (Entry Address) :=
  life.log.flatMap fun executed =>
    if executed.revert = none then executed.transaction.entries else []

variable {life : Life} {transaction : Transaction} {after : Contract}

@[simp]
theorem entries_accept :
    (life.accept transaction after).entries =
      life.entries ++ transaction.entries := by
  simp [entries, accept]

@[simp]
theorem entries_refuse (revert : Revert) :
    (life.refuse transaction revert).entries = life.entries := by
  simp [entries, refuse]

end Life

/-- Who takes a value from a holder with a transaction: the holder, the owner
by `burnWithReference`, or somebody who uses up an allowance of the holder. -/
inductive Executed.Takes (executed : Executed) (holder : Address) : Prop where
  | asHolder (isHolder : executed.transaction.sender = holder)
  | asOwner (isOwner : executed.transaction.sender = executed.before.owner)
      (amount : Uint256) (txReference : Bytes32)
      (isCall : executed.transaction.call =
        .burnWithReference holder amount txReference)
  | asSpender
      (isSpent : Entry.spend holder executed.transaction.sender
        (sent holder executed.transaction.entries) ∈
          executed.transaction.entries)

/-- What the contract stores is what its accepted transactions amount to. -/
structure Life.Balanced (life : Life) : Prop where
  holdings : ∀ account,
    (life.contract.balances account).toNat + sent account life.entries =
      received account life.entries
  supply : life.contract.totalSupply.toNat + redeemed life.entries =
    issued life.entries
  allowances : ∀ holder spender,
    limit (life.contract.allowances holder spender) +
        (grantOf holder spender life.entries).spent =
      (grantOf holder spender life.entries).limit
  taken : ∀ executed ∈ life.log, executed.revert = none →
    ∀ holder, sent holder executed.transaction.entries ≠ 0 →
      executed.Takes holder

section Accounts

variable {deployer : Address} {contract : Contract}

/-- The entries of the life make up the book of the contract. -/
theorem posted_of_life (deployed : deploy deployer = .ok contract)
    (transactions : List Transaction) :
    Book.empty.postAll (Life.of contract transactions).entries =
      some (Life.of contract transactions).contract.book := by
  refine @Life.induction deployer contract
    (fun life => Book.empty.postAll life.entries = some life.contract.book)
    deployed ?_ ?_ ?_ transactions
  · have isInitial := register_of_deploy deployed
    exact congrArg some (congrArg Register.book isInitial).symm
  · intro life solvent guarded transaction after returned posted
    have accepted := execute_refines solvent guarded transaction
    rw [returned, registerOf_ok] at accepted
    obtain ⟨_, step, _⟩ := Register.step_eq_some accepted.symm
    rw [Life.entries_accept, Book.postAll_append, posted]
    exact step
  · intro life transaction revert _ posted
    rw [Life.entries_refuse]
    exact posted

private theorem takes_of_execute {before after : Contract}
    (solvent : before.Solvent) (guarded : before.Guarded)
    {transaction : Transaction}
    (returned : execute before transaction = .ok after)
    {holder : Address} (gives : sent holder transaction.entries ≠ 0) :
    (⟨transaction, before, none, after⟩ : Executed).Takes holder := by
  have accepted := execute_refines solvent guarded transaction
  rw [returned, registerOf_ok] at accepted
  obtain ⟨admits, _⟩ := Register.step_eq_some accepted.symm
  obtain ⟨sender, call⟩ := transaction
  cases call with
  | burnWithReference account amount txReference =>
      by_cases isHolder : holder = account
      · subst isHolder
        exact .asOwner (admits.owned rfl).symm amount txReference rfl
      · simp [sent, Transaction.entries, Entry.sent, isHolder] at gives
  | burn value =>
      by_cases isHolder : holder = sender
      · exact .asHolder isHolder.symm
      · simp [sent, Transaction.entries, Entry.sent, isHolder] at gives
  | transfer receiver value =>
      by_cases isHolder : holder = sender
      · exact .asHolder isHolder.symm
      · simp [sent, Transaction.entries, Entry.sent, isHolder] at gives
  | burnFrom account value =>
      by_cases isHolder : holder = account
      · subst isHolder
        apply Executed.Takes.asSpender
        simp [sent, Transaction.entries, Entry.sent]
      · simp [sent, Transaction.entries, Entry.sent, isHolder] at gives
  | transferFrom account receiver value =>
      by_cases isHolder : holder = account
      · subst isHolder
        apply Executed.Takes.asSpender
        simp [sent, Transaction.entries, Entry.sent]
      · simp [sent, Transaction.entries, Entry.sent, isHolder] at gives
  | _ =>
      simp [sent, Transaction.entries, Entry.sent] at gives

/-- Over its whole life the contract keeps its accounts, and takes nothing
from a holder but by the holder, by the owner under a reference, or out of an
allowance that covers all that is spent of it. -/
theorem holdings_accounted (deployer : Address) (contract : Contract)
    (deployed : deploy deployer = .ok contract)
    (transactions : List Transaction) :
    (Life.of contract transactions).Balanced := by
  have posted := posted_of_life deployed transactions
  have solvent := (sound_of_life deployed transactions).1
  constructor
  case holdings =>
    intro account
    have amounts := Book.held_postAll posted account
    simpa [Book.empty, Contract.book] using amounts
  case supply =>
    have amounts := Book.supply_postAll posted
    rw [solvent.supply_eq] at amounts
    simpa [Book.empty, Book.supply] using amounts
  case allowances =>
    exact Book.grants_of_postAll posted
  case taken =>
    refine @Life.induction deployer contract
      (fun life => ∀ executed ∈ life.log, executed.revert = none →
        ∀ holder, sent holder executed.transaction.entries ≠ 0 →
          executed.Takes holder) deployed ?_ ?_ ?_ transactions
    · intro executed member
      exact absurd member List.not_mem_nil
    · intro life solvent guarded transaction after returned earlier
        executed member isAccepted holder gives
      rcases List.mem_append.mp member with old | new
      · exact earlier executed old isAccepted holder gives
      · cases List.mem_singleton.mp new
        exact takes_of_execute solvent guarded returned gives
    · intro life transaction revert _ earlier executed member isAccepted
        holder gives
      rcases List.mem_append.mp member with old | new
      · exact earlier executed old isAccepted holder gives
      · cases List.mem_singleton.mp new
        cases isAccepted

theorem allowanceTransactions_balanced :
    ∃ contract, deploy 1 = .ok contract ∧
      (Life.of contract allowanceTransactions).Balanced :=
  ⟨_, rfl, holdings_accounted 1 _ rfl allowanceTransactions⟩

end Accounts

/-! ## What the events tell -/

def Event.entries : Event → List (Entry Address)
  | .transfer sender receiver value =>
      if sender = 0 then [.issue receiver value.toNat]
      else if receiver = 0 then [.redeem sender value.toNat]
      else [.move sender receiver value.toNat]
  | .approval owner spender value => [.allow owner spender (limit value)]
  | .ownershipTransferred _ _ => []
  | .minted _ _ _ => []
  | .burned _ _ _ => []

def Event.reference? : Event → Option Bytes32
  | .minted _ _ txReference => some txReference
  | .burned _ _ txReference => some txReference
  | _ => none

/-- A value that an event creates. -/
def Event.creation? : Event → Option (Address × Uint256)
  | .transfer sender receiver value =>
      if sender = 0 then some (receiver, value) else none
  | _ => none

/-- A value that an event says was minted. -/
def Event.minting? : Event → Option (Address × Uint256)
  | .minted receiver amount _ => some (receiver, amount)
  | _ => none

def Event.owner? (owner : Address) : Event → Option Address
  | .ownershipTransferred previousOwner newOwner =>
      if previousOwner = owner then some newOwner else none
  | _ => some owner

/-- The entries that events tell. -/
def told (events : List Event) : List (Entry Address) :=
  events.flatMap Event.entries

/-- The events of a transaction that is accepted under an owner. -/
def Transaction.events (owner : Address) (transaction : Transaction) :
    List Event :=
  let sender := transaction.sender
  match transaction.call with
  | .mint receiver amount txReference =>
      [.transfer 0 receiver amount, .minted receiver amount txReference]
  | .burnWithReference holder amount txReference =>
      [.transfer holder 0 amount, .burned holder amount txReference]
  | .burn value => [.transfer sender 0 value]
  | .burnFrom account value => [.transfer account 0 value]
  | .transfer receiver value => [.transfer sender receiver value]
  | .approve spender value => [.approval sender spender value]
  | .transferFrom holder receiver value =>
      [.transfer holder receiver value]
  | .transferOwnership newOwner => [.ownershipTransferred owner newOwner]
  | .renounceOwnership => [.ownershipTransferred owner 0]

/-- The storage of the contract but for the spent part of allowances, read off
the events alone. Each value is created under a reference of its own. -/
structure Contract.Told (contract : Contract) : Prop where
  holdings : ∀ account,
    (contract.balances account).toNat + sent account (told contract.logs) =
      received account (told contract.logs)
  supply : contract.totalSupply.toNat + redeemed (told contract.logs) =
    issued (told contract.logs)
  allowances : ∀ holder spender,
    limit (contract.allowances holder spender) ≤
      (grantOf holder spender (told contract.logs)).limit
  owner : contract.logs.foldlM Event.owner? 0 = some contract.owner
  references : ∀ txReference,
    isReferenceUsed contract txReference = true ↔
      txReference ∈ contract.logs.filterMap Event.reference?
  once : (contract.logs.filterMap Event.reference?).Nodup
  creations : contract.logs.filterMap Event.creation? =
    contract.logs.filterMap Event.minting?

section Events

variable {contract after : Contract} {transaction : Transaction}

private theorem ok_of_guarded {sender : Address}
    {body : Except Revert Contract}
    (returned : Ownable.onlyOwner contract sender body = .ok after) :
    body = .ok after := by
  unfold Ownable.onlyOwner at returned
  by_cases stranger : contract.owner ≠ sender
  · rw [if_pos stranger] at returned
    cases returned
  · rwa [if_neg stranger] at returned

private theorem logs_of_referenced {result : Except Revert Contract}
    {txReference : Bytes32} {event announced : Event}
    (logs : ∀ between, result = .ok between →
      between.logs = contract.logs ++ [event])
    (returned : (if contract.usedReferences txReference then
        .error (.message "Reference already used")
      else do
        let contract ← result
        return (contract.use txReference).emit announced) = .ok after) :
    after.logs = contract.logs ++ [event, announced] := by
  by_cases isUsed : contract.usedReferences txReference = true
  · rw [if_pos isUsed] at returned
    cases returned
  · rw [if_neg isUsed] at returned
    cases result with
    | error revert =>
        cases returned
    | ok between =>
        cases returned
        change between.logs ++ [announced] = _
        rw [logs between rfl, List.append_assoc]
        rfl

private theorem logs_of_spending {holder sender : Address}
    {value : Uint256} {next : Contract → Except Revert Contract}
    {events : List Event}
    (logs : ∀ between, between.Solvent → next between = .ok after →
      after.logs = between.logs ++ events)
    (solvent : contract.Solvent)
    (returned : (do
      let between ← ERC20.spendAllowance contract holder sender value
      next between) = .ok after) :
    after.logs = contract.logs ++ events := by
  cases spent : ERC20.spendAllowance contract holder sender value with
  | error revert =>
      rw [spent] at returned
      cases returned
  | ok between =>
      rw [spent] at returned
      obtain ⟨allowances, rfl⟩ := spendAllowance_of_ok spent
      exact logs { contract with allowances := allowances } solvent
        returned

/-- An accepted transaction emits its events. -/
theorem logs_of_execute (solvent : contract.Solvent)
    (returned : execute contract transaction = .ok after) :
    after.logs = contract.logs ++ transaction.events contract.owner := by
  have burnt : ∀ {before : Contract} {account : Address} {value : Uint256}
      {after : Contract}, before.Solvent →
      ERC20.burn before account value = .ok after →
        after.logs = before.logs ++ [.transfer account 0 value] := by
    intro before account value after solvent returned
    obtain ⟨_, _, rfl, _⟩ := burn_of_solvent solvent returned
    rfl
  have moved : ∀ {before : Contract} {sender receiver : Address}
      {value : Uint256} {after : Contract}, before.Solvent →
      ERC20.internalTransfer before sender receiver value = .ok after →
        after.logs = before.logs ++ [.transfer sender receiver value] := by
    intro before sender receiver value after solvent returned
    obtain ⟨_, rfl, _⟩ := internalTransfer_of_solvent solvent returned
    rfl
  obtain ⟨sender, call⟩ := transaction
  cases call with
  | mint receiver amount txReference =>
      apply logs_of_referenced _ (ok_of_guarded returned)
      intro between minted
      obtain ⟨_, _, rfl, _⟩ := mint_of_solvent solvent minted
      rfl
  | burnWithReference holder amount txReference =>
      exact logs_of_referenced (fun between => burnt solvent)
        (ok_of_guarded returned)
  | burn value =>
      exact burnt solvent returned
  | burnFrom account value =>
      exact logs_of_spending (fun between => burnt) solvent returned
  | transfer receiver value =>
      exact moved solvent returned
  | approve spender value =>
      obtain ⟨_, rfl⟩ := internalApprove_of_ok returned
      rfl
  | transferFrom holder receiver value =>
      exact logs_of_spending (fun between => moved) solvent returned
  | transferOwnership newOwner =>
      have unguarded := ok_of_guarded returned
      by_cases isZero : newOwner = 0
      · rw [if_pos isZero] at unguarded
        cases unguarded
      · rw [if_neg isZero] at unguarded
        cases unguarded
        rfl
  | renounceOwnership =>
      cases ok_of_guarded returned
      rfl

private theorem told_events (owner : Address)
    (named : ∀ address ∈ transaction.addresses, address ≠ 0) :
    told (transaction.events owner) = unspent transaction.entries := by
  obtain ⟨sender, call⟩ := transaction
  cases call <;>
    simp_all [told, Transaction.events, Transaction.entries,
      Transaction.addresses, Event.entries, unspent, Entry.isSpend]

private theorem references_events (owner : Address) :
    (transaction.events owner).filterMap Event.reference? =
      transaction.call.reference?.toList := by
  obtain ⟨sender, call⟩ := transaction
  cases call <;> rfl

private theorem creation_of_someone {sender receiver : Address}
    (value : Uint256) (someone : sender ≠ 0) :
    Event.creation? (.transfer sender receiver value) = none :=
  if_neg someone

private theorem creations_events (owner : Address)
    (named : ∀ address ∈ transaction.addresses, address ≠ 0) :
    (transaction.events owner).filterMap Event.creation? =
      (transaction.events owner).filterMap Event.minting? := by
  obtain ⟨sender, call⟩ := transaction
  cases call with
  | burnWithReference holder amount txReference =>
      have nothing := @creation_of_someone holder 0 amount
        (named holder List.mem_cons_self)
      simp only [Transaction.events, List.filterMap_cons, nothing]
      rfl
  | burn value =>
      have nothing := @creation_of_someone sender 0 value
        (named sender List.mem_cons_self)
      simp only [Transaction.events, List.filterMap_cons, nothing]
      rfl
  | burnFrom account value =>
      have nothing := @creation_of_someone account 0 value
        (named account (List.mem_cons_of_mem _ List.mem_cons_self))
      simp only [Transaction.events, List.filterMap_cons, nothing]
      rfl
  | transfer receiver value =>
      have nothing := @creation_of_someone sender receiver value
        (named sender List.mem_cons_self)
      simp only [Transaction.events, List.filterMap_cons, nothing]
      rfl
  | transferFrom holder receiver value =>
      have nothing := @creation_of_someone holder receiver value
        (named holder (List.mem_cons_of_mem _ List.mem_cons_self))
      simp only [Transaction.events, List.filterMap_cons, nothing]
      rfl
  | _ =>
      rfl

private theorem owner_of_transferred (owner newOwner : Address) :
    [Event.ownershipTransferred owner newOwner].foldlM Event.owner? owner =
      some newOwner := by
  simp only [List.foldlM_cons, List.foldlM_nil, Event.owner?, if_pos]
  rfl

private theorem owner_events (owner : Address) :
    (transaction.events owner).foldlM Event.owner? owner =
      some (transaction.call.newOwner?.getD owner) := by
  obtain ⟨sender, call⟩ := transaction
  cases call with
  | transferOwnership newOwner =>
      exact owner_of_transferred owner newOwner
  | renounceOwnership =>
      exact owner_of_transferred owner 0
  | _ =>
      rfl

private theorem logs_of_deploy {deployer : Address}
    (deployed : deploy deployer = .ok contract) :
    contract.logs = [.ownershipTransferred 0 deployer] := by
  unfold deploy at deployed
  simp only at deployed
  split at deployed
  · cases deployed
  · cases deployed
    rfl

end Events

section Records

variable {deployer : Address} {contract : Contract}

/-- The events tell what the accepted transactions posted. -/
theorem told_of_life (deployed : deploy deployer = .ok contract)
    (transactions : List Transaction) :
    told (Life.of contract transactions).contract.logs =
      unspent (Life.of contract transactions).entries := by
  refine @Life.induction deployer contract
    (fun life => told life.contract.logs = unspent life.entries)
    deployed ?_ ?_ ?_ transactions
  · change told contract.logs = []
    rw [logs_of_deploy deployed]
    rfl
  · intro life solvent guarded transaction after returned tells
    have accepted := execute_refines solvent guarded transaction
    rw [returned, registerOf_ok] at accepted
    obtain ⟨admits, _⟩ := Register.step_eq_some accepted.symm
    have logs := logs_of_execute solvent returned
    rw [Life.entries_accept, unspent_append, ← tells,
      ← told_events life.contract.owner admits.named]
    change told after.logs = _
    rw [logs]
    exact List.flatMap_append
  · intro life transaction revert _ tells
    rw [Life.entries_refuse]
    exact tells

private structure Named (contract : Contract) : Prop where
  owner : contract.logs.foldlM Event.owner? 0 = some contract.owner
  references : ∀ txReference,
    contract.usedReferences txReference = true ↔
      txReference ∈ contract.logs.filterMap Event.reference?
  once : (contract.logs.filterMap Event.reference?).Nodup
  creations : contract.logs.filterMap Event.creation? =
    contract.logs.filterMap Event.minting?

private theorem named_of_deploy (deployed : deploy deployer = .ok contract) :
    Named contract := by
  have isInitial := register_of_deploy deployed
  have owned : contract.owner = deployer :=
    congrArg Register.owner isInitial
  have unused : ∀ txReference, contract.usedReferences txReference ≠ true :=
    fun txReference isUsed =>
      (congrArg (fun register : Register => txReference ∈ register.used)
        isInitial).mp isUsed
  have logs := logs_of_deploy deployed
  constructor
  case owner =>
    rw [logs, owned]
    rfl
  case references =>
    intro txReference
    rw [logs]
    exact ⟨fun isUsed => absurd isUsed (unused txReference), nofun⟩
  case once =>
    rw [logs]
    exact List.nodup_nil
  case creations =>
    rw [logs]
    rfl

private theorem Named.step {before after : Contract}
    (isNamed : Named before) (solvent : before.Solvent)
    (guarded : before.Guarded) {transaction : Transaction}
    (returned : execute before transaction = .ok after) :
    Named after := by
  have accepted := execute_refines solvent guarded transaction
  rw [returned, registerOf_ok] at accepted
  obtain ⟨admits, _, owned, _⟩ := Register.step_eq_some accepted.symm
  have step := step_of_execute solvent returned
  have logs := logs_of_execute solvent returned
  constructor
  case owner =>
    rw [logs, List.foldlM_append, isNamed.owner]
    exact (owner_events before.owner).trans (congrArg some owned.symm)
  case references =>
    intro txReference
    rw [logs, List.filterMap_append, references_events, List.mem_append,
      ← isNamed.references, Option.mem_toList]
    exact step.used txReference
  case once =>
    rw [logs, List.filterMap_append, references_events]
    refine List.nodup_append.mpr ⟨isNamed.once, ?_, ?_⟩
    · cases transaction.call.reference? with
      | none =>
          exact List.nodup_nil
      | some txReference =>
          exact List.nodup_singleton txReference
    · rintro txReference earlier _ later rfl
      have unused := step.fresh txReference (Option.mem_toList.mp later)
      have isUsed := (isNamed.references txReference).mpr earlier
      exact absurd (unused.symm.trans isUsed) Bool.noConfusion
  case creations =>
    rw [logs, List.filterMap_append, List.filterMap_append,
      isNamed.creations, creations_events before.owner admits.named]

/-- Over its whole life the contract is known from its events. -/
theorem events_tell (deployer : Address) (contract : Contract)
    (deployed : deploy deployer = .ok contract)
    (transactions : List Transaction) :
    (Life.of contract transactions).contract.Told := by
  have posted := posted_of_life deployed transactions
  have solvent := (sound_of_life deployed transactions).1
  have tells := told_of_life deployed transactions
  have isNamed : Named (Life.of contract transactions).contract := by
    refine @Life.induction deployer contract
      (fun life => Named life.contract) deployed
      (named_of_deploy deployed) ?_ ?_ transactions
    · intro life solvent guarded transaction after returned isNamed
      exact isNamed.step solvent guarded returned
    · intro life transaction revert _ isNamed
      exact isNamed
  constructor
  case holdings =>
    intro account
    have amounts := Book.held_postAll posted account
    rw [tells, sent_unspent, received_unspent]
    simpa [Book.empty, Contract.book] using amounts
  case supply =>
    have amounts := Book.supply_postAll posted
    rw [solvent.supply_eq] at amounts
    rw [tells, redeemed_unspent, issued_unspent]
    simpa [Book.empty, Book.supply] using amounts
  case allowances =>
    intro holder spender
    have granted := Book.grants_of_postAll posted holder spender
    rw [tells, limit_unspent, ← granted]
    exact le_self_add
  case owner =>
    exact isNamed.owner
  case references =>
    exact isNamed.references
  case once =>
    exact isNamed.once
  case creations =>
    exact isNamed.creations

theorem allowanceTransactions_told :
    ∃ contract, deploy 1 = .ok contract ∧
      (Life.of contract allowanceTransactions).contract.Told :=
  ⟨_, rfl, events_tell 1 _ rfl allowanceTransactions⟩

end Records

/-- What a contract keeps through transactions of others than its owner. -/
structure Contract.Unowned (before : Contract)
    (transactions : List Transaction) (after : Contract) : Prop where
  owner : after.owner = before.owner
  references : ∀ txReference,
    isReferenceUsed after txReference = isReferenceUsed before txReference
  supply : after.totalSupply ≤ before.totalSupply
  holdings : ∀ holder,
    (∀ transaction ∈ transactions, transaction.sender ≠ holder) →
      (∀ spender, before.allowances holder spender = 0) →
        before.balances holder ≤ after.balances holder ∧
          ∀ spender, after.allowances holder spender = 0

section Unowned

variable {before contract after : Contract} {transaction : Transaction}
variable {transactions : List Transaction}

/-- A call for the owner only, sent by another. -/
theorem unauthorized_of_stranger
    (stranger : contract.owner ≠ transaction.sender)
    (isOwners : transaction.call.isOwners = true) :
    execute contract transaction =
      .error (.ownableUnauthorizedAccount transaction.sender) := by
  obtain ⟨sender, call⟩ := transaction
  cases call with
  | mint receiver amount txReference =>
      exact if_pos stranger
  | burnWithReference holder amount txReference =>
      exact if_pos stranger
  | transferOwnership newOwner =>
      exact if_pos stranger
  | renounceOwnership =>
      exact if_pos stranger
  | _ =>
      cases isOwners

private theorem plain_of_anybody
    (anybody : transaction.call.isOwners ≠ true) :
    transaction.call.reference? = none ∧
      transaction.call.newOwner? = none ∧
        issued transaction.entries = 0 := by
  obtain ⟨sender, call⟩ := transaction
  cases call with
  | mint receiver amount txReference =>
      exact absurd rfl anybody
  | burnWithReference holder amount txReference =>
      exact absurd rfl anybody
  | transferOwnership newOwner =>
      exact absurd rfl anybody
  | renounceOwnership =>
      exact absurd rfl anybody
  | _ =>
      exact ⟨rfl, rfl, rfl⟩

/-- What an accepted transaction posts on a holder who neither sends it nor
allows anything. -/
private theorem unsent_of_bystander {book later : Book Address}
    {holder : Address} (anybody : transaction.call.isOwners ≠ true)
    (posted : book.postAll transaction.entries = some later)
    (notSender : transaction.sender ≠ holder)
    (nothing : ∀ spender, book.allowed holder spender = 0) :
    sent holder transaction.entries = 0 ∧
      ∀ spender, later.allowed holder spender = 0 := by
  have kept : (∀ spender,
      transaction.entries.foldl (Grant.next holder spender) ⟨0, 0⟩ =
        ⟨0, 0⟩) → ∀ spender, later.allowed holder spender = 0 := by
    intro grants spender
    have grant := grants spender
    rw [← nothing spender] at grant
    have allowed := Book.allowed_postAll posted holder spender grant
    rwa [Nat.cast_zero, add_zero, nothing spender] at allowed
  obtain ⟨sender, call⟩ := transaction
  have different : holder ≠ sender := Ne.symm notSender
  -- An allowance of nothing covers nothing.
  have spentNothing : ∀ {value : ℕ} {rest : Entry Address},
      book.postAll [.spend holder sender value, rest] = some later →
        value = 0 := by
    intro value rest postedPair
    rw [Book.postAll_pair] at postedPair
    obtain ⟨between, spent, _⟩ := Option.bind_eq_some_iff.mp postedPair
    have covered := (Book.spend_eq_some.mp spent).1
    rw [nothing sender] at covered
    exact Nat.cast_eq_zero.mp (nonpos_iff_eq_zero.mp covered)
  cases call with
  | burn value =>
      exact ⟨by simp [sent, Transaction.entries, Entry.sent, different],
        kept fun spender => rfl⟩
  | transfer receiver value =>
      exact ⟨by simp [sent, Transaction.entries, Entry.sent, different],
        kept fun spender => rfl⟩
  | approve spender value =>
      refine ⟨rfl, kept fun other => ?_⟩
      simp [Transaction.entries, Grant.next, different]
  | burnFrom account value =>
      by_cases isHolder : holder = account
      · subst isHolder
        have isZero := spentNothing posted
        refine ⟨?_, kept fun spender => ?_⟩
        · simp [sent, Transaction.entries, Entry.sent, isZero]
        · simp [Transaction.entries, Grant.next, isZero]
      · refine ⟨?_, kept fun spender => ?_⟩
        · simp [sent, Transaction.entries, Entry.sent, isHolder]
        · simp [Transaction.entries, Grant.next, isHolder]
  | transferFrom account receiver value =>
      by_cases isHolder : holder = account
      · subst isHolder
        have isZero := spentNothing posted
        refine ⟨?_, kept fun spender => ?_⟩
        · simp [sent, Transaction.entries, Entry.sent, isZero]
        · simp [Transaction.entries, Grant.next, isZero]
      · refine ⟨?_, kept fun spender => ?_⟩
        · simp [sent, Transaction.entries, Entry.sent, isHolder]
        · simp [Transaction.entries, Grant.next, isHolder]
  | _ =>
      exact absurd rfl anybody

/-- One accepted transaction of another than the owner. -/
theorem Contract.Unowned.step (kept : before.Unowned transactions contract)
    (solvent : contract.Solvent) (guarded : contract.Guarded)
    (stranger : transaction.sender ≠ before.owner)
    (returned : execute contract transaction = .ok after) :
    before.Unowned (transactions ++ [transaction]) after := by
  have anybody : transaction.call.isOwners ≠ true := by
    intro isOwners
    have notOwner : contract.owner ≠ transaction.sender := by
      rw [kept.owner]
      exact Ne.symm stranger
    rw [unauthorized_of_stranger notOwner isOwners] at returned
    cases returned
  obtain ⟨anonymous, sameOwner, issues⟩ := plain_of_anybody anybody
  have accepted := execute_refines solvent guarded transaction
  rw [returned, registerOf_ok] at accepted
  obtain ⟨_, posted, owned, _⟩ := Register.step_eq_some accepted.symm
  have step := step_of_execute solvent returned
  constructor
  case owner =>
    rw [sameOwner] at owned
    exact owned.trans kept.owner
  case references =>
    intro txReference
    have used := step.used txReference
    rw [anonymous] at used
    rw [← kept.references]
    change after.usedReferences txReference =
      contract.usedReferences txReference
    simpa using used
  case supply =>
    have amounts := Book.supply_postAll posted
    rw [issues] at amounts
    have supplyBefore := solvent.supply_eq
    have supplyAfter := step.solvent.supply_eq
    have earlier := BitVec.le_def.mp kept.supply
    change after.book.supply + _ = contract.book.supply + 0 at amounts
    rw [BitVec.le_def]
    omega
  case holdings =>
    intro holder absent nothing
    have absentEarlier : ∀ earlier ∈ transactions,
        earlier.sender ≠ holder :=
      fun earlier member => absent earlier (List.mem_append_left _ member)
    have absentNow : transaction.sender ≠ holder :=
      absent transaction (List.mem_append_right _ List.mem_cons_self)
    obtain ⟨held, allowsNothing⟩ :=
      kept.holdings holder absentEarlier nothing
    obtain ⟨unsent, stillNothing⟩ := unsent_of_bystander anybody posted
      absentNow fun spender => limit_eq_zero_iff.mpr (allowsNothing spender)
    have amounts := Book.held_postAll posted holder
    rw [unsent] at amounts
    constructor
    · have heldEarlier := BitVec.le_def.mp held
      change (after.balances holder).toNat + 0 =
        (contract.balances holder).toNat + _ at amounts
      rw [BitVec.le_def]
      omega
    · intro spender
      exact limit_eq_zero_iff.mp (stillNothing spender)

theorem length_log (contract : Contract)
    (transactions : List Transaction) :
    (Life.of contract transactions).log.length = transactions.length := by
  induction transactions using List.reverseRecOn with
  | nil =>
      rfl
  | append_singleton earlier transaction inductionHypothesis =>
      rw [Life.of_concat, List.length_append, ← inductionHypothesis]
      exact List.length_append

/-- As long as the owner sends nothing, no value is created, no reference is
used, the owner stays, everything that needs the owner is refused, and nobody
loses anything but by an own transaction or by an allowance. After
`renounceOwnership` this is so forever, since no sender is zero. -/
theorem nothing_without_owner (deployer : Address) (contract : Contract)
    (deployed : deploy deployer = .ok contract)
    (earlier later : List Transaction)
    (strangers : ∀ transaction ∈ later,
      transaction.sender ≠ (Life.of contract earlier).contract.owner) :
    (Life.of contract earlier).contract.Unowned later
        (Life.of contract (earlier ++ later)).contract ∧
      ∀ executed ∈ (Life.of contract (earlier ++ later)).log.drop
          earlier.length,
        executed.transaction.call.isOwners = true →
          executed.revert = some
            (.ownableUnauthorizedAccount executed.transaction.sender) := by
  induction later using List.reverseRecOn with
  | nil =>
      rw [List.append_nil]
      constructor
      · exact ⟨rfl, fun _ => rfl, BitVec.le_refl _,
          fun _ _ nothing => ⟨BitVec.le_refl _, nothing⟩⟩
      · rw [List.drop_of_length_le (length_log contract earlier).le]
        exact nofun
  | append_singleton middle transaction inductionHypothesis =>
      obtain ⟨kept, refused⟩ := inductionHypothesis fun other member =>
        strangers other (List.mem_append_left _ member)
      have stranger := strangers transaction
        (List.mem_append_right _ List.mem_cons_self)
      obtain ⟨solvent, guarded⟩ :=
        sound_of_life deployed (earlier ++ middle)
      have enough : earlier.length ≤
          (Life.of contract (earlier ++ middle)).log.length := by
        rw [length_log, List.length_append]
        omega
      have separate : ∀ {executed last : Executed},
          executed ∈ ((Life.of contract (earlier ++ middle)).log ++
            [last]).drop earlier.length →
          executed ∈ (Life.of contract (earlier ++ middle)).log.drop
            earlier.length ∨ executed = last := by
        intro executed last member
        rw [List.drop_append_of_le_length enough] at member
        simpa using member
      have notOwner :
          (Life.of contract (earlier ++ middle)).contract.owner ≠
            transaction.sender := by
        rw [kept.owner]
        exact Ne.symm stranger
      rw [← List.append_assoc, Life.of_concat]
      cases returned : execute
          (Life.of contract (earlier ++ middle)).contract transaction with
      | error revert =>
          rw [Life.next_of_error returned]
          constructor
          · obtain ⟨owner, references, supply, holdings⟩ := kept
            exact ⟨owner, references, supply, fun holder absent =>
              holdings holder fun other member =>
                absent other (List.mem_append_left _ member)⟩
          · intro executed member isOwners
            rcases separate member with old | rfl
            · exact refused executed old isOwners
            · rw [unauthorized_of_stranger notOwner isOwners] at returned
              cases returned
              rfl
      | ok after =>
          rw [Life.next_of_ok returned]
          constructor
          · exact kept.step solvent guarded stranger returned
          · intro executed member isOwners
            rcases separate member with old | rfl
            · exact refused executed old isOwners
            · rw [unauthorized_of_stranger notOwner isOwners] at returned
              cases returned

def renouncing : List Transaction :=
  [⟨1, .mint 2 100 7⟩, ⟨1, .renounceOwnership⟩]

/-- The last owner, a stranger and a holder go on. -/
def afterRenouncing : List Transaction :=
  [⟨1, .mint 2 5 8⟩, ⟨3, .transferFrom 2 3 1⟩, ⟨2, .transfer 3 10⟩]

theorem nothing_after_renouncing :
    ∃ contract, deploy 1 = .ok contract ∧
      (Life.of contract renouncing).contract.Unowned afterRenouncing
          (Life.of contract (renouncing ++ afterRenouncing)).contract ∧
        ∀ executed ∈ (Life.of contract
            (renouncing ++ afterRenouncing)).log.drop renouncing.length,
          executed.transaction.call.isOwners = true →
            executed.revert = some
              (.ownableUnauthorizedAccount executed.transaction.sender) := by
  refine ⟨_, rfl, nothing_without_owner 1 _ rfl _ _ ?_⟩
  decide +kernel

end Unowned

end ArosParadigm.ReserveManager

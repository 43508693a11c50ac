import ArosParadigm.Library.Balances

/-!
# ArosCoinReserveManager

The token contract of `smart_contracts/contracts`, over the `ERC20`,
`ERC20Burnable` and `Ownable` it is built with (`artifacts/build-info`).
Transactions of arbitrary senders are executed one after another; one that
reverts leaves no trace.
-/

namespace ArosParadigm.ReserveManager

open Balances

abbrev Address := Fin (2 ^ 160)

abbrev Uint256 := BitVec 256

abbrev Bytes32 := BitVec 256

/-- Why a transaction reverts. -/
inductive Revert where
  | message (text : String)
  | panic (code : ℕ)
  | ownableUnauthorizedAccount (account : Address)
  | ownableInvalidOwner (owner : Address)
  | erc20InvalidSender (sender : Address)
  | erc20InvalidReceiver (receiver : Address)
  | erc20InsufficientBalance (sender : Address) (balance needed : Uint256)
  | erc20InsufficientAllowance (spender : Address)
      (allowance needed : Uint256)
  | erc20InvalidApprover (approver : Address)
  | erc20InvalidSpender (spender : Address)
  deriving DecidableEq

inductive Event where
  | transfer (sender receiver : Address) (value : Uint256)
  | approval (owner spender : Address) (value : Uint256)
  | ownershipTransferred (previousOwner newOwner : Address)
  | minted (receiver : Address) (amount : Uint256) (txReference : Bytes32)
  | burned (holder : Address) (amount : Uint256) (txReference : Bytes32)
  deriving DecidableEq

/-- The storage of the contract, and the events it has emitted. -/
structure Contract where
  balances : Address → Uint256
  allowances : Address → Address → Uint256
  totalSupply : Uint256
  owner : Address
  usedReferences : Bytes32 → Bool
  logs : List Event

def Contract.emit (contract : Contract) (event : Event) : Contract :=
  { contract with logs := contract.logs ++ [event] }

namespace Ownable

def internalTransferOwnership (contract : Contract) (newOwner : Address) : Contract :=
  { contract with owner := newOwner }.emit
    (.ownershipTransferred contract.owner newOwner)

def onlyOwner (contract : Contract) (sender : Address)
    (body : Except Revert Contract) : Except Revert Contract :=
  if contract.owner ≠ sender then
    .error (.ownableUnauthorizedAccount sender)
  else
    body

def renounceOwnership (contract : Contract) (sender : Address) :
    Except Revert Contract :=
  onlyOwner contract sender (.ok (internalTransferOwnership contract 0))

def transferOwnership (contract : Contract) (sender newOwner : Address) :
    Except Revert Contract :=
  onlyOwner contract sender
    (if newOwner = 0 then .error (.ownableInvalidOwner 0)
    else .ok (internalTransferOwnership contract newOwner))

end Ownable

namespace ERC20

/-- The first half of `_update`: take the value from the sender, or create
it. The addition to the supply is checked. -/
def take (contract : Contract) (sender : Address) (value : Uint256) :
    Except Revert Contract :=
  if sender = 0 then
    if contract.totalSupply.toNat + value.toNat < 2 ^ 256 then
      .ok { contract with totalSupply := contract.totalSupply + value }
    else
      .error (.panic 0x11)
  else if contract.balances sender < value then
    .error (.erc20InsufficientBalance sender (contract.balances sender)
      value)
  else
    .ok { contract with balances := debit contract.balances sender value }

/-- The second half of `_update`: give the value to the receiver, or destroy
it. Nothing is checked. -/
def give (contract : Contract) (receiver : Address) (value : Uint256) :
    Contract :=
  if receiver = 0 then
    { contract with totalSupply := contract.totalSupply - value }
  else
    { contract with
      balances := credit contract.balances receiver value }

def update (contract : Contract) (sender receiver : Address)
    (value : Uint256) : Except Revert Contract := do
  let contract ← take contract sender value
  return (give contract receiver value).emit
    (.transfer sender receiver value)

def internalTransfer (contract : Contract) (sender receiver : Address)
    (value : Uint256) : Except Revert Contract :=
  if sender = 0 then
    .error (.erc20InvalidSender 0)
  else if receiver = 0 then
    .error (.erc20InvalidReceiver 0)
  else
    update contract sender receiver value

/-- `_mint(account, value)`. -/
def mint (contract : Contract) (account : Address) (value : Uint256) :
    Except Revert Contract :=
  if account = 0 then
    .error (.erc20InvalidReceiver 0)
  else
    update contract 0 account value

/-- `_burn(account, value)`. -/
def burn (contract : Contract) (account : Address) (value : Uint256) :
    Except Revert Contract :=
  if account = 0 then
    .error (.erc20InvalidSender 0)
  else
    update contract account 0 value

/-- `_approve(owner, spender, value, emitEvent)`. -/
def internalApprove (contract : Contract) (owner spender : Address)
    (value : Uint256) (emitEvent : Bool) : Except Revert Contract :=
  if owner = 0 then
    .error (.erc20InvalidApprover 0)
  else if spender = 0 then
    .error (.erc20InvalidSpender 0)
  else
    let contract :=
      { contract with
        allowances := Function.update contract.allowances owner
          (Function.update (contract.allowances owner) spender value) }
    .ok (if emitEvent then
      contract.emit (.approval owner spender value)
    else
      contract)

/-- `_spendAllowance(owner, spender, value)`: an allowance of
`type(uint256).max` is not spent. -/
def spendAllowance (contract : Contract) (owner spender : Address)
    (value : Uint256) : Except Revert Contract :=
  let currentAllowance := contract.allowances owner spender
  if currentAllowance < BitVec.allOnes 256 then
    if currentAllowance < value then
      .error (.erc20InsufficientAllowance spender currentAllowance value)
    else
      internalApprove contract owner spender (currentAllowance - value) false
  else
    .ok contract

def transfer (contract : Contract) (sender receiver : Address)
    (value : Uint256) : Except Revert Contract :=
  internalTransfer contract sender receiver value

/-- `approve(spender, value)`. -/
def approve (contract : Contract) (sender spender : Address)
    (value : Uint256) : Except Revert Contract :=
  internalApprove contract sender spender value true

def transferFrom (contract : Contract) (sender holder receiver : Address)
    (value : Uint256) : Except Revert Contract := do
  let contract ← spendAllowance contract holder sender value
  internalTransfer contract holder receiver value

end ERC20

namespace ERC20Burnable

def burn (contract : Contract) (sender : Address) (value : Uint256) :
    Except Revert Contract :=
  ERC20.burn contract sender value

/-- `burnFrom(account, value)`. -/
def burnFrom (contract : Contract) (sender account : Address)
    (value : Uint256) : Except Revert Contract := do
  let contract ← ERC20.spendAllowance contract account sender value
  ERC20.burn contract account value

end ERC20Burnable

/-- The constructor. -/
def deploy (sender : Address) : Except Revert Contract :=
  let contract : Contract :=
    { balances := fun _ => 0
      allowances := fun _ _ => 0
      totalSupply := 0
      owner := 0
      usedReferences := fun _ => false
      logs := [] }
  if sender = 0 then
    .error (.ownableInvalidOwner 0)
  else
    .ok (Ownable.internalTransferOwnership contract sender)

def isReferenceUsed (contract : Contract) (txReference : Bytes32) : Bool :=
  contract.usedReferences txReference

/-- `usedReferences[txReference] = true`. -/
def Contract.use (contract : Contract) (txReference : Bytes32) :
    Contract :=
  { contract with
    usedReferences :=
      Function.update contract.usedReferences txReference true }

/-- `mint(to, amount, txReference)`. -/
def mint (contract : Contract) (sender receiver : Address)
    (amount : Uint256) (txReference : Bytes32) : Except Revert Contract :=
  Ownable.onlyOwner contract sender
    (if contract.usedReferences txReference then
      .error (.message "Reference already used")
    else do
      let contract ← ERC20.mint contract receiver amount
      return (contract.use txReference).emit
        (.minted receiver amount txReference))

def burnWithReference (contract : Contract) (sender holder : Address)
    (amount : Uint256) (txReference : Bytes32) : Except Revert Contract :=
  Ownable.onlyOwner contract sender
    (if contract.usedReferences txReference then
      .error (.message "Reference already used")
    else do
      let contract ← ERC20.burn contract holder amount
      return (contract.use txReference).emit
        (.burned holder amount txReference))

/-- The functions that can change the contract. -/
inductive Call where
  | mint (receiver : Address) (amount : Uint256) (txReference : Bytes32)
  | burnWithReference (holder : Address) (amount : Uint256)
      (txReference : Bytes32)
  | burn (value : Uint256)
  | burnFrom (account : Address) (value : Uint256)
  | transfer (receiver : Address) (value : Uint256)
  | approve (spender : Address) (value : Uint256)
  | transferFrom (holder receiver : Address) (value : Uint256)
  | transferOwnership (newOwner : Address)
  | renounceOwnership
  deriving DecidableEq

/-- A call and who sends it. -/
structure Transaction where
  sender : Address
  call : Call
  deriving DecidableEq

/-- Run the function that a transaction calls. -/
def execute (contract : Contract) (transaction : Transaction) :
    Except Revert Contract :=
  let sender := transaction.sender
  match transaction.call with
  | .mint receiver amount txReference =>
      mint contract sender receiver amount txReference
  | .burnWithReference holder amount txReference =>
      burnWithReference contract sender holder amount txReference
  | .burn value => ERC20Burnable.burn contract sender value
  | .burnFrom account value =>
      ERC20Burnable.burnFrom contract sender account value
  | .transfer receiver value =>
      ERC20.transfer contract sender receiver value
  | .approve spender value => ERC20.approve contract sender spender value
  | .transferFrom holder receiver value =>
      ERC20.transferFrom contract sender holder receiver value
  | .transferOwnership newOwner =>
      Ownable.transferOwnership contract sender newOwner
  | .renounceOwnership => Ownable.renounceOwnership contract sender

/-- A transaction that has been executed, with the contract around it. -/
structure Executed where
  transaction : Transaction
  before : Contract
  revert : Option Revert
  after : Contract

/-- The transactions executed so far, and the contract they have led to. -/
structure Life where
  log : List Executed
  contract : Contract

/-- Execute one more transaction; a revert restores the contract. -/
def Life.next (life : Life) (transaction : Transaction) : Life :=
  let executed : Executed :=
    match execute life.contract transaction with
    | .ok after => ⟨transaction, life.contract, none, after⟩
    | .error revert =>
        ⟨transaction, life.contract, some revert, life.contract⟩
  ⟨life.log ++ [executed], executed.after⟩

/-- Transactions executed one after another. -/
def Life.of (contract : Contract) (transactions : List Transaction) :
    Life :=
  transactions.foldl Life.next ⟨[], contract⟩

/-- The supply is what all accounts hold. -/
def Contract.Solvent (contract : Contract) : Prop :=
  total contract.balances = contract.totalSupply.toNat

section Functions

variable {contract after : Contract} {sender receiver account : Address}
variable {value : Uint256}

private theorem ok_of_bind {first : Except Revert Contract}
    {next : Contract → Except Revert Contract}
    (returned : first >>= next = .ok after) :
    ∃ between, first = .ok between ∧ next between = .ok after := by
  cases first with
  | error revert =>
      cases returned
  | ok between =>
      exact ⟨between, rfl, returned⟩

private theorem ok_of_onlyOwner {body : Except Revert Contract}
    (returned : Ownable.onlyOwner contract sender body = .ok after) :
    body = .ok after := by
  unfold Ownable.onlyOwner at returned
  split at returned
  · cases returned
  · exact returned

theorem mint_of_solvent (solvent : contract.Solvent)
    (returned : ERC20.mint contract account value = .ok after) :
    ∃ balances supply,
      after = { contract with
        balances := balances, totalSupply := supply }.emit
          (.transfer 0 account value) ∧
      total balances = supply.toNat ∧
      supply.toNat = contract.totalSupply.toNat + value.toNat := by
  unfold ERC20.mint at returned
  split at returned
  · cases returned
  · next notZero =>
      obtain ⟨taken, isTaken, isGiven⟩ := ok_of_bind returned
      unfold ERC20.take at isTaken
      rw [if_pos rfl] at isTaken
      split at isTaken
      · next fits =>
          cases isTaken
          cases isGiven
          have supply : (contract.totalSupply + value).toNat =
              contract.totalSupply.toNat + value.toNat := by
            rw [BitVec.toNat_add, Nat.mod_eq_of_lt fits]
          have held : total (credit contract.balances account value) =
              total contract.balances + value.toNat := by
            apply total_credit
            rw [show total contract.balances =
              contract.totalSupply.toNat from solvent]
            exact fits
          refine ⟨credit contract.balances account value,
            contract.totalSupply + value, ?_, ?_, supply⟩
          · unfold ERC20.give
            rw [if_neg notZero]
          · rw [held, supply]
            exact congrArg (· + value.toNat) solvent
      · cases isTaken

/-- A burn destroys its value. -/
theorem burn_of_solvent (solvent : contract.Solvent)
    (returned : ERC20.burn contract account value = .ok after) :
    ∃ balances supply,
      after = { contract with
        balances := balances, totalSupply := supply }.emit
          (.transfer account 0 value) ∧
      total balances = supply.toNat ∧
      supply.toNat + value.toNat = contract.totalSupply.toNat := by
  unfold ERC20.burn at returned
  split at returned
  · cases returned
  · next notZero =>
      obtain ⟨taken, isTaken, isGiven⟩ := ok_of_bind returned
      unfold ERC20.take at isTaken
      rw [if_neg notZero] at isTaken
      split at isTaken
      · cases isTaken
      · next covered =>
          cases isTaken
          cases isGiven
          have enough : value ≤ contract.balances account :=
            BitVec.not_lt.mp covered
          have held := total_debit enough
          have whole : total contract.balances =
              contract.totalSupply.toNat :=
            solvent
          have below : value ≤ contract.totalSupply := by
            rw [BitVec.le_def]
            omega
          have supply : (contract.totalSupply - value).toNat =
              contract.totalSupply.toNat - value.toNat :=
            BitVec.toNat_sub_of_le below
          refine ⟨debit contract.balances account value,
            contract.totalSupply - value, ?_, ?_, ?_⟩
          · unfold ERC20.give
            rw [if_pos rfl]
          · omega
          · rw [BitVec.le_def] at below
            omega

/-- A transfer moves its value. -/
theorem internalTransfer_of_solvent (solvent : contract.Solvent)
    (returned : ERC20.internalTransfer contract sender receiver value =
      .ok after) :
    ∃ balances,
      after = { contract with balances := balances }.emit
        (.transfer sender receiver value) ∧
      total balances = contract.totalSupply.toNat := by
  unfold ERC20.internalTransfer at returned
  split at returned
  · cases returned
  · next fromSomeone =>
      split at returned
      · cases returned
      · next toSomeone =>
          obtain ⟨taken, isTaken, isGiven⟩ := ok_of_bind returned
          unfold ERC20.take at isTaken
          rw [if_neg fromSomeone] at isTaken
          split at isTaken
          · cases isTaken
          · next covered =>
              cases isTaken
              cases isGiven
              have enough : value ≤ contract.balances sender :=
                BitVec.not_lt.mp covered
              have taken := total_debit enough
              have whole : total contract.balances =
                  contract.totalSupply.toNat :=
                solvent
              have fits : total (debit contract.balances sender value) +
                  value.toNat < 2 ^ 256 := by
                have bound := contract.totalSupply.isLt
                omega
              have given := @total_credit _ _ _ _ _ receiver _ fits
              refine ⟨credit (debit contract.balances sender value)
                receiver value, ?_, ?_⟩
              · unfold ERC20.give
                rw [if_neg toSomeone]
              · omega

/-- An approval changes allowances only. -/
theorem internalApprove_of_ok {emitEvent : Bool}
    (returned : ERC20.internalApprove contract sender receiver value
      emitEvent = .ok after) :
    ∃ allowances, after =
      if emitEvent then
        { contract with allowances := allowances }.emit
          (.approval sender receiver value)
      else
        { contract with allowances := allowances } := by
  unfold ERC20.internalApprove at returned
  split at returned
  · cases returned
  · split at returned
    · cases returned
    · cases returned
      exact ⟨_, rfl⟩

theorem spendAllowance_of_ok
    (returned : ERC20.spendAllowance contract sender receiver value =
      .ok after) :
    ∃ allowances, after = { contract with allowances := allowances } := by
  unfold ERC20.spendAllowance at returned
  simp only at returned
  split at returned
  · split at returned
    · cases returned
    · exact internalApprove_of_ok returned
  · cases returned
    exact ⟨contract.allowances, rfl⟩

end Functions

def Event.mintedAmount : Event → ℕ
  | .minted _ amount _ => amount.toNat
  | _ => 0

def Event.burnedAmount : Event → ℕ
  | .burned _ amount _ => amount.toNat
  | _ => 0

def Contract.mintedSum (contract : Contract) : ℕ :=
  (contract.logs.map Event.mintedAmount).sum

def Contract.burnedSum (contract : Contract) : ℕ :=
  (contract.logs.map Event.burnedAmount).sum

@[simp]
theorem mintedSum_emit (contract : Contract) (event : Event) :
    (contract.emit event).mintedSum =
      contract.mintedSum + event.mintedAmount := by
  simp [Contract.mintedSum, Contract.emit]

@[simp]
theorem burnedSum_emit (contract : Contract) (event : Event) :
    (contract.emit event).burnedSum =
      contract.burnedSum + event.burnedAmount := by
  simp [Contract.burnedSum, Contract.emit]

theorem mintedSum_use (contract : Contract) (txReference : Bytes32) :
    (contract.use txReference).mintedSum = contract.mintedSum :=
  rfl

theorem burnedSum_use (contract : Contract) (txReference : Bytes32) :
    (contract.use txReference).burnedSum = contract.burnedSum :=
  rfl

def Call.reference? : Call → Option Bytes32
  | .mint _ _ txReference => some txReference
  | .burnWithReference _ _ txReference => some txReference
  | _ => none

def Call.holderBurn : Call → ℕ
  | .burn value => value.toNat
  | .burnFrom _ value => value.toNat
  | _ => 0

/-- What a successful call does to references and supply. -/
structure Step (call : Call) (before after : Contract) : Prop where
  fresh : ∀ txReference, call.reference? = some txReference →
    before.usedReferences txReference = false
  used : ∀ txReference, after.usedReferences txReference = true ↔
    before.usedReferences txReference = true ∨
      call.reference? = some txReference
  supply : after.totalSupply.toNat + after.burnedSum + call.holderBurn +
      before.mintedSum =
    before.totalSupply.toNat + before.burnedSum + after.mintedSum
  solvent : after.Solvent

section Steps

variable {before after : Contract} {call : Call}

/-- A call without a reference that emits neither `Minted` nor `Burned`. -/
private theorem Step.of_plain (anonymous : call.reference? = none)
    (used : after.usedReferences = before.usedReferences)
    (events : ∃ events, after.logs = before.logs ++ events ∧
      ∀ event ∈ events, event.mintedAmount = 0 ∧ event.burnedAmount = 0)
    (supply : after.totalSupply.toNat + call.holderBurn =
      before.totalSupply.toNat)
    (solvent : after.Solvent) : Step call before after := by
  obtain ⟨events, logs, silent⟩ := events
  have minted : (events.map Event.mintedAmount).sum = 0 := by
    apply List.sum_eq_zero
    intro amount member
    obtain ⟨event, inside, rfl⟩ := List.mem_map.mp member
    exact (silent event inside).1
  have burned : (events.map Event.burnedAmount).sum = 0 := by
    apply List.sum_eq_zero
    intro amount member
    obtain ⟨event, inside, rfl⟩ := List.mem_map.mp member
    exact (silent event inside).2
  refine ⟨?_, ?_, ?_, solvent⟩
  · intro txReference named
    rw [anonymous] at named
    cases named
  · intro txReference
    rw [used, anonymous]
    simp
  · unfold Contract.mintedSum Contract.burnedSum
    rw [logs, List.map_append, List.map_append, List.sum_append,
      List.sum_append, minted, burned]
    omega

private theorem used_use (contract : Contract)
    (txReference tested : Bytes32) :
    (contract.use txReference).usedReferences tested = true ↔
      contract.usedReferences tested = true ∨
        some txReference = some tested := by
  unfold Contract.use
  by_cases same : tested = txReference
  · subst same
    simp
  · simp [Function.update_of_ne same, Ne.symm same]

theorem step_mint (solvent : before.Solvent) {sender receiver : Address}
    {amount : Uint256} {txReference : Bytes32}
    (returned : mint before sender receiver amount txReference =
      .ok after) :
    Step (.mint receiver amount txReference) before after := by
  have unguarded := ok_of_onlyOwner returned
  split at unguarded
  · cases unguarded
  · next unused =>
      obtain ⟨between, minted, rest⟩ := ok_of_bind unguarded
      obtain ⟨balances, supply, rfl, held, grown⟩ :=
        mint_of_solvent solvent minted
      cases rest
      refine ⟨?_, ?_, ?_, held⟩
      · rintro tested ⟨⟩
        exact Bool.eq_false_of_not_eq_true unused
      · intro tested
        exact used_use _ txReference tested
      · rw [mintedSum_emit, burnedSum_emit, mintedSum_use, burnedSum_use,
          mintedSum_emit, burnedSum_emit]
        change supply.toNat + (before.burnedSum + 0 + 0) + 0 +
          before.mintedSum = before.totalSupply.toNat +
            before.burnedSum + (before.mintedSum + 0 + amount.toNat)
        omega

theorem step_burnWithReference (solvent : before.Solvent)
    {sender holder : Address} {amount : Uint256} {txReference : Bytes32}
    (returned : burnWithReference before sender holder amount
      txReference = .ok after) :
    Step (.burnWithReference holder amount txReference) before after := by
  have unguarded := ok_of_onlyOwner returned
  split at unguarded
  · cases unguarded
  · next unused =>
      obtain ⟨between, burned, rest⟩ := ok_of_bind unguarded
      obtain ⟨balances, supply, rfl, held, shrunk⟩ :=
        burn_of_solvent solvent burned
      cases rest
      refine ⟨?_, ?_, ?_, held⟩
      · rintro tested ⟨⟩
        exact Bool.eq_false_of_not_eq_true unused
      · intro tested
        exact used_use _ txReference tested
      · rw [mintedSum_emit, burnedSum_emit, mintedSum_use, burnedSum_use,
          mintedSum_emit, burnedSum_emit]
        change supply.toNat + (before.burnedSum + 0 + amount.toNat) + 0 +
          before.mintedSum = before.totalSupply.toNat +
            before.burnedSum + (before.mintedSum + 0 + 0)
        omega

theorem step_burn (solvent : before.Solvent) {sender : Address}
    {value : Uint256}
    (returned : ERC20Burnable.burn before sender value = .ok after) :
    Step (.burn value) before after := by
  obtain ⟨balances, supply, rfl, held, shrunk⟩ :=
    burn_of_solvent solvent returned
  refine Step.of_plain rfl rfl ⟨_, rfl, ?_⟩ shrunk held
  intro event member
  cases List.mem_singleton.mp member
  exact ⟨rfl, rfl⟩

theorem step_burnFrom (solvent : before.Solvent)
    {sender account : Address} {value : Uint256}
    (returned : ERC20Burnable.burnFrom before sender account value =
      .ok after) :
    Step (.burnFrom account value) before after := by
  obtain ⟨between, spent, burned⟩ := ok_of_bind returned
  obtain ⟨allowances, rfl⟩ := spendAllowance_of_ok spent
  obtain ⟨balances, supply, rfl, held, shrunk⟩ :=
    @burn_of_solvent { before with allowances := allowances } _ _ _
      solvent burned
  refine Step.of_plain rfl rfl ⟨_, rfl, ?_⟩ shrunk held
  intro event member
  cases List.mem_singleton.mp member
  exact ⟨rfl, rfl⟩

theorem step_transfer (solvent : before.Solvent)
    {sender receiver : Address} {value : Uint256}
    (returned : ERC20.transfer before sender receiver value =
      .ok after) :
    Step (.transfer receiver value) before after := by
  obtain ⟨balances, rfl, held⟩ :=
    internalTransfer_of_solvent solvent returned
  refine Step.of_plain rfl rfl ⟨_, rfl, ?_⟩ rfl held
  intro event member
  cases List.mem_singleton.mp member
  exact ⟨rfl, rfl⟩

theorem step_transferFrom (solvent : before.Solvent)
    {sender holder receiver : Address} {value : Uint256}
    (returned : ERC20.transferFrom before sender holder receiver value =
      .ok after) :
    Step (.transferFrom holder receiver value) before after := by
  obtain ⟨between, spent, moved⟩ := ok_of_bind returned
  obtain ⟨allowances, rfl⟩ := spendAllowance_of_ok spent
  obtain ⟨balances, rfl, held⟩ :=
    @internalTransfer_of_solvent
      { before with allowances := allowances } _ _ _ _ solvent moved
  refine Step.of_plain rfl rfl ⟨_, rfl, ?_⟩ rfl held
  intro event member
  cases List.mem_singleton.mp member
  exact ⟨rfl, rfl⟩

theorem step_approve (solvent : before.Solvent)
    {sender spender : Address} {value : Uint256}
    (returned : ERC20.approve before sender spender value = .ok after) :
    Step (.approve spender value) before after := by
  obtain ⟨allowances, rfl⟩ := internalApprove_of_ok returned
  refine Step.of_plain rfl rfl ⟨_, rfl, ?_⟩ rfl solvent
  intro event member
  cases List.mem_singleton.mp member
  exact ⟨rfl, rfl⟩

private theorem step_internalTransferOwnership
    (anonymous : call.reference? = none) (nothing : call.holderBurn = 0)
    (solvent : before.Solvent) (newOwner : Address) :
    Step call before
      (Ownable.internalTransferOwnership before newOwner) := by
  refine Step.of_plain anonymous rfl ⟨_, rfl, ?_⟩ ?_ solvent
  · intro event member
    cases List.mem_singleton.mp member
    exact ⟨rfl, rfl⟩
  · rw [nothing, add_zero]
    rfl

theorem step_transferOwnership (solvent : before.Solvent)
    {sender newOwner : Address}
    (returned : Ownable.transferOwnership before sender newOwner =
      .ok after) :
    Step (.transferOwnership newOwner) before after := by
  have unguarded := ok_of_onlyOwner returned
  split at unguarded
  · cases unguarded
  · cases unguarded
    exact step_internalTransferOwnership rfl rfl solvent newOwner

theorem step_renounceOwnership (solvent : before.Solvent)
    {sender : Address}
    (returned : Ownable.renounceOwnership before sender = .ok after) :
    Step .renounceOwnership before after := by
  cases ok_of_onlyOwner returned
  exact step_internalTransferOwnership rfl rfl solvent 0

/-- Every successful transaction is one step. -/
theorem step_of_execute (solvent : before.Solvent)
    {transaction : Transaction}
    (returned : execute before transaction = .ok after) :
    Step transaction.call before after := by
  obtain ⟨sender, call⟩ := transaction
  cases call with
  | mint receiver amount txReference =>
      exact step_mint solvent returned
  | burnWithReference holder amount txReference =>
      exact step_burnWithReference solvent returned
  | burn value =>
      exact step_burn solvent returned
  | burnFrom account value =>
      exact step_burnFrom solvent returned
  | transfer receiver value =>
      exact step_transfer solvent returned
  | approve spender value =>
      exact step_approve solvent returned
  | transferFrom holder receiver value =>
      exact step_transferFrom solvent returned
  | transferOwnership newOwner =>
      exact step_transferOwnership solvent returned
  | renounceOwnership =>
      exact step_renounceOwnership solvent returned

end Steps

/-! ## The life of the contract -/

namespace Life

/-- The references of the successful mints and burns, in order. -/
def references (life : Life) : List Bytes32 :=
  life.log.filterMap fun executed =>
    if executed.revert = none then executed.transaction.call.reference?
    else none

def holderBurns (life : Life) : ℕ :=
  (life.log.map fun executed =>
    if executed.revert = none then executed.transaction.call.holderBurn
    else 0).sum

/-- References are used once and for all, and all supply is accounted
for. -/
structure Accounted (life : Life) : Prop where
  once : life.references.Nodup
  used : ∀ txReference,
    isReferenceUsed life.contract txReference = true ↔
      txReference ∈ life.references
  supply : (life.contract.totalSupply.toNat : ℤ) =
    life.contract.mintedSum - life.contract.burnedSum - life.holderBurns
  balances : life.contract.totalSupply.toNat =
    ∑ account, (life.contract.balances account).toNat
  reverted : ∀ executed ∈ life.log, executed.revert ≠ none →
    executed.after = executed.before

/-- One more transaction keeps the accounts. -/
theorem Accounted.next {life : Life} (accounted : life.Accounted)
    (transaction : Transaction) : (life.next transaction).Accounted := by
  obtain ⟨once, used, supply, balances, reverted⟩ := accounted
  unfold Life.next
  cases returned : execute life.contract transaction with
  | error revert =>
      have references : (⟨life.log ++ [⟨transaction, life.contract,
          some revert, life.contract⟩], life.contract⟩ : Life).references =
            life.references := by
        simp [Life.references]
      have burns : (⟨life.log ++ [⟨transaction, life.contract,
          some revert, life.contract⟩], life.contract⟩ : Life).holderBurns =
            life.holderBurns := by
        simp [Life.holderBurns]
      refine ⟨references ▸ once, references ▸ used, burns ▸ supply,
        balances, ?_⟩
      intro executed member failed
      rcases List.mem_append.mp member with old | new
      · exact reverted executed old failed
      · cases List.mem_singleton.mp new
        rfl
  | ok after =>
      have solvent : life.contract.Solvent := balances.symm
      obtain ⟨fresh, marked, moved, solventAfter⟩ :=
        step_of_execute solvent returned
      have references : (⟨life.log ++ [⟨transaction, life.contract,
          none, after⟩], after⟩ : Life).references =
            life.references ++ transaction.call.reference?.toList := by
        cases named : transaction.call.reference? with
        | none =>
            simp [Life.references, named]
        | some txReference =>
            simp [Life.references, named]
      have burns : (⟨life.log ++ [⟨transaction, life.contract,
          none, after⟩], after⟩ : Life).holderBurns =
            life.holderBurns + transaction.call.holderBurn := by
        simp [Life.holderBurns]
      refine ⟨?_, ?_, ?_, solventAfter.symm, ?_⟩
      · rw [references]
        refine List.nodup_append.mpr ⟨once, ?_, ?_⟩
        · cases transaction.call.reference? with
          | none =>
              exact List.nodup_nil
          | some txReference =>
              exact List.nodup_singleton txReference
        · intro tested seen named new equal
          subst equal
          have isNamed := Option.mem_toList.mp new
          have unused := fresh tested isNamed
          rw [← used] at seen
          exact absurd (unused.symm.trans seen) Bool.false_ne_true
      · intro tested
        rw [references, List.mem_append, ← used, Option.mem_toList]
        exact marked tested
      · rw [burns]
        change (after.totalSupply.toNat : ℤ) =
          after.mintedSum - after.burnedSum - _
        push_cast
        omega
      · intro executed member failed
        rcases List.mem_append.mp member with old | new
        · exact reverted executed old failed
        · cases List.mem_singleton.mp new
          exact absurd rfl failed

end Life

/-- Over the whole life of the contract references are used once, and the
supply is what was minted less what was burned. -/
theorem references_used_once (deployer : Address) (contract : Contract)
    (deployed : deploy deployer = .ok contract)
    (transactions : List Transaction) :
    (Life.of contract transactions).Accounted := by
  induction transactions using List.reverseRecOn with
  | nil =>
      unfold deploy at deployed
      simp only at deployed
      split at deployed
      · cases deployed
      · cases deployed
        refine ⟨List.nodup_nil, ?_, rfl, total_zero.symm, ?_⟩
        · intro txReference
          exact ⟨nofun, nofun⟩
        · intro executed member
          cases member
  | append_singleton transactions transaction inductionHypothesis =>
      unfold Life.of
      rw [List.foldl_append]
      exact inductionHypothesis.next transaction

/-- A mint, a burn under the same reference, a burn by the holder, and a mint
after the ownership is gone. -/
def knownTransactions : List Transaction :=
  [⟨1, .mint 2 100 7⟩, ⟨1, .burnWithReference 2 40 7⟩, ⟨2, .burn 30⟩,
    ⟨1, .renounceOwnership⟩, ⟨1, .mint 2 5 8⟩]

theorem knownTransactions_accounted :
    ∃ contract, deploy 1 = .ok contract ∧
      (Life.of contract knownTransactions).Accounted :=
  ⟨_, rfl, references_used_once 1 _ rfl knownTransactions⟩

example :
    (match deploy 1 with
    | .ok contract =>
        (Life.of contract knownTransactions).log.map Executed.revert
    | .error _ => []) =
      [none, some (.message "Reference already used"), none, none,
        some (.ownableUnauthorizedAccount 1)] := by
  decide +kernel

end ArosParadigm.ReserveManager

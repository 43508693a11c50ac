import ArosParadigm.Library.Deployment
import Mathlib.Algebra.BigOperators.Finsupp.Basic
import Mathlib.Algebra.Order.BigOperators.Group.Finset

/-!
# Registers without locks

Threads that read an amount, add to it and write the sum back lose each
other's additions when they interleave. They invent nothing: if each thread
adds no more than it has paid into a fund, then all registers together never
hold more than the fund, in whatever order the threads take their steps and
wherever they are cut off.
-/

namespace Await

/-- How calls use amounts that are kept under keys, and a fund. -/
structure Register (signature : Signature) (Key : Type) where
  /-- The key and the amount that an answered call has read. -/
  reads : Exchange signature → Option (Key × ℚ)
  /-- The key and the amount that a call writes. -/
  writes : signature.Call → Option (Key × ℚ)
  /-- What a call pays into the fund. -/
  pays : signature.Call → ℚ

namespace Register

variable {signature : Signature} {Key : Type}

section Threads

variable [DecidableEq Key] (register : Register signature Key)

/-- What a thread has last read under a key. -/
def known (key : Key) : List (Exchange signature) → ℚ
  | [] => 0
  | exchange :: past =>
      match register.reads exchange with
      | some (other, amount) => if other = key then amount else known key past
      | none => known key past

/-- What a call writes beyond what its thread has read. -/
def added (past : List (Exchange signature)) (request : signature.Call) :
    ℚ :=
  match register.writes request with
  | some (key, new) => new - register.known key past
  | none => 0

/-- What a thread has paid and not yet added. -/
def unspent : List (Exchange signature) → ℚ
  | [] => 0
  | exchange :: past =>
      unspent past + register.pays exchange.request -
        register.added past exchange.request

/-- A call pays nothing negative and adds only what its thread has left. -/
structure Affords (past : List (Exchange signature))
    (request : signature.Call) : Prop where
  pays : 0 ≤ register.pays request
  adds : 0 ≤ register.added past request
  covered : 0 < register.added past request →
    register.added past request ≤ register.unspent past

variable {register} {past : List (Exchange signature)}
variable {request : signature.Call} {key : Key} {known : ℚ}

theorem known_of_reads {exchange : Exchange signature}
    (reads : register.reads exchange = some (key, known)) :
    register.known key (exchange :: past) = known := by
  simp only [Register.known, reads, if_true]

theorem known_of_unread {exchange : Exchange signature}
    (unread : register.reads exchange = none) :
    register.known key (exchange :: past) = register.known key past := by
  simp only [Register.known, unread]

theorem known_cases (key : Key) (exchange : Exchange signature)
    (past : List (Exchange signature)) :
    register.known key (exchange :: past) = register.known key past ∨
      register.reads exchange =
        some (key, register.known key (exchange :: past)) := by
  cases reads : register.reads exchange with
  | none =>
      exact Or.inl (known_of_unread reads)
  | some read =>
      obtain ⟨other, amount⟩ := read
      by_cases same : other = key
      · subst same
        exact Or.inr (by rw [known_of_reads reads])
      · left
        simp only [Register.known, reads, if_neg same]

theorem added_of_idle (idle : register.writes request = none) :
    register.added past request = 0 := by
  simp only [added, idle]

theorem added_of_writes {new : ℚ}
    (writes : register.writes request = some (key, new)) :
    register.added past request = new - register.known key past := by
  simp only [added, writes]

/-- A call that pays and writes nothing. -/
theorem affords_of_idle (nothing : register.pays request = 0)
    (idle : register.writes request = none) :
    register.Affords past request := by
  have adds : register.added past request = 0 := added_of_idle idle
  exact ⟨nothing.ge, adds.ge, fun positive => absurd adds positive.ne'⟩

theorem unspent_of_idle (nothing : register.pays request = 0)
    (idle : register.writes request = none)
    (reply : signature.Reply request) :
    register.unspent (⟨request, reply⟩ :: past) =
      register.unspent past := by
  change register.unspent past + register.pays request -
    register.added past request = _
  rw [nothing, added_of_idle idle, add_zero, sub_zero]

/-- No thread adds more than it has paid. -/
theorem Affords.unspent_nonneg (affords : register.Affords past request)
    (before : 0 ≤ register.unspent past)
    (reply : signature.Reply request) :
    0 ≤ register.unspent (⟨request, reply⟩ :: past) := by
  change 0 ≤ register.unspent past + register.pays request -
    register.added past request
  have pays := affords.pays
  rcases affords.adds.eq_or_lt with nothing | positive
  · rw [← nothing]
    linarith
  · have covered := affords.covered positive
    linarith

end Threads

end Register

/-! ## All amounts together -/

/-- The amounts and the fund in the state of a system. -/
structure Vault {signature : Signature} {error result state Key : Type}
    (system : System signature error result state)
    (register : Register signature Key) where
  amount : state → Key → ℚ
  fund : state → ℚ
  told : ∀ request now reply after,
    system.machine request now = some (reply, after) →
      ∀ key known, register.reads ⟨request, reply⟩ = some (key, known) →
        amount now key = known
  idle : ∀ request now reply after,
    system.machine request now = some (reply, after) →
      register.writes request = none → amount after = amount now
  written : ∀ request now reply after,
    system.machine request now = some (reply, after) →
      ∀ key new, register.writes request = some (key, new) →
        amount after key = new ∧
          ∀ other, other ≠ key → amount after other = amount now other
  paid : ∀ request now reply after,
    system.machine request now = some (reply, after) →
      fund after = fund now + register.pays request
  breaks : ∀ request now after, system.broken request now after →
    amount after = amount now ∧ fund after = fund now
  restarts : ∀ now, amount (system.restart now) = amount now ∧
    fund (system.restart now) = fund now

namespace Vault

variable {signature : Signature} {error result state Key : Type}
variable {system : System signature error result state}
variable {register : Register signature Key}

section Funded

variable [DecidableEq Key] {vault : Vault system register}
variable {pool : Pool signature error result state} {credits : Key →₀ ℚ}

/-- What has ever been added under each key covers its amount and all that
threads still know of it, and the fund covers this together with what threads
have left. -/
structure Funded (vault : Vault system register)
    (pool : Pool signature error result state) (credits : Key →₀ ℚ) :
    Prop where
  amounts : ∀ key, 0 ≤ vault.amount pool.state key ∧
    vault.amount pool.state key ≤ credits key
  known : ∀ thread ∈ pool.threads, ∀ key,
    0 ≤ register.known key thread.past ∧
      register.known key thread.past ≤ credits key
  unspent : ∀ thread ∈ pool.threads, 0 ≤ register.unspent thread.past
  total : (credits.sum fun _ credit => credit) +
      (pool.threads.map fun thread =>
        register.unspent thread.past).sum ≤ vault.fund pool.state

private theorem exists_addition {past : List (Exchange signature)}
    {request : signature.Call} {now after : state}
    {reply : signature.Reply request}
    (answered : system.machine request now = some (reply, after))
    (affords : register.Affords past request)
    (amounts : ∀ key, 0 ≤ vault.amount now key ∧
      vault.amount now key ≤ credits key)
    (known : ∀ key, 0 ≤ register.known key past ∧
      register.known key past ≤ credits key) :
    ∃ extra : Key →₀ ℚ, (∀ key, 0 ≤ extra key) ∧
      (extra.sum fun _ credit => credit) = register.added past request ∧
      ∀ key, 0 ≤ vault.amount after key ∧
        vault.amount after key ≤ credits key + extra key := by
  cases writes : register.writes request with
  | none =>
      refine ⟨0, fun _ => le_rfl, ?_, fun key => ?_⟩
      · rw [Finsupp.sum_zero_index, Register.added_of_idle writes]
      · rw [vault.idle _ _ _ _ answered writes, Finsupp.coe_zero,
          Pi.zero_apply, add_zero]
        exact amounts key
  | some write =>
      obtain ⟨key, new⟩ := write
      obtain ⟨stored, others⟩ :=
        vault.written _ _ _ _ answered key new writes
      have adds := affords.adds
      have isAdded : register.added past request =
          new - register.known key past := Register.added_of_writes writes
      refine ⟨Finsupp.single key (register.added past request),
        fun other => ?_, Finsupp.sum_single_index rfl, fun other => ?_⟩
      · by_cases same : key = other
        · rw [same, Finsupp.single_eq_same]
          exact adds
        · rw [Finsupp.single_eq_of_ne' same]
      · by_cases same : other = key
        · rw [same, stored, Finsupp.single_eq_same]
          obtain ⟨isNonneg, bounded⟩ := known key
          constructor <;> linarith
        · rw [others other same, Finsupp.single_eq_of_ne same, add_zero]
          exact amounts other

private theorem Funded.set (funded : Funded vault pool credits)
    {index : ℕ} {thread : Thread signature error result}
    (found : pool.threads[index]? = some thread)
    {moved : Thread signature error result} {after : state}
    {extra : Key →₀ ℚ} (positive : ∀ key, 0 ≤ extra key)
    (amounts : ∀ key, 0 ≤ vault.amount after key ∧
      vault.amount after key ≤ credits key + extra key)
    (known : ∀ key, 0 ≤ register.known key moved.past ∧
      register.known key moved.past ≤ credits key)
    (unspent : 0 ≤ register.unspent moved.past)
    (spends : register.unspent moved.past +
        (extra.sum fun _ credit => credit) =
      register.unspent thread.past +
        (vault.fund after - vault.fund pool.state)) :
    Funded vault ⟨after, pool.threads.set index moved⟩
      (credits + extra) := by
  constructor
  case amounts =>
    exact amounts
  case known =>
    intro other member key
    have more := positive key
    rw [Finsupp.add_apply]
    rcases List.mem_or_eq_of_mem_set member with earlier | rfl
    · obtain ⟨isNonneg, bounded⟩ := funded.known other earlier key
      exact ⟨isNonneg, by linarith⟩
    · obtain ⟨isNonneg, bounded⟩ := known key
      exact ⟨isNonneg, by linarith⟩
  case unspent =>
    intro other member
    rcases List.mem_or_eq_of_mem_set member with earlier | rfl
    · exact funded.unspent other earlier
    · exact unspent
  case total =>
    have added : ((credits + extra).sum fun _ credit => credit) =
        (credits.sum fun _ credit => credit) +
          extra.sum fun _ credit => credit :=
      Finsupp.sum_add_index' (fun _ => rfl) fun _ _ _ => rfl
    have before := funded.total
    have threads := Journal.sum_map_set_add
      (fun thread => register.unspent thread.past) found moved
    simp only at threads ⊢
    linarith

/-- One step of a thread. -/
theorem Funded.advance (funded : Funded vault pool credits)
    (affords : ∀ thread ∈ pool.threads, ∀ request next rejected,
      thread.rest = .call request next rejected →
        register.Affords thread.past request)
    {next : Pool signature error result state}
    (advances : system.Advances pool next) :
    ∃ credits, Funded vault next credits := by
  cases advances with
  | @answer index past request next rejected reply after found answered =>
      have isThread := List.mem_of_getElem? found
      have allowed := affords _ isThread request next rejected rfl
      have knownBefore := funded.known _ isThread
      obtain ⟨extra, positive, sum, amounts⟩ := exists_addition answered
        allowed funded.amounts knownBefore
      refine ⟨credits + extra, funded.set found positive amounts ?_ ?_ ?_⟩
      · intro key
        rcases Register.known_cases key ⟨request, reply⟩ past with same | reads
        · rw [same]
          exact knownBefore key
        · rw [← vault.told _ _ _ _ answered key _ reads]
          exact funded.amounts key
      · exact allowed.unspent_nonneg (funded.unspent _ isThread) reply
      · rw [sum, vault.paid _ _ _ _ answered]
        simp only [Register.unspent]
        ring
  | @reject index past request next rejected after found broke =>
      have isThread := List.mem_of_getElem? found
      obtain ⟨sameAmount, sameFund⟩ := vault.breaks _ _ _ broke
      have knownBefore := funded.known _ isThread
      have unspentBefore := funded.unspent _ isThread
      refine ⟨credits + 0, funded.set found (fun _ => le_rfl) ?_
        knownBefore unspentBefore ?_⟩
      · intro key
        rw [sameAmount, Finsupp.coe_zero, Pi.zero_apply, add_zero]
        exact funded.amounts key
      · rw [Finsupp.sum_zero_index, sameFund, sub_self]

variable {start : state} {post : result → List (Exchange signature) → Prop}
variable {premise : List (Exchange signature) → Prop}

/-- The registers stay covered, as long as the programs add what they have
paid, given what their threads have been told. -/
theorem exists_funded (empty : ∀ key, vault.amount start key = 0)
    (solvent : 0 ≤ vault.fund start)
    (admitted : ∀ program, system.admitted program →
      Obeys (fun past request => premise past →
        register.Affords past request) post program [])
    (premises : ∀ pool, system.Reachable start pool →
      ∀ thread ∈ pool.threads, premise thread.past)
    (reachable : system.Reachable start pool) :
    ∃ credits, Funded vault pool credits := by
  induction reachable with
  | refl =>
      refine ⟨0, ?_, nofun, nofun, ?_⟩
      · intro key
        exact ⟨(empty key).ge, (empty key).le⟩
      · rw [Finsupp.sum_zero_index]
        simpa using solvent
  | @tail earlier later before operates inductionHypothesis =>
      obtain ⟨credits, funded⟩ := inductionHypothesis
      cases operates with
      | arrive isAdmitted =>
          refine ⟨credits, funded.amounts, ?_, ?_, ?_⟩
          · intro thread member key
            rcases List.mem_append.mp member with old | last
            · exact funded.known thread old key
            · rw [List.mem_singleton.mp last]
              obtain ⟨isNonneg, bounded⟩ := funded.amounts key
              exact ⟨le_rfl, isNonneg.trans bounded⟩
          · intro thread member
            rcases List.mem_append.mp member with old | last
            · exact funded.unspent thread old
            · rw [List.mem_singleton.mp last]
              exact le_rfl
          · simpa [Register.unspent] using funded.total
      | advance advances =>
          refine funded.advance ?_ advances
          intro thread member request next rejected awaits
          have obeys :=
            System.Reachable.obeys admitted before thread member
          rw [awaits] at obeys
          exact obeys.1 (premises earlier before thread member)
      | restart =>
          obtain ⟨sameAmount, sameFund⟩ := vault.restarts earlier.state
          refine ⟨credits, ?_, nofun, nofun, ?_⟩
          · intro key
            change 0 ≤ vault.amount (system.restart earlier.state) key ∧
              vault.amount (system.restart earlier.state) key ≤ _
            rw [sameAmount]
            exact funded.amounts key
          · change _ + 0 ≤ vault.fund (system.restart earlier.state)
            rw [sameFund, add_zero]
            refine le_trans ?_ funded.total
            refine le_add_of_nonneg_right (List.sum_nonneg ?_)
            intro left member
            obtain ⟨thread, isThread, rfl⟩ := List.mem_map.mp member
            exact funded.unspent thread isThread

theorem Funded.sum_amount_le (funded : Funded vault pool credits)
    {keys : List Key} (unique : keys.Nodup) :
    (keys.map (vault.amount pool.state)).sum ≤
      vault.fund pool.state := by
  have positive : ∀ key, 0 ≤ credits key := fun key =>
    (funded.amounts key).1.trans (funded.amounts key).2
  have covered : (keys.map (vault.amount pool.state)).sum ≤
      (keys.map credits).sum :=
    List.sum_le_sum fun key _ => (funded.amounts key).2
  have counted : (keys.map credits).sum ≤
      credits.sum fun _ credit => credit := by
    have isSubset : credits.support ⊆ credits.support ∪ keys.toFinset :=
      Finset.subset_union_left
    rw [← List.sum_toFinset _ unique,
      Finsupp.sum_of_support_subset credits isSubset _ fun _ _ => rfl]
    exact Finset.sum_le_sum_of_subset_of_nonneg
      Finset.subset_union_right fun key _ _ => positive key
  have left : 0 ≤ (pool.threads.map fun thread =>
      register.unspent thread.past).sum := by
    refine List.sum_nonneg fun amount member => ?_
    obtain ⟨thread, isThread, rfl⟩ := List.mem_map.mp member
    exact funded.unspent thread isThread
  have total := funded.total
  linarith

theorem Funded.amount_le (funded : Funded vault pool credits) (key : Key) :
    vault.amount pool.state key ≤ vault.fund pool.state := by
  have covered := funded.sum_amount_le (List.nodup_singleton key)
  rwa [List.map_singleton, List.sum_singleton] at covered

end Funded

theorem read_nonneg {vault : Vault system register} {start : state}
    {pool : Pool signature error result state}
    (positive : ∀ pool, system.Reachable start pool →
      ∀ key, 0 ≤ vault.amount pool.state key)
    (reachable : system.Reachable start pool) :
    ∀ thread ∈ pool.threads, ∀ exchange ∈ thread.past, ∀ key known,
      register.reads exchange = some (key, known) → 0 ≤ known := by
  refine @System.Reachable.forall_threads _ _ _ _ system start pool
    (fun thread => ∀ exchange ∈ thread.past, ∀ key known,
      register.reads exchange = some (key, known) → 0 ≤ known)
    ?_ ?_ ?_ reachable
  · exact fun _ _ _ member => nomatch member
  · rintro past request next rejected now reply after
      ⟨earlier, reached, rfl⟩ before answered exchange member key known reads
    rcases List.mem_cons.mp member with rfl | old
    · rw [← vault.told _ _ _ _ answered key known reads]
      exact positive earlier reached key
    · exact before exchange old key known reads
  · exact fun _ _ _ _ before => before

end Vault

end Await

import Mathlib.Algebra.BigOperators.Group.Finset.Piecewise
import Mathlib.Algebra.Order.BigOperators.Group.Finset
import Mathlib.Data.ENat.Basic
import Mathlib.Data.Fintype.BigOperators

/-!
# Tokens

The book of a token in natural numbers: what every account holds, and what
every holder allows others to spend. Entries are posted one after another, and
one that is not covered is refused. The state of the book is read off its
entries.
-/

namespace Token

variable {Account : Type*}

/-- One entry of the book of a token. -/
inductive Entry (Account : Type*) where
  | issue (receiver : Account) (value : ℕ)
  | redeem (holder : Account) (value : ℕ)
  | move (sender receiver : Account) (value : ℕ)
  | allow (holder spender : Account) (limit : ℕ∞)
  | spend (holder spender : Account) (value : ℕ)

/-- What accounts hold, and what their holders allow others to spend. An
allowance of `⊤` is never used up. -/
@[ext]
structure Book (Account : Type*) where
  held : Account → ℕ
  allowed : Account → Account → ℕ∞

namespace Book

/-- The book of a new token. -/
def empty : Book Account :=
  ⟨fun _ => 0, fun _ _ => 0⟩

/-- What all accounts hold. -/
def supply [Fintype Account] (book : Book Account) : ℕ :=
  ∑ account, book.held account

theorem held_le_supply [Fintype Account] (book : Book Account)
    (account : Account) : book.held account ≤ book.supply :=
  Finset.single_le_sum (f := book.held) (fun _ _ => Nat.zero_le _)
    (Finset.mem_univ account)

variable [DecidableEq Account]

/-- The book with another amount on one account. -/
def hold (book : Book Account) (account : Account) (value : ℕ) :
    Book Account :=
  { book with held := Function.update book.held account value }

/-- The book with another allowance. -/
def permit (book : Book Account) (holder spender : Account)
    (limit : ℕ∞) : Book Account :=
  { book with
    allowed := Function.update book.allowed holder
      (Function.update (book.allowed holder) spender limit) }

/-- Take a value from an account, if it is there. -/
def take (book : Book Account) (account : Account) (value : ℕ) :
    Option (Book Account) :=
  if value ≤ book.held account then
    some (book.hold account (book.held account - value))
  else
    none

/-- Give a value to an account. -/
def give (book : Book Account) (account : Account) (value : ℕ) :
    Book Account :=
  book.hold account (book.held account + value)

/-- Use up a part of an allowance, if it is there. -/
def spend (book : Book Account) (holder spender : Account)
    (value : ℕ) : Option (Book Account) :=
  if value ≤ book.allowed holder spender then
    some (book.permit holder spender (book.allowed holder spender - value))
  else
    none

def post (book : Book Account) : Entry Account → Option (Book Account)
  | .issue receiver value => some (book.give receiver value)
  | .redeem holder value => book.take holder value
  | .move sender receiver value =>
      (book.take sender value).map fun taken => taken.give receiver value
  | .allow holder spender limit => some (book.permit holder spender limit)
  | .spend holder spender value => book.spend holder spender value

/-- Post entries one after another, all or none. -/
def postAll (book : Book Account) (entries : List (Entry Account)) :
    Option (Book Account) :=
  entries.foldlM post book

@[simp]
theorem held_hold (book : Book Account) (account tested : Account)
    (value : ℕ) :
    (book.hold account value).held tested =
      if tested = account then value else book.held tested :=
  Function.update_apply _ _ _ _

@[simp]
theorem allowed_hold (book : Book Account) (account : Account)
    (value : ℕ) : (book.hold account value).allowed = book.allowed :=
  rfl

@[simp]
theorem held_permit (book : Book Account) (holder spender : Account)
    (limit : ℕ∞) : (book.permit holder spender limit).held = book.held :=
  rfl

theorem allowed_permit (book : Book Account)
    (holder spender otherHolder otherSpender : Account) (limit : ℕ∞) :
    (book.permit holder spender limit).allowed otherHolder otherSpender =
      if otherHolder = holder ∧ otherSpender = spender then limit
      else book.allowed otherHolder otherSpender := by
  unfold permit
  by_cases sameHolder : otherHolder = holder
  · subst sameHolder
    by_cases sameSpender : otherSpender = spender
    · subst sameSpender
      simp
    · simp [sameSpender]
  · simp [sameHolder]

@[simp]
theorem postAll_singleton (book : Book Account)
    (entry : Entry Account) : book.postAll [entry] = book.post entry := by
  simp [postAll]

theorem postAll_pair (book : Book Account)
    (first second : Entry Account) :
    book.postAll [first, second] =
      (book.post first).bind fun between => between.post second := by
  simp [postAll]

theorem postAll_append (book : Book Account)
    (first second : List (Entry Account)) :
    book.postAll (first ++ second) =
      (book.postAll first).bind fun between => between.postAll second :=
  List.foldlM_append

end Book

section Amounts

variable [DecidableEq Account]

def Entry.received (account : Account) : Entry Account → ℕ
  | .issue receiver value => if account = receiver then value else 0
  | .move _ receiver value => if account = receiver then value else 0
  | _ => 0

/-- What an account gives away by an entry. -/
def Entry.sent (account : Account) : Entry Account → ℕ
  | .redeem holder value => if account = holder then value else 0
  | .move sender _ value => if account = sender then value else 0
  | _ => 0

def Entry.issued : Entry Account → ℕ
  | .issue _ value => value
  | _ => 0

def Entry.redeemed : Entry Account → ℕ
  | .redeem _ value => value
  | _ => 0

/-- What an account receives by entries. -/
def received (account : Account) (entries : List (Entry Account)) : ℕ :=
  (entries.map (Entry.received account)).sum

/-- What an account gives away by entries. -/
def sent (account : Account) (entries : List (Entry Account)) : ℕ :=
  (entries.map (Entry.sent account)).sum

def issued (entries : List (Entry Account)) : ℕ :=
  (entries.map Entry.issued).sum

def redeemed (entries : List (Entry Account)) : ℕ :=
  (entries.map Entry.redeemed).sum

/-- The limit that a holder has last set for a spender, and what has been
spent of it. -/
structure Grant where
  limit : ℕ∞
  spent : ℕ

/-- A grant after one more entry. -/
def Grant.next (holder spender : Account) (grant : Grant) :
    Entry Account → Grant
  | .allow otherHolder otherSpender limit =>
      if holder = otherHolder ∧ spender = otherSpender then ⟨limit, 0⟩
      else grant
  | .spend otherHolder otherSpender value =>
      if holder = otherHolder ∧ spender = otherSpender then
        ⟨grant.limit, grant.spent + value⟩
      else grant
  | _ => grant

/-- The grant of a holder to a spender by entries. -/
def grantOf (holder spender : Account) (entries : List (Entry Account)) :
    Grant :=
  entries.foldl (Grant.next holder spender) ⟨0, 0⟩

end Amounts

section Unspent

/-- The entry uses up an allowance. -/
def Entry.isSpend : Entry Account → Bool
  | .spend _ _ _ => true
  | _ => false

/-- The entries that change what somebody holds or may spend at most. -/
def unspent (entries : List (Entry Account)) : List (Entry Account) :=
  entries.filter fun entry => !entry.isSpend

theorem unspent_append (first second : List (Entry Account)) :
    unspent (first ++ second) = unspent first ++ unspent second :=
  List.filter_append _ _

private theorem sum_unspent (amount : Entry Account → ℕ)
    (nothing : ∀ entry, entry.isSpend = true → amount entry = 0)
    (entries : List (Entry Account)) :
    ((unspent entries).map amount).sum = (entries.map amount).sum := by
  induction entries with
  | nil =>
      rfl
  | cons entry rest inductionHypothesis =>
      unfold unspent at inductionHypothesis ⊢
      by_cases isSpend : entry.isSpend = true
      · simp [isSpend, inductionHypothesis, nothing entry isSpend]
      · simp [isSpend, inductionHypothesis]

theorem issued_unspent (entries : List (Entry Account)) :
    issued (unspent entries) = issued entries :=
  sum_unspent _ (fun entry _ => by cases entry <;> trivial) entries

theorem redeemed_unspent (entries : List (Entry Account)) :
    redeemed (unspent entries) = redeemed entries :=
  sum_unspent _ (fun entry _ => by cases entry <;> trivial) entries

variable [DecidableEq Account]

theorem received_unspent (account : Account)
    (entries : List (Entry Account)) :
    received account (unspent entries) = received account entries :=
  sum_unspent _ (fun entry _ => by cases entry <;> trivial) entries

theorem sent_unspent (account : Account)
    (entries : List (Entry Account)) :
    sent account (unspent entries) = sent account entries :=
  sum_unspent _ (fun entry _ => by cases entry <;> trivial) entries

theorem limit_unspent (holder spender : Account)
    (entries : List (Entry Account)) :
    (grantOf holder spender (unspent entries)).limit =
      (grantOf holder spender entries).limit := by
  have run : ∀ one other : Grant, one.limit = other.limit →
      ((unspent entries).foldl (Grant.next holder spender) one).limit =
        (entries.foldl (Grant.next holder spender) other).limit := by
    induction entries with
    | nil =>
        exact fun _ _ same => same
    | cons entry rest inductionHypothesis =>
        intro one other same
        cases entry with
        | spend otherHolder otherSpender value =>
            apply inductionHypothesis
            unfold Grant.next
            by_cases isPair :
              holder = otherHolder ∧ spender = otherSpender
            · simpa only [if_pos isPair] using same
            · simpa only [if_neg isPair] using same
        | allow otherHolder otherSpender limit =>
            apply inductionHypothesis
            unfold Grant.next
            by_cases isPair :
              holder = otherHolder ∧ spender = otherSpender
            · simp only [if_pos isPair]
            · simpa only [if_neg isPair] using same
        | issue _ _ =>
            exact inductionHypothesis one other same
        | redeem _ _ =>
            exact inductionHypothesis one other same
        | move _ _ _ =>
            exact inductionHypothesis one other same
  exact run _ _ rfl

end Unspent

/-! ## Posting entries -/

namespace Book

variable [DecidableEq Account] {book after : Book Account}
variable {entry : Entry Account} {entries : List (Entry Account)}

theorem take_eq_some {account : Account} {value : ℕ} :
    book.take account value = some after ↔
      value ≤ book.held account ∧
        after = book.hold account (book.held account - value) := by
  unfold take
  by_cases covered : value ≤ book.held account
  · simp [covered, eq_comm]
  · simp [covered]

theorem spend_eq_some {holder spender : Account} {value : ℕ} :
    book.spend holder spender value = some after ↔
      (value : ℕ∞) ≤ book.allowed holder spender ∧
        after = book.permit holder spender
          (book.allowed holder spender - value) := by
  unfold spend
  by_cases covered : (value : ℕ∞) ≤ book.allowed holder spender
  · simp [covered, eq_comm]
  · simp [covered]

/-- An entry changes a holding by what is received and sent. -/
theorem held_post (posted : book.post entry = some after)
    (account : Account) :
    after.held account + entry.sent account =
      book.held account + entry.received account := by
  cases entry with
  | issue receiver value =>
      cases posted
      by_cases isReceiver : account = receiver
      · subst isReceiver
        simp [give, Entry.sent, Entry.received]
      · simp [give, Entry.sent, Entry.received, isReceiver]
  | redeem holder value =>
      obtain ⟨covered, rfl⟩ := take_eq_some.mp posted
      by_cases isHolder : account = holder
      · subst isHolder
        simp [Entry.sent, Entry.received, covered]
      · simp [Entry.sent, Entry.received, isHolder]
  | move sender receiver value =>
      obtain ⟨taken, isTaken, rfl⟩ := Option.map_eq_some_iff.mp posted
      obtain ⟨covered, rfl⟩ := take_eq_some.mp isTaken
      by_cases isSender : account = sender
      · subst isSender
        by_cases isReceiver : account = receiver
        · subst isReceiver
          simp [give, Entry.sent, Entry.received, covered]
        · simp [give, Entry.sent, Entry.received, isReceiver, covered]
      · by_cases isReceiver : account = receiver
        · subst isReceiver
          simp [give, Entry.sent, Entry.received, isSender]
        · simp [give, Entry.sent, Entry.received, isReceiver, isSender]
  | allow holder spender limit =>
      cases posted
      simp [Entry.sent, Entry.received]
  | spend holder spender value =>
      obtain ⟨_, rfl⟩ := spend_eq_some.mp posted
      simp [Entry.sent, Entry.received]

/-- Entries change a holding by what is received and sent. -/
theorem held_postAll (posted : book.postAll entries = some after)
    (account : Account) :
    after.held account + sent account entries =
      book.held account + received account entries := by
  induction entries generalizing book with
  | nil =>
      cases posted
      rfl
  | cons entry rest inductionHypothesis =>
      obtain ⟨between, first, later⟩ := Option.bind_eq_some_iff.mp posted
      have step := held_post first account
      have run := inductionHypothesis later
      simp only [sent, received, List.map_cons, List.sum_cons] at run ⊢
      omega

/-- A grant says what is allowed. -/
def Grants (book : Book Account) (holder spender : Account)
    (grant : Grant) : Prop :=
  book.allowed holder spender + grant.spent = grant.limit

theorem Grants.post {holder spender : Account} {grant : Grant}
    (grants : book.Grants holder spender grant)
    (posted : book.post entry = some after) :
    after.Grants holder spender (grant.next holder spender entry) := by
  unfold Grants at grants ⊢
  cases entry with
  | issue receiver value =>
      cases posted
      exact grants
  | redeem _ value =>
      obtain ⟨_, rfl⟩ := take_eq_some.mp posted
      exact grants
  | move sender receiver value =>
      obtain ⟨taken, isTaken, rfl⟩ := Option.map_eq_some_iff.mp posted
      obtain ⟨_, rfl⟩ := take_eq_some.mp isTaken
      exact grants
  | allow otherHolder otherSpender limit =>
      cases posted
      rw [allowed_permit]
      by_cases same : holder = otherHolder ∧ spender = otherSpender
      · simp [Grant.next, same]
      · simpa only [Grant.next, if_neg same] using grants
  | spend otherHolder otherSpender value =>
      obtain ⟨covered, rfl⟩ := spend_eq_some.mp posted
      rw [allowed_permit]
      by_cases same : holder = otherHolder ∧ spender = otherSpender
      · obtain ⟨rfl, rfl⟩ := same
        have whole := tsub_add_cancel_of_le covered
        simp only [Grant.next, and_self, if_true]
        rw [← grants, Nat.cast_add, add_comm (grant.spent : ℕ∞),
          ← add_assoc, whole]
      · simpa only [Grant.next, if_neg same] using grants

/-- Entries leave what is granted and not yet spent. -/
theorem Grants.postAll {holder spender : Account} {grant : Grant}
    (grants : book.Grants holder spender grant)
    (posted : book.postAll entries = some after) :
    after.Grants holder spender
      (entries.foldl (Grant.next holder spender) grant) := by
  induction entries generalizing book grant with
  | nil =>
      cases posted
      exact grants
  | cons entry rest inductionHypothesis =>
      obtain ⟨between, first, later⟩ := Option.bind_eq_some_iff.mp posted
      exact inductionHypothesis (grants.post first) later

/-- Entries leave an allowance, less what is spent, or a newer one. -/
theorem allowed_postAll (posted : book.postAll entries = some after)
    (holder spender : Account) {limit : ℕ∞} {spent : ℕ}
    (grant : entries.foldl (Grant.next holder spender)
      ⟨book.allowed holder spender, 0⟩ = ⟨limit, spent⟩) :
    after.allowed holder spender + spent = limit := by
  have grants : book.Grants holder spender
      ⟨book.allowed holder spender, 0⟩ := by
    simp [Grants]
  have later := grants.postAll posted
  rw [grant] at later
  exact later

/-- From a new token on. -/
theorem grants_of_postAll (posted : empty.postAll entries = some after)
    (holder spender : Account) :
    after.allowed holder spender + (grantOf holder spender entries).spent =
      (grantOf holder spender entries).limit :=
  allowed_postAll posted holder spender rfl

variable [Fintype Account]

theorem supply_hold (book : Book Account) (account : Account)
    (value : ℕ) :
    (book.hold account value).supply + book.held account =
      book.supply + value := by
  have whole := Finset.add_sum_erase Finset.univ book.held
    (Finset.mem_univ account)
  unfold supply hold
  rw [Finset.sum_update_of_mem (Finset.mem_univ account),
    Finset.sdiff_singleton_eq_erase, ← whole]
  omega

theorem supply_take {account : Account} {value : ℕ}
    (taken : book.take account value = some after) :
    after.supply + value = book.supply := by
  obtain ⟨covered, rfl⟩ := take_eq_some.mp taken
  have changed := supply_hold book account (book.held account - value)
  omega

theorem supply_give (book : Book Account) (account : Account)
    (value : ℕ) : (book.give account value).supply = book.supply + value := by
  have changed := supply_hold book account (book.held account + value)
  unfold give
  omega

/-- An entry changes the supply by what is issued and redeemed. -/
theorem supply_post (posted : book.post entry = some after) :
    after.supply + entry.redeemed = book.supply + entry.issued := by
  cases entry with
  | issue receiver value =>
      cases posted
      exact supply_give book receiver value
  | redeem holder value =>
      exact supply_take posted
  | move sender receiver value =>
      obtain ⟨taken, isTaken, rfl⟩ := Option.map_eq_some_iff.mp posted
      have less := supply_take isTaken
      have more := supply_give taken receiver value
      simp only [Entry.redeemed, Entry.issued]
      omega
  | allow holder spender limit =>
      cases posted
      rfl
  | spend holder spender value =>
      obtain ⟨_, rfl⟩ := spend_eq_some.mp posted
      rfl

/-- Entries change the supply by what is issued and redeemed. -/
theorem supply_postAll (posted : book.postAll entries = some after) :
    after.supply + redeemed entries = book.supply + issued entries := by
  induction entries generalizing book with
  | nil =>
      cases posted
      rfl
  | cons entry rest inductionHypothesis =>
      obtain ⟨between, first, later⟩ := Option.bind_eq_some_iff.mp posted
      have step := supply_post first
      have run := inductionHypothesis later
      simp only [redeemed, issued, List.map_cons, List.sum_cons] at run ⊢
      omega

end Book

end Token

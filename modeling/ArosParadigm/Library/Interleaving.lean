import ArosParadigm.Library.Program
import Mathlib.Algebra.BigOperators.Group.Finset.Basic

/-!
# Interleaved programs

A pool runs several programs on one state. A move answers the awaited call of
one thread, as one atomic step, or rejects it. Every thread remembers the
calls that were answered to it.

Programs are verified one at a time against a contract: what a thread may
assume of the steps of the others (`rely`) and what each of its own steps
ensures (`guarantee`). A ghost value goes along with every thread; when each
step leaves the sum of a measure of the state and the ghost of its thread as it
was, the sum of the measure and all ghosts is the same in every reachable pool.
-/

namespace Await

/-- An answered call. -/
structure Exchange (signature : Signature) where
  request : signature.Call
  reply : signature.Reply request

/-- A program in execution, with its answered calls, the latest first. -/
structure Thread (signature : Signature) (error result : Type) where
  past : List (Exchange signature)
  rest : Program signature error result

/-- Threads over one state. -/
structure Pool (signature : Signature) (error result state : Type) where
  state : state
  threads : List (Thread signature error result)

/-- Which thread goes on, and whether its call is answered or rejected. -/
inductive Move where
  | answer (index : ℕ)
  | reject (index : ℕ)
  deriving DecidableEq

namespace Pool

variable {signature : Signature} {error result state : Type}

/-- The threads of programs that have not started. -/
def fresh (start : state)
    (programs : List (Program signature error result)) :
    Pool signature error result state :=
  ⟨start, programs.map fun program => ⟨[], program⟩⟩

/-- One move; `none` when the thread awaits nothing or has to wait. -/
def move (machine : Machine signature state)
    (pool : Pool signature error result state) :
    Move → Option (Pool signature error result state)
  | .answer index =>
      match pool.threads[index]? with
      | some ⟨past, .call request next _⟩ =>
          match machine request pool.state with
          | some (reply, after) =>
              some ⟨after, pool.threads.set index
                ⟨⟨request, reply⟩ :: past, next reply⟩⟩
          | none => none
      | _ => none
  | .reject index =>
      match pool.threads[index]? with
      | some ⟨past, .call _ _ rejected⟩ =>
          some ⟨pool.state, pool.threads.set index ⟨past, rejected⟩⟩
      | _ => none

def Returned (pool : Pool signature error result state) : Prop :=
  ∀ thread ∈ pool.threads, ∃ value, thread.rest = .done value

instance (thread : Thread signature error result) :
    Decidable (∃ value, thread.rest = .done value) :=
  match thread with
  | ⟨_, .done value⟩ => .isTrue ⟨value, rfl⟩
  | ⟨_, .fail _⟩ => .isFalse fun ⟨_, same⟩ => nomatch same
  | ⟨_, .call ..⟩ => .isFalse fun ⟨_, same⟩ => nomatch same

instance (pool : Pool signature error result state) :
    Decidable pool.Returned :=
  inferInstanceAs (Decidable
    (∀ thread ∈ pool.threads, ∃ value, thread.rest = .done value))

/-- The moves of a schedule, as far as they are permitted and possible. -/
def play (machine : Machine signature state)
    (permitted : Pool signature error result state → Move → Prop)
    [∀ pool, DecidablePred (permitted pool)] :
    List Move → Pool signature error result state →
      Pool signature error result state
  | [], pool => pool
  | move :: rest, pool =>
      play machine permitted rest
        (if permitted pool move then (pool.move machine move).getD pool
        else pool)

theorem exists_of_move_answer {machine : Machine signature state}
    {pool next : Pool signature error result state} {index : ℕ}
    (moved : pool.move machine (.answer index) = some next) :
    ∃ past request nextOf rejected reply after,
      pool.threads[index]? =
          some ⟨past, .call request nextOf rejected⟩ ∧
        machine request pool.state = some (reply, after) ∧
        next = ⟨after, pool.threads.set index
          ⟨⟨request, reply⟩ :: past, nextOf reply⟩⟩ := by
  simp only [move] at moved
  split at moved
  · next past request nextOf rejected found =>
      split at moved
      · next reply after answered =>
          cases moved
          exact ⟨past, request, nextOf, rejected, reply, after, found,
            answered, rfl⟩
      · cases moved
  · cases moved

theorem exists_of_move_reject {machine : Machine signature state}
    {pool next : Pool signature error result state} {index : ℕ}
    (moved : pool.move machine (.reject index) = some next) :
    ∃ past request nextOf rejected,
      pool.threads[index]? =
          some ⟨past, .call request nextOf rejected⟩ ∧
        next = ⟨pool.state, pool.threads.set index ⟨past, rejected⟩⟩ := by
  simp only [move] at moved
  split at moved
  · next past request nextOf rejected found =>
      cases moved
      exact ⟨past, request, nextOf, rejected, found, rfl⟩
  · cases moved

theorem getElem?_set_cases {threads : List (Thread signature error result)}
    {index other : ℕ} {moved thread : Thread signature error result}
    (found : (threads.set index moved)[other]? = some thread) :
    (other = index ∧ thread = moved) ∨
      (other ≠ index ∧ threads[other]? = some thread) := by
  by_cases same : index = other
  · subst same
    rw [List.getElem?_set_self'] at found
    left
    obtain ⟨_, _, rfl⟩ := Option.map_eq_some_iff.mp found
    exact ⟨rfl, rfl⟩
  · rw [List.getElem?_set_ne same] at found
    exact Or.inr ⟨Ne.symm same, found⟩

section Set

variable {threads : List (Thread signature error result)}
variable {property : ℕ → Thread signature error result → Prop}
variable {index worker : ℕ} {moved : Thread signature error result}

theorem forall_set
    (others : ∀ other thread, other ≠ index →
      threads[other]? = some thread → property other thread)
    (new : property index moved) :
    ∀ other thread, (threads.set index moved)[other]? = some thread →
      property other thread := by
  intro other thread found
  rcases getElem?_set_cases found with ⟨rfl, rfl⟩ | ⟨different, earlier⟩
  · exact new
  · exact others other thread different earlier

theorem forall_set_self
    (others : ∀ other thread, other ≠ index →
      threads[other]? = some thread → property other thread) :
    ∀ other thread, other ≠ index →
      (threads.set index moved)[other]? = some thread →
        property other thread := by
  intro other thread different found
  rw [List.getElem?_set_ne (Ne.symm different)] at found
  exact others other thread different found

theorem forall_set_other
    (others : ∀ other thread, other ≠ worker →
      threads[other]? = some thread → property other thread)
    (new : property index moved) :
    ∀ other thread, other ≠ worker →
      (threads.set index moved)[other]? = some thread →
        property other thread := by
  intro other thread different found
  rcases getElem?_set_cases found with ⟨rfl, rfl⟩ | ⟨_, earlier⟩
  · exact new
  · exact others other thread different earlier

theorem forall_fresh {start : state}
    {programs : List (Program signature error result)}
    {stage : Thread signature error result → Prop}
    (each : ∀ program ∈ programs, stage ⟨[], program⟩) :
    ∀ (index : ℕ) (thread : Thread signature error result),
      (fresh start programs).threads[index]? = some thread →
        stage thread := by
  intro index thread found
  rw [fresh, List.getElem?_map, Option.map_eq_some_iff] at found
  obtain ⟨program, present, rfl⟩ := found
  exact each program (List.mem_of_getElem? present)

end Set

end Pool

/-- The pools that permitted moves lead to. -/
inductive Reaches {signature : Signature} {error result state : Type}
    (machine : Machine signature state)
    (permitted : Pool signature error result state → Move → Prop)
    (start : Pool signature error result state) :
    Pool signature error result state → Prop
  | refl : Reaches machine permitted start start
  | tail {pool next : Pool signature error result state} (move : Move)
      (earlier : Reaches machine permitted start pool)
      (allowed : permitted pool move)
      (moved : pool.move machine move = some next) :
      Reaches machine permitted start next

/-- The pools that permitted moves lead to, with the moves made so far. -/
inductive Follows {signature : Signature} {error result state : Type}
    (machine : Machine signature state)
    (permitted : Pool signature error result state → Move → Prop)
    (start : Pool signature error result state) :
    List Move → Pool signature error result state → Prop
  | refl : Follows machine permitted start [] start
  | tail {moves : List Move}
      {pool next : Pool signature error result state} (move : Move)
      (earlier : Follows machine permitted start moves pool)
      (allowed : permitted pool move)
      (moved : pool.move machine move = some next) :
      Follows machine permitted start (moves ++ [move]) next

section Schedules

variable {signature : Signature} {error result state : Type}
variable {machine : Machine signature state}

theorem reaches_play
    {permitted : Pool signature error result state → Move → Prop}
    [∀ pool, DecidablePred (permitted pool)] (moves : List Move)
    {start pool : Pool signature error result state}
    (reached : Reaches machine permitted start pool) :
    Reaches machine permitted start
      (pool.play machine permitted moves) := by
  induction moves generalizing pool with
  | nil =>
      exact reached
  | cons move rest inductionHypothesis =>
      rw [Pool.play]
      split
      · next allowed =>
          cases moved : pool.move machine move with
          | none =>
              exact inductionHypothesis reached
          | some next =>
              exact inductionHypothesis
                (.tail move reached allowed moved)
      · exact inductionHypothesis reached

end Schedules

/-- What a thread may assume and what it has to ensure. -/
structure Contract (signature : Signature) (state ghost : Type) where
  /-- When a call may be answered, given the calls answered before. -/
  permitted : state → List (Exchange signature) → signature.Call → Prop
  /-- What the other threads may do meanwhile. -/
  rely : state → state → Prop
  rely_refl : ∀ now, rely now now
  rely_trans : ∀ {first second third}, rely first second →
    rely second third → rely first third
  /-- What an answered call does to the state and to the ghost. -/
  guarantee : signature.Call → ghost → state → ghost → state → Prop

section Safety

variable {signature : Signature} {error result middle state ghost : Type}

/-- From `start` on the program keeps its contract whatever the others do, and
when it returns the postcondition holds from then on. -/
def Safe (machine : Machine signature state) (invariant : state → Prop)
    (contract : Contract signature state ghost)
    (post : result → List (Exchange signature) → ghost → state → Prop) :
    Program signature error result → List (Exchange signature) →
      ghost → state → Prop
  | .done value, past, owed, start =>
      ∀ now, invariant now → contract.rely start now →
        post value past owed now
  | .fail _, _, _, _ => True
  | .call request next rejected, past, owed, start =>
      ∀ now, invariant now → contract.rely start now →
        (contract.permitted now past request →
          ∀ reply after, machine request now = some (reply, after) →
            invariant after ∧
              ∃ left, contract.guarantee request owed now left after ∧
                Safe machine invariant contract post (next reply)
                  (⟨request, reply⟩ :: past) left after) ∧
        Safe machine invariant contract post rejected past owed now

variable {machine : Machine signature state} {invariant : state → Prop}
variable {contract : Contract signature state ghost}
variable {post :
  result → List (Exchange signature) → ghost → state → Prop}

theorem Safe.later {program : Program signature error result}
    {past : List (Exchange signature)} {owed : ghost} {start now : state}
    (safe : Safe machine invariant contract post program past owed start)
    (relied : contract.rely start now) :
    Safe machine invariant contract post program past owed now := by
  cases program with
  | done value =>
      intro later holds onward
      exact safe later holds (contract.rely_trans relied onward)
  | fail reason =>
      trivial
  | call request next rejected =>
      intro later holds onward
      exact safe later holds (contract.rely_trans relied onward)

/-- A sequence is safe when its second part is safe where the first part
returns. -/
theorem Safe.bind {program : Program signature error middle}
    {continuation : middle → Program signature error result}
    {past : List (Exchange signature)} {owed : ghost} {start : state}
    (safe : Safe machine invariant contract
      (fun value past owed now => Safe machine invariant contract post
        (continuation value) past owed now) program past owed start)
    (holds : invariant start) :
    Safe machine invariant contract post (program >>= continuation) past
      owed start := by
  induction program generalizing past owed start with
  | done value =>
      exact safe start holds (contract.rely_refl start)
  | fail reason =>
      trivial
  | call request next rejected nextHypothesis rejectedHypothesis =>
      intro now holdsNow relied
      obtain ⟨answered, otherwise⟩ := safe now holdsNow relied
      refine ⟨?_, rejectedHypothesis otherwise holdsNow⟩
      intro permitted reply after answer
      obtain ⟨holdsAfter, left, ensured, onward⟩ :=
        answered permitted reply after answer
      exact ⟨holdsAfter, left, ensured,
        nextHypothesis reply onward holdsAfter⟩

theorem Safe.weaken {weaker :
      result → List (Exchange signature) → ghost → state → Prop}
    {program : Program signature error result}
    {past : List (Exchange signature)} {owed : ghost} {start : state}
    (safe : Safe machine invariant contract post program past owed start)
    (implies : ∀ value past owed now, invariant now →
      post value past owed now → weaker value past owed now) :
    Safe machine invariant contract weaker program past owed start := by
  induction program generalizing past owed start with
  | done value =>
      intro now holds relied
      exact implies _ _ _ _ holds (safe now holds relied)
  | fail reason =>
      trivial
  | call request next rejected nextHypothesis rejectedHypothesis =>
      intro now holds relied
      obtain ⟨answered, otherwise⟩ := safe now holds relied
      refine ⟨?_, rejectedHypothesis otherwise⟩
      intro permitted reply after answer
      obtain ⟨holdsAfter, left, ensured, onward⟩ :=
        answered permitted reply after answer
      exact ⟨holdsAfter, left, ensured, nextHypothesis reply onward⟩

/-- A call with its continuation is safe when the call keeps the contract and
the continuation is safe after it. -/
theorem Safe.perform_bind {request : signature.Call} {reason : error}
    {continuation :
      signature.Reply request → Program signature error result}
    {past : List (Exchange signature)} {owed : ghost} {start : state}
    (step : ∀ now, invariant now → contract.rely start now →
      contract.permitted now past request →
      ∀ reply after, machine request now = some (reply, after) →
        invariant after ∧
          ∃ left, contract.guarantee request owed now left after ∧
            Safe machine invariant contract post (continuation reply)
              (⟨request, reply⟩ :: past) left after) :
    Safe machine invariant contract post
      (Program.perform reason request >>= continuation) past owed
      start := by
  intro now holds relied
  exact ⟨step now holds relied, trivial⟩

end Safety

/-! ## Soundness -/

section Soundness

variable {signature : Signature} {error result state ghost : Type}

/-- Every thread of the pool is safe under its own contract. -/
structure Pool.Secure (machine : Machine signature state)
    (invariant : state → Prop)
    (contract : ℕ → Contract signature state ghost)
    (post :
      ℕ → result → List (Exchange signature) → ghost → state → Prop)
    (owed : ℕ → ghost) (pool : Pool signature error result state) :
    Prop where
  holds : invariant pool.state
  safe : ∀ index thread, pool.threads[index]? = some thread →
    Safe machine invariant (contract index) (post index) thread.rest
      thread.past (owed index) pool.state

/-- What a move does under the contracts of `count` threads: nothing to the
state, or one ensured step of one thread. -/
inductive Ensured (contract : ℕ → Contract signature state ghost)
    (count : ℕ) (owed : ℕ → ghost) (before : state) (left : ℕ → ghost)
    (after : state) : Prop
  | rejected (same : after = before) (kept : left = owed)
  | answered (index : ℕ) (request : signature.Call)
      (bound : index < count)
      (ensured : (contract index).guarantee request (owed index) before
        (left index) after)
      (kept : ∀ other, other ≠ index → left other = owed other)

variable {machine : Machine signature state} {invariant : state → Prop}
variable {contract : ℕ → Contract signature state ghost}
variable {post :
  ℕ → result → List (Exchange signature) → ghost → state → Prop}

/-- The condition on moves that the contracts state. -/
def Pool.Permitted (contract : ℕ → Contract signature state ghost)
    (pool : Pool signature error result state) : Move → Prop
  | .answer index =>
      ∀ past request next rejected,
        pool.threads[index]? =
          some ⟨past, Program.call request next rejected⟩ →
        (contract index).permitted pool.state past request
  | .reject _ => True

theorem Pool.secure_fresh {owed : ℕ → ghost} {start : state}
    {programs : List (Program signature error result)}
    (holds : invariant start)
    (safe : ∀ index program, programs[index]? = some program →
      Safe machine invariant (contract index) (post index) program []
        (owed index) start) :
    (Pool.fresh start programs).Secure machine invariant contract post
      owed := by
  refine ⟨holds, ?_⟩
  intro index thread found
  simp only [Pool.fresh, List.getElem?_map, Option.map_eq_some_iff]
    at found
  obtain ⟨program, isProgram, rfl⟩ := found
  exact safe index program isProgram

theorem Pool.Secure.step {owed : ℕ → ghost}
    {pool : Pool signature error result state}
    (secure : pool.Secure machine invariant contract post owed)
    {index : ℕ} {past : List (Exchange signature)}
    {request : signature.Call}
    {next : signature.Reply request → Program signature error result}
    {rejected : Program signature error result}
    (awaits : pool.threads[index]? =
      some ⟨past, .call request next rejected⟩)
    (permitted : (contract index).permitted pool.state past request)
    {reply : signature.Reply request} {after : state}
    (answered : machine request pool.state = some (reply, after)) :
    ∃ left, (contract index).guarantee request (owed index) pool.state
      left after := by
  obtain ⟨step, _⟩ := secure.safe index _ awaits pool.state secure.holds
    ((contract index).rely_refl _)
  obtain ⟨_, left, ensured, _⟩ := step permitted reply after answered
  exact ⟨left, ensured⟩

/-- The steps of one of `count` threads are within what the others rely
on. -/
def Compatible (count : ℕ) (invariant : state → Prop)
    (contract : ℕ → Contract signature state ghost) : Prop :=
  ∀ index other request owed before left after, other ≠ index →
    index < count → other < count →
    invariant before → invariant after →
    (contract index).guarantee request owed before left after →
    (contract other).rely before after

/-- The step lemma: a permitted move of a secure pool is ensured and leads to
a secure pool. -/
theorem Pool.Secure.move {owed : ℕ → ghost}
    {pool next : Pool signature error result state} {move : Move}
    (compatible :
      Compatible pool.threads.length invariant contract)
    (secure : pool.Secure machine invariant contract post owed)
    (allowed : pool.Permitted contract move)
    (moved : pool.move machine move = some next) :
    ∃ left, Ensured contract pool.threads.length owed pool.state left
        next.state ∧
      next.Secure machine invariant contract post left ∧
      next.threads.length = pool.threads.length := by
  obtain ⟨holds, safe⟩ := secure
  cases move with
  | answer index =>
      obtain ⟨past, request, nextOf, rejected, reply, after, found,
        answer, rfl⟩ := exists_of_move_answer moved
      obtain ⟨step, _⟩ := safe index _ found pool.state holds
        ((contract index).rely_refl _)
      obtain ⟨holdsAfter, left, ensured, onward⟩ :=
        step (allowed _ _ _ _ found) reply after answer
      obtain ⟨bound, _⟩ := List.getElem?_eq_some_iff.mp found
      refine ⟨Function.update owed index left,
        .answered index request bound ?_ ?_, ⟨holdsAfter, ?_⟩, by simp⟩
      · simpa using ensured
      · intro other different
        exact Function.update_of_ne different _ _
      · intro other thread present
        rcases getElem?_set_cases present with
          ⟨rfl, rfl⟩ | ⟨different, present⟩
        · simpa using onward
        · rw [Function.update_of_ne different]
          obtain ⟨otherBound, _⟩ :=
            List.getElem?_eq_some_iff.mp present
          exact (safe other thread present).later
            (compatible index other request _ _ _ _ different bound
              otherBound holds holdsAfter ensured)
  | reject index =>
      obtain ⟨past, request, nextOf, rejected, found, rfl⟩ :=
        exists_of_move_reject moved
      obtain ⟨_, otherwise⟩ := safe index _ found pool.state holds
        ((contract index).rely_refl _)
      refine ⟨owed, .rejected rfl rfl, ⟨holds, ?_⟩, by simp⟩
      intro other thread present
      rcases getElem?_set_cases present with
        ⟨rfl, rfl⟩ | ⟨_, present⟩
      · exact otherwise
      · exact safe other thread present

/-- The run lemma: permitted moves lead to secure pools. -/
theorem Pool.Secure.reaches {owed : ℕ → ghost}
    {start pool : Pool signature error result state}
    (compatible : Compatible start.threads.length invariant contract)
    {permitted : Pool signature error result state → Move → Prop}
    (respects : ∀ pool move, permitted pool move →
      pool.Permitted contract move)
    (secure : start.Secure machine invariant contract post owed)
    (reached : Reaches machine permitted start pool) :
    ∃ left, pool.Secure machine invariant contract post left ∧
      pool.threads.length = start.threads.length := by
  induction reached with
  | refl =>
      exact ⟨owed, secure, rfl⟩
  | tail move _ allowed moved inductionHypothesis =>
      obtain ⟨left, secureBefore, length⟩ := inductionHypothesis
      obtain ⟨after, _, secureAfter, sameLength⟩ :=
        secureBefore.move (length ▸ compatible) (respects _ _ allowed)
          moved
      exact ⟨after, secureAfter, sameLength.trans length⟩

/-- A relation that every step ensures holds between a secure pool and the
pools that permitted moves lead to. -/
theorem Pool.Secure.related {owed : ℕ → ghost}
    {start pool : Pool signature error result state}
    (compatible : Compatible start.threads.length invariant contract)
    {relation : state → state → Prop} (related_refl : ∀ now, relation now now)
    (related_trans : ∀ {first second third}, relation first second →
      relation second third → relation first third)
    (ensures : ∀ index request owed before left after,
      (contract index).guarantee request owed before left after →
        relation before after)
    {permitted : Pool signature error result state → Move → Prop}
    (respects : ∀ pool move, permitted pool move →
      pool.Permitted contract move)
    (secure : start.Secure machine invariant contract post owed)
    (reached : Reaches machine permitted start pool) :
    relation start.state pool.state := by
  induction reached with
  | refl =>
      exact related_refl _
  | tail move earlier allowed moved inductionHypothesis =>
      obtain ⟨left, secureBefore, length⟩ :=
        secure.reaches compatible respects earlier
      obtain ⟨_, ensured, _, _⟩ := secureBefore.move
        (length ▸ compatible) (respects _ _ allowed) moved
      cases ensured with
      | rejected same _ =>
          rw [same]
          exact inductionHypothesis
      | answered index request _ ensured _ =>
          exact related_trans inductionHypothesis
            (ensures index request _ _ _ _ ensured)

theorem Pool.Secure.post_of_returned {owed : ℕ → ghost}
    {pool : Pool signature error result state}
    (secure : pool.Secure machine invariant contract post owed)
    (returned : pool.Returned) {index : ℕ}
    (bound : index < pool.threads.length) :
    ∃ value past, post index value past (owed index) pool.state := by
  obtain ⟨holds, safe⟩ := secure
  have found : pool.threads[index]? = some pool.threads[index] :=
    List.getElem?_eq_getElem bound
  obtain ⟨value, done⟩ :=
    returned pool.threads[index] (List.getElem_mem bound)
  have safeNow := safe index _ found
  rw [done] at safeNow
  exact ⟨value, _,
    safeNow pool.state holds ((contract index).rely_refl _)⟩

section Conservation

variable [AddCommMonoid ghost]

/-- Every step moves from what its thread owes into the measure. -/
def Conserves (contract : ℕ → Contract signature state ghost)
    (measure : state → ghost) : Prop :=
  ∀ index request owed before left after,
    (contract index).guarantee request owed before left after →
      measure after + left = measure before + owed

theorem Ensured.conserved {measure : state → ghost}
    (conserves : Conserves contract measure) {owed left : ℕ → ghost}
    {before after : state} {count : ℕ}
    (ensured : Ensured contract count owed before left after) :
    measure after + ∑ index ∈ Finset.range count, left index =
      measure before + ∑ index ∈ Finset.range count, owed index := by
  cases ensured with
  | rejected same kept =>
      rw [same, kept]
  | answered index request bound ensured kept =>
      have member : index ∈ Finset.range count :=
        Finset.mem_range.mpr bound
      have others : ∑ other ∈ (Finset.range count).erase index,
          left other =
          ∑ other ∈ (Finset.range count).erase index, owed other :=
        Finset.sum_congr rfl fun other inside =>
          kept other (Finset.ne_of_mem_erase inside)
      rw [← Finset.add_sum_erase _ left member,
        ← Finset.add_sum_erase _ owed member, others, ← add_assoc,
        ← add_assoc, conserves _ _ _ _ _ _ ensured]

theorem Pool.Secure.conserved {owed : ℕ → ghost}
    {start pool : Pool signature error result state}
    (compatible : Compatible start.threads.length invariant contract)
    {measure : state → ghost} (conserves : Conserves contract measure)
    {permitted : Pool signature error result state → Move → Prop}
    (respects : ∀ pool move, permitted pool move →
      pool.Permitted contract move)
    (secure : start.Secure machine invariant contract post owed)
    (reached : Reaches machine permitted start pool) :
    ∃ left, pool.Secure machine invariant contract post left ∧
      pool.threads.length = start.threads.length ∧
      measure pool.state +
          ∑ index ∈ Finset.range start.threads.length, left index =
        measure start.state +
          ∑ index ∈ Finset.range start.threads.length, owed index := by
  induction reached with
  | refl =>
      exact ⟨owed, secure, rfl, rfl⟩
  | tail move _ allowed moved inductionHypothesis =>
      obtain ⟨left, secureBefore, length, balance⟩ := inductionHypothesis
      obtain ⟨after, ensured, secureAfter, sameLength⟩ :=
        secureBefore.move (length ▸ compatible) (respects _ _ allowed)
          moved
      rw [length] at ensured
      exact ⟨after, secureAfter, sameLength.trans length,
        (ensured.conserved conserves).trans balance⟩

end Conservation

end Soundness

end Await

import ArosParadigm.Library.Interleaving
import Mathlib.Algebra.BigOperators.Group.Multiset.Basic
import Mathlib.Algebra.Order.BigOperators.Group.List
import Mathlib.Algebra.Order.BigOperators.Group.Multiset
import Mathlib.Algebra.Order.Field.Rat
import Mathlib.Data.Multiset.AddSub
import Mathlib.Logic.Relation
import Mathlib.Tactic.Linarith
import Mathlib.Tactic.Ring

/-!
# Deployed systems

A deployed system takes calls at any time: a call starts a thread, the threads
take their steps in any order, the store may reject a step, and a restart
drops every thread in the middle of its work. Three kinds of invariants of
such a system are proved once: what holds of the state, what holds of the
replies that the threads have seen, and what the threads have written to a
journal that nobody else shortens.
-/

namespace Await

/-- A store that may reject calls and be restarted, and the programs that it
is asked to run. -/
structure System (signature : Signature) (error result state : Type) where
  machine : Machine signature state
  /-- What a rejected call can leave behind. -/
  broken : signature.Call → state → state → Prop
  restart : state → state
  admitted : Program signature error result → Prop

namespace System

variable {signature : Signature} {error result state item : Type}

/-- A step of one thread. -/
inductive Advances (system : System signature error result state) :
    Pool signature error result state →
      Pool signature error result state → Prop
  | answer {pool : Pool signature error result state} {index : ℕ}
      {past : List (Exchange signature)} {request : signature.Call}
      {next : signature.Reply request → Program signature error result}
      {rejected : Program signature error result}
      {reply : signature.Reply request} {after : state}
      (found : pool.threads[index]? =
        some ⟨past, .call request next rejected⟩)
      (answered : system.machine request pool.state =
        some (reply, after)) :
      Advances system pool ⟨after, pool.threads.set index
        ⟨⟨request, reply⟩ :: past, next reply⟩⟩
  | reject {pool : Pool signature error result state} {index : ℕ}
      {past : List (Exchange signature)} {request : signature.Call}
      {next : signature.Reply request → Program signature error result}
      {rejected : Program signature error result} {after : state}
      (found : pool.threads[index]? =
        some ⟨past, .call request next rejected⟩)
      (breaks : system.broken request pool.state after) :
      Advances system pool
        ⟨after, pool.threads.set index ⟨past, rejected⟩⟩

/-- A step of the system: a call comes in, a thread goes on, or everything is
restarted. -/
inductive Operates (system : System signature error result state) :
    Pool signature error result state →
      Pool signature error result state → Prop
  | arrive {pool : Pool signature error result state}
      {program : Program signature error result}
      (admitted : system.admitted program) :
      Operates system pool ⟨pool.state, pool.threads ++ [⟨[], program⟩]⟩
  | advance {pool next : Pool signature error result state}
      (advances : system.Advances pool next) : Operates system pool next
  | restart {pool : Pool signature error result state} :
      Operates system pool ⟨system.restart pool.state, []⟩

/-- The pools that a system comes to from a state without threads. -/
def Reachable (system : System signature error result state)
    (start : state) : Pool signature error result state → Prop :=
  Relation.ReflTransGen system.Operates ⟨start, []⟩

variable {system : System signature error result state} {start : state}
variable {pool : Pool signature error result state}

private theorem forall_threads_set
    {property : Thread signature error result → Prop}
    {threads : List (Thread signature error result)} {index : ℕ}
    {moved : Thread signature error result}
    (each : ∀ thread ∈ threads, property thread) (new : property moved) :
    ∀ thread ∈ threads.set index moved, property thread := by
  intro thread member
  rcases List.mem_or_eq_of_mem_set member with earlier | rfl
  · exact each thread earlier
  · exact new

namespace Reachable

/-- Rule for the threads: what holds of an admitted program, and is kept by
the steps of its own thread, holds of every thread. -/
theorem forall_threads
    {property : Thread signature error result → Prop}
    (fresh : ∀ program, system.admitted program →
      property ⟨[], program⟩)
    (answers : ∀ past request next rejected now reply after,
      (∃ pool, system.Reachable start pool ∧ pool.state = now) →
      property ⟨past, .call request next rejected⟩ →
      system.machine request now = some (reply, after) →
        property ⟨⟨request, reply⟩ :: past, next reply⟩)
    (rejects : ∀ past request next rejected,
      property ⟨past, .call request next rejected⟩ →
        property ⟨past, rejected⟩)
    (reachable : system.Reachable start pool) :
    ∀ thread ∈ pool.threads, property thread := by
  induction reachable with
  | refl =>
      exact nofun
  | tail reachable operates inductionHypothesis =>
      cases operates with
      | arrive admitted =>
          intro thread member
          rcases List.mem_append.mp member with earlier | last
          · exact inductionHypothesis thread earlier
          · rw [List.mem_singleton.mp last]
            exact fresh _ admitted
      | advance advances =>
          cases advances with
          | answer found answered =>
              have before :=
                inductionHypothesis _ (List.mem_of_getElem? found)
              exact forall_threads_set inductionHypothesis
                (answers _ _ _ _ _ _ _ ⟨_, reachable, rfl⟩ before answered)
          | reject found broke =>
              have before :=
                inductionHypothesis _ (List.mem_of_getElem? found)
              exact forall_threads_set inductionHypothesis
                (rejects _ _ _ _ before)
      | restart =>
          exact nofun

/-- A thread may go on whenever its call is answered. -/
theorem answers {index : ℕ} {next : Pool signature error result state}
    (moved : pool.move system.machine (.answer index) = some next)
    (reachable : system.Reachable start pool) :
    system.Reachable start next := by
  obtain ⟨past, request, nextOf, rejected, reply, after, found, answered,
    rfl⟩ := Pool.exists_of_move_answer moved
  exact .tail reachable (.advance (.answer found answered))

/-- A call may be rejected without a trace where that is possible. -/
theorem rejects {index : ℕ} {next : Pool signature error result state}
    (moved : pool.move system.machine (.reject index) = some next)
    (broken : ∀ thread request nextOf rejected,
      pool.threads[index]? = some thread →
        thread.rest = .call request nextOf rejected →
          system.broken request pool.state pool.state)
    (reachable : system.Reachable start pool) :
    system.Reachable start next := by
  obtain ⟨past, request, nextOf, rejected, found, rfl⟩ :=
    Pool.exists_of_move_reject moved
  exact .tail reachable
    (.advance (.reject found (broken _ _ _ _ found rfl)))

end Reachable

end System

section Obeys

variable {signature : Signature} {error result middle state : Type}

/-- However its calls are answered, the program makes only calls that the
calls answered before permit, the latest first, and returns with the
postcondition of its result and of these calls. -/
def Obeys (permitted : List (Exchange signature) → signature.Call → Prop)
    (post : result → List (Exchange signature) → Prop) :
    Program signature error result → List (Exchange signature) → Prop
  | .done value, past => post value past
  | .fail _, _ => True
  | .call request next rejected, past =>
      permitted past request ∧
        (∀ reply,
          Obeys permitted post (next reply) (⟨request, reply⟩ :: past)) ∧
        Obeys permitted post rejected past

variable {permitted : List (Exchange signature) → signature.Call → Prop}
variable {post weaker : result → List (Exchange signature) → Prop}
variable {past : List (Exchange signature)}

theorem Obeys.weaken {program : Program signature error result}
    (obeys : Obeys permitted post program past)
    (implies : ∀ value past, post value past → weaker value past) :
    Obeys permitted weaker program past := by
  induction program generalizing past with
  | done value =>
      exact implies value past obeys
  | fail reason =>
      trivial
  | call request next rejected nextHypothesis rejectedHypothesis =>
      obtain ⟨allowed, nextObeys, rejectedObeys⟩ := obeys
      exact ⟨allowed, fun reply => nextHypothesis reply (nextObeys reply),
        rejectedHypothesis rejectedObeys⟩

theorem Obeys.permit
    {wider : List (Exchange signature) → signature.Call → Prop}
    {program : Program signature error result}
    (obeys : Obeys permitted post program past)
    (implies : ∀ past request, permitted past request →
      wider past request) :
    Obeys wider post program past := by
  induction program generalizing past with
  | done value =>
      exact obeys
  | fail reason =>
      trivial
  | call request next rejected nextHypothesis rejectedHypothesis =>
      obtain ⟨allowed, nextObeys, rejectedObeys⟩ := obeys
      exact ⟨implies past request allowed,
        fun reply => nextHypothesis reply (nextObeys reply),
        rejectedHypothesis rejectedObeys⟩

theorem Obeys.and
    {other : List (Exchange signature) → signature.Call → Prop}
    {also : result → List (Exchange signature) → Prop}
    {program : Program signature error result}
    (first : Obeys permitted post program past)
    (second : Obeys other also program past) :
    Obeys (fun past request => permitted past request ∧ other past request)
      (fun value past => post value past ∧ also value past) program
      past := by
  induction program generalizing past with
  | done value =>
      exact ⟨first, second⟩
  | fail reason =>
      trivial
  | call request next rejected nextHypothesis rejectedHypothesis =>
      exact ⟨⟨first.1, second.1⟩,
        fun reply => nextHypothesis reply (first.2.1 reply)
          (second.2.1 reply),
        rejectedHypothesis first.2.2 second.2.2⟩

/-- Sequence rule. -/
theorem Obeys.bind {given : middle → List (Exchange signature) → Prop}
    {program : Program signature error middle}
    {continuation : middle → Program signature error result}
    (begins : Obeys permitted given program past)
    (continues : ∀ value later, given value later →
      Obeys permitted post (continuation value) later) :
    Obeys permitted post (program >>= continuation) past := by
  induction program generalizing past with
  | done value =>
      exact continues value past begins
  | fail reason =>
      trivial
  | call request next rejected nextHypothesis rejectedHypothesis =>
      obtain ⟨allowed, nextObeys, rejectedObeys⟩ := begins
      exact ⟨allowed, fun reply => nextHypothesis reply (nextObeys reply),
        rejectedHypothesis rejectedObeys⟩

/-- Rule for one call and what follows it. -/
theorem Obeys.perform_bind {request : signature.Call} {reason : error}
    {continuation :
      signature.Reply request → Program signature error result}
    (allowed : permitted past request)
    (continues : ∀ reply, Obeys permitted post (continuation reply)
      (⟨request, reply⟩ :: past)) :
    Obeys permitted post
      (Program.perform reason request >>= continuation) past :=
  ⟨allowed, continues, trivial⟩

theorem Obeys.extends {program : Program signature error result}
    (obeys : Obeys permitted post program past) :
    Obeys permitted
      (fun value later => past <:+ later ∧ post value later) program
      past := by
  induction program generalizing past with
  | done value =>
      exact ⟨List.suffix_rfl, obeys⟩
  | fail reason =>
      trivial
  | call request next rejected nextHypothesis rejectedHypothesis =>
      obtain ⟨allowed, nextObeys, rejectedObeys⟩ := obeys
      refine ⟨allowed, fun reply => ?_, rejectedHypothesis rejectedObeys⟩
      refine (nextHypothesis reply (nextObeys reply)).weaken ?_
      rintro value later ⟨extended, holds⟩
      exact ⟨(List.suffix_cons _ _).trans extended, holds⟩

theorem Obeys.of_uses {program : Program signature error result}
    (uses : Uses (fun request => ∀ past, permitted past request) program) :
    Obeys permitted (fun _ _ => True) program past := by
  induction program generalizing past with
  | done value =>
      trivial
  | fail reason =>
      trivial
  | call request next rejected nextHypothesis rejectedHypothesis =>
      obtain ⟨allowed, nextUses, rejectedUses⟩ := uses
      exact ⟨allowed past, fun reply => nextHypothesis reply (nextUses reply),
        rejectedHypothesis rejectedUses⟩

theorem Obeys.of_unseen {view : Type}
    {seen : List (Exchange signature) → view}
    {program : Program signature error result}
    (uses : Uses (fun request => ∀ past, permitted past request ∧
      ∀ reply, seen (⟨request, reply⟩ :: past) = seen past) program) :
    Obeys permitted (fun _ later => seen later = seen past) program
      past := by
  induction program generalizing past with
  | done value =>
      rfl
  | fail reason =>
      trivial
  | call request next rejected nextHypothesis rejectedHypothesis =>
      obtain ⟨allowed, nextUses, rejectedUses⟩ := uses
      obtain ⟨isPermitted, unseen⟩ := allowed past
      refine ⟨isPermitted, fun reply => ?_,
        rejectedHypothesis rejectedUses⟩
      exact (nextHypothesis reply (nextUses reply)).weaken
        fun _ _ same => same.trans (unseen reply)

/-- Every result meets a postcondition that always holds. -/
theorem obeys_of_forall
    (always : ∀ value past, post value past)
    (program : Program signature error result) :
    Obeys (fun _ _ => True) post program past := by
  induction program generalizing past with
  | done value =>
      exact always value past
  | fail reason =>
      trivial
  | call request next rejected nextHypothesis rejectedHypothesis =>
      exact ⟨trivial, fun reply => nextHypothesis reply, rejectedHypothesis⟩

/-- Wherever the program throws, the calls answered before excuse its
error. -/
def Excused (excuse : error → List (Exchange signature) → Prop) :
    Program signature error result → List (Exchange signature) → Prop
  | .done _, _ => True
  | .fail reason, past => excuse reason past
  | .call request next rejected, past =>
      (∀ reply, Excused excuse (next reply) (⟨request, reply⟩ :: past)) ∧
        Excused excuse rejected past

theorem Excused.bind {excuse : error → List (Exchange signature) → Prop}
    {program : Program signature error middle}
    {continuation : middle → Program signature error result}
    (begins : Excused excuse program past)
    (continues : ∀ value later, past <:+ later →
      Excused excuse (continuation value) later) :
    Excused excuse (program >>= continuation) past := by
  induction program generalizing past with
  | done value =>
      exact continues value past List.suffix_rfl
  | fail reason =>
      exact begins
  | call request next rejected nextHypothesis rejectedHypothesis =>
      refine ⟨fun reply => nextHypothesis reply (begins.1 reply) ?_,
        rejectedHypothesis begins.2 continues⟩
      exact fun value later isLater => continues value later
        ((List.suffix_cons _ _).trans isLater)

theorem System.Reachable.excused
    {system : System signature error result state} {start : state}
    {pool : Pool signature error result state}
    {excuse : error → List (Exchange signature) → Prop}
    (admitted : ∀ program, system.admitted program →
      Excused excuse program [])
    (reachable : system.Reachable start pool) :
    ∀ thread ∈ pool.threads, Excused excuse thread.rest thread.past := by
  refine forall_threads admitted ?_ ?_ reachable
  · intro past request next rejected now reply after _ before _
    exact before.1 reply
  · intro past request next rejected before
    exact before.2

theorem System.Reachable.obeys
    {system : System signature error result state} {start : state}
    {pool : Pool signature error result state}
    (admitted : ∀ program, system.admitted program →
      Obeys permitted post program [])
    (reachable : system.Reachable start pool) :
    ∀ thread ∈ pool.threads,
      Obeys permitted post thread.rest thread.past := by
  refine forall_threads admitted ?_ ?_ reachable
  · intro past request next rejected now reply after _ before _
    exact before.2.1 reply
  · intro past request next rejected before
    exact before.2.2

/-- Every item of a list, the latest first, keeps a rule about the items
before it. -/
def Along {item : Type} (rule : List item → item → Prop) :
    List item → Prop
  | [] => True
  | last :: earlier => rule earlier last ∧ Along rule earlier

theorem Along.of_suffix {item : Type} {rule : List item → item → Prop}
    {front back : List item} (along : Along rule back)
    (isSuffix : front <:+ back) : Along rule front := by
  obtain ⟨added, rfl⟩ := isSuffix
  induction added with
  | nil =>
      exact along
  | cons last added inductionHypothesis =>
      exact inductionHypothesis along.2

theorem Along.exists_of_mem {item : Type}
    {rule : List item → item → Prop} {items : List item}
    (along : Along rule items) {tested : item} (member : tested ∈ items) :
    ∃ earlier, rule earlier tested := by
  obtain ⟨later, earlier, rfl⟩ := List.append_of_mem member
  exact ⟨earlier, (along.of_suffix (List.suffix_append _ _)).1⟩

/-- Every call that was answered had been permitted. -/
theorem System.Reachable.along
    {system : System signature error result state} {start : state}
    {pool : Pool signature error result state}
    (admitted : ∀ program, system.admitted program →
      Obeys permitted post program [])
    (reachable : system.Reachable start pool) :
    ∀ thread ∈ pool.threads,
      Along (fun earlier exchange => permitted earlier exchange.request)
        thread.past := by
  let lawful (thread : Thread signature error result) : Prop :=
    Obeys permitted post thread.rest thread.past ∧
      Along (fun earlier exchange => permitted earlier exchange.request)
        thread.past
  have kept : ∀ thread ∈ pool.threads, lawful thread := by
    refine forall_threads ?_ ?_ ?_ reachable
    · exact fun program isAdmitted => ⟨admitted program isAdmitted, trivial⟩
    · rintro past request next rejected now reply after _ ⟨obeys, along⟩ _
      exact ⟨obeys.2.1 reply, obeys.1, along⟩
    · rintro past request next rejected ⟨obeys, along⟩
      exact ⟨obeys.2.2, along⟩
  exact fun thread member => (kept thread member).2

/-- An invariant of a system whose programs make permitted calls only. What a
thread knows from the calls answered before lasts: nothing takes it back but a
restart, which no thread outlives. -/
structure Guarded (system : System signature error result state)
    (permitted : List (Exchange signature) → signature.Call → Prop) where
  invariant : state → Prop
  knows : List (Exchange signature) → state → Prop
  begins : ∀ now, invariant now → knows [] now
  answers : ∀ past request now reply after, invariant now →
    knows past now → permitted past request →
    system.machine request now = some (reply, after) →
      invariant after ∧ knows (⟨request, reply⟩ :: past) after ∧
        ∀ other, knows other now → knows other after
  breaks : ∀ request now after, invariant now →
    system.broken request now after →
      invariant after ∧ ∀ other, knows other now → knows other after
  restarts : ∀ now, invariant now → invariant (system.restart now)

/-- Rule for systems whose programs make permitted calls only: the invariant
holds in every reachable pool, and every thread knows what it was told. -/
theorem Guarded.reachable {system : System signature error result state}
    (guarded : Guarded system permitted)
    (admitted : ∀ program, system.admitted program →
      Obeys permitted post program [])
    {start : state} (holds : guarded.invariant start)
    {pool : Pool signature error result state}
    (reachable : system.Reachable start pool) :
    guarded.invariant pool.state ∧
      ∀ thread ∈ pool.threads, guarded.knows thread.past pool.state := by
  induction reachable with
  | refl =>
      exact ⟨holds, nofun⟩
  | tail earlier operates inductionHypothesis =>
      obtain ⟨holdsNow, informed⟩ := inductionHypothesis
      cases operates with
      | arrive isAdmitted =>
          refine ⟨holdsNow, fun thread member => ?_⟩
          rcases List.mem_append.mp member with old | last
          · exact informed thread old
          · rw [List.mem_singleton.mp last]
            exact guarded.begins _ holdsNow
      | advance advances =>
          cases advances with
          | answer found answered =>
              have isThread := List.mem_of_getElem? found
              obtain ⟨allowed, _, _⟩ :=
                System.Reachable.obeys admitted earlier _ isThread
              obtain ⟨holdsAfter, learns, lasts⟩ :=
                guarded.answers _ _ _ _ _ holdsNow (informed _ isThread)
                  allowed answered
              refine ⟨holdsAfter, fun thread member => ?_⟩
              rcases List.mem_or_eq_of_mem_set member with old | rfl
              · exact lasts _ (informed thread old)
              · exact learns
          | reject found broke =>
              have informedOne := informed _ (List.mem_of_getElem? found)
              obtain ⟨holdsAfter, lasts⟩ :=
                guarded.breaks _ _ _ holdsNow broke
              refine ⟨holdsAfter, fun thread member => ?_⟩
              rcases List.mem_or_eq_of_mem_set member with old | rfl
              · exact lasts _ (informed thread old)
              · exact lasts _ informedOne
      | restart =>
          exact ⟨guarded.restarts _ holdsNow, nofun⟩

theorem Guarded.returned {system : System signature error result state}
    (guarded : Guarded system permitted)
    (admitted : ∀ program, system.admitted program →
      Obeys permitted post program [])
    {start : state} (holds : guarded.invariant start)
    {pool : Pool signature error result state}
    (reachable : system.Reachable start pool)
    {thread : Thread signature error result} (member : thread ∈ pool.threads)
    {value : result} (returned : thread.rest = .done value) :
    guarded.knows thread.past pool.state ∧ post value thread.past := by
  have obeys := System.Reachable.obeys admitted reachable thread member
  rw [returned] at obeys
  exact ⟨(guarded.reachable admitted holds reachable).2 thread member,
    obeys⟩

end Obeys

/-! ## What a call writes before it returns -/

section Writes

variable {signature : Signature} {error result middle state item : Type}

/-- As long as the replies are sound, the program returns only with a result
and with entries of its calls that meet the specification. -/
def Writes (sound : Exchange signature → Prop)
    (entry : Exchange signature → List item) :
    (result → List item → Prop) → Program signature error result → Prop
  | spec, .done value => spec value []
  | _, .fail _ => True
  | spec, .call request next rejected =>
      (∀ reply, sound ⟨request, reply⟩ →
        Writes sound entry
          (fun value items => spec value (entry ⟨request, reply⟩ ++ items))
          (next reply)) ∧
        Writes sound entry spec rejected

variable {sound : Exchange signature → Prop}
variable {entry : Exchange signature → List item}
variable {spec weaker : result → List item → Prop}

theorem Writes.weaken {program : Program signature error result}
    (writes : Writes sound entry spec program)
    (implies : ∀ value items, spec value items → weaker value items) :
    Writes sound entry weaker program := by
  induction program generalizing spec weaker with
  | done value =>
      exact implies value [] writes
  | fail reason =>
      trivial
  | call request next rejected nextHypothesis rejectedHypothesis =>
      obtain ⟨nextWrites, rejectedWrites⟩ := writes
      exact ⟨fun reply isSound =>
          nextHypothesis reply (nextWrites reply isSound)
            fun value items => implies value _,
        rejectedHypothesis rejectedWrites implies⟩

/-- Sequence rule. -/
theorem Writes.bind {given : middle → List item → Prop}
    {program : Program signature error middle}
    {continuation : middle → Program signature error result}
    (begins : Writes sound entry given program)
    (continues : ∀ value items, given value items →
      Writes sound entry (fun last more => spec last (items ++ more))
        (continuation value)) :
    Writes sound entry spec (program >>= continuation) := by
  induction program generalizing given spec with
  | done value =>
      exact continues value [] begins
  | fail reason =>
      trivial
  | call request next rejected nextHypothesis rejectedHypothesis =>
      obtain ⟨nextWrites, rejectedWrites⟩ := begins
      refine ⟨fun reply isSound => ?_,
        rejectedHypothesis rejectedWrites continues⟩
      refine nextHypothesis reply (nextWrites reply isSound) ?_
      intro value items holds
      refine (continues value _ holds).weaken fun last more => ?_
      rw [List.append_assoc]
      exact id

end Writes

/-- Every item of a list is supported by those before it. -/
def Grounded {item : Type} (supports : List item → item → Prop)
    (items : List item) : Prop :=
  ∀ earlier current later, items = earlier ++ current :: later →
    supports earlier current

namespace Grounded

variable {item : Type} {supports weaker : List item → item → Prop}
variable {items : List item}

theorem nil : Grounded supports [] := by
  intro earlier current later split
  exact absurd split.symm (List.append_ne_nil_of_right_ne_nil _ nofun)

/-- What is supported by the whole list may follow it. -/
theorem append_singleton (grounded : Grounded supports items) {new : item}
    (supported : supports items new) :
    Grounded supports (items ++ [new]) := by
  intro earlier current later split
  rcases List.eq_nil_or_concat later with rfl | ⟨middle, last, rfl⟩
  · obtain ⟨rfl, same⟩ := List.append_inj' split rfl
    rw [← List.singleton_inj.mp same]
    exact supported
  · rw [List.concat_eq_append, ← List.cons_append,
      ← List.append_assoc] at split
    obtain ⟨same, _⟩ := List.append_inj' split rfl
    exact grounded earlier current middle same

theorem weaken (grounded : Grounded supports items)
    (implies : ∀ earlier current later,
      items = earlier ++ current :: later → supports earlier current →
        weaker earlier current) : Grounded weaker items :=
  fun earlier current later split =>
    implies earlier current later split
      (grounded earlier current later split)

theorem of_mem (grounded : Grounded supports items) {current : item}
    (member : current ∈ items) :
    ∃ earlier, earlier <+: items ∧ supports earlier current := by
  obtain ⟨earlier, later, split⟩ := List.append_of_mem member
  exact ⟨earlier, ⟨current :: later, split.symm⟩,
    grounded earlier current later split⟩

end Grounded

/-- A list in the state to which answered calls append, and from which nothing
takes away. -/
structure Journal {signature : Signature} {error result state : Type}
    (system : System signature error result state) (item : Type) where
  entries : state → List item
  entry : Exchange signature → List item
  appends : ∀ request now reply after,
    system.machine request now = some (reply, after) →
      entries after = entries now ++ entry ⟨request, reply⟩
  breaks : ∀ request now after, system.broken request now after →
    entries after = entries now
  restarts : ∀ now, entries (system.restart now) = entries now

namespace Journal

variable {signature : Signature} {error result state item : Type}
variable {system : System signature error result state}
variable (journal : Journal system item)

def written : List (Exchange signature) → List item
  | [] => []
  | exchange :: past => written past ++ journal.entry exchange

@[simp]
theorem written_cons (exchange : Exchange signature)
    (past : List (Exchange signature)) :
    journal.written (exchange :: past) =
      journal.written past ++ journal.entry exchange :=
  rfl

variable {start : state} {pool : Pool signature error result state}

theorem sum_map_set_add
    {threads : List (Thread signature error result)} {index : ℕ}
    {thread : Thread signature error result}
    (worth : Thread signature error result → ℚ)
    (found : threads[index]? = some thread)
    (moved : Thread signature error result) :
    ((threads.set index moved).map worth).sum + worth thread =
      (threads.map worth).sum + worth moved := by
  induction threads generalizing index with
  | nil =>
      cases found
  | cons first rest inductionHypothesis =>
      cases index with
      | zero =>
          cases found
          simp only [List.set_cons_zero, List.map_cons, List.sum_cons]
          ring
      | succ index =>
          have step := inductionHypothesis found
          simp only [List.set_cons_succ, List.map_cons, List.sum_cons]
          linarith

/-- The entries that the threads have written. -/
def shares (threads : List (Thread signature error result)) :
    List (Multiset item) :=
  threads.map fun thread =>
    (journal.written thread.past : Multiset item)

section Shares

variable {threads : List (Thread signature error result)} {index : ℕ}
variable {past : List (Exchange signature)}
variable {rest later : Program signature error result}

end Shares

/-- A journal is worth what its threads have written, and what those have
written that are gone. If what each thread has written is worth something, so is
the journal. -/
theorem sum_worth_nonneg {worth : item → ℚ}
    (empty : journal.entries start = [])
    (solvent : ∀ pool, system.Reachable start pool →
      ∀ thread ∈ pool.threads,
        0 ≤ ((journal.written thread.past).map worth).sum)
    (reachable : system.Reachable start pool) :
    0 ≤ ((journal.entries pool.state).map worth).sum := by
  let owned (pool : Pool signature error result state) : ℚ :=
    (pool.threads.map fun thread =>
      ((journal.written thread.past).map worth).sum).sum
  have owned_nonneg : ∀ pool, system.Reachable start pool →
      0 ≤ owned pool := by
    intro pool reachable
    refine List.sum_nonneg ?_
    intro total member
    obtain ⟨thread, isThread, rfl⟩ := List.mem_map.mp member
    exact solvent pool reachable thread isThread
  have bounded : owned pool ≤
      ((journal.entries pool.state).map worth).sum := by
    induction reachable with
    | refl =>
        rw [empty]
        exact le_rfl
    | @tail earlier later before operates inductionHypothesis =>
        cases operates with
        | arrive admitted =>
            simpa [owned, written] using inductionHypothesis
        | advance advances =>
            cases advances with
            | @answer index past request next rejected reply after found
                answered =>
                rw [journal.appends _ _ _ _ answered, List.map_append,
                  List.sum_append]
                have moved := sum_map_set_add
                  (fun thread => ((journal.written thread.past).map
                    worth).sum) found
                  (⟨⟨request, reply⟩ :: past, next reply⟩)
                simp only [written_cons, List.map_append,
                  List.sum_append] at moved
                simp only [owned]
                linarith
            | @reject index past request next rejected after found broke =>
                rw [journal.breaks _ _ _ broke]
                have moved := sum_map_set_add
                  (fun thread => ((journal.written thread.past).map
                    worth).sum) found (⟨past, rejected⟩)
                simp only [owned]
                linarith
        | restart =>
            change 0 ≤ ((journal.entries
              (system.restart earlier.state)).map worth).sum
            rw [journal.restarts]
            exact (owned_nonneg earlier before).trans inductionHypothesis
  exact (owned_nonneg pool reachable).trans bounded

end Journal

end Await

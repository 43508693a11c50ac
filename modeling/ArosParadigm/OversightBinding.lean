import ArosParadigm.AllSeeingEye
import Mathlib.Data.Set.Function

/-!
# What the last hash of the Oversight Ledger binds

The hashed text of an observation is `eventType + layer + description +
prevHash + timestamp` without delimiters. Two ledgers of the same length that
`verifyLog` accepts and that end in the same hash agree on all observations
exactly when the boundaries between the parts stand at the same places.
-/

namespace ArosParadigm.OversightBinding

open Await AllSeeingEye

/-- The text that is hashed for an entry after the hash that it names. -/
def observedText (entry : OversightLogEntry) : String :=
  entry.eventType ++ entry.layer ++ entry.description ++ entry.prevHash ++
    toString entry.timestamp

/-- `verifyLog()` answers `ok: true` over these entries. -/
def Verified (env : Environment) (entries : List OversightLogEntry) :
    Prop :=
  (run (machine env) (verifyLog env)
    { World.initial with oversight := entries }).1 = .returned ⟨true, none⟩

/-- The digest has 64 characters and no two of the hashed texts have the same
one. -/
structure Collisionless (env : Environment)
    (entries : List OversightLogEntry) : Prop where
  length : ∀ text, (env.sha256 text).length = 64
  injective : Set.InjOn env.sha256
    {text | ∃ entry ∈ entries, text = observedText entry}

structure SameObservation (first second : OversightLogEntry) : Prop where
  eventType : first.eventType = second.eventType
  layer : first.layer = second.layer
  description : first.description = second.description
  timestamp : first.timestamp = second.timestamp

/-- The parts of the hashed texts of two entries end at the same places. -/
structure SameBoundaries (first second : OversightLogEntry) : Prop where
  eventType : first.eventType.length = second.eventType.length
  layer : first.layer.length = second.layer.length
  timestamp : (toString first.timestamp).length =
    (toString second.timestamp).length

theorem SameObservation.sameBoundaries {first second : OversightLogEntry}
    (same : SameObservation first second) : SameBoundaries first second :=
  ⟨by rw [same.eventType], by rw [same.layer], by rw [same.timestamp]⟩

variable {env : Environment}

theorem linked_of_verified {entries : List OversightLogEntry}
    (verified : Verified env entries) :
    HashChain.Linked (reading env) "GENESIS" entries := by
  rw [← HashChain.firstBroken_eq_none_iff]
  unfold Verified at verified
  rw [run_verifyLog] at verified
  unfold verifiedLog at verified
  cases broken : HashChain.firstBroken (reading env) "GENESIS" entries with
  | none =>
      rfl
  | some entry =>
      simp [broken] at verified

private theorem eq_of_digits {first second : ℕ}
    (equal : (toString first).toList = (toString second).toList) :
    first = second := by
  have digits : Nat.toDigits 10 first = Nat.toDigits 10 second := by
    rw [← Nat.toList_repr, ← Nat.toList_repr]
    exact equal
  rw [← @Nat.ofDigitChars_ten_toDigits first, digits,
    Nat.ofDigitChars_ten_toDigits]

/-- Where the predecessors have equal lengths as well, the parts are read
back. -/
theorem sameObservation_of_text {first second : OversightLogEntry}
    (boundaries : SameBoundaries first second)
    (previous : first.prevHash.length = second.prevHash.length)
    (equal : observedText first = observedText second) :
    first.prevHash = second.prevHash ∧ SameObservation first second := by
  have units := congrArg String.toList equal
  simp only [observedText, String.toList_append] at units
  have eventTypes := boundaries.eventType
  have layers := boundaries.layer
  have timestamps := boundaries.timestamp
  simp only [← String.length_toList] at eventTypes layers timestamps previous
  obtain ⟨beforeTimestamp, sameTimestamp⟩ :=
    List.append_inj' units timestamps
  obtain ⟨beforePrevious, samePrevious⟩ :=
    List.append_inj' beforeTimestamp previous
  rw [List.append_assoc, List.append_assoc] at beforePrevious
  obtain ⟨sameEventType, afterEventType⟩ :=
    List.append_inj beforePrevious eventTypes
  obtain ⟨sameLayer, sameDescription⟩ :=
    List.append_inj afterEventType layers
  refine ⟨String.ext samePrevious, String.ext sameEventType,
    String.ext sameLayer, String.ext sameDescription, ?_⟩
  exact eq_of_digits sameTimestamp

private theorem forall₂_length_prevHash
    (length : ∀ text, (env.sha256 text).length = 64)
    {left right : List OversightLogEntry}
    (sameLength : left.length = right.length) :
    ∀ {leftStart rightStart : String},
      leftStart.length = rightStart.length →
      HashChain.Linked (reading env) leftStart left →
      HashChain.Linked (reading env) rightStart right →
        List.Forall₂
          (fun first second : OversightLogEntry =>
            first.prevHash.length = second.prevHash.length)
          left right := by
  induction left generalizing right with
  | nil =>
      intro _ _ _ _ _
      rw [List.length_eq_zero_iff.mp sameLength.symm]
      exact List.Forall₂.nil
  | cons first left inductionHypothesis =>
      cases right with
      | nil =>
          cases sameLength
      | cons second right =>
          rintro leftStart rightStart starts
            ⟨leftNamed, leftCarried, leftLinked⟩
            ⟨rightNamed, rightCarried, rightLinked⟩
          have named : first.prevHash = leftStart :=
            leftNamed
          have otherNamed : second.prevHash = rightStart :=
            rightNamed
          refine List.Forall₂.cons (by rw [named, otherNamed, starts]) ?_
          refine inductionHypothesis (Nat.succ.inj sameLength) ?_
            leftLinked rightLinked
          rw [leftCarried, rightCarried]
          exact (length _).trans (length _).symm

/-- Two accepted ledgers of the same length that end in the same hash hold the
same observations exactly when, at every position, the event types have equal
lengths, the layers have equal lengths, and the timestamps have equally many
digits. -/
theorem observations_bound_iff (env : Environment)
    (left right : List OversightLogEntry)
    (sameLength : left.length = right.length)
    (leftVerified : Verified env left) (rightVerified : Verified env right)
    (collisionless : Collisionless env (left ++ right))
    (sameHead : left.getLast?.map OversightLogEntry.hash =
      right.getLast?.map OversightLogEntry.hash) :
    List.Forall₂ SameObservation left right ↔
      List.Forall₂ SameBoundaries left right := by
  constructor
  · exact fun same => same.imp fun _ _ pair => pair.sameBoundaries
  · intro boundaries
    have leftLinked := linked_of_verified leftVerified
    have rightLinked := linked_of_verified rightVerified
    have previous := forall₂_length_prevHash collisionless.length
      sameLength rfl leftLinked rightLinked
    have pairs : List.Forall₂
        (fun first second : OversightLogEntry =>
          (first ∈ left ∧ second ∈ right) ∧
            SameBoundaries first second ∧
            first.prevHash.length = second.prevHash.length)
        left right := by
      rw [List.forall₂_iff_zip] at boundaries previous ⊢
      refine ⟨sameLength, fun inZip => ⟨List.of_mem_zip inZip, ?_⟩⟩
      exact ⟨boundaries.2 inZip, previous.2 inZip⟩
    have tips : HashChain.tip (reading env) "GENESIS" left =
        HashChain.tip (reading env) "GENESIS" right :=
      congrArg (Option.getD · "GENESIS") sameHead
    refine (HashChain.Linked.agree_of_pairs ?_ pairs leftLinked
      rightLinked tips).2
    rintro first second ⟨⟨firstMember, secondMember⟩, bounds, lengths⟩
      firstCarried secondCarried stored
    refine sameObservation_of_text bounds lengths ?_
    refine collisionless.injective
      ⟨first, List.mem_append_left _ firstMember, rfl⟩
      ⟨second, List.mem_append_right _ secondMember, rfl⟩ ?_
    exact firstCarried.symm.trans (stored.trans secondCarried)

def tickDigest : String :=
  "48739ddeb8209260045560a2b1427250d203fb5c5f47fee01cd37f1a222d3752"

def tockText : String :=
  "heartbeatsupervisorytick" ++ tickDigest ++ "6"

def tockDigest : String :=
  "d0ce5c03c5b3dc33353d013426d490e9ee62c8993b45e21934c707c0bcdb6685"

/-- `sha256` on these two observations. -/
def tickEnvironment : Environment :=
  { Environment.plain with
    sha256 := fun text =>
      if text = "heartbeatsupervisorytickGENESIS5" then tickDigest
      else if text = tockText then tockDigest
      else "0000000000000000000000000000000000000000000000000000000000000000" }

/-- One observation, cut into an event type and a layer. -/
def tickLedger (eventType layer : String) : List OversightLogEntry :=
  [⟨1, eventType, layer, "tick", tickDigest, "GENESIS", 5, ""⟩]

private theorem length_tickEnvironment (text : String) :
    (tickEnvironment.sha256 text).length = 64 := by
  unfold tickEnvironment
  simp only
  split_ifs <;> decide +kernel

private theorem observedText_tickLedgers :
    ∀ entry ∈ tickLedger "heartbeat" "supervisory" ++
      tickLedger "heartbeats" "upervisory",
      observedText entry = "heartbeatsupervisorytickGENESIS5" := by
  decide +kernel

theorem collisionless_tickLedgers :
    Collisionless tickEnvironment
      (tickLedger "heartbeat" "supervisory" ++
        tickLedger "heartbeats" "upervisory") := by
  refine ⟨length_tickEnvironment, ?_⟩
  rintro _ ⟨first, firstMember, rfl⟩ _ ⟨second, secondMember, rfl⟩ _
  rw [observedText_tickLedgers first firstMember,
    observedText_tickLedgers second secondMember]

theorem verified_tickLedgers :
    Verified tickEnvironment (tickLedger "heartbeat" "supervisory") ∧
      Verified tickEnvironment (tickLedger "heartbeats" "upervisory") := by
  constructor
  all_goals
    unfold Verified
    rw [run_verifyLog]
    decide +kernel

/-- Two linked observations, cut at the same place. -/
def linkedLedger (eventType layer : String) : List OversightLogEntry :=
  tickLedger eventType layer ++
    [⟨2, eventType, layer, "tick", tockDigest, tickDigest, 6, ""⟩]

private theorem observedText_linkedLedgers :
    ∀ entry ∈ linkedLedger "heartbeat" "supervisory" ++
        linkedLedger "heartbeats" "upervisory",
      observedText entry = "heartbeatsupervisorytickGENESIS5" ∨
        observedText entry = tockText := by
  decide +kernel

theorem collisionless_linkedLedgers :
    Collisionless tickEnvironment
      (linkedLedger "heartbeat" "supervisory" ++
        linkedLedger "heartbeats" "upervisory") := by
  refine ⟨length_tickEnvironment, ?_⟩
  have different :
      tickEnvironment.sha256 "heartbeatsupervisorytickGENESIS5" ≠
        tickEnvironment.sha256 tockText := by
    decide +kernel
  refine Set.InjOn.mono ?_
    (Set.injOn_pair.mpr fun same => absurd same different)
  rintro _ ⟨entry, member, rfl⟩
  exact observedText_linkedLedgers entry member

theorem verified_linkedLedgers :
    Verified tickEnvironment (linkedLedger "heartbeat" "supervisory") ∧
      Verified tickEnvironment
        (linkedLedger "heartbeats" "upervisory") := by
  constructor
  all_goals
    unfold Verified
    rw [run_verifyLog]
    decide +kernel

theorem tickLedgers_bound_iff :
    List.Forall₂ SameObservation (linkedLedger "heartbeat" "supervisory")
        (linkedLedger "heartbeats" "upervisory") ↔
      List.Forall₂ SameBoundaries (linkedLedger "heartbeat" "supervisory")
        (linkedLedger "heartbeats" "upervisory") :=
  observations_bound_iff tickEnvironment _ _ rfl verified_linkedLedgers.1
    verified_linkedLedgers.2 collisionless_linkedLedgers rfl

/-- A letter that moves from the layer to the event type is not noticed. -/
theorem moved_letter_is_accepted :
    ¬ ∀ (env : Environment) (left right : List OversightLogEntry),
      left.length = right.length → Verified env left →
      Verified env right → Collisionless env (left ++ right) →
      left.getLast?.map OversightLogEntry.hash =
        right.getLast?.map OversightLogEntry.hash →
      List.Forall₂ SameObservation left right := by
  intro bound
  have same := bound tickEnvironment
    (tickLedger "heartbeat" "supervisory")
    (tickLedger "heartbeats" "upervisory") rfl verified_tickLedgers.1
    verified_tickLedgers.2 collisionless_tickLedgers rfl
  cases same with
  | cons head _ =>
      exact absurd head.eventType (by decide)

end ArosParadigm.OversightBinding

import ArosParadigm.Commission
import Mathlib.Algebra.BigOperators.Field
import Mathlib.Data.Finset.Sort
import Mathlib.Tactic.FieldSimp
import Mathlib.Tactic.Ring

/-!
# Payouts

What a finalization pays depends on the confirmed participants of the epoch
as a multiset: neither the order of the participations nor the order in which
the weights were collected matters.
-/

namespace ArosParadigm.Commission

section Weights

variable {world : World} {weights final : Weights}

theorem lookup_upsert (key : String) (weight : ℚ)
    (pairs : Weights) (tested : String) :
    (Keyed.upsert Prod.fst (key, weight) pairs).lookup tested =
      if tested = key then some weight else pairs.lookup tested := by
  induction pairs with
  | nil =>
      by_cases same : tested = key
      · simp [Keyed.upsert, same]
      · simp [Keyed.upsert, List.lookup_cons, same, beq_false_of_ne same]
  | cons head rest inductionHypothesis =>
      obtain ⟨headKey, headWeight⟩ := head
      by_cases replaced : headKey = key
      · subst replaced
        by_cases same : tested = headKey
        · simp [Keyed.upsert, same]
        · simp [Keyed.upsert, List.lookup_cons, same,
            beq_false_of_ne same]
      · simp only [Keyed.upsert, replaced, if_false, List.lookup_cons,
          inductionHypothesis]
        by_cases isHead : tested = headKey
        · subst isHead
          simp [replaced]
        · simp [beq_false_of_ne isHead]

theorem weightOf_of_mem {nodeId : String} {weight : ℚ}
    (unique : (weights.map Prod.fst).Nodup)
    (member : (nodeId, weight) ∈ weights) :
    weightOf weights nodeId = some weight := by
  unfold weightOf
  induction weights with
  | nil =>
      cases member
  | cons head rest inductionHypothesis =>
      obtain ⟨fresh, restUnique⟩ := List.nodup_cons.mp unique
      rcases List.mem_cons.mp member with rfl | inside
      · simp
      · have different : nodeId ≠ head.1 := by
          intro same
          exact fresh (same ▸ List.mem_map_of_mem inside)
        obtain ⟨headKey, headWeight⟩ := head
        rw [List.lookup_cons, beq_false_of_ne different]
        exact inductionHypothesis restUnique inside

/-- The weight of a node is its current weight, once for every confirmed
participation. -/
theorem weightOf_weigh {entries : List Participation}
    (weighed : weigh world entries weights = .ok final)
    (nodeId : String) :
    (weightOf final nodeId).getD 0 =
      (weightOf weights nodeId).getD 0 +
        (entries.countP fun entry =>
          confirmed world entry.processId && entry.nodeId = nodeId) *
          nodeWeight world nodeId := by
  induction entries generalizing weights with
  | nil =>
      cases weighed
      simp
  | cons entry rest inductionHypothesis =>
      rw [weigh] at weighed
      split at weighed
      · next isConfirmed =>
          split at weighed
          · next node found =>
              rw [inductionHypothesis weighed, weightOf, addWeight,
                lookup_upsert, List.countP_cons]
              by_cases same : nodeId = entry.nodeId
              · subst same
                have weight : nodeWeight world entry.nodeId =
                    node.weight := by
                  simp [nodeWeight, found]
                simp only [if_true, Option.getD_some, isConfirmed, weight,
                  decide_true, Bool.and_self]
                push_cast
                ring
              · simp [same, Ne.symm same, weightOf]
          · cases weighed
      · next unconfirmed =>
          rw [inductionHypothesis weighed, List.countP_cons]
          simp [unconfirmed]

/-- No computed weight is negative where no node has a negative weight. -/
theorem nonneg_of_weigh {entries : List Participation}
    (nonnegative : ∀ node ∈ world.nodes.rows, 0 ≤ node.weight)
    (weighed : weigh world entries [] = .ok final) :
    ∀ entry ∈ final, 0 ≤ entry.2 := by
  rintro ⟨nodeId, weight⟩ member
  have unique := nodup_of_weigh weighed List.nodup_nil
  have same := weightOf_weigh weighed nodeId
  rw [weightOf_of_mem unique member] at same
  simp only [Option.getD_some, weightOf, List.lookup_nil,
    Option.getD_none, zero_add] at same
  have current : 0 ≤ nodeWeight world nodeId := by
    unfold nodeWeight
    cases found : world.nodes.find? nodeId with
    | none =>
        exact le_rfl
    | some node =>
        exact nonnegative node (Keyed.Table.mem_of_find? found)
  rw [same]
  exact mul_nonneg (Nat.cast_nonneg _) current

theorem missing_of_weigh_error {entries : List Participation}
    {id : String} (weighed : weigh world entries weights = .error id) :
    ∃ entry ∈ entries, confirmed world entry.processId = true ∧
      world.nodes.find? entry.nodeId = none := by
  induction entries generalizing weights with
  | nil =>
      cases weighed
  | cons entry rest inductionHypothesis =>
      rw [weigh] at weighed
      split at weighed
      · next isConfirmed =>
          split at weighed
          · obtain ⟨other, member, missing⟩ :=
              inductionHypothesis weighed
            exact ⟨other, List.mem_cons_of_mem _ member, missing⟩
          · next missing =>
              exact ⟨entry, List.mem_cons_self, isConfirmed, missing⟩
      · obtain ⟨other, member, missing⟩ := inductionHypothesis weighed
        exact ⟨other, List.mem_cons_of_mem _ member, missing⟩

theorem registered_of_confirmed {entries : List Participation}
    (weighed : weigh world entries weights = .ok final)
    {entry : Participation} (member : entry ∈ entries)
    (isConfirmed : confirmed world entry.processId = true) :
    (world.nodes.find? entry.nodeId).isSome := by
  induction entries generalizing weights with
  | nil =>
      cases member
  | cons head rest inductionHypothesis =>
      rw [weigh] at weighed
      rcases List.mem_cons.mp member with rfl | inside
      · rw [if_pos isConfirmed] at weighed
        split at weighed
        · next node found =>
            rw [found]
            rfl
        · cases weighed
      · split at weighed
        · split at weighed
          · exact inductionHypothesis weighed inside
          · cases weighed
        · exact inductionHypothesis weighed inside

end Weights

/-! ## The order of the payments -/

/-- The comparison of `[...keys].sort()`. -/
abbrev ByCodeUnits (first second : String) : Prop :=
  Json.utf16 first ≤ Json.utf16 second

instance : IsTrans String ByCodeUnits where
  trans := fun _ _ _ earlier later => le_trans earlier later

instance : Std.Antisymm ByCodeUnits where
  antisymm := fun _ _ below above =>
    Json.utf16_injective (le_antisymm below above)

instance : Std.Total ByCodeUnits where
  total := fun first second =>
    le_total (Json.utf16 first) (Json.utf16 second)

theorem sortedIds_eq_sort {ids : List String} (unique : ids.Nodup) :
    sortedIds ids = ids.toFinset.sort ByCodeUnits := by
  have permutation := List.perm_insertionSort ByCodeUnits ids
  have sorted := List.pairwise_insertionSort ByCodeUnits ids
  have same : ids.toFinset = (ids.insertionSort ByCodeUnits).toFinset :=
    (List.toFinset_eq_of_perm _ _ permutation).symm
  rw [same]
  exact ((List.toFinset_sort ByCodeUnits
    (permutation.nodup_iff.mpr unique)).mpr sorted).symm

/-- The node of every confirmed participation. -/
def crew (world : World) (entries : List Participation) :
    Multiset String :=
  ((entries.filter fun entry => confirmed world entry.processId).map
    Participation.nodeId : List String)

/-- The payments for a multiset of participants. -/
def dues (participants : Multiset String) (weight : String → ℚ)
    (total : ℚ) : List DistributionEntry :=
  if 0 < (participants.map weight).sum then
    (participants.toFinset.sort ByCodeUnits).map fun nodeId =>
      ⟨nodeId, (participants.count nodeId * weight nodeId) *
        (total * (1 - marginRate)) / (participants.map weight).sum,
        reasonWork⟩
  else
    []

section Dues

variable {world : World} {entries : List Participation}
variable {weights : Weights}

theorem count_crew (nodeId : String) :
    (crew world entries).count nodeId =
      entries.countP fun entry =>
        confirmed world entry.processId && entry.nodeId = nodeId := by
  rw [crew, Multiset.coe_count, List.count, List.countP_map,
    List.countP_filter]
  apply List.countP_congr
  intro entry _
  simp [and_comm]

/-- Weights are kept for the confirmed participants. -/
theorem mem_keys_iff (weighed : weigh world entries [] = .ok weights)
    (nodeId : String) :
    nodeId ∈ weights.map Prod.fst ↔ nodeId ∈ crew world entries := by
  have general : ∀ (rest : List Participation) (before : Weights),
      weigh world rest before = .ok weights →
        (nodeId ∈ weights.map Prod.fst ↔
          nodeId ∈ before.map Prod.fst ∨
            nodeId ∈ crew world rest) := by
    intro rest
    induction rest with
    | nil =>
        intro before equal
        cases equal
        simp [crew]
    | cons entry rest inductionHypothesis =>
        intro before equal
        rw [weigh] at equal
        split at equal
        · next isConfirmed =>
            split at equal
            · rw [inductionHypothesis _ equal, addWeight,
                Keyed.mem_map_upsert]
              simp [crew, isConfirmed]
              tauto
            · cases equal
        · next unconfirmed =>
            rw [inductionHypothesis _ equal]
            simp [crew, unconfirmed]
  simpa using general entries [] weighed

theorem weightOf_eq_count (weighed : weigh world entries [] = .ok weights)
    (nodeId : String) :
    (weightOf weights nodeId).getD 0 =
      (crew world entries).count nodeId * nodeWeight world nodeId := by
  rw [weightOf_weigh weighed, count_crew]
  simp [weightOf]

theorem toFinset_keys (weighed : weigh world entries [] = .ok weights) :
    (weights.map Prod.fst).toFinset = (crew world entries).toFinset := by
  ext nodeId
  rw [List.mem_toFinset, Multiset.mem_toFinset, mem_keys_iff weighed]

theorem sum_weights (weighed : weigh world entries [] = .ok weights) :
    (weights.map Prod.snd).sum =
      ((crew world entries).map (nodeWeight world)).sum := by
  have unique := nodup_of_weigh weighed (by simp)
  have own : weights.map Prod.snd =
      (weights.map Prod.fst).map fun nodeId =>
        (weightOf weights nodeId).getD 0 := by
    rw [List.map_map]
    apply List.map_congr_left
    intro pair member
    simp [weightOf_of_mem unique member]
  rw [own, ← List.sum_toFinset _ unique, toFinset_keys weighed,
    Finset.sum_multiset_map_count]
  apply Finset.sum_congr rfl
  intro nodeId _
  rw [weightOf_eq_count weighed, nsmul_eq_mul]

theorem payments_eq_dues (weighed : weigh world entries [] = .ok weights)
    (total : ℚ) :
    payments weights total =
      dues (crew world entries) (nodeWeight world) total := by
  have unique := nodup_of_weigh weighed (by simp)
  unfold payments dues
  rw [sum_weights weighed, sortedIds_eq_sort unique,
    toFinset_keys weighed]
  congr 2
  funext nodeId
  rw [paymentOf, weightOf_eq_count weighed]

/-- Weights can be computed when the confirmed participants are
registered. -/
theorem weigh_of_registered
    (registered : ∀ entry ∈ entries,
      confirmed world entry.processId = true →
        (world.nodes.find? entry.nodeId).isSome) :
    ∃ weights, weigh world entries [] = .ok weights := by
  cases weighed : weigh world entries [] with
  | ok weights =>
      exact ⟨weights, rfl⟩
  | error id =>
      obtain ⟨entry, member, isConfirmed, missing⟩ :=
        missing_of_weigh_error weighed
      have present := registered entry member isConfirmed
      rw [missing] at present
      cases present

end Dues

/-- Dues with a positive total weight hand out three quarters. -/
theorem sum_dues {participants : Multiset String} {weight : String → ℚ}
    (positive : 0 < (participants.map weight).sum) (total : ℚ) :
    ((dues participants weight total).map
      DistributionEntry.amount).sum = total * (1 - marginRate) := by
  rw [dues, if_pos positive, List.map_map]
  have shares : ((participants.toFinset.sort ByCodeUnits).map
      fun nodeId => participants.count nodeId * weight nodeId *
        (total * (1 - marginRate)) / (participants.map weight).sum).sum =
      (∑ nodeId ∈ participants.toFinset,
        participants.count nodeId * weight nodeId) *
          (total * (1 - marginRate)) / (participants.map weight).sum := by
    rw [← List.sum_toFinset _ (Finset.sort_nodup _ _),
      Finset.sort_toFinset, Finset.sum_mul, Finset.sum_div]
  have whole : (∑ nodeId ∈ participants.toFinset,
      participants.count nodeId * weight nodeId) =
        (participants.map weight).sum := by
    rw [Finset.sum_multiset_map_count]
    simp only [nsmul_eq_mul]
  refine shares.trans ?_
  rw [whole, mul_div_assoc, mul_div_cancel₀ _ positive.ne']

/-- A participant of positive weight is due a positive payment. -/
theorem amount_pos_of_mem_dues {participants : Multiset String}
    {weight : String → ℚ} {total : ℚ}
    (weighty : ∀ nodeId ∈ participants, 0 < weight nodeId)
    (fees : 0 < total) {entry : DistributionEntry}
    (member : entry ∈ dues participants weight total) :
    0 < entry.amount := by
  unfold dues at member
  split at member
  · next positive =>
      obtain ⟨nodeId, listed, rfl⟩ := List.mem_map.mp member
      have participates : nodeId ∈ participants := by
        simpa using listed
      have counted : (0 : ℚ) < participants.count nodeId :=
        Nat.cast_pos.mpr (Multiset.count_pos.mpr participates)
      have share : (0 : ℚ) < 1 - marginRate := by
        unfold marginRate
        norm_num
      have weightPositive := weighty nodeId participates
      exact div_pos (mul_pos (mul_pos counted weightPositive)
        (mul_pos fees share)) positive
  · cases member

end ArosParadigm.Commission

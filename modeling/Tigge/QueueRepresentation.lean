import Tigge.Arguments

/-! The table `variablesToProcess` in every state that the argument loop can leave it in. -/

namespace Tigge
open Lib TiggeVariable

/-- The empty table after `i` calls of `addVariableToProcessList`, all of which returned 0. -/
inductive Added : ℕ → ProcessQueue → Prop
  | bogus : Added 0 fillQueueWithBogusData
  | next {i : ℕ} {q q' : ProcessQueue} {var : Str} (h : Added i q) (hi : i < NUMBER_OF_VARIABLES)
      (hadd : addVariableToProcessList q i var = (0, q')) : Added (i + 1) q'

/-- `fillQueueWithDefault` may come last. -/
inductive QueueState : ProcessQueue → Prop
  | listed {i : ℕ} {q : ProcessQueue} (h : Added i q) : QueueState q
  | default {i : ℕ} {q : ProcessQueue} (h : Added i q) : QueueState fillQueueWithDefault

/-- A run of different variables, and `-1` in every slot after it. -/
structure Represents (q : ProcessQueue) (vs : List TiggeVariable) : Prop where
  nodup : vs.Nodup
  length_le : vs.length ≤ NUMBER_OF_VARIABLES
  slots : q.slots = slotsOf vs

theorem Represents.next {q q' : ProcessQueue} {vs : List TiggeVariable} {var : Str}
    (h : Represents q vs) (hi : vs.length < NUMBER_OF_VARIABLES)
    (hadd : addVariableToProcessList q vs.length var = (0, q')) :
    ∃ v, v.shortName = var ∧ Represents q' (vs ++ [v]) := by
  by_cases hall : var = allKeyword
  · rw [addVariableToProcessList, if_pos hall] at hadd
    cases hadd
  · by_cases hnew : ∃ v : TiggeVariable, v.shortName = var ∧ v ∉ vs
    · obtain ⟨v, rfl, hv⟩ := hnew
      obtain ⟨q₁, hadd₁, hslots⟩ := addVariable_new h.slots hi hv
      obtain rfl : q₁ = q' := congrArg Prod.snd (hadd₁.symm.trans hadd)
      refine ⟨v, rfl, ?_, ?_, hslots⟩
      · exact h.nodup.append (List.nodup_singleton v) (by simpa using hv)
      · rw [List.length_append, List.length_singleton]
        exact hi
    · push Not at hnew
      rw [addVariable_refused h.slots vs.length hall hnew] at hadd
      cases hadd

theorem Added.represents {i : ℕ} {q : ProcessQueue} (h : Added i q) :
    ∃ vs : List TiggeVariable, vs.length = i ∧ Represents q vs := by
  induction h with
  | bogus => exact ⟨[], rfl, List.nodup_nil, Nat.zero_le _, rfl⟩
  | next _ hi hadd ih =>
    obtain ⟨vs, rfl, hvs⟩ := ih
    obtain ⟨v, -, hv⟩ := hvs.next hi hadd
    exact ⟨vs ++ [v], by rw [List.length_append, List.length_singleton], hv⟩

theorem QueueState.represents {q : ProcessQueue} (h : QueueState q) :
    ∃ vs : List TiggeVariable, Represents q vs := by
  cases h with
  | listed h =>
    obtain ⟨vs, -, hvs⟩ := h.represents
    exact ⟨vs, hvs⟩
  | default _ => exact ⟨defaultOrder, by decide, by decide, rfl⟩

theorem exists_of_variableShortName {id : ℤ} {name : Str} (h : variableShortName id = some name) :
    ∃ v : TiggeVariable, v.varId = id ∧ v.shortName = name := by
  obtain ⟨v, hfind, hname⟩ := Option.map_eq_some_iff.mp h
  have hid := List.find?_some hfind
  exact ⟨v, of_decide_eq_true hid, hname⟩

theorem varId_mem_slotsOf {vs : List TiggeVariable} (v : TiggeVariable) :
    v.varId ∈ slotsOf vs ↔ v ∈ vs := by
  rw [slotsOf, List.mem_append, List.mem_map_of_injective varId_injective, or_iff_left]
  intro hmem
  exact v.varId_ne (List.eq_of_mem_replicate hmem)

/-- In every state of the table the variables stand without a gap and without a repetition, and
`processQueueContains` is membership. -/
theorem queue_representation {q : ProcessQueue} (h : QueueState q) :
    (∃ vs : List TiggeVariable, vs.Nodup ∧ vs.length ≤ NUMBER_OF_VARIABLES ∧
      q.slots = vs.map TiggeVariable.varId ++
        List.replicate (NUMBER_OF_VARIABLES - vs.length) (-1)) ∧
    (∀ id name, variableShortName id = some name →
      processQueueContains q.slots name = some (if id ∈ q.slots then 1 else 0)) ∧
    ∀ str, processQueueContains q.slots str ≠ none := by
  obtain ⟨vs, hvs⟩ := h.represents
  refine ⟨⟨vs, hvs.nodup, hvs.length_le, hvs.slots⟩, ?_, processQueueContains_ne_none q⟩
  intro id name hname
  obtain ⟨v, rfl, rfl⟩ := exists_of_variableShortName hname
  rw [hvs.slots, processQueueContains_slotsOf]
  simp only [varId_mem_slotsOf]

/-- The arguments `sf6 st tp`, and after them the default. -/
theorem queue_representation_listed : ∃ q, QueueState q ∧ QueueState fillQueueWithDefault ∧
    q.slots = [snowFallWaterEquivalent, soilTemperature, totalPrecipitation].map
      TiggeVariable.varId ++ List.replicate 10 (-1) ∧
    ∀ q' ∈ [q, fillQueueWithDefault],
      (∃ vs : List TiggeVariable, vs.Nodup ∧ vs.length ≤ NUMBER_OF_VARIABLES ∧
        q'.slots = vs.map TiggeVariable.varId ++
          List.replicate (NUMBER_OF_VARIABLES - vs.length) (-1)) ∧
      (∀ id name, variableShortName id = some name →
        processQueueContains q'.slots name = some (if id ∈ q'.slots then 1 else 0)) ∧
      ∀ str, processQueueContains q'.slots str ≠ none := by
  have hfirst : Added 1 (fillQueueWithBogusData.set 0 snowFallWaterEquivalent) :=
    @Added.next _ _ _ "sf6".toList .bogus (by decide) rfl
  have hsecond : Added 2 ((fillQueueWithBogusData.set 0 snowFallWaterEquivalent).set 1
      soilTemperature) := @Added.next _ _ _ "st".toList hfirst (by decide) rfl
  have hadded : Added 3 (((fillQueueWithBogusData.set 0 snowFallWaterEquivalent).set 1
      soilTemperature).set 2 totalPrecipitation) :=
    @Added.next _ _ _ "tp".toList hsecond (by decide) rfl
  refine ⟨_, .listed hadded, .default hadded, rfl, fun q' hq' => ?_⟩
  rcases List.mem_pair.mp hq' with rfl | rfl
  · exact queue_representation (.listed hadded)
  · exact queue_representation (.default hadded)

end Tigge

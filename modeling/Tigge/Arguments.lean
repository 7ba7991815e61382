import Tigge.Queue

/-! The variable names on the command line and the queue that `main` makes of them. -/

namespace Tigge
open Lib TiggeVariable

abbrev allKeyword : Str := "all".toList

/-- The variables in the table of `printUsage`. -/
def supportedVariables : List TiggeVariable :=
  [potentialTemperature, snowFallWaterEquivalent, timeIntegratedSnowFallWaterEquivalent,
    soilMoisture, soilTemperature, timeIntegratedOutgoingLongWaveRadiation,
    timeIntegratedSurfaceLatentHeatFlux, timeIntegratedSurfaceNetSolarRadiation,
    timeIntegratedSurfaceNetThermalRadiation, timeIntegratedSurfaceSensibleHeatFlux,
    totalColumnWater, totalPrecipitation]

/-- What the usage text promises of the queue. -/
structure Promised (args : List Str) (q : ProcessQueue) : Prop where
  listed : ∀ x ∈ args, x ≠ allKeyword → processQueueContains q.slots x = some 1
  every : args = [] ∨ allKeyword ∈ args →
    ∀ v ∈ supportedVariables, processQueueContains q.slots v.shortName = some 1
  only : args ≠ [] → allKeyword ∉ args →
    ∀ v : TiggeVariable, v.shortName ∉ args → processQueueContains q.slots v.shortName ≠ some 1

/-- The slots after some variables were added to an empty queue. -/
def slotsOf (vs : List TiggeVariable) : List ℤ :=
  vs.map TiggeVariable.varId ++ List.replicate (NUMBER_OF_VARIABLES - vs.length) (-1)

def beforeAll (args : List Str) : List Str := args.takeWhile (· ≠ allKeyword)

/-- Short names, none of them twice. -/
def Addable (us : List Str) : Prop := us.Nodup ∧ ∀ x ∈ us, ∃ v : TiggeVariable, v.shortName = x

theorem shortName_ne_all (v : TiggeVariable) : v.shortName ≠ allKeyword := by
  cases v <;> decide

theorem scanQueue_slotsOf (str : Str) (vs : List TiggeVariable) (k : ℕ) :
    scanQueue str (vs.map TiggeVariable.varId ++ List.replicate k (-1)) =
      some (if str ∈ vs.map TiggeVariable.shortName then 1 else 0) := by
  induction vs with
  | nil => cases k <;> simp [scanQueue, List.replicate_succ]
  | cons v vs ih =>
    rw [List.map_cons, List.cons_append, scanQueue, if_neg v.varId_ne, variableShortName_varId]
    dsimp only
    rw [ih, List.map_cons]
    by_cases h : str = v.shortName <;> simp [h]

theorem processQueueContains_slotsOf (vs : List TiggeVariable) (v : TiggeVariable) :
    processQueueContains (slotsOf vs) v.shortName = some (if v ∈ vs then 1 else 0) := by
  rw [processQueueContains, variableIdFromShortName_shortName, if_neg v.varId_ne, slotsOf,
    scanQueue_slotsOf]
  simp only [List.mem_map_of_injective shortName_injective]

theorem find_shortName (v : TiggeVariable) :
    TiggeVariable.all.find? (·.shortName = v.shortName) = some v := by
  cases v <;> decide

theorem processQueueContains_unknown {x : Str} (hx : ∀ v : TiggeVariable, v.shortName ≠ x)
    (slots : List ℤ) : processQueueContains slots x = some (-1) := by
  have hfind : TiggeVariable.all.find? (·.shortName = x) = none := by
    rw [List.find?_eq_none]
    intro v _
    simpa using hx v
  rw [processQueueContains, variableIdFromShortName, hfind, if_pos rfl]

theorem slotsOf_append {vs : List TiggeVariable} (hvs : vs.length < NUMBER_OF_VARIABLES)
    (v : TiggeVariable) : (slotsOf vs).set vs.length v.varId = slotsOf (vs ++ [v]) := by
  have hlength : NUMBER_OF_VARIABLES - vs.length =
      NUMBER_OF_VARIABLES - (vs ++ [v]).length + 1 := by
    rw [List.length_append, List.length_singleton]
    omega
  rw [slotsOf, slotsOf, List.set_append_right _ _ (by simp), List.length_map, Nat.sub_self,
    hlength, List.replicate_succ, List.set_cons_zero, List.map_append, List.append_assoc]
  rfl

section Adding
variable {q : ProcessQueue} {vs : List TiggeVariable}

theorem addVariable_new (hq : q.slots = slotsOf vs) (hvs : vs.length < NUMBER_OF_VARIABLES)
    {v : TiggeVariable} (hv : v ∉ vs) : ∃ q' : ProcessQueue,
      addVariableToProcessList q vs.length v.shortName = (0, q') ∧ q'.slots = slotsOf (vs ++ [v]) := by
  refine ⟨q.set vs.length v, ?_, ?_⟩
  · rw [addVariableToProcessList, if_neg (shortName_ne_all v), hq, processQueueContains_slotsOf,
      if_neg hv, if_pos rfl, find_shortName]
  · show q.slots.set vs.length v.varId = _
    rw [hq]
    exact slotsOf_append hvs v

theorem addVariable_refused (hq : q.slots = slotsOf vs) (i : ℕ) {x : Str} (hx : x ≠ allKeyword)
    (h : ∀ v : TiggeVariable, v.shortName = x → v ∈ vs) :
    addVariableToProcessList q i x = (-1, q) := by
  rw [addVariableToProcessList, if_neg hx]
  by_cases hname : ∃ v : TiggeVariable, v.shortName = x
  · obtain ⟨v, rfl⟩ := hname
    rw [hq, processQueueContains_slotsOf, if_pos (h v rfl)]
    rfl
  · rw [processQueueContains_unknown (fun v hv => hname ⟨v, hv⟩)]
    rfl

theorem beforeAll_cons {x : Str} (hx : x ≠ allKeyword) (rest : List Str) :
    beforeAll (x :: rest) = x :: beforeAll rest := by
  rw [beforeAll, List.takeWhile_cons_of_pos (by simpa using hx), beforeAll]

/-- The loop over the arguments that are left, after some variables were added. -/
theorem addArguments_some {rest : List Str} (hq : q.slots = slotsOf vs)
    (hlength : vs.length + rest.length ≤ NUMBER_OF_VARIABLES)
    (hnew : ∀ v ∈ vs, v.shortName ∉ beforeAll rest) (hadd : Addable (beforeAll rest)) :
    (allKeyword ∈ rest → addArguments q vs.length rest = some fillQueueWithDefault) ∧
      (allKeyword ∉ rest → ∃ ws q', ws.map TiggeVariable.shortName = rest ∧
        addArguments q vs.length rest = some q' ∧ q'.slots = slotsOf (vs ++ ws)) := by
  induction rest generalizing q vs with
  | nil => exact ⟨fun h => absurd h List.not_mem_nil, fun _ => ⟨[], q, rfl, rfl, by simpa using hq⟩⟩
  | cons x rest ih =>
    by_cases hx : x = allKeyword
    · subst hx
      exact ⟨fun _ => rfl, fun h => absurd List.mem_cons_self h⟩
    · rw [beforeAll_cons hx] at hnew hadd
      obtain ⟨hnodup, hknown⟩ := hadd
      obtain ⟨v, rfl⟩ := hknown x List.mem_cons_self
      rw [List.length_cons] at hlength
      obtain ⟨q', hstep, hslots⟩ := addVariable_new hq (by omega)
        (fun hv => hnew v hv List.mem_cons_self)
      have hnext := ih hslots (by rw [List.length_append, List.length_singleton]; omega)
        (fun w hw hmem => ?_) ⟨hnodup.of_cons, fun y hy => hknown y (List.mem_cons_of_mem _ hy)⟩
      · rw [List.length_append, List.length_singleton] at hnext
        have hrun : addArguments q vs.length (v.shortName :: rest) =
            addArguments q' (vs.length + 1) rest := by
          rw [addArguments, hstep]
          rfl
        rw [hrun]
        refine ⟨fun hall => hnext.1 ((List.mem_cons.mp hall).resolve_left (Ne.symm hx)),
          fun hall => ?_⟩
        obtain ⟨ws, q'', hws, hq'', hslots''⟩ := hnext.2 fun h => hall (List.mem_cons_of_mem _ h)
        exact ⟨v :: ws, q'', by rw [List.map_cons, hws], hq'', by
          rw [hslots'', List.append_assoc, List.singleton_append]⟩
      · rcases List.mem_append.mp hw with hw | hw
        · exact hnew w hw (List.mem_cons_of_mem _ hmem)
        · rw [List.mem_singleton.mp hw] at hmem
          exact (List.nodup_cons.mp hnodup).1 hmem

theorem addArguments_none {rest : List Str} (hq : q.slots = slotsOf vs)
    (hlength : vs.length + rest.length ≤ NUMBER_OF_VARIABLES)
    (h : ¬ ((∀ v ∈ vs, v.shortName ∉ beforeAll rest) ∧ Addable (beforeAll rest))) :
    addArguments q vs.length rest = none := by
  induction rest generalizing q vs with
  | nil => exact absurd ⟨fun _ _ => List.not_mem_nil, List.nodup_nil, fun _ hx =>
      absurd hx List.not_mem_nil⟩ h
  | cons x rest ih =>
    by_cases hx : x = allKeyword
    · subst hx
      exact absurd ⟨fun _ _ => List.not_mem_nil, List.nodup_nil, fun _ hx =>
        absurd hx List.not_mem_nil⟩ h
    · rw [beforeAll_cons hx] at h
      by_cases hbad : ∀ v : TiggeVariable, v.shortName = x → v ∈ vs
      · rw [addArguments, addVariable_refused hq _ hx hbad]
        rfl
      · obtain ⟨v, himp⟩ := not_forall.mp hbad
        obtain ⟨rfl, hv⟩ := Classical.not_imp.mp himp
        clear himp
        rw [List.length_cons] at hlength
        obtain ⟨q', hstep, hslots⟩ := addVariable_new hq (by omega) hv
        have hnext := ih hslots (by rw [List.length_append, List.length_singleton]; omega)
          (fun hrest => h ?_)
        · rw [List.length_append, List.length_singleton] at hnext
          rw [addArguments, hstep]
          exact hnext
        · obtain ⟨hnew, hnodup, hknown⟩ := hrest
          refine ⟨fun w hw hmem => ?_, List.nodup_cons.mpr ⟨hnew v (by simp), hnodup⟩,
            List.forall_mem_cons.mpr ⟨⟨v, rfl⟩, hknown⟩⟩
          rcases List.mem_cons.mp hmem with he | hmem
          · exact hv (shortName_injective he ▸ hw)
          · exact hnew w (List.mem_append_left _ hw) hmem

end Adding
theorem slotsOf_nil : fillQueueWithBogusData.slots = slotsOf [] := rfl

theorem not_every_default : ¬ ∀ v ∈ supportedVariables,
    processQueueContains fillQueueWithDefault.slots v.shortName = some 1 := by
  decide

theorem not_promised_default {args : List Str} (h : args = [] ∨ allKeyword ∈ args) :
    ¬ Promised args fillQueueWithDefault :=
  fun hp => not_every_default (hp.every h)

theorem not_promised_bogus {args : List Str} (h0 : args ≠ []) :
    ¬ Promised args fillQueueWithBogusData := by
  intro hp
  have hempty : ∀ v : TiggeVariable,
      processQueueContains fillQueueWithBogusData.slots v.shortName = some 0 := fun v => by
    rw [slotsOf_nil, processQueueContains_slotsOf, if_neg List.not_mem_nil]
  by_cases hall : allKeyword ∈ args
  · have h := hp.every (.inr hall) totalPrecipitation (by decide)
    rw [hempty] at h
    cases h
  · obtain ⟨x, rest, rfl⟩ := List.exists_cons_of_ne_nil h0
    have hx := hp.listed x List.mem_cons_self fun h => hall (h ▸ List.mem_cons_self)
    by_cases hname : ∃ v : TiggeVariable, v.shortName = x
    · obtain ⟨v, rfl⟩ := hname
      rw [hempty] at hx
      cases hx
    · rw [processQueueContains_unknown fun v hv => hname ⟨v, hv⟩] at hx
      cases hx

theorem promised_slotsOf {args : List Str} {q : ProcessQueue} {ws : List TiggeVariable}
    (hws : ws.map TiggeVariable.shortName = args) (h0 : args ≠ []) (hall : allKeyword ∉ args)
    (hq : q.slots = slotsOf ws) : Promised args q where
  listed := by
    intro x hx _
    rw [← hws] at hx
    obtain ⟨v, hv, rfl⟩ := List.mem_map.mp hx
    rw [hq, processQueueContains_slotsOf, if_pos hv]
  every := fun h => absurd h (not_or.mpr ⟨h0, hall⟩)
  only := by
    intro _ _ v hv
    have hmem : v ∉ ws := fun h => hv (hws ▸ List.mem_map_of_mem h)
    rw [hq, processQueueContains_slotsOf, if_neg hmem]
    decide

/-- The queue is as the usage text says exactly when there are arguments, at most as many as the
queue has slots, and the loop does not get to an `all`. -/
theorem queueOfArguments_promised_iff (args : List Str) :
    (∀ q, queueOfArguments args = some q → Promised args q) ↔
      args ≠ [] ∧ args.length ≤ NUMBER_OF_VARIABLES ∧
        (allKeyword ∈ args → ¬ Addable (beforeAll args)) := by
  by_cases h0 : args = []
  · subst h0
    simp only [ne_eq, not_true_eq_false, false_and, iff_false]
    exact fun h => not_promised_default (.inl rfl) (h _ rfl)
  by_cases hlength : args.length ≤ NUMBER_OF_VARIABLES
  · have hargs : queueOfArguments args = addArguments fillQueueWithBogusData 0 args := by
      rw [queueOfArguments, if_neg h0, if_pos hlength]
    have hstart : ([] : List TiggeVariable).length + args.length ≤ NUMBER_OF_VARIABLES := by
      simpa using hlength
    rw [hargs]
    simp only [ne_eq, h0, not_false_eq_true, hlength, true_and]
    by_cases hadd : Addable (beforeAll args)
    · obtain ⟨hsome, hlist⟩ := addArguments_some slotsOf_nil hstart
        (fun _ h => absurd h List.not_mem_nil) hadd
      constructor
      · intro h hall
        exact absurd (h _ (hsome hall)) (not_promised_default (.inr hall))
      · intro h q hq
        have hall : allKeyword ∉ args := fun hall => h hall hadd
        obtain ⟨ws, q', hws, hq', hslots⟩ := hlist hall
        obtain rfl := Option.some.inj (hq.symm.trans hq')
        exact promised_slotsOf hws h0 hall hslots
    · have hnone := addArguments_none slotsOf_nil hstart fun h => hadd h.2
      rw [List.length_nil] at hnone
      simp [hnone, hadd]
  · have hbogus : queueOfArguments args = some fillQueueWithBogusData := by
      rw [queueOfArguments, if_neg h0, if_neg hlength]
    simp only [hlength, false_and, and_false, iff_false]
    exact fun h => not_promised_bogus h0 (h _ hbogus)

/-- `ncdcTigge <date> sf6 all`: what was asked for first is thrown out again. -/
theorem queueOfArguments_drops : ¬ ∀ q,
    queueOfArguments ["sf6".toList, "all".toList] = some q →
      Promised ["sf6".toList, "all".toList] q := by
  intro h
  have hsf6 := (h fillQueueWithDefault rfl).listed "sf6".toList List.mem_cons_self (by decide)
  exact absurd hsf6 (by decide)

end Tigge

import Tigge.GensFileSoundness

/-! The verdict on a file under different orders of the hash that counts its forecast hours. -/

namespace Tigge
open Lib

section Kinds

/-- Both hours read as 0, or as more, or as neither. -/
structure SameKind (fct fct' : Str) : Prop where
  zero : (numberValue fct).eq 0 = (numberValue fct').eq 0
  positive : (numberValue fct).gt 0 = (numberValue fct').gt 0

theorem SameKind.byHour_eq {α : Type} {fct fct' : Str} (h : SameKind fct fct')
    (anl fcst other : α) : byHour fct anl fcst other = byHour fct' anl fcst other := by
  rw [byHour, byHour, h.zero, h.positive]

theorem SameKind.countMessages_eq {fct fct' : Str} (h : SameKind fct fct') (type dtg : Str)
    (numRec : ℕ) : countMessages type dtg fct numRec = countMessages type dtg fct' numRec := by
  rw [Tigge.countMessages_eq, Tigge.countMessages_eq, countMinimum, countMinimum, countMessage,
    countMessage]
  simp only [h.byHour_eq]

/-- A number between two texts can be read off where the second starts with a blank. -/
theorem padded_append_inj {n n' : ℕ} {a b c : Str} (b' : Str) (hb : b = ' ' :: b')
    (h : a ++ padded 0 n ++ b ++ c = a ++ padded 0 n' ++ b ++ c) : n = n' := by
  have htake : ∀ m, (padded 0 m ++ b).takeWhile Char.isDigit = padded 0 m := by
    intro m
    rw [hb, List.takeWhile_append_of_pos fun c hc => isDigit_of_mem_padded hc,
      List.takeWhile_cons_of_neg (by decide), List.append_nil]
  have hmiddle := List.append_cancel_right h
  rw [List.append_assoc, List.append_assoc] at hmiddle
  have hcount := congrArg (List.takeWhile Char.isDigit) (List.append_cancel_left hmiddle)
  rw [htake, htake] at hcount
  rw [← ofDigitChars_padded 0 n, hcount, ofDigitChars_padded]

theorem expected_inj {count count' numRec : ℕ}
    (h : expected count numRec = expected count' numRec) : count = count' :=
  padded_append_inj "Records, found ".toList (by decide) h

/-- Only an hour that reads as 0 or more has a minimum. -/
theorem kind_of_countMinimum {type dtg fct : Str} (h : 0 < countMinimum type dtg fct) :
    (numberValue fct).eq 0 = true ∧ (numberValue fct).gt 0 = false ∨
      (numberValue fct).eq 0 = false ∧ (numberValue fct).gt 0 = true := by
  cases hzero : (numberValue fct).eq 0 with
  | true => exact .inl ⟨rfl, gt_of_eq hzero⟩
  | false =>
    refine .inr ⟨rfl, ?_⟩
    by_contra hpos
    have hother : ∀ anl fcst : ℕ, byHour fct anl fcst 0 = 0 := by
      intro anl fcst
      simp [byHour, hzero, hpos]
    rw [countMinimum, hother, hother, ite_self, ite_self] at h
    exact lt_irrefl 0 h

theorem byHour_zero {α : Type} {fct : Str} (h : (numberValue fct).eq 0 = true)
    (anl fcst other : α) : byHour fct anl fcst other = anl :=
  if_pos h

theorem byHour_positive {α : Type} {fct : Str} (h : (numberValue fct).eq 0 = false)
    (hpos : (numberValue fct).gt 0 = true) (anl fcst other : α) :
    byHour fct anl fcst other = fcst := by
  rw [byHour, h, hpos]
  rfl

/-- The texts for hours of different kinds name different counts. -/
theorem countMessage_ne {type dtg fct fct' : Str} {numRec : ℕ}
    (hzero : (numberValue fct).eq 0 = true) (hzero' : (numberValue fct').eq 0 = false)
    (hpos' : (numberValue fct').gt 0 = true) :
    countMessage type dtg fct numRec ≠ countMessage type dtg fct' numRec := by
  intro h
  obtain ⟨hanl, hfct, -, hfct'⟩ := recCounts_cases dtg
  unfold countMessage at h
  simp only [byHour_zero hzero, byHour_positive hzero' hpos'] at h
  split_ifs at h
  · have hcount := expected_inj (List.append_cancel_left h)
    omega
  · have hcount := expected_inj (List.append_cancel_left (List.append_cancel_right h))
    omega

theorem countMessages_eq_iff {type dtg fct fct' : Str} {numRec : ℕ} :
    countMessages type dtg fct numRec = countMessages type dtg fct' numRec ↔
      SameKind fct fct' ∨
        countMinimum type dtg fct ≤ numRec ∧ countMinimum type dtg fct' ≤ numRec := by
  constructor
  · intro h
    by_cases hmin : countMinimum type dtg fct ≤ numRec
    · rw [countMessages_eq_nil.mpr hmin, eq_comm, countMessages_eq_nil] at h
      exact .inr ⟨hmin, h⟩
    · have hmin' : ¬ countMinimum type dtg fct' ≤ numRec := by
        rwa [← countMessages_eq_nil, ← h, countMessages_eq_nil]
      rw [not_le] at hmin hmin'
      rw [countMessages_eq, countMessages_eq, if_pos hmin, if_pos hmin', List.cons.injEq] at h
      left
      rcases kind_of_countMinimum (Nat.zero_lt_of_lt hmin) with ⟨hzero, hpos⟩ | ⟨hzero, hpos⟩ <;>
        rcases kind_of_countMinimum (Nat.zero_lt_of_lt hmin') with
          ⟨hzero', hpos'⟩ | ⟨hzero', hpos'⟩
      · exact ⟨hzero.trans hzero'.symm, hpos.trans hpos'.symm⟩
      · exact absurd h.1 (countMessage_ne hzero hzero' hpos')
      · exact absurd h.1.symm (countMessage_ne hzero' hzero hpos)
      · exact ⟨hzero.trans hzero'.symm, hpos.trans hpos'.symm⟩
  · rintro (h | ⟨hmin, hmin'⟩)
    · exact h.countMessages_eq type dtg numRec
    · rw [countMessages_eq_nil.mpr hmin, countMessages_eq_nil.mpr hmin']

end Kinds

section Texts

/-- How the messages on the count of the records begin. -/
def countHeads : List Str := ["\n\tQC Warning:  E".toList, "\n\tTEST ".toList]

/-- How all other messages on the listing begin. -/
def otherHeads : List Str :=
  "\n\tQC Error:".toList :: "\n\tQC Warning:  M".toList ::
    "0123456789".toList.map fun c => "\n\tQC Warning:".toList ++ [c]

theorem heads_disjoint : ∀ p ∈ countHeads, ∀ q ∈ otherHeads, ¬ p <+: q ∧ ¬ q <+: p := by
  decide

def IsOther (m : Str) : Prop := ∃ q ∈ otherHeads, q <+: m

theorem prefix_append_append (a b c d : Str) : a <+: a ++ b ++ c ++ d := by
  rw [List.append_assoc, List.append_assoc]
  exact List.prefix_append a _

theorem isOther_qcError (numLine : ℕ) (text : Str) : IsOther (qcError numLine text) :=
  ⟨_, List.mem_cons_self, prefix_append_append _ _ _ _⟩

theorem mem_digits {c : Char} (h : c.isDigit) : c ∈ "0123456789".toList := by
  obtain ⟨hlo, hhi⟩ := digit_bounds h
  rw [← Char.ofNat_toNat c]
  generalize c.toNat = n at hlo hhi
  interval_cases n <;> decide

theorem isOther_qcWarning (numLine : ℕ) (text : Str) : IsOther (qcWarning numLine text) := by
  obtain ⟨c, t, hct⟩ := List.exists_cons_of_ne_nil (padded_ne_nil 0 numLine)
  have hc : c.isDigit := isDigit_of_mem_padded (hct ▸ List.mem_cons_self)
  refine ⟨_, List.mem_cons_of_mem _ (List.mem_cons_of_mem _ (List.mem_map_of_mem (mem_digits hc))),
    ?_⟩
  have hhead : ∀ a : Str, a ++ [c] <+: a ++ padded 0 numLine := by
    intro a
    rw [hct]
    exact (List.prefix_append_right_inj a).mpr ⟨t, rfl⟩
  exact (hhead _).trans ((List.prefix_append _ _).trans (List.prefix_append _ _))

theorem isOther_recordMessages {cycle : Str} {numLine : ℕ} {cols : List Str} {m : Str}
    (h : m ∈ recordMessages cycle numLine cols) : IsOther m := by
  have hone : ∀ (p : Prop) [Decidable p] (text : Str),
      m ∈ (if p then [qcWarning numLine text] else []) → IsOther m := by
    intro p _ text hm
    split_ifs at hm
    · rw [List.mem_singleton.mp hm]
      exact isOther_qcWarning numLine text
    · cases hm
  unfold recordMessages at h
  simp only [List.mem_append] at h
  rcases h with ((((h | h) | h) | h) | h) | h <;> exact hone _ _ h

theorem isOther_hoursMessages {name : Str} {hours : List Str} {m : Str}
    (h : m ∈ hoursMessages name hours) : IsOther m := by
  unfold hoursMessages at h
  split_ifs at h
  · rw [List.mem_singleton.mp h]
    exact ⟨_, List.mem_cons_of_mem _ List.mem_cons_self, by decide⟩
  · cases h

theorem isOther_callMessages {rtn : List Str} {m : Str} (h : m ∈ callMessages rtn) :
    IsOther m := by
  unfold callMessages at h
  split_ifs at h
  · rw [List.mem_singleton.mp h]
    exact ⟨_, List.mem_cons_self, by decide⟩
  · cases h

theorem isOther_scan {inFile cycle : Str} (rtn : List Str) (st : GribScan) :
    (∀ m ∈ st.messages, IsOther m) →
      ∀ m ∈ (rtn.foldl (scanLine inFile cycle) st).messages, IsOther m := by
  refine scan_rec (P := fun _ st last => (∀ m ∈ st.messages, IsOther m) →
    ∀ m ∈ last.messages, IsOther m) (fun _ hst => hst) ?_ rtn st
  intro raw rtn st st' last hstep ih hst
  apply ih
  cases hstep with
  | skipped h => exact hst
  | refused h hrecord text =>
    intro m hm
    rcases List.mem_append.mp hm with hm | hm
    · exact hst m hm
    · rw [List.mem_singleton.mp hm]
      exact isOther_qcError _ _
  | counted h hrecord =>
    intro m hm
    rcases List.mem_append.mp hm with hm | hm
    · exact hst m hm
    · exact isOther_recordMessages hm

theorem countMessage_head (type dtg fct : Str) (numRec : ℕ) :
    ∃ p ∈ countHeads, p <+: countMessage type dtg fct numRec := by
  have hexpected : ∀ n, "QC Warning:  E".toList <+: expected n numRec := by
    intro n
    have hhead : "QC Warning:  E".toList <+: "QC Warning:  Expected ".toList := by decide
    exact hhead.trans (prefix_append_append _ _ _ _)
  unfold countMessage
  split_ifs
  · refine ⟨_, List.mem_cons_self, ?_⟩
    exact (List.prefix_append_right_inj "\n\t".toList).mpr (hexpected _)
  · refine ⟨_, List.mem_cons_of_mem _ List.mem_cons_self, ?_⟩
    exact (List.prefix_append _ _).trans (List.prefix_append _ _)

theorem not_isOther_countMessage (type dtg fct : Str) (numRec : ℕ) :
    ¬ IsOther (countMessage type dtg fct numRec) := by
  rintro ⟨q, hq, hother⟩
  obtain ⟨p, hp, hcount⟩ := countMessage_head type dtg fct numRec
  rcases le_total p.length q.length with hle | hle
  · exact (heads_disjoint p hp q hq).1 (List.prefix_of_prefix_length_le hcount hother hle)
  · exact (heads_disjoint p hp q hq).2 (List.prefix_of_prefix_length_le hother hcount hle)

end Texts

section Order
variable {io : QcFileIo} {inFile cycle : Str} {rtn : List Str}

/-- The same code and the same set of messages. -/
def SameVerdict (result result' : ℕ × Str × List Str) : Prop :=
  result.1 = result'.1 ∧ ∀ m, m ∈ result.2.2 ↔ m ∈ result'.2.2

/-- The message on the count under one order of the hash. -/
def countVerdict (hash : Enumeration Str) (inFile : Str) (rtn : List Str) : List Str :=
  countMessages (fileType inFile) (fileDate inFile) (priFct hash (hoursOf (oneSlash inFile) rtn))
    (hoursOf (oneSlash inFile) rtn).length

theorem countVerdict_eq_of_mem {type dtg fct fct' : Str} {numRec : ℕ}
    (h : ∀ m, m ∈ countMessages type dtg fct numRec ↔ m ∈ countMessages type dtg fct' numRec) :
    countMessages type dtg fct numRec = countMessages type dtg fct' numRec := by
  rw [countMessages_eq, countMessages_eq] at h ⊢
  split_ifs at h ⊢ with hmin hmin'
  · rw [List.mem_singleton.mp ((h _).mp (List.mem_singleton.mpr rfl))]
  · cases (h _).mp (List.mem_singleton.mpr rfl)
  · cases (h _).mpr (List.mem_singleton.mpr rfl)
  · rfl

theorem sameVerdict_iff (hash hash' : Enumeration Str) (h : CanRead io inFile) :
    SameVerdict (qcGensFile io hash inFile cycle rtn) (qcGensFile io hash' inFile cycle rtn) ↔
      countVerdict hash inFile rtn = countVerdict hash' inFile rtn := by
  rw [qcGensFile_eq h, qcGensFile_eq h, SameVerdict]
  generalize hother : (rtn.foldl (scanLine (oneSlash inFile) cycle)
    { messages := callMessages rtn }).messages ++
    hoursMessages (fileNameOf (oneSlash inFile)) (hoursOf (oneSlash inFile) rtn) = other
  have hmem : ∀ m ∈ other, IsOther m := by
    intro m hm
    rw [← hother, List.mem_append] at hm
    rcases hm with hm | hm
    · exact isOther_scan rtn _ (fun _ => isOther_callMessages) m hm
    · exact isOther_hoursMessages hm
  have hdisjoint : ∀ fct m, m ∈ countMessages (fileType inFile) (fileDate inFile) fct
      (hoursOf (oneSlash inFile) rtn).length → m ∉ other := by
    intro fct m hm hmo
    rw [countMessages_eq] at hm
    split_ifs at hm
    · rw [List.mem_singleton.mp hm] at hmo
      exact not_isOther_countMessage _ _ _ _ (hmem _ hmo)
    · cases hm
  constructor
  · rintro ⟨-, hsame⟩
    refine countVerdict_eq_of_mem fun m => ?_
    have hm := hsame m
    rw [List.mem_append, List.mem_append] at hm
    constructor
    · exact fun hcount => (hm.mp (.inr hcount)).resolve_left (hdisjoint _ m hcount)
    · exact fun hcount => (hm.mpr (.inr hcount)).resolve_left (hdisjoint _ m hcount)
  · intro hcount
    rw [countVerdict, countVerdict] at hcount
    rw [hcount]
    exact ⟨rfl, fun _ => .rfl⟩

theorem sameVerdict_of_not_canRead (hash hash' : Enumeration Str) (h : ¬ CanRead io inFile) :
    SameVerdict (qcGensFile io hash inFile cycle rtn) (qcGensFile io hash' inFile cycle rtn) := by
  obtain ⟨result, -, hresult⟩ := qcGensFile_of_not_canRead io inFile cycle rtn h
  rw [hresult, hresult]
  exact ⟨rfl, fun _ => .rfl⟩

/-- Every hour that occurs most often is found in some order. -/
theorem IsPrimary.priFct_first {hours : List Str} {fct : Str} (h : IsPrimary hours fct) :
    priFct (.first fct) hours = fct := by
  have horder := Enumeration.first_order (List.mem_dedup.mpr h.1)
  rw [priFct, horder, foldl_better_first _ (List.count_pos_iff.mpr h.1)]
  intro other hother
  have hlisted := horder ▸ List.mem_cons_of_mem fct hother
  exact h.2 other (List.mem_dedup.mp ((Enumeration.mem_order _).mp hlisted))

/-- The order of the hash is of no account exactly when the hours that occur most often are of
one kind, or the records reach the minima of all of them. -/
theorem qcGensFile_order_iff (io : QcFileIo) (inFile cycle : Str) (rtn : List Str) :
    (∀ hash hash', SameVerdict (qcGensFile io hash inFile cycle rtn)
      (qcGensFile io hash' inFile cycle rtn)) ↔
    (CanRead io inFile → ∀ fct fct', IsPrimary (hoursOf (oneSlash inFile) rtn) fct →
      IsPrimary (hoursOf (oneSlash inFile) rtn) fct' → SameKind fct fct' ∨
        countMinimum (fileType inFile) (fileDate inFile) fct ≤
          (hoursOf (oneSlash inFile) rtn).length ∧
        countMinimum (fileType inFile) (fileDate inFile) fct' ≤
          (hoursOf (oneSlash inFile) rtn).length) := by
  by_cases hread : CanRead io inFile
  · simp only [hread, forall_const, sameVerdict_iff _ _ hread]
    constructor
    · intro hsame fct fct' h h'
      have hcount := hsame (.first fct) (.first fct')
      rwa [countVerdict, countVerdict, h.priFct_first, h'.priFct_first, countMessages_eq_iff]
        at hcount
    · intro hties hash hash'
      by_cases hnone : hoursOf (oneSlash inFile) rtn = []
      · have hstart : ∀ hash : Enumeration Str, priFct hash [] = [] := by
          intro hash
          rw [priFct, List.dedup_nil, List.perm_nil.mp (hash.perm [])]
          rfl
        rw [countVerdict, countVerdict, hnone, hstart, hstart]
      · exact countMessages_eq_iff.mpr (hties _ _ (isPrimary_priFct hash hnone)
          (isPrimary_priFct hash' hnone))
  · simp only [hread, false_implies, iff_true]
    exact fun hash hash' => sameVerdict_of_not_canRead hash hash' hread

/-- 23 records of the hour 0 and 23 of the hour 6 are enough for the one and not for the other. -/
theorem qcGensFile_order_differs : ∃ io hash hash' inFile cycle rtn,
    ¬ SameVerdict (qcGensFile io hash inFile cycle rtn) (qcGensFile io hash' inFile cycle rtn) := by
  have hhours : hoursOf (oneSlash hour6File) (List.replicate 23 (line2007 "0".toList) ++
      List.replicate 23 (line2007 "6".toList)) =
      List.replicate 23 (printed 0) ++ List.replicate 23 (printed 6) := by
    decide +kernel
  refine ⟨readable, .first (printed 0), .first (printed 6), hour6File, cycle2007,
    List.replicate 23 (line2007 "0".toList) ++ List.replicate 23 (line2007 "6".toList), ?_⟩
  rw [sameVerdict_iff _ _ canRead_hour6File, countVerdict, countVerdict, hhours]
  have hzero : IsPrimary (List.replicate 23 (printed 0) ++ List.replicate 23 (printed 6))
      (printed 0) := by
    unfold IsPrimary
    decide +kernel
  have hsix : IsPrimary (List.replicate 23 (printed 0) ++ List.replicate 23 (printed 6))
      (printed 6) := by
    unfold IsPrimary
    decide +kernel
  rw [hzero.priFct_first, hsix.priFct_first, countMessages_eq_iff]
  rintro (hkind | ⟨-, hmin⟩)
  · have hdiffers := hkind.zero
    rw [printed, printed, numberValue_sprintf0, numberValue_sprintf0] at hdiffers
    revert hdiffers
    decide
  · revert hmin
    rw [countMinimum, byHour, byHour, printed, numberValue_sprintf0]
    decide +kernel

end Order

end Tigge

import Tigge.GensFileOrder
import Tigge.Lib.Interleaving

/-! The tag by which `qcGensCycle` knows a directory that it has passed, over histories of calls
one after the other, of which each can be killed at any step. -/

namespace Tigge
open Lib Relation

/-- What does not change from call to call. -/
structure CycleInput where
  inDir : Str
  cycle : Str
  /-- the directory is there, can be read and opened -/
  accessible : Bool
  files : InputDirectory
  gribLs : Str
  gribLsExists : Bool
  gribLsExecutable : Bool
  /-- what `grib_ls` prints of a file -/
  listing : Str → List Str

def CycleInput.fileIo (x : CycleInput) (f : Str) : QcFileIo where
  fileExists := f ∈ x.files
  fileReadable := (x.files.lookup f).any FileStat.readable
  gribLs := x.gribLs
  gribLsExists := x.gribLsExists
  gribLsExecutable := x.gribLsExecutable

def CycleInput.path (x : CycleInput) (f : Str) : Str := x.inDir ++ "/".toList ++ f

/-- `@dirGrb`, sorted. -/
def CycleInput.dirGrb (x : CycleInput) : List Str :=
  (Tigge.dirGrb false x.files).insertionSort (· ≤ ·)

/-- What the deep scan pushes to `@tmp` for one file. -/
def fileProblem (x : CycleInput) (hash : Enumeration Str) (f : Str) : Option Str :=
  let rtn := qcGensFile (x.fileIo f) hash (x.path f) x.cycle (x.listing f)
  if (x.files.lookup f).any fun s => s.size = 0 then
    some (x.path f ++ " :: Zero Byte file".toList)
  else if rtn.1 ≠ 0 then
    some (x.path f ++ " :: ".toList ++ rtn.2.1 ++ " :: ".toList ++ ['|'].intercalate rtn.2.2)
  else if rtn.2.2 ≠ [] then
    some (x.path f ++ " :: ".toList ++ ['|'].intercalate rtn.2.2)
  else none

inductive CycleResult
  | alreadyCompleted
  | passed
  | directoryError
  | failed (q : InputQc)
  | problems (found : List Str)

/-- The text that is returned has `PASSED` in it. -/
def CycleResult.isPassed : CycleResult → Bool
  | .alreadyCompleted | .passed => true
  | _ => false

/-- Where a call is; `found` is `@tmp`. -/
inductive CycleStage
  | idle
  | entering
  | testing
  | counting
  | scanning (rest found : List Str)
  | opening (found : List Str)
  | printing (found : List Str)
  | closing (found : List Str)
  | concluding (found : List Str)
  | reporting (found : List Str)
  | returned (result : CycleResult)
  | killed

/-- No call is under way. -/
def CycleStage.ended : CycleStage → Bool
  | .idle | .returned _ | .killed => true
  | _ => false

/-- The problems of a scan that is complete, until the call returns. -/
def CycleStage.found : CycleStage → Option (List Str)
  | .opening found | .printing found | .closing found | .concluding found => some found
  | _ => none

/-- A scan ends here without a problem. -/
def CycleStage.clean : CycleStage → Bool
  | .scanning [] [] => true
  | _ => false

/-- What differs from step to step. -/
structure CycleEnv where
  hash : Enumeration Str
  tagOpened : Bool
  /-- how much of the text gets into the tag file when it is closed -/
  tagWritten : ℕ
  tagUnlinked : Bool

/-- `-e` is true and `-z` is false. -/
def trusted (tag : Option ℕ) : Bool := tag.any (0 < ·)

/-- One step of `qcGensCycle`, by the size of the tag file. -/
def qcGensCycleStep (x : CycleInput) (env : CycleEnv) (tag : Option ℕ) :
    CycleStage → Option (Option ℕ × CycleStage)
  | .entering => some (tag, if x.accessible then .testing else .returned .directoryError)
  | .testing => some (tag, if trusted tag then .returned .alreadyCompleted else .counting)
  | .counting =>
    match (List.range (perlGetNMembers x.cycle)).findSome? (memberCheck false x.files) with
    | some failed => some (tag, .returned (.failed failed))
    | none => some (tag, .scanning x.dirGrb [])
  | .scanning (f :: rest) found =>
    some (tag, .scanning rest (found ++ (fileProblem x env.hash f).toList))
  | .scanning [] found => some (tag, .opening found)
  -- without a handle, nothing is printed and nothing closed
  | .opening found =>
    some (if env.tagOpened then (some 0, .printing found) else (tag, .concluding found))
  | .printing found => some (tag, .closing found)
  | .closing found => some (some env.tagWritten, .concluding found)
  | .concluding [] => some (tag, .returned .passed)
  | .concluding found => some (if env.tagUnlinked then none else tag, .reporting found)
  | .reporting found => some (tag, .returned (.problems found))
  | .idle | .returned _ | .killed => none

inductive CycleEvent
  | call
  | kill
  | proceed (env : CycleEnv)

structure CycleHistory where
  tag : Option ℕ
  /-- some call has completed its deep scan with no problem recorded -/
  scanned : Bool
  stage : CycleStage

namespace CycleHistory

def beginning : CycleHistory := ⟨none, false, .idle⟩

def step (x : CycleInput) (s : CycleHistory) : CycleEvent → Option CycleHistory
  | .call => if s.stage.ended then some { s with stage := .entering } else none
  | .kill => if s.stage.ended then none else some { s with stage := .killed }
  | .proceed env => (qcGensCycleStep x env s.tag s.stage).map fun t =>
      ⟨t.1, s.scanned || s.stage.clean, t.2⟩

/-- One event after the other. -/
def Follows (x : CycleInput) (s s' : CycleHistory) : Prop := ∃ e, s.step x e = some s'

/-- A call that has found problems, in a directory that has never been scanned without any, is
about to remove the tag that it has written. -/
structure Premature (s : CycleHistory) : Prop where
  found : ∃ f found, s.stage = .concluding (f :: found)
  trusted : trusted s.tag = true
  scanned : s.scanned = false

/-- There it is not killed, and the tag is removed. -/
def FollowsOrderly (x : CycleInput) (s s' : CycleHistory) : Prop :=
  ∃ e, s.step x e = some s' ∧
    (s.Premature → ∃ env, e = .proceed env ∧ env.tagUnlinked = true)

/-- A call that returns `PASSED` does so on a scan that recorded no problem. -/
def PassedOnScan (s : CycleHistory) : Prop :=
  ∀ result, s.stage = .returned result → result.isPassed = true → s.scanned = true

/-- What holds in every state of an orderly history: a tag that is trusted is due to a scan without
problems, or is about to be removed. -/
structure Inv (s : CycleHistory) : Prop where
  tag : trusted s.tag = true →
    s.scanned = true ∨ ∃ f found, s.stage = .concluding (f :: found)
  found : s.stage.found = some [] → s.scanned = true
  returned : s.PassedOnScan

variable {x : CycleInput} {s s' : CycleHistory}

theorem inv_beginning : beginning.Inv where
  tag := nofun
  found := nofun
  returned := nofun

/-- A call that neither concludes nor has passed has only to leave the tag alone. -/
theorem Inv.of_tag {tag : Option ℕ} {scanned : Bool} {stage : CycleStage}
    (htag : trusted tag = true → scanned = true) (hfound : stage.found ≠ some [])
    (hreturned : ∀ result, stage = .returned result → result.isPassed = false) :
    Inv ⟨tag, scanned, stage⟩ where
  tag h := .inl (htag h)
  found h := absurd h hfound
  returned result h hpassed := by
    rw [hreturned result h] at hpassed
    cases hpassed

theorem Inv.scanned_of_trusted (h : s.Inv)
    (hstage : ∀ f found, s.stage ≠ .concluding (f :: found)) (ht : trusted s.tag = true) :
    s.scanned = true := by
  refine (h.tag ht).resolve_right ?_
  rintro ⟨f, found, heq⟩
  exact hstage f found heq

theorem Inv.conclude {tag : Option ℕ} {scanned : Bool} {found : List Str}
    (h : Inv ⟨tag, scanned, .concluding found⟩) {env : CycleEnv}
    (hunlink : Premature ⟨tag, scanned, .concluding found⟩ → env.tagUnlinked = true)
    (hstep : step x ⟨tag, scanned, .concluding found⟩ (.proceed env) = some s') : s'.Inv := by
  cases found with
  | nil =>
    cases hstep
    have hscanned : scanned = true := h.found rfl
    subst hscanned
    exact ⟨fun _ => .inl rfl, nofun, fun _ _ _ => rfl⟩
  | cons f found =>
    cases hstep
    refine .of_tag (fun ht => ?_) nofun nofun
    by_contra hscanned
    have hnever : scanned = false := by
      rw [← Bool.not_eq_true]
      exact fun h => hscanned (by rw [h, Bool.true_or])
    by_cases hunlinked : env.tagUnlinked = true
    · simp [hunlinked, trusted] at ht
    · rw [if_neg hunlinked] at ht
      exact hunlinked (hunlink ⟨⟨f, found, rfl⟩, ht, hnever⟩)

/-- One step of a call keeps the invariant, if a tag to be removed is removed. -/
theorem Inv.proceed (h : s.Inv) {env : CycleEnv} (hunlink : s.Premature → env.tagUnlinked = true)
    (hstep : s.step x (.proceed env) = some s') : s'.Inv := by
  obtain ⟨tag, scanned, stage⟩ := s
  have hfound := h.found
  have hkeep : ∀ b, scanned = true → (scanned || b) = true := fun b h => by rw [h, Bool.true_or]
  -- until the call concludes, the tag is as it was at the start
  have hearly := h.scanned_of_trusted
  cases stage with
  | idle => cases hstep
  | entering =>
    cases hstep
    refine .of_tag (fun ht => hkeep _ (hearly nofun ht)) ?_ ?_ <;> split_ifs
    · nofun
    · nofun
    · nofun
    · rintro _ ⟨⟩
      rfl
  | testing =>
    cases hstep
    by_cases ht : trusted tag = true
    · have hscanned := hearly nofun ht
      exact ⟨fun _ => .inl (hkeep _ hscanned), fun _ => hkeep _ hscanned,
        fun _ _ _ => hkeep _ hscanned⟩
    · rw [if_neg ht]
      exact .of_tag (fun h => absurd h ht) nofun nofun
  | counting =>
    simp only [step, qcGensCycleStep, Option.map_eq_some_iff] at hstep
    obtain ⟨t, ht, rfl⟩ := hstep
    split at ht <;> cases ht
    · refine .of_tag (fun ht => hkeep _ (hearly nofun ht)) nofun ?_
      rintro _ ⟨⟩
      rfl
    · exact .of_tag (fun ht => hkeep _ (hearly nofun ht)) nofun nofun
  | scanning rest found =>
    cases rest with
    | cons f rest =>
      cases hstep
      exact .of_tag (fun ht => hkeep _ (hearly nofun ht)) nofun nofun
    | nil =>
      cases hstep
      refine ⟨fun ht => .inl (hkeep _ (hearly nofun ht)), fun h => ?_, nofun⟩
      have hnil : found = [] := Option.some.inj h
      rw [hnil]
      exact Bool.or_true scanned
  | opening found =>
    cases hstep
    by_cases hopened : env.tagOpened = true
    · rw [if_pos hopened]
      exact ⟨nofun, fun h => hkeep _ (hfound h), nofun⟩
    · rw [if_neg hopened]
      exact ⟨fun ht => .inl (hkeep _ (hearly nofun ht)), fun h => hkeep _ (hfound h), nofun⟩
  | printing found =>
    cases hstep
    exact ⟨fun ht => .inl (hkeep _ (hearly nofun ht)), fun h => hkeep _ (hfound h), nofun⟩
  | closing found =>
    cases hstep
    refine ⟨fun ht => ?_, fun h => hkeep _ (hfound h), nofun⟩
    cases found with
    | nil => exact .inl (hkeep _ (hfound rfl))
    | cons f found => exact .inr ⟨f, found, rfl⟩
  | concluding found => exact h.conclude hunlink hstep
  | reporting found =>
    cases hstep
    refine .of_tag (fun ht => hkeep _ (hearly nofun ht)) nofun ?_
    rintro _ ⟨⟩
    rfl
  | returned result => cases hstep
  | killed => cases hstep

theorem Inv.follows (h : s.Inv) (hstep : s.FollowsOrderly x s') : s'.Inv := by
  obtain ⟨e, hstep, horderly⟩ := hstep
  cases e with
  | call =>
    obtain ⟨hended, ⟨⟩⟩ := Option.ite_none_right_eq_some.mp hstep
    refine .of_tag (h.scanned_of_trusted fun f found heq => ?_) nofun nofun
    rw [heq] at hended
    cases hended
  | kill =>
    obtain ⟨-, ⟨⟩⟩ := Option.ite_none_left_eq_some.mp hstep
    refine .of_tag (fun ht => (h.tag ht).elim id fun hfound => ?_) nofun nofun
    by_contra hscanned
    obtain ⟨env, hevent, -⟩ := horderly ⟨hfound, ht, Bool.not_eq_true _ ▸ hscanned⟩
    cases hevent
  | proceed env =>
    refine h.proceed (fun hpremature => ?_) hstep
    obtain ⟨env', hevent, hunlinked⟩ := horderly hpremature
    cases hevent
    exact hunlinked

/-- In a history in which every call that has found problems removes the tag it has written, no
call returns `PASSED` before a scan has recorded no problem. -/
theorem passedOnScan_of_orderly (x : CycleInput) {s : CycleHistory}
    (h : ReflTransGen (FollowsOrderly x) beginning s) : s.PassedOnScan :=
  (invariant_of_step (fun _ _ h hstep => h.follows hstep) h inv_beginning).returned

section Runs

theorem follows_of_orderly (h : s.FollowsOrderly x s') : s.Follows x s' :=
  h.imp fun _ h => h.1

/-- Only a call that concludes can break the order. -/
theorem orderly_of_step {e : CycleEvent} (h : s.step x e = some s')
    (hstage : ∀ f found, s.stage ≠ .concluding (f :: found)) : s.FollowsOrderly x s' := by
  refine ⟨e, h, fun hpremature => ?_⟩
  obtain ⟨f, found, heq⟩ := hpremature.found
  exact absurd heq (hstage f found)

variable {hash : Enumeration Str}

/-- The tag is opened, written and removed without a failure. -/
def smooth (hash : Enumeration Str) : CycleEnv := ⟨hash, true, 1, true⟩

theorem orderly_of_next (hash : Enumeration Str) (scanned : Bool) {tag tag' : Option ℕ}
    {stage stage' : CycleStage}
    (h : qcGensCycleStep x (smooth hash) tag stage = some (tag', stage'))
    (hstage : ∀ f found, stage ≠ .concluding (f :: found)) (hclean : stage.clean = false) :
    FollowsOrderly x ⟨tag, scanned, stage⟩ ⟨tag', scanned, stage'⟩ := by
  refine orderly_of_step (e := .proceed (smooth hash)) ?_ hstage
  rw [step, h, hclean, Bool.or_false]
  rfl

theorem scan_run (hash : Enumeration Str) (tag : Option ℕ) (scanned : Bool)
    (rest found : List Str) :
    ReflTransGen (FollowsOrderly x) ⟨tag, scanned, .scanning rest found⟩
      ⟨tag, scanned, .scanning [] (found ++ rest.filterMap (fileProblem x hash))⟩ := by
  induction rest generalizing found with
  | nil => simpa using .refl
  | cons f rest ih =>
    have hstep : FollowsOrderly x ⟨tag, scanned, .scanning (f :: rest) found⟩
        ⟨tag, scanned, .scanning rest (found ++ (fileProblem x hash f).toList)⟩ :=
      orderly_of_next hash scanned rfl nofun rfl
    have hrun := ih (found ++ (fileProblem x hash f).toList)
    rw [List.append_assoc] at hrun
    have hlist : (f :: rest).filterMap (fileProblem x hash) =
        (fileProblem x hash f).toList ++ rest.filterMap (fileProblem x hash) := by
      cases hf : fileProblem x hash f <;> simp [hf]
    rw [hlist]
    exact .head hstep hrun

/-- A first call that is left alone comes to conclude on what its scan has found. -/
theorem first_run (hash : Enumeration Str) (haccess : x.accessible = true)
    (hmembers : ∀ m < perlGetNMembers x.cycle, memberCheck false x.files m = none) :
    ReflTransGen (FollowsOrderly x) beginning ⟨some 1,
      CycleStage.clean (.scanning [] (x.dirGrb.filterMap (fileProblem x hash))),
      .concluding (x.dirGrb.filterMap (fileProblem x hash))⟩ := by
  have hnone : (List.range (perlGetNMembers x.cycle)).findSome? (memberCheck false x.files) =
      none := List.findSome?_eq_none_iff.mpr fun m hm => hmembers m (List.mem_range.mp hm)
  have hentered : FollowsOrderly x beginning ⟨none, false, .entering⟩ :=
    orderly_of_step (e := .call) rfl nofun
  have htested : FollowsOrderly x ⟨none, false, .entering⟩ ⟨none, false, .testing⟩ := by
    refine orderly_of_next hash false ?_ nofun rfl
    rw [qcGensCycleStep, if_pos haccess]
  have hcounting : FollowsOrderly x ⟨none, false, .testing⟩ ⟨none, false, .counting⟩ :=
    orderly_of_next hash false rfl nofun rfl
  have hcounted : FollowsOrderly x ⟨none, false, .counting⟩
      ⟨none, false, .scanning x.dirGrb []⟩ := by
    refine orderly_of_next hash false ?_ nofun rfl
    rw [qcGensCycleStep, hnone]
  have hscan := scan_run (x := x) hash none false x.dirGrb []
  rw [List.nil_append] at hscan
  generalize x.dirGrb.filterMap (fileProblem x hash) = found at hscan ⊢
  have hscanned : FollowsOrderly x ⟨none, false, .scanning [] found⟩
      ⟨none, CycleStage.clean (.scanning [] found), .opening found⟩ :=
    orderly_of_step (e := .proceed (smooth hash)) rfl nofun
  generalize CycleStage.clean (.scanning [] found) = scanned at hscanned ⊢
  have hopened : FollowsOrderly x ⟨none, scanned, .opening found⟩
      ⟨some 0, scanned, .printing found⟩ := orderly_of_next hash scanned rfl nofun rfl
  have hprinted : FollowsOrderly x ⟨some 0, scanned, .printing found⟩
      ⟨some 0, scanned, .closing found⟩ := orderly_of_next hash scanned rfl nofun rfl
  have hclosed : FollowsOrderly x ⟨some 0, scanned, .closing found⟩
      ⟨some 1, scanned, .concluding found⟩ := orderly_of_next hash scanned rfl nofun rfl
  exact ((((((((ReflTransGen.single hentered).tail htested).tail hcounting).tail hcounted).trans
    hscan).tail hscanned).tail hopened).tail hprinted).tail hclosed

/-- Where no file has a problem, such a call returns `PASSED`. -/
theorem passed_run (hash : Enumeration Str) (haccess : x.accessible = true)
    (hmembers : ∀ m < perlGetNMembers x.cycle, memberCheck false x.files m = none)
    (hfiles : ∀ f ∈ x.dirGrb, fileProblem x hash f = none) :
    ReflTransGen (FollowsOrderly x) beginning ⟨some 1, true, .returned .passed⟩ := by
  have hfirst := first_run hash haccess hmembers
  rw [List.filterMap_eq_nil_iff.mpr hfiles] at hfirst
  have hreturned : FollowsOrderly x ⟨some 1, true, .concluding []⟩
      ⟨some 1, true, .returned .passed⟩ := orderly_of_next hash true rfl nofun rfl
  exact hfirst.tail hreturned

/-- A directory that passes when nothing is said of the listings is passed by such a call. -/
theorem passed_run_of_qcGensCycle (hash : Enumeration Str) (haccess : x.accessible = true)
    (hquiet : ∀ f ∈ x.dirGrb, usable x.files f = true → fileProblem x hash f = none)
    (hpassed : qcGensCycle false x.cycle x.files = .passed) :
    ReflTransGen (FollowsOrderly x) beginning ⟨some 1, true, .returned .passed⟩ := by
  obtain ⟨hmembers, husable⟩ := (qcGensCycle_passed_iff false).mp hpassed
  refine passed_run hash haccess (fun m hm => (memberCheck_eq_none false).mpr (hmembers m hm))
    fun f hf => hquiet f hf (husable f ?_)
  rwa [CycleInput.dirGrb, List.mem_insertionSort] at hf

end Runs

section Directories

/-- A directory that passes the count, with what `grib_ls` prints of all its files. -/
def threeHourlyInput (rtn : List Str) : CycleInput where
  inDir := "/in/2021010100".toList
  cycle := "2021010100".toList
  accessible := true
  files := usableFiles (ensembleNames threeHourly)
  gribLs := "/usr/bin/grib_ls".toList
  gribLsExists := true
  gribLsExecutable := true
  listing := fun _ => rtn

variable {rtn : List Str}

theorem memberCheck_threeHourlyInput : ∀ m < perlGetNMembers (threeHourlyInput rtn).cycle,
    memberCheck false (threeHourlyInput rtn).files m = none := fun _ hm =>
  (memberCheck_eq_none false).mpr fun type =>
    filesPerMember_threeHourly (hm.trans_le (perlGetNMembers_le _)) type

theorem mem_dirGrb_threeHourlyInput {f : Str} :
    f ∈ (threeHourlyInput rtn).dirGrb ↔ f ∈ ensembleNames threeHourly := by
  rw [CycleInput.dirGrb, List.mem_insertionSort, dirGrb, List.mem_filter, ← AList.mem_keys]
  show f ∈ usableFiles (ensembleNames threeHourly) ∧ _ ↔ _
  rw [mem_usableFiles]
  refine and_iff_left_of_imp fun hf => ?_
  obtain ⟨m, hm, type, hf⟩ := mem_ensembleNames.mp hf
  exact (matched_threeHourly hm hf).1

theorem fileProblem_eq_none (hash : Enumeration Str) {f : Str}
    (hf : f ∈ ensembleNames threeHourly) :
    fileProblem (threeHourlyInput rtn) hash f = none ↔
      Clean (qcGensFile ((threeHourlyInput rtn).fileIo f) hash ((threeHourlyInput rtn).path f)
        "2021010100".toList rtn) := by
  have hsize : (((threeHourlyInput rtn).files.lookup f).any fun s => s.size = 0) = false := by
    show ((usableFiles (ensembleNames threeHourly)).lookup f).any _ = false
    rw [lookup_usableFiles, if_pos hf]
    rfl
  rw [fileProblem, hsize, Clean]
  show (if (qcGensFile _ _ _ _ _).1 ≠ 0 then _ else if _ then _ else none) = none ↔ _
  split_ifs with hcode hmessages
  · exact iff_of_false not_false fun h => hcode h.1
  · exact iff_of_false not_false fun h => hmessages h.2
  · exact iff_of_true rfl ⟨not_not.mp hcode, not_not.mp hmessages⟩

theorem oneSlash_of_notMem {f : Str} (hf : '/' ∉ f) : oneSlash f = f := by
  induction f with
  | nil => rfl
  | cons c f ih =>
    rw [List.mem_cons, not_or] at hf
    rw [oneSlash, if_neg (by simp [Ne.symm hf.1]), ih hf.2]

theorem oneSlash_append (d : Str) {f : Str} (hf : '/' ∉ f) :
    oneSlash (d ++ '/' :: f) = oneSlash (d ++ ['/']) ++ f := by
  induction d with
  | nil =>
    have hhead : f.head? ≠ some '/' := fun h => hf (List.mem_of_head? h)
    rw [List.nil_append, oneSlash, if_neg (by simp [hhead]), oneSlash_of_notMem hf]
    rfl
  | cons c d ih =>
    have hhead : (d ++ '/' :: f).head? = (d ++ ['/']).head? := by cases d <;> rfl
    rw [List.cons_append, List.cons_append, oneSlash, oneSlash, hhead, ih]
    split_ifs <;> rfl

theorem parentName_of_reverse {inFile name parent u : Str} {us : List Str}
    (h : (inFile.splitOnP (· = '/')).reverse = name :: parent :: u :: us) :
    parentName inFile = parent := by
  rw [parentName, h]
  cases parent <;> rfl

theorem parentName_threeHourlyInput {f : Str} (hf : '/' ∉ f) :
    parentName (oneSlash ((threeHourlyInput rtn).path f)) = "2021010100".toList := by
  have hpath : (threeHourlyInput rtn).path f = "/in/2021010100".toList ++ '/' :: f :=
    List.append_assoc _ _ _
  have hone : oneSlash ("/in/2021010100".toList ++ ['/']) = "/in/2021010100".toList ++ ['/'] := by
    decide
  have hparts : ("/in/2021010100".toList ++ ['/'] ++ f).splitOnP (· = '/') =
      [[], "in".toList, "2021010100".toList, f] := by
    show ([] ++ '/' :: ("in".toList ++ '/' :: ("2021010100".toList ++ '/' :: f))).splitOnP
      (· = '/') = _
    have hlast : ∀ c ∈ f, decide (c = '/') = false := by
      intro c hc
      exact decide_eq_false fun h => hf (h ▸ hc)
    rw [List.splitOnP_append_cons_of_forall_mem (by simp) '/' rfl,
      List.splitOnP_append_cons_of_forall_mem (by simp) '/' rfl,
      List.splitOnP_append_cons_of_forall_mem (by simp) '/' rfl,
      List.splitOnP_eq_singleton hlast]
  rw [hpath, oneSlash_append _ hf, hone]
  exact parentName_of_reverse (congrArg List.reverse hparts)

theorem slash_notMem_threeHourly {f : Str} (hf : f ∈ ensembleNames threeHourly) : '/' ∉ f := by
  obtain ⟨m, -, type, hf⟩ := mem_ensembleNames.mp hf
  obtain ⟨k, -, rfl⟩ := List.mem_map.mp hf
  have hpad : ∀ w n, '/' ∉ padded w n := fun w n => notMem_padded rfl
  have htail : '/' ∉ inputTail newYear (3 * k) := by
    rw [inputTail]
    split_ifs
    · exact fun h => (List.mem_append.mp h).elim (by decide) (hpad 2 _)
    · exact fun h => (List.mem_append.mp h).elim (by decide) (hpad 3 _)
  have hkind : '/' ≠ if m = 0 then 'c' else 'p' := by split_ifs <;> decide
  have hletter : '/' ∉ type.fileLetter := by cases type <;> decide
  have hhour : '/' ∉ sprintf0 2 newYear.hh := by decide
  rw [inputName_eq]
  simp only [List.mem_append, List.mem_cons, hpad, htail, hkind, hletter, hhour, or_false, false_or]
  decide

/-- A call that is killed before it has removed its tag makes the next one return `PASSED`. -/
theorem passed_without_scan : ∃ x s, ReflTransGen (Follows x) beginning s ∧ ¬ s.PassedOnScan := by
  have hfirst := first_run (x := threeHourlyInput []) .asListed rfl memberCheck_threeHourlyInput
  have hmem : inputName .aFile newYear 0 0 ∈ (threeHourlyInput []).dirGrb := by
    rw [mem_dirGrb_threeHourlyInput, mem_ensembleNames]
    exact ⟨0, by decide, .aFile, List.mem_map.mpr ⟨0, by decide, rfl⟩⟩
  have hproblem : ∀ f ∈ (threeHourlyInput []).dirGrb,
      fileProblem (threeHourlyInput []) .asListed f ≠ none := by
    intro f hf hnone
    rw [fileProblem_eq_none .asListed (mem_dirGrb_threeHourlyInput.mp hf),
      qcGensFile_clean_iff] at hnone
    exact hnone.printed rfl
  obtain ⟨f, found, hfound⟩ := List.exists_cons_of_ne_nil
    (l := (threeHourlyInput []).dirGrb.filterMap (fileProblem (threeHourlyInput []) .asListed)) (by
      intro hnil
      rw [List.filterMap_eq_nil_iff] at hnil
      exact hproblem _ hmem (hnil _ hmem))
  rw [hfound] at hfirst
  have hkilled : Follows (threeHourlyInput []) ⟨some 1, false, .concluding (f :: found)⟩
      ⟨some 1, false, .killed⟩ := ⟨.kill, rfl⟩
  have hcalled : Follows (threeHourlyInput []) ⟨some 1, false, .killed⟩
      ⟨some 1, false, .entering⟩ := ⟨.call, rfl⟩
  have hentered : Follows (threeHourlyInput []) ⟨some 1, false, .entering⟩
      ⟨some 1, false, .testing⟩ := ⟨.proceed (smooth .asListed), rfl⟩
  have hreturned : Follows (threeHourlyInput []) ⟨some 1, false, .testing⟩
      ⟨some 1, false, .returned .alreadyCompleted⟩ := ⟨.proceed (smooth .asListed), rfl⟩
  refine ⟨threeHourlyInput [], _, ((((ReflTransGen.mono (fun _ _ => follows_of_orderly)
    _ _ hfirst).tail hkilled).tail hcalled).tail hentered).tail hreturned, fun h => ?_⟩
  cases h .alreadyCompleted rfl rfl

/-- 288 records of the hour 6 are enough for every file. -/
def hour6Listing : List Str := List.replicate 288 (gribLine "6".toList "259920".toList)

theorem listed_hour6 (inFile : Str) :
    listed inFile hour6Listing = List.replicate 288 (gribColumns 6 259920) := by
  have hcolumns : lineData (lineOf (gribLine "6".toList "259920".toList)) =
      gribColumns 6 259920 := by decide +kernel
  have hkeys : lineOf (gribLine "6".toList "259920".toList) ≠ gribLsKeysString := by
    decide +kernel
  have hlisted : isListed inFile (gribLine "6".toList "259920".toList) = true := by
    have hchomp : chomp (gribLine "6".toList "259920".toList) ≠ [] := by decide +kernel
    rw [isListed, isHeading, hcolumns, decide_eq_true hchomp, decide_eq_false hkeys]
    rfl
  rw [listed, hour6Listing, List.filter_replicate_of_pos hlisted, List.map_replicate, hcolumns]

theorem passes_hour6 (hash : Enumeration Str) {f : Str} (hf : f ∈ ensembleNames threeHourly) :
    Passes ((threeHourlyInput hour6Listing).fileIo f) hash ((threeHourlyInput hour6Listing).path f)
      "2021010100".toList hour6Listing := by
  have hparent : parentName (oneSlash ((threeHourlyInput hour6Listing).path f)) =
      "2021010100".toList := parentName_threeHourlyInput (slash_notMem_threeHourly hf)
  have hmem : f ∈ usableFiles (ensembleNames threeHourly) := mem_usableFiles.mpr hf
  have hhours : hoursOf (oneSlash ((threeHourlyInput hour6Listing).path f)) hour6Listing =
      List.replicate 288 (printed 6) := by
    rw [hoursOf, listed_hour6, List.filter_replicate_of_pos rfl, List.map_replicate]
    rfl
  constructor
  · refine ⟨decide_eq_true hmem, ?_, rfl, rfl, ?_⟩
    · show ((usableFiles (ensembleNames threeHourly)).lookup f).any FileStat.readable = true
      rw [lookup_usableFiles, if_pos hf]
      rfl
    · rw [hparent]
      decide
  · exact List.cons_ne_nil _ _
  · rw [listed_hour6]
    intro cols hcols
    rw [List.eq_of_mem_replicate hcols]
    exact passesTests_gribColumns (by decide +kernel) (by decide +kernel) (by decide)
  · have hone : (List.replicate 288 (printed 6)).dedup.length = 1 := by decide +kernel
    rw [hhours, hoursMessages, hone]
    rfl
  · rw [hhours, countMessages_eq_nil, List.length_replicate]
    exact countMinimum_le _ _ _

theorem passedOnScan_hour6 : ∃ s, ReflTransGen (FollowsOrderly (threeHourlyInput hour6Listing))
    beginning s ∧ s.stage = .returned .passed ∧ s.PassedOnScan := by
  have hfiles : ∀ f ∈ (threeHourlyInput hour6Listing).dirGrb,
      fileProblem (threeHourlyInput hour6Listing) .asListed f = none := by
    intro f hf
    rw [mem_dirGrb_threeHourlyInput] at hf
    exact (fileProblem_eq_none .asListed hf).mpr
      (qcGensFile_clean_iff.mpr (passes_hour6 .asListed hf))
  have hrun := passed_run .asListed rfl memberCheck_threeHourlyInput hfiles
  exact ⟨_, hrun, rfl, passedOnScan_of_orderly (threeHourlyInput hour6Listing) hrun⟩

end Directories

end CycleHistory

end Tigge

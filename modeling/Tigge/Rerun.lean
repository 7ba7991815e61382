import Tigge.QcOutput
import Tigge.RunCycle

/-! Calls of `runCycle` on one cycle, one after the other, each of which may be stopped or killed
anywhere: what they leave in `TIGGE_OUTPUT` and what a later call archives. -/

namespace Tigge
open Lib Lib.Configuration Relation

/-- What the calls share. A file is known by the call whose `ncdcTigge` wrote it. -/
structure OutputArea (P : Type*) where
  lock : Bool
  /-- `OUTPUT.QC.PASS.<cycle>` -/
  passTag : Bool
  /-- the `.grib` files of the output directory itself -/
  loose : AList fun _ : Str => P
  /-- the files of `archive/<cycle>` -/
  archived : AList fun _ : Str => P

variable {P : Type*} (cycle : Str) (d : CycleDate)

/-- The stages of `runCycle`, with what output QC finds in the output directory. -/
def advance (o : Outcome) (io : QcOutputIo) (a : OutputArea P) (st : Stage) :
    Option (OutputArea P × Stage) :=
  let found := { o with outputQc := qcOutput io cycle a.passTag a.loose.keys }
  (runCycle found a.lock st).map fun t =>
    ({ lock := t.1
       passTag := a.passTag || t.2 = .archiving
       loose := a.loose
       -- `rmtree` of `archive/<cycle>`; the output directory itself is not looked at
       archived := if st = .clearing then ∅ else a.archived }, t.2)

/-- Everything a call does to the output area. -/
inductive Does (p : P) : OutputArea P × Stage → OutputArea P × Stage → Prop
  | advance {a : OutputArea P} {st : Stage} {t : OutputArea P × Stage} (o : Outcome)
      (io : QcOutputIo) (h : Tigge.advance cycle o io a st = some t) (hst : st ≠ .archiving) :
      Does p (a, st) t
  | killed {a : OutputArea P} {st : Stage} : Does p (a, st) (a, .died)
  /-- `run_ncep_convert.pl` puts its files in `archive/<cycle>` -/
  | convert {a : OutputArea P} (archived : AList fun _ : Str => P) :
      Does p (a, .converting) ({ a with archived := archived }, .converting)
  /-- `writeGribToFile` -/
  | write {a : OutputArea P} {f : Str} (hf : IsProgramFile cycle d f) :
      Does p (a, .processing) ({ a with loose := a.loose.insert f p }, .processing)
  /-- `archiveOutput` writes a copy, -/
  | copy {a : OutputArea P} {f : Str} {w : P} (hf : a.loose.lookup f = some w) :
      Does p (a, .archiving) ({ a with archived := a.archived.insert f w }, .archiving)
  /-- unlinks the file when the copy is complete, -/
  | moved {a : OutputArea P} {f : Str} (hf : a.loose.lookup f = a.archived.lookup f) :
      Does p (a, .archiving) ({ a with loose := a.loose.erase f }, .archiving)
  /-- and otherwise unlinks the copy. -/
  | discard {a : OutputArea P} {f : Str} (hf : (a.loose.lookup f).isSome) :
      Does p (a, .archiving) ({ a with archived := a.archived.erase f }, .archiving)
  | moveTag {a : OutputArea P} : Does p (a, .archiving) ({ a with passTag := false }, .archiving)
  | archivingDone {a : OutputArea P} : Does p (a, .archiving) (a, .packing)
  | pack {a : OutputArea P} (archived : AList fun _ : Str => P) :
      Does p (a, .packing) ({ a with archived := archived }, .packing)

abbrev History (P : Type*) := Configuration P (OutputArea P) Stage

/-- A call moves while no other is under way, or the operator removes the lock file. -/
inductive HistoryStep [DecidableEq P] (R : P → OutputArea P × Stage → OutputArea P × Stage → Prop) :
    History P → History P → Prop
  | call {c : History P} {p : P} {t : OutputArea P × Stage}
      (hidle : ∀ q, q ≠ p → c.stage q = .checking ∨ (c.stage q).ended = true)
      (h : R p (c.shared, c.stage p) t) : HistoryStep R c (c.move p t)
  | removeLock {c : History P} :
      HistoryStep R c { c with shared := { c.shared with lock := false } }

/-- Before any call, with whatever the program left there for any cycle. -/
structure Beginning (c : History P) : Prop where
  checking : ∀ p, c.stage p = .checking
  generated : ∀ f ∈ c.shared.loose.keys, IsGeneratedFile f

/-- The required files of the output directory, as far as they are there, are the call's own. -/
def OwnLoose (p : P) (a : OutputArea P) : Prop :=
  ∀ f ∈ requiredFiles cycle d, ∀ w, a.loose.lookup f = some w → w = p

/-- Every required file is the call's own, still loose or already archived. -/
def OwnArchived (p : P) (a : OutputArea P) : Prop :=
  ∀ f ∈ requiredFiles cycle d, a.loose.lookup f = some p ∨ a.archived.lookup f = some p

/-- What holds of a call while it archives. -/
def Mine (p : P) (a : OutputArea P) (st : Stage) : Prop :=
  st = .archiving → OwnLoose cycle d p a ∧ OwnArchived cycle d p a

/-- What a call finds at output QC: no pass tag and, where the count is complete, none of the
required files as another call has left it. -/
def Rewritten (p : P) (a : OutputArea P) : Prop :=
  a.passTag = false ∧ (countsPass cycle a.loose.keys = true → OwnLoose cycle d p a)

/-- A call that has written the required files again when it comes to output QC. -/
def DoesRewriting (p : P) (x y : OutputArea P × Stage) : Prop :=
  Does cycle d p x y ∧ (x.2 = .outputQc → Rewritten cycle d p x.1)

variable {cycle d}

theorem OwnLoose.mono {p : P} {a b : OutputArea P}
    (h : ∀ f w, b.loose.lookup f = some w → a.loose.lookup f = some w ∨ w = p)
    (ha : OwnLoose cycle d p a) : OwnLoose cycle d p b := fun f hf w hw =>
  (h f w hw).elim (ha f hf w) id

theorem exists_lookup_of_countsPass (hcycle : isDtg cycle = true) (hd : parseDate cycle = some d)
    {names : AList fun _ : Str => P} (hgen : ∀ f ∈ names.keys, IsGeneratedFile f)
    (h : countsPass cycle names.keys = true) {f : Str} (hf : f ∈ requiredFiles cycle d) :
    ∃ w, names.lookup f = some w := by
  obtain ⟨hl, hs⟩ := isDtg_digits hcycle
  have hmem : f ∈ names.keys := mem_of_countsPass names.keys_nodup
    (fun g hg => isProgramFile_of_mem hl hs hd hgen hg) h hf
  exact Option.isSome_iff_exists.mp (AList.lookup_isSome.mpr (AList.mem_keys.mpr hmem))

/-- A call that gets past output QC without a tag file has every required file in place. -/
theorem Rewritten.own_of_qcOutput (hcycle : isDtg cycle = true) (hd : parseDate cycle = some d)
    {p : P} {a : OutputArea P} (h : Rewritten cycle d p a)
    (hgen : ∀ f ∈ a.loose.keys, IsGeneratedFile f) {io : QcOutputIo}
    (hqc : qcOutput io cycle a.passTag a.loose.keys = true) :
    OwnLoose cycle d p a ∧ OwnArchived cycle d p a := by
  have hcount : countsPass cycle a.loose.keys = true := by
    rw [qcOutput, h.1, Bool.false_or] at hqc
    simp only [Bool.and_eq_true] at hqc
    exact hqc.2.1.1.2
  refine ⟨h.2 hcount, fun f hf => ?_⟩
  obtain ⟨w, hw⟩ := exists_lookup_of_countsPass hcycle hd hgen hcount hf
  exact .inl (h.2 hcount f hf w hw ▸ hw)

theorem mine_advance (hcycle : isDtg cycle = true) (hd : parseDate cycle = some d) {p : P}
    {a : OutputArea P} {st : Stage} (hgen : ∀ f ∈ a.loose.keys, IsGeneratedFile f)
    (hrewritten : st = .outputQc → Rewritten cycle d p a) {o : Outcome} {io : QcOutputIo}
    {t : OutputArea P × Stage} (h : advance cycle o io a st = some t) :
    t.1.loose = a.loose ∧ Mine cycle d p t.1 t.2 := by
  obtain ⟨⟨lock, st'⟩, hrun, rfl⟩ := Option.map_eq_some_iff.mp h
  refine ⟨rfl, fun hst' => ?_⟩
  -- only output QC leads to the archiving
  replace hst' : st' = .archiving := hst'
  subst hst'
  cases st with
  | outputQc =>
    by_cases hqc : qcOutput io cycle a.passTag a.loose.keys = true
    · obtain ⟨hloose, harchived⟩ := (hrewritten rfl).own_of_qcOutput hcycle hd hgen hqc
      exact ⟨hloose, fun f hf => harchived f hf⟩
    · have hstage := congrArg Prod.snd (Option.some.inj hrun)
      simp only [hqc, Bool.false_eq_true, if_false] at hstage
      cases hstage
  | checking =>
    have hstage : environmentCheck _ = .archiving := congrArg Prod.snd (Option.some.inj hrun)
    rcases environmentCheck_cases { o with outputQc := _ } with henv | henv <;>
      rw [hstage] at henv <;> cases henv
  | testing | clearing | inputQc =>
    have hstage := congrArg Prod.snd (Option.some.inj hrun)
    dsimp only at hstage
    split at hstage <;> cases hstage
  | locking | rejected | converting | processing | archiving | packing | completing | unlocking =>
    cases hrun
  | returned _ | died => cases hrun

theorem mine_does (hcycle : isDtg cycle = true) (hd : parseDate cycle = some d) {p : P}
    {x y : OutputArea P × Stage} (hgen : ∀ f ∈ x.1.loose.keys, IsGeneratedFile f)
    (hmine : Mine cycle d p x.1 x.2) (h : DoesRewriting cycle d p x y) :
    (∀ f ∈ y.1.loose.keys, IsGeneratedFile f) ∧ Mine cycle d p y.1 y.2 := by
  obtain ⟨h, hrewritten⟩ := h
  cases h with
  | advance o io hadv hst =>
    obtain ⟨hloose, hy⟩ := mine_advance hcycle hd hgen hrewritten hadv
    exact ⟨hloose ▸ hgen, hy⟩
  | killed => exact ⟨hgen, nofun⟩
  | convert _ => exact ⟨hgen, nofun⟩
  | @write a f hf =>
    refine ⟨fun g hg => ?_, nofun⟩
    rcases (AList.mem_insert _).mp (AList.mem_keys.mp hg) with rfl | hg
    · obtain ⟨hl, hs⟩ := isDtg_digits hcycle
      exact hf.isGeneratedFile hl hs hd
    · exact hgen g (AList.mem_keys.mpr hg)
  | @copy a f w hf =>
    obtain ⟨hloose, harchived⟩ := hmine rfl
    refine ⟨hgen, fun _ => ⟨hloose, fun g hg => ?_⟩⟩
    by_cases hgf : g = f
    · subst hgf
      exact .inl (hloose g hg w hf ▸ hf)
    · exact (harchived g hg).imp_right fun h => by rwa [AList.lookup_insert_ne hgf]
  | @moved a f hf =>
    obtain ⟨hloose, harchived⟩ := hmine rfl
    refine ⟨fun g hg => hgen g ?_, fun _ => ⟨hloose.mono fun g w hw => ?_, fun g hg => ?_⟩⟩
    · exact AList.mem_keys.mp (AList.mem_erase.mp (AList.mem_keys.mpr hg)).2
    · by_cases hgf : g = f
      · subst hgf
        rw [AList.lookup_erase] at hw
        cases hw
      · exact .inl (by rwa [AList.lookup_erase_ne hgf] at hw)
    · by_cases hgf : g = f
      · subst hgf
        -- the copy that made the source superfluous is a copy of it
        exact .inr ((harchived g hg).elim (fun h => hf ▸ h) id)
      · exact (harchived g hg).imp_left fun h => by rwa [AList.lookup_erase_ne hgf]
  | @discard a f hf =>
    obtain ⟨hloose, harchived⟩ := hmine rfl
    refine ⟨hgen, fun _ => ⟨hloose, fun g hg => ?_⟩⟩
    by_cases hgf : g = f
    · subst hgf
      obtain ⟨w, hw⟩ := Option.isSome_iff_exists.mp hf
      exact .inl (hloose g hg w hw ▸ hw)
    · exact (harchived g hg).imp_right fun h => by rwa [AList.lookup_erase_ne hgf]
  | moveTag => exact ⟨hgen, fun _ => hmine rfl⟩
  | archivingDone => exact ⟨hgen, nofun⟩
  | pack _ => exact ⟨hgen, nofun⟩

section Runs
variable [DecidableEq P]

/-- What every state of a history satisfies. -/
structure Kept (cycle : Str) (d : CycleDate) (c : History P) : Prop where
  generated : ∀ f ∈ c.shared.loose.keys, IsGeneratedFile f
  mine : ∀ p, Mine cycle d p c.shared (c.stage p)

omit [DecidableEq P] in
theorem Beginning.kept {c : History P} (h : Beginning c) : Kept cycle d c where
  generated := h.generated
  mine := fun p hp => by
    rw [h.checking p] at hp
    cases hp

omit [DecidableEq P] in
theorem mine_of_idle {p : P} {a : OutputArea P} {st : Stage}
    (h : st = .checking ∨ st.ended = true) : Mine cycle d p a st := by
  rintro rfl
  rcases h with h | h <;> cases h

theorem Kept.step (hcycle : isDtg cycle = true) (hd : parseDate cycle = some d) {c c' : History P}
    (hc : Kept cycle d c) (h : HistoryStep (DoesRewriting cycle d) c c') : Kept cycle d c' := by
  cases h with
  | @call p t hidle h =>
    obtain ⟨hgen, hmine⟩ := mine_does hcycle hd hc.generated (hc.mine p) h
    refine ⟨hgen, fun q => ?_⟩
    by_cases hq : q = p
    · subst hq
      rwa [move_stage_self]
    · rw [move_stage_of_ne c hq]
      exact mine_of_idle (hidle q hq)
  | removeLock =>
    exact ⟨hc.generated, hc.mine⟩

/-- Where every call that comes to output QC has written the required files again, a call that is
archiving archives what its own `ncdcTigge` wrote, whatever the calls before it have left. -/
theorem runCycle_archives_own (hcycle : isDtg cycle = true) (hd : parseDate cycle = some d)
    {c₀ c : History P} (h₀ : Beginning c₀)
    (h : ReflTransGen (HistoryStep (DoesRewriting cycle d)) c₀ c) {p : P}
    (hp : c.stage p = .archiving) :
    ∀ f ∈ requiredFiles cycle d,
      c.shared.loose.lookup f = some p ∨ c.shared.archived.lookup f = some p := by
  have hc : Kept cycle d c :=
    invariant_of_step (fun _ _ hc hs => hc.step hcycle hd hs) h h₀.kept
  exact (hc.mine p hp).2

/-- A call by itself, while the others stand still. -/
theorem history_of_alone {R : P → OutputArea P × Stage → OutputArea P × Stage → Prop} {p : P}
    {c : History P} (hidle : ∀ q, q ≠ p → c.stage q = .checking ∨ (c.stage q).ended = true)
    {x y : OutputArea P × Stage} (h : ReflTransGen (R p) x y) :
    ReflTransGen (HistoryStep R) (c.move p x) (c.move p y) := by
  induction h with
  | refl => exact .refl
  | @tail u v _ huv ih =>
    refine ih.tail (move_move c p u v ▸ .call (fun q hq => ?_) ?_)
    · rw [move_stage_of_ne c hq]
      exact hidle q hq
    · rwa [move_shared, move_stage_self]

end Runs

section Smooth
variable {R : OutputArea P × Stage → OutputArea P × Stage → Prop} {p : P} {a : OutputArea P}

theorem advance_eq {o : Outcome} {io : QcOutputIo} {st st' : Stage} {lock : Bool}
    (h : runCycle { o with outputQc := qcOutput io cycle a.passTag a.loose.keys } a.lock st =
      some (lock, st')) (hst : st ≠ .clearing) (hst' : st' ≠ .archiving) :
    advance cycle o io a st = some ({ a with lock := lock }, st') := by
  simp only [advance, h, Option.map_some, hst, hst', if_false, decide_false, Bool.or_false]

theorem reaches_processing
    (hR : ∀ {x y}, Does cycle d p x y → x.2 ≠ .outputQc → R x y) (hlock : a.lock = false) :
    ReflTransGen R (a, .checking) ({ a with lock := true, archived := ∅ }, .processing) := by
  let io : QcOutputIo := ⟨true, true, true⟩
  have step : ∀ {b : OutputArea P} {st : Stage} (t : OutputArea P × Stage),
      advance cycle smoothOutcome io b st = some t → st ≠ .archiving → st ≠ .outputQc →
        R (b, st) t := fun t h hst hqc => hR (.advance _ io h hst) hqc
  have hchecking : advance cycle smoothOutcome io a .checking = some (a, .testing) :=
    advance_eq (by rfl) (by decide) (by decide)
  have htesting : advance cycle smoothOutcome io a .testing = some (a, .locking) :=
    advance_eq (by simp [runCycle, hlock]) (by decide) (by decide)
  have hlocking : advance cycle smoothOutcome io a .locking =
      some ({ a with lock := true }, .clearing) :=
    advance_eq (by simp [runCycle, smoothOutcome]) (by decide) (by decide)
  have hclearing : advance cycle smoothOutcome io { a with lock := true } .clearing =
      some ({ a with lock := true, archived := ∅ }, .inputQc) := by
    simp [advance, runCycle, smoothOutcome]
  have hinputQc : advance cycle smoothOutcome io { a with lock := true, archived := ∅ } .inputQc =
      some ({ a with lock := true, archived := ∅ }, .converting) :=
    advance_eq (by rfl) (by decide) (by decide)
  have hconverting : advance cycle smoothOutcome io { a with lock := true, archived := ∅ }
      .converting = some ({ a with lock := true, archived := ∅ }, .processing) :=
    advance_eq (by rfl) (by decide) (by decide)
  exact (((((ReflTransGen.single (step _ hchecking (by decide) (by decide))).tail
    (step _ htesting (by decide) (by decide))).tail
    (step _ hlocking (by decide) (by decide))).tail
    (step _ hclearing (by decide) (by decide))).tail
    (step _ hinputQc (by decide) (by decide))).tail
    (step _ hconverting (by decide) (by decide))

def written (p : P) (fs : List Str) (a : OutputArea P) : OutputArea P :=
  { a with loose := fs.foldl (fun l f => l.insert f p) a.loose }

theorem written_nil : written p [] a = a := rfl

theorem reaches_written (hR : ∀ {x y}, Does cycle d p x y → x.2 ≠ .outputQc → R x y)
    {fs : List Str} (hfs : ∀ f ∈ fs, IsProgramFile cycle d f) :
    ReflTransGen R (a, .processing) (written p fs a, .processing) := by
  induction fs generalizing a with
  | nil => exact .refl
  | cons f fs ih =>
    rw [List.forall_mem_cons] at hfs
    exact .head (hR (.write hfs.1) nofun) (ih hfs.2)

theorem lookup_written {fs : List Str} {f : Str} (h : f ∈ fs ∨ a.loose.lookup f = some p) :
    (written p fs a).loose.lookup f = some p := by
  induction fs generalizing a with
  | nil => exact h.resolve_left (List.not_mem_nil)
  | cons g fs ih =>
    refine ih (a := { a with loose := a.loose.insert g p }) ?_
    by_cases hfg : f = g
    · subst hfg
      exact .inr (AList.lookup_insert _)
    · refine h.imp (fun hf => (List.mem_cons.mp hf).resolve_left hfg) fun hf => ?_
      rwa [AList.lookup_insert_ne hfg]

theorem mem_keys_written {fs : List Str} {f : Str} :
    f ∈ (written p fs a).loose.keys ↔ f ∈ fs ∨ f ∈ a.loose.keys := by
  induction fs generalizing a with
  | nil => simp [written]
  | cons g fs ih =>
    rw [written, List.foldl_cons]
    rw [show (List.foldl _ (a.loose.insert g p) fs) =
      (written p fs { a with loose := a.loose.insert g p }).loose from rfl, ih,
      ← AList.mem_keys, AList.mem_insert, AList.mem_keys, List.mem_cons]
    tauto

theorem reaches_archiving
    (hR : ∀ {x y}, Does cycle d p x y → (x.2 = .outputQc → x.1 = a) → R x y)
    (hcycle : isDtg cycle = true) (hcount : countsPass cycle a.loose.keys = true) :
    ReflTransGen R (a, .processing) ({ a with passTag := true }, .archiving) := by
  let io : QcOutputIo := ⟨true, true, true⟩
  have hqc : qcOutput io cycle a.passTag a.loose.keys = true := by
    simp [qcOutput, hcycle, hcount, io]
  have hout : advance cycle smoothOutcome io a .outputQc =
      some ({ a with passTag := true }, .archiving) := by
    simp [advance, runCycle, hqc]
  have hprocessing : advance cycle smoothOutcome io a .processing = some (a, .outputQc) :=
    advance_eq (by rfl) (by decide) (by decide)
  exact (ReflTransGen.single (hR (.advance _ io hprocessing (by decide)) nofun)).tail
    (hR (.advance _ io hout (by decide)) fun _ => rfl)

end Smooth

def OutputArea.empty : OutputArea P := ⟨false, false, ∅, ∅⟩

def History.begin : History P := ⟨.empty, fun _ => .checking⟩

theorem countsPass_written (hcycle : isDtg cycle = true) (hd : parseDate cycle = some d) (p : P)
    {a : OutputArea P} (ha : ∀ f ∈ a.loose.keys, f ∈ requiredFiles cycle d) :
    countsPass cycle (written p (requiredFiles cycle d) a).loose.keys = true := by
  obtain ⟨hl, hs⟩ := isDtg_digits hcycle
  have hkeys : ∀ f, f ∈ (written p (requiredFiles cycle d) a).loose.keys ↔
      f ∈ requiredFiles cycle d := fun f => by
    rw [mem_keys_written]
    exact or_iff_left_of_imp (ha f)
  refine countsPass_of_required hl hs (dateString_parseDate hl hs hd).1
    (AList.keys_nodup _) (fun f hf => ?_) fun f hf => (hkeys f).mpr hf
  exact isProgramFile_of_required ((hkeys f).mp (mem_of_mem_cycleFileList hf))

theorem mem_required_of_written {p : P} {f : Str}
    (h : f ∈ (written p (requiredFiles cycle d) (⟨true, false, ∅, ∅⟩ : OutputArea P)).loose.keys) :
    f ∈ requiredFiles cycle d :=
  (mem_keys_written.mp h).resolve_right List.not_mem_nil

variable (cycle d) in
/-- The first call writes every required file and is killed before output QC. -/
theorem reaches_killed {R : Bool → OutputArea Bool × Stage → OutputArea Bool × Stage → Prop}
    (hR : ∀ {x y}, Does cycle d false x y → x.2 ≠ .outputQc → R false x y) :
    ReflTransGen (HistoryStep R) History.begin (History.begin.move false
      (written false (requiredFiles cycle d) ⟨true, false, ∅, ∅⟩, .died)) := by
  have hfirst := (reaches_processing (p := false) (a := .empty) (R := R false) hR rfl).trans
    (reaches_written hR fun f hf => isProgramFile_of_required hf)
  have hkilled := history_of_alone (c := History.begin) (fun _ _ => .inl rfl)
    (hfirst.tail (hR .killed nofun))
  rwa [show History.begin.move false (OutputArea.empty, Stage.checking) =
    (History.begin : History Bool) from move_self _ false] at hkilled

/-- The second call, after its operator has removed the lock file, writes some files. -/
theorem reaches_archiving_again
    {R : Bool → OutputArea Bool × Stage → OutputArea Bool × Stage → Prop} {left : OutputArea Bool}
    (fs : List Str) (hR : ∀ {x y}, Does cycle d true x y →
      (x.2 = .outputQc → x.1 = written true fs { left with lock := true, archived := ∅ }) →
        R true x y)
    (hcycle : isDtg cycle = true) (hfs : ∀ f ∈ fs, IsProgramFile cycle d f)
    (hcount : countsPass cycle (written true fs left).loose.keys = true)
    (hkilled : ReflTransGen (HistoryStep R) History.begin
      (History.begin.move false (left, .died))) :
    ∃ c : History Bool, ReflTransGen (HistoryStep R) History.begin c ∧
      c.stage false = .died ∧ c.stage true = .archiving ∧
        c.shared.loose = (written true fs left).loose := by
  let removed : History Bool :=
    ⟨{ left with lock := false }, (History.begin.move false (left, Stage.died)).stage⟩
  have hsecond := ((reaches_processing (p := true) (a := { left with lock := false })
    (R := R true) (fun h hqc => hR h fun hst => absurd hst hqc) rfl).trans
    (reaches_written (fun h hqc => hR h fun hst => absurd hst hqc) hfs)).trans
    (reaches_archiving (a := written true fs { left with lock := true, archived := ∅ }) hR hcycle
      hcount)
  have hidle : ∀ q, q ≠ true →
      removed.stage q = .checking ∨ (removed.stage q).ended = true := by
    intro q hq
    cases q with
    | false => exact .inr rfl
    | true => exact absurd rfl hq
  have hagain := history_of_alone (c := removed) hidle hsecond
  rw [show removed.move true (({ left with lock := false } : OutputArea Bool), Stage.checking) =
    removed from move_self _ true] at hagain
  exact ⟨_, (hkilled.tail .removeLock).trans hagain, rfl, move_stage_self .., rfl⟩

/-- A call is killed when it has written every file, and the next one writes them all again. -/
theorem runCycle_archives_own_again :
    ∃ c : History Bool, ReflTransGen
        (HistoryStep (DoesRewriting "2021010100".toList ⟨2021, 1, 1, 0⟩)) History.begin c ∧
      c.stage false = .died ∧ c.stage true = .archiving ∧
      ∀ f ∈ requiredFiles "2021010100".toList ⟨2021, 1, 1, 0⟩,
        c.shared.loose.lookup f = some true ∨ c.shared.archived.lookup f = some true := by
  have hcycle : isDtg "2021010100".toList = true := by decide
  have hd : parseDate "2021010100".toList = some ⟨2021, 1, 1, 0⟩ := by decide
  have hkilled := reaches_killed "2021010100".toList ⟨2021, 1, 1, 0⟩
    (R := DoesRewriting "2021010100".toList ⟨2021, 1, 1, 0⟩)
    fun h hqc => ⟨h, fun hst => absurd hst hqc⟩
  obtain ⟨c, hc, hdied, hstage, -⟩ := reaches_archiving_again _ (fun h hst => ⟨h, fun hqc => by
      rw [hst hqc]
      refine ⟨rfl, fun _ f hf w hw => ?_⟩
      rw [lookup_written (.inl hf)] at hw
      exact (Option.some.inj hw).symm⟩) hcycle (fun f hf => isProgramFile_of_required hf)
    (countsPass_written hcycle hd true fun f hf => mem_required_of_written hf) hkilled
  have hbegin : Beginning (History.begin : History Bool) := ⟨fun _ => rfl, fun _ h => by cases h⟩
  exact ⟨c, hc, hdied, hstage, runCycle_archives_own hcycle hd hbegin hc hstage⟩

/-- The next call writes nothing. -/
theorem runCycle_archives_leftovers :
    ∃ c : History Bool, ReflTransGen
        (HistoryStep (Does "2021010100".toList ⟨2021, 1, 1, 0⟩)) History.begin c ∧
      c.stage true = .archiving ∧
      ∀ f ∈ requiredFiles "2021010100".toList ⟨2021, 1, 1, 0⟩,
        c.shared.loose.lookup f = some false := by
  have hcycle : isDtg "2021010100".toList = true := by decide
  have hd : parseDate "2021010100".toList = some ⟨2021, 1, 1, 0⟩ := by decide
  have hkilled := reaches_killed "2021010100".toList ⟨2021, 1, 1, 0⟩
    (R := Does "2021010100".toList ⟨2021, 1, 1, 0⟩) fun h _ => h
  obtain ⟨c, hc, -, hstage, hloose⟩ := reaches_archiving_again [] (fun h _ => h) hcycle
    (fun f hf => absurd hf List.not_mem_nil)
    (by
      rw [written_nil]
      exact countsPass_written hcycle hd false fun f hf => absurd hf List.not_mem_nil) hkilled
  refine ⟨c, hc, hstage, fun f hf => ?_⟩
  rw [hloose, written_nil]
  exact lookup_written (.inl hf)

end Tigge

import Tigge.Lib.Pattern
import Tigge.Merge

/-! `qcOutput`: the output files of a cycle, counted for each variable. -/

namespace Tigge
open Lib TiggeVariable

/-- `/_${cycle}/`. -/
def cycleFilePattern (cycle : Str) : Pattern := ⟨false, literal ('_' :: cycle), none, false⟩

/-- `/_${tVar}.grib$/`; the dot before `grib` accepts any character. -/
def varPattern (tVar : Str) : Pattern :=
  ⟨false, literal ('_' :: tVar) ++ .any :: literal "grib".toList, none, true⟩

/-- `@cycleFileList`, from the names in the output directory. -/
def cycleFileList (cycle : Str) (names : List Str) : List Str :=
  ((names.filter gribPattern.found).insertionSort (· ≤ ·)).filter (cycleFilePattern cycle).found

/-- The counting phase. -/
def countsPass (cycle : Str) (names : List Str) : Bool :=
  expectedCycleCount cycle ≤ (cycleFileList cycle names).length &&
    tiggeVarCodes.all fun tVar =>
      ((cycleFileList cycle names).filter (varPattern tVar).found).length = expectedVarCount cycle

/-- What the other tests of `qcOutput` find. -/
structure QcOutputIo where
  directoryReadable : Bool
  tiggeCheckSilent : Bool
  tagWritten : Bool

/-- `qcOutput` returns `PASS`; a tag file of an earlier pass decides before anything else. -/
def qcOutput (io : QcOutputIo) (cycle : Str) (tagFile : Bool) (names : List Str) : Bool :=
  isDtg cycle && (tagFile ||
    (io.directoryReadable && countsPass cycle names && io.tiggeCheckSilent && io.tagWritten))

def variableFiles (d : CycleDate) (n : ℕ) (v : TiggeVariable) : List Str :=
  (forecastHours ×ˢ List.range n).map fun k => generateFileName v d k.1 k.2

def countedVariables : List TiggeVariable :=
  TiggeVariable.all.filter fun v => v.shortName ∈ tiggeVarCodes

/-- The files that `qcOutput` counts. -/
def requiredFiles (cycle : Str) (d : CycleDate) : List Str :=
  countedVariables.flatMap (variableFiles d (perlGetNMembers cycle))

theorem mem_variableFiles {d : CycleDate} {n : ℕ} {v : TiggeVariable} {f : Str} :
    f ∈ variableFiles d n v ↔
      ∃ fff ∈ forecastHours, ∃ em < n, f = generateFileName v d fff em := by
  simp only [variableFiles, List.mem_map, Prod.exists, List.mem_product, List.mem_range]
  constructor
  · rintro ⟨fff, em, ⟨hf, he⟩, rfl⟩
    exact ⟨fff, hf, em, he, rfl⟩
  · rintro ⟨fff, hf, em, he, rfl⟩
    exact ⟨fff, em, ⟨hf, he⟩, rfl⟩

theorem nodup_variableFiles (d : CycleDate) (n : ℕ) (v : TiggeVariable) :
    (variableFiles d n v).Nodup := by
  refine (nodup_forecastHours.product List.nodup_range).map fun a b h => ?_
  obtain ⟨-, hf, he⟩ := generateFileName_injective h
  exact Prod.ext hf he

theorem length_variableFiles (d : CycleDate) (cycle : Str) (v : TiggeVariable) :
    (variableFiles d (perlGetNMembers cycle) v).length = expectedVarCount cycle := by
  rw [variableFiles, List.length_map, List.length_product, List.length_range, expectedVarCount,
    mul_comm, forecastHours, List.length_map, List.length_range]

section Patterns
variable {cycle : Str} {d : CycleDate}

theorem generateFileName_split (v : TiggeVariable) (d : CycleDate) (fff em : ℕ) :
    generateFileName v d fff em = ['_'].intercalate (nameTokens v d fff em).dropLast ++
      '_' :: (v.shortName ++ ".grib".toList) := by
  have htokens : nameTokens v d fff em =
      (nameTokens v d fff em).dropLast ++ [v.shortName ++ ".grib".toList] := rfl
  rw [generateFileName_eq]
  conv_lhs => rw [htokens]
  rw [intercalate_append (by simp [nameTokens]) (List.cons_ne_nil _ _), intercalate_singleton]

theorem shortName_ne_nil (v : TiggeVariable) : v.shortName ≠ [] := by
  cases v <;> exact List.cons_ne_nil _ _

theorem varPattern_found_split {tVar name : Str} : (varPattern tVar).found name = true ↔
    ∃ pre x rest, name = pre ++ '_' :: (tVar ++ x :: "grib".toList) ++ rest ∧
      Atom.any.accepts x = true ∧ (rest = [] ∨ rest = ['\n']) := by
  rw [varPattern, found_iff_of_tail_none]
  constructor
  · rintro ⟨pre, u, rest, rfl, hu, hrest⟩
    obtain ⟨a, b, rfl, ha, hb⟩ := accepted_append.mp hu
    rw [accepted_literal] at ha
    subst ha
    cases hb with
    | cons hx hg =>
      rw [accepted_literal.mp hg]
      exact ⟨pre, _, rest, by simp, hx, hrest rfl⟩
  · rintro ⟨pre, x, rest, rfl, hx, hrest⟩
    refine ⟨pre, '_' :: tVar ++ x :: "grib".toList, rest, by simp, ?_, fun _ => hrest⟩
    exact accepted_append.mpr ⟨_, _, rfl, accepted_literal.mpr rfl,
      .cons hx (accepted_literal.mpr rfl)⟩

theorem varPattern_found_iff (v w : TiggeVariable) (d : CycleDate) (fff em : ℕ) :
    (varPattern w.shortName).found (generateFileName v d fff em) = true ↔ v = w := by
  have hv : '_' ∉ v.shortName ++ ".grib".toList := by cases v <;> decide
  have hw : '_' ∉ w.shortName := by cases w <;> decide
  rw [varPattern_found_split, generateFileName_split]
  constructor
  · rintro ⟨pre, x, rest, hname, -, hrest⟩
    by_cases hx' : x = '_'
    · -- an underscore in place of the dot would make `grib` a token of its own
      subst hx'
      have hsplit : (['_'].intercalate (nameTokens v d fff em).dropLast) ++
          '_' :: (v.shortName ++ ".grib".toList) =
          (pre ++ '_' :: w.shortName) ++ '_' :: ("grib".toList ++ rest) := by
        rw [hname]; simp
      have hr : '_' ∉ "grib".toList ++ rest := by
        rcases hrest with rfl | rfl <;> decide
      have hlen := congrArg List.length (append_cons_inj_right hv hr hsplit).2
      have hpos := List.length_pos_iff.mpr (shortName_ne_nil v)
      have hrest1 : rest.length ≤ 1 := by rcases hrest with rfl | rfl <;> simp
      have h5 : ".grib".toList.length = 5 := rfl
      have h4 : "grib".toList.length = 4 := rfl
      rw [List.length_append, List.length_append] at hlen
      omega
    · -- both names end with what follows their last underscore
      have hs : '_' ∉ w.shortName ++ (x :: "grib".toList) ++ rest := by
        have hgrib : '_' ∉ "grib".toList := by decide
        rcases hrest with rfl | rfl <;> simp [hw, Ne.symm hx']
      rw [List.append_assoc, List.cons_append] at hname
      have hsuffix := (append_cons_inj_right hv hs hname).2
      rcases hrest with rfl | rfl
      · rw [List.append_nil] at hsuffix
        exact shortName_injective (List.append_inj_left' hsuffix rfl)
      · exact absurd (congrArg List.getLast? hsuffix) (by simp)
  · rintro rfl
    exact ⟨['_'].intercalate (nameTokens v d fff em).dropLast, '.', [], by simp, by decide, .inl rfl⟩

theorem cycleFilePattern_found (hd : dateString d = cycle) (v : TiggeVariable) (fff em : ℕ) :
    (cycleFilePattern cycle).found (generateFileName v d fff em) = true := by
  refine found_iff_of_tail_none.mpr ⟨"z_tigge_c_kwbc".toList, '_' :: cycle, "0000_".toList ++
    ['_'].intercalate ((nameTokens v d fff em).drop 5), ?_, accepted_literal.mpr rfl,
    fun h => absurd h Bool.false_ne_true⟩
  rw [generateFileName_eq, ← hd]
  simp [nameTokens, List.intercalate]

/-- The cycle pattern, though it is not anchored, is found in the names of that cycle only. -/
theorem dateString_of_cycleFilePattern (hl : cycle.length = 10) (hs : ∀ c ∈ cycle, c.isDigit)
    (hd : (dateString d).length = 10) {v : TiggeVariable} {fff em : ℕ} (hf : fff < 1000)
    (he : em < 1000) (h : (cycleFilePattern cycle).found (generateFileName v d fff em) = true) :
    dateString d = cycle := by
  obtain ⟨pre, u, rest, hname, hu, -⟩ := found_iff_of_tail_none.mp h
  rw [accepted_literal] at hu
  subst hu
  rw [generateFileName_eq, List.append_assoc, List.cons_append] at hname
  obtain ⟨us, vs, htokens, -, hvs, hrest⟩ :=
    tokens_of_separator (underscore_notMem_nameTokens v d fff em) hname
  obtain ⟨t, vs, rfl⟩ := List.exists_cons_of_ne_nil hvs
  have ht : t ∈ nameTokens v d fff em := htokens ▸ List.mem_append_right us List.mem_cons_self
  have hprefix : cycle <+: t := token_of_prefix (fun hmem => absurd (hs _ hmem) (by decide))
    (underscore_notMem_nameTokens v d fff em t ht) hrest
  -- every other token is shorter than a cycle
  have hlong : 10 ≤ t.length := hl ▸ hprefix.length_le
  have hshort : (v.shortName ++ ".grib".toList).length < 10 := by cases v <;> decide
  have hhour : (padded 4 fff).length = 4 := padded_length (by decide) (by omega)
  have hmember : (padded 3 em).length = 3 := padded_length (by decide) he
  simp only [nameTokens, List.mem_cons, List.not_mem_nil, or_false] at ht
  rcases ht with rfl | rfl | rfl | rfl | rfl | rfl | rfl | rfl | rfl | rfl | rfl | rfl | rfl
  case inr.inr.inr.inr.inl =>
    obtain ⟨w, hw⟩ := hprefix
    exact (List.append_inj_left hw (hl.trans hd.symm)).symm
  case inr.inr.inr.inr.inr.inr.inr.inl => split_ifs at hlong <;> exact absurd hlong (by decide)
  case inr.inr.inr.inr.inr.inr.inr.inr.inl => split_ifs at hlong <;> exact absurd hlong (by decide)
  case inr.inr.inr.inr.inr.inr.inr.inr.inr.inl => omega
  case inr.inr.inr.inr.inr.inr.inr.inr.inr.inr.inl => omega
  case inr.inr.inr.inr.inr.inr.inr.inr.inr.inr.inr.inl =>
    split_ifs at hlong <;> exact absurd hlong (by decide)
  case inr.inr.inr.inr.inr.inr.inr.inr.inr.inr.inr.inr => omega
  all_goals exact absurd hlong (by decide)

end Patterns

/-- The names that the program writes for a cycle. -/
def IsProgramFile (cycle : Str) (d : CycleDate) (f : Str) : Prop :=
  ∃ v, f ∈ variableFiles d (perlGetNMembers cycle) v

/-- The names that the program writes for any cycle, which has ten characters. -/
def IsGeneratedFile (f : Str) : Prop :=
  ∃ (v : TiggeVariable) (d : CycleDate) (fff em : ℕ), (dateString d).length = 10 ∧
    fff ∈ forecastHours ∧ em < getNMembers d ∧ f = generateFileName v d fff em

theorem mem_countedVariables {v : TiggeVariable} :
    v ∈ countedVariables ↔ v.shortName ∈ tiggeVarCodes := by
  have hall : v ∈ TiggeVariable.all := by cases v <;> decide
  simp [countedVariables, hall]

theorem exists_shortName_of_mem {tVar : Str} (h : tVar ∈ tiggeVarCodes) :
    ∃ v : TiggeVariable, v.shortName = tVar := by
  have hall : ∀ t ∈ tiggeVarCodes, t ∈ TiggeVariable.all.map TiggeVariable.shortName := by decide
  obtain ⟨v, -, hv⟩ := List.mem_map.mp (hall tVar h)
  exact ⟨v, hv⟩

theorem getNMembers_le (d : CycleDate) : getNMembers d ≤ 31 := by
  unfold getNMembers
  split_ifs <;> decide

theorem generateFileName_congr {d e : CycleDate} (h : dateString d = dateString e)
    (v : TiggeVariable) (fff em : ℕ) : generateFileName v d fff em = generateFileName v e fff em := by
  simp only [generateFileName, h]

theorem getNMembers_congr {d e : CycleDate} (h : dateString d = dateString e) :
    getNMembers d = getNMembers e := by
  have hbefore : beforeUpgrade d = beforeUpgrade e := by simp only [beforeUpgrade, h]
  rw [getNMembers, hbefore, getNMembers]

section Counting
variable {cycle : Str} {d : CycleDate} {names : List Str}

theorem mem_of_mem_cycleFileList {f : Str} (hf : f ∈ cycleFileList cycle names) : f ∈ names :=
  (List.mem_filter.mp ((List.mem_insertionSort _).mp (List.mem_filter.mp hf).1)).1

theorem nodup_cycleFileList (hnodup : names.Nodup) : (cycleFileList cycle names).Nodup :=
  ((List.perm_insertionSort _ _).nodup_iff.mpr (hnodup.filter _)).filter _

theorem isProgramFile_of_mem (hl : cycle.length = 10) (hs : ∀ c ∈ cycle, c.isDigit)
    (hd : parseDate cycle = some d) (hnames : ∀ f ∈ names, IsGeneratedFile f) {f : Str}
    (hf : f ∈ cycleFileList cycle names) : IsProgramFile cycle d f := by
  obtain ⟨v, e, fff, em, hten, hfff, hem, rfl⟩ := hnames f (mem_of_mem_cycleFileList hf)
  have hfound := (List.mem_filter.mp hf).2
  have hmember : em < 1000 := (hem.trans_le (getNMembers_le e)).trans (by decide)
  have hdate : dateString e = cycle :=
    dateString_of_cycleFilePattern hl hs hten (lt_of_mem_forecastHours hfff) hmember hfound
  have hsame : dateString e = dateString d := hdate.trans (dateString_parseDate hl hs hd).1.symm
  refine ⟨v, mem_variableFiles.mpr ⟨fff, hfff, em, ?_, generateFileName_congr hsame v fff em⟩⟩
  rwa [← getNMembers_eq_perl hl hs hd, ← getNMembers_congr hsame]

theorem mem_filter_varPattern (hlist : ∀ f ∈ cycleFileList cycle names, IsProgramFile cycle d f)
    {v : TiggeVariable} {f : Str}
    (hf : f ∈ (cycleFileList cycle names).filter (varPattern v.shortName).found) :
    f ∈ variableFiles d (perlGetNMembers cycle) v := by
  obtain ⟨hmem, hfound⟩ := List.mem_filter.mp hf
  obtain ⟨w, hw⟩ := hlist f hmem
  obtain ⟨fff, _, em, _, rfl⟩ := mem_variableFiles.mp hw
  rw [varPattern_found_iff] at hfound
  exact hfound ▸ hw

/-- As many files of a variable as there are names means every one of them. -/
theorem mem_of_countsPass (hnodup : names.Nodup)
    (hlist : ∀ f ∈ cycleFileList cycle names, IsProgramFile cycle d f)
    (hpass : countsPass cycle names = true) {f : Str} (hf : f ∈ requiredFiles cycle d) :
    f ∈ names := by
  obtain ⟨v, hv, hfv⟩ := List.mem_flatMap.mp hf
  have hall := (Bool.and_eq_true_iff.mp hpass).2
  have hlength : ((cycleFileList cycle names).filter (varPattern v.shortName).found).length =
      (variableFiles d (perlGetNMembers cycle) v).length := by
    rw [length_variableFiles]
    exact of_decide_eq_true (List.all_eq_true.mp hall _ (mem_countedVariables.mp hv))
  have hsub : (cycleFileList cycle names).filter (varPattern v.shortName).found ⊆
      variableFiles d (perlGetNMembers cycle) v := fun g hg => mem_filter_varPattern hlist hg
  have hperm := (((nodup_cycleFileList hnodup).filter _).subperm hsub).perm_of_length_le hlength.ge
  exact mem_of_mem_cycleFileList (List.mem_filter.mp (hperm.mem_iff.mpr hfv)).1

theorem nodup_requiredFiles (cycle : Str) (d : CycleDate) : (requiredFiles cycle d).Nodup := by
  refine List.nodup_flatMap.mpr ⟨fun v _ => nodup_variableFiles d _ v, ?_⟩
  have hnodup : countedVariables.Nodup := by decide
  refine hnodup.imp fun {v w} hvw => List.disjoint_left.mpr fun f hf hg => ?_
  obtain ⟨fff, _, em, _, rfl⟩ := mem_variableFiles.mp hf
  obtain ⟨fff', _, em', _, h⟩ := mem_variableFiles.mp hg
  exact hvw (generateFileName_injective h).1

theorem length_requiredFiles (cycle : Str) (d : CycleDate) :
    (requiredFiles cycle d).length = expectedCycleCount cycle := by
  have hconst : countedVariables.map (fun v => (variableFiles d (perlGetNMembers cycle) v).length) =
      countedVariables.map fun _ => expectedVarCount cycle :=
    List.map_congr_left fun v _ => length_variableFiles d cycle v
  have hlength : countedVariables.length = tiggeVarCodes.length := by decide
  rw [requiredFiles, List.length_flatMap, hconst, List.map_const', List.sum_replicate,
    hlength, smul_eq_mul, mul_comm, expectedCycleCount]

theorem mem_cycleFileList_of_required (hl : cycle.length = 10) (hs : ∀ c ∈ cycle, c.isDigit)
    (hd : dateString d = cycle) (hnames : requiredFiles cycle d ⊆ names) {f : Str}
    (hf : f ∈ requiredFiles cycle d) : f ∈ cycleFileList cycle names := by
  obtain ⟨v, -, hv⟩ := List.mem_flatMap.mp hf
  obtain ⟨fff, hfff, em, hem, hname⟩ := mem_variableFiles.mp hv
  obtain ⟨o, ho⟩ := isOutput_generateFileName hd
    ((lt_of_mem_forecastHours hfff).trans (by decide)) hem v
  have hgrib : gribPattern.found f = true := by
    rw [hname, ho]
    exact gribPattern_found_output hl hs (perlGetNMembers_le cycle) o
  refine List.mem_filter.mpr ⟨(List.mem_insertionSort _).mpr (List.mem_filter.mpr
    ⟨hnames hf, hgrib⟩), ?_⟩
  rw [hname]
  exact cycleFilePattern_found hd v fff em

theorem countsPass_of_required (hl : cycle.length = 10) (hs : ∀ c ∈ cycle, c.isDigit)
    (hd : dateString d = cycle) (hnodup : names.Nodup)
    (hlist : ∀ f ∈ cycleFileList cycle names, IsProgramFile cycle d f)
    (hnames : requiredFiles cycle d ⊆ names) : countsPass cycle names = true := by
  have hmem : requiredFiles cycle d ⊆ cycleFileList cycle names := fun f hf =>
    mem_cycleFileList_of_required hl hs hd hnames hf
  have htotal : expectedCycleCount cycle ≤ (cycleFileList cycle names).length := by
    rw [← length_requiredFiles cycle d]
    exact ((nodup_requiredFiles cycle d).subperm hmem).length_le
  rw [countsPass, Bool.and_eq_true_iff]
  refine ⟨decide_eq_true htotal, List.all_eq_true.mpr fun tVar htVar => decide_eq_true ?_⟩
  obtain ⟨v, rfl⟩ := exists_shortName_of_mem htVar
  have hown : ∀ f, f ∈ (cycleFileList cycle names).filter (varPattern v.shortName).found ↔
      f ∈ variableFiles d (perlGetNMembers cycle) v := by
    refine fun f => ⟨mem_filter_varPattern hlist, fun hf => List.mem_filter.mpr ⟨?_, ?_⟩⟩
    · exact hmem (List.mem_flatMap.mpr ⟨v, mem_countedVariables.mpr htVar, hf⟩)
    · obtain ⟨fff, _, em, _, rfl⟩ := mem_variableFiles.mp hf
      exact (varPattern_found_iff v v d fff em).mpr rfl
  rw [← length_variableFiles d cycle v]
  exact ((List.perm_ext_iff_of_nodup ((nodup_cycleFileList hnodup).filter _)
    (nodup_variableFiles d _ v)).mpr hown).length_eq

/-- On generated files the counting phase accepts exactly the sets with every file of the cycle,
and counts each file for its own cycle and variable. -/
theorem countsPass_iff (hcycle : isDtg cycle = true) (hd : parseDate cycle = some d)
    (hnodup : names.Nodup) (hnames : ∀ f ∈ names, IsGeneratedFile f) :
    (countsPass cycle names = true ↔ ∀ v : TiggeVariable, v.shortName ∈ tiggeVarCodes →
      ∀ fff ∈ forecastHours, ∀ em < getNMembers d, generateFileName v d fff em ∈ names) ∧
    ∀ v : TiggeVariable, ∀ f ∈ (cycleFileList cycle names).filter (varPattern v.shortName).found,
      ∃ fff ∈ forecastHours, ∃ em < getNMembers d, f = generateFileName v d fff em := by
  obtain ⟨hl, hs⟩ := isDtg_digits hcycle
  have hlist : ∀ f ∈ cycleFileList cycle names, IsProgramFile cycle d f := fun f hf =>
    isProgramFile_of_mem hl hs hd hnames hf
  have hmembers := getNMembers_eq_perl hl hs hd
  have hrequired : requiredFiles cycle d ⊆ names ↔ ∀ v : TiggeVariable,
      v.shortName ∈ tiggeVarCodes → ∀ fff ∈ forecastHours, ∀ em < getNMembers d,
        generateFileName v d fff em ∈ names := by
    rw [hmembers]
    constructor
    · intro h v hv fff hfff em hem
      exact h (List.mem_flatMap.mpr ⟨v, mem_countedVariables.mpr hv,
        mem_variableFiles.mpr ⟨fff, hfff, em, hem, rfl⟩⟩)
    · intro h f hf
      obtain ⟨v, hv, hfv⟩ := List.mem_flatMap.mp hf
      obtain ⟨fff, hfff, em, hem, rfl⟩ := mem_variableFiles.mp hfv
      exact h v (mem_countedVariables.mp hv) fff hfff em hem
  constructor
  · rw [← hrequired]
    exact ⟨fun hpass f hf => mem_of_countsPass hnodup hlist hpass hf,
      countsPass_of_required hl hs (dateString_parseDate hl hs hd).1 hnodup hlist⟩
  · intro v f hf
    rw [hmembers]
    exact mem_variableFiles.mp (mem_filter_varPattern hlist hf)

theorem IsProgramFile.isGeneratedFile (hl : cycle.length = 10) (hs : ∀ c ∈ cycle, c.isDigit)
    (hd : parseDate cycle = some d) {f : Str} (hf : IsProgramFile cycle d f) :
    IsGeneratedFile f := by
  obtain ⟨v, hv⟩ := hf
  obtain ⟨fff, hfff, em, hem, rfl⟩ := mem_variableFiles.mp hv
  have hdate := (dateString_parseDate hl hs hd).1
  rw [← getNMembers_eq_perl hl hs hd] at hem
  exact ⟨v, d, fff, em, hdate ▸ hl, hfff, hem, rfl⟩

theorem isProgramFile_of_required {f : Str} (hf : f ∈ requiredFiles cycle d) :
    IsProgramFile cycle d f :=
  (List.mem_flatMap.mp hf).imp fun _ h => h.2

end Counting

theorem countsPass_iff_required :
    countsPass "2021010100".toList (requiredFiles "2021010100".toList ⟨2021, 1, 1, 0⟩) = true := by
  have hs : ∀ c ∈ "2021010100".toList, c.isDigit := by simp
  have hd : parseDate "2021010100".toList = some ⟨2021, 1, 1, 0⟩ := by decide
  refine (countsPass_iff (by decide) hd (nodup_requiredFiles _ _) fun f hf =>
    (isProgramFile_of_required hf).isGeneratedFile rfl hs hd).1.mpr fun v hv fff hfff em hem => ?_
  rw [getNMembers_eq_perl rfl hs hd] at hem
  exact List.mem_flatMap.mpr ⟨v, mem_countedVariables.mpr hv,
    mem_variableFiles.mpr ⟨fff, hfff, em, hem, rfl⟩⟩

end Tigge

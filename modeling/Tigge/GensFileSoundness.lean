import Tigge.GensFile

/-! What the check of an input file assures of its records. -/

namespace Tigge
open Lib

/-- Lines that are neither blank nor a header or a footer. -/
def isListed (inFile raw : Str) : Bool := chomp raw ≠ [] && !isHeading inFile (lineOf raw)

/-- The columns of these lines. -/
def listed (inFile : Str) (rtn : List Str) : List (List Str) :=
  (rtn.filter (isListed inFile)).map fun raw => lineData (lineOf raw)

def isRecord (cols : List Str) : Bool :=
  cols.length = gribLsKeys.length && column cols 0 = "GRIB".toList && column cols 1 = "2".toList

/-- The tests that are made on a listed line. -/
structure PassesTests (cycle : Str) (cols : List Str) : Prop where
  record : isRecord cols = true
  totalLength : (numberValue (column cols 2)).int.lt qcRecByteMin = false
  centre : column cols 3 = qcCenterCode
  process : column cols 4 = qcGensProcessIdNum
  perturbation : (numberValue (column cols 5)).lt 0 = false ∧
    (numberValue (column cols 5)).ge (perlGetNMembers cycle) = false
  forecastTime : (numberValue (column cols 6)).gt FCT_HOURS = false ∧
    (numberValue (column cols 7)).lt 0 = false
  dataPoints : (numberValue (column cols 7)).eq (getQcNumPoints cycle) = true

section Scan
variable {inFile cycle : Str}

/-- The hours of the records. -/
def hoursOf (inFile : Str) (rtn : List Str) : List Str :=
  ((listed inFile rtn).filter isRecord).map fun cols => column cols 6

theorem ite_eq_nil (p : Prop) [Decidable p] (m : Str) : (if p then [m] else []) = [] ↔ ¬ p := by
  split_ifs with h <;> simp [h]

theorem recordMessages_eq_nil {numLine : ℕ} {cols : List Str} (hrecord : isRecord cols = true) :
    recordMessages cycle numLine cols = [] ↔ PassesTests cycle cols := by
  unfold recordMessages
  simp only [List.append_eq_nil_iff, ite_eq_nil, not_not, Bool.not_eq_true, Bool.or_eq_false_iff,
    Bool.not_eq_false']
  constructor
  · rintro ⟨⟨⟨⟨⟨h2, h3⟩, h4⟩, h5⟩, h6⟩, h7⟩
    exact ⟨hrecord, h2, h3, h4, h5, h6, h7⟩
  · rintro ⟨-, h2, h3, h4, h5, h6, h7⟩
    exact ⟨⟨⟨⟨⟨h2, h3⟩, h4⟩, h5⟩, h6⟩, h7⟩

/-- Everything that one line can do. -/
inductive Scanned (inFile cycle : Str) (st : GribScan) (raw : Str) : GribScan → Prop
  | skipped (h : isListed inFile raw = false) :
      Scanned inFile cycle st raw ⟨st.numLine + 1, st.messages, st.fctHours⟩
  | refused (h : isListed inFile raw = true) (hrecord : isRecord (lineData (lineOf raw)) = false)
      (text : Str) : Scanned inFile cycle st raw
        ⟨st.numLine + 1, st.messages ++ [qcError (st.numLine + 1) text], st.fctHours⟩
  | counted (h : isListed inFile raw = true) (hrecord : isRecord (lineData (lineOf raw)) = true) :
      Scanned inFile cycle st raw ⟨st.numLine + 1,
        st.messages ++ recordMessages cycle (st.numLine + 1) (lineData (lineOf raw)),
        st.fctHours ++ [column (lineData (lineOf raw)) 6]⟩

theorem scanned_scanLine (inFile cycle : Str) (st : GribScan) (raw : Str) :
    Scanned inFile cycle st raw (scanLine inFile cycle st raw) := by
  unfold scanLine
  by_cases hblank : chomp raw = []
  · rw [if_pos hblank]
    exact .skipped (by simp [isListed, hblank])
  by_cases hheading : isHeading inFile (lineOf raw) = true
  · rw [if_neg hblank, if_pos hheading]
    exact .skipped (by simp [isListed, hheading])
  have hlisted : isListed inFile raw = true := by simp [isListed, hblank, hheading]
  rw [if_neg hblank, if_neg hheading]
  split_ifs with hversion hunknown
  · refine .refused hlisted ?_ _
    rw [isRecord, Bool.and_eq_false_iff, decide_eq_false_iff_not]
    exact .inr (of_decide_eq_true (Bool.and_eq_true_iff.mp hversion).2)
  · exact .refused hlisted (Bool.not_eq_true' _ ▸ hunknown) _
  · exact .counted hlisted (by simpa [isRecord] using hunknown)

theorem listed_cons (inFile raw : Str) (rtn : List Str) : listed inFile (raw :: rtn) =
    if isListed inFile raw then lineData (lineOf raw) :: listed inFile rtn
    else listed inFile rtn := by
  rw [listed, List.filter_cons]
  split_ifs <;> rfl

/-- What holds of a listing without lines, and of one with a line more, holds of the scan. -/
theorem scan_rec {P : List Str → GribScan → GribScan → Prop} (hnil : ∀ st, P [] st st)
    (hcons : ∀ raw rtn st st' last, Scanned inFile cycle st raw st' → P rtn st' last →
      P (raw :: rtn) st last)
    (rtn : List Str) (st : GribScan) : P rtn st (rtn.foldl (scanLine inFile cycle) st) := by
  induction rtn generalizing st with
  | nil => exact hnil st
  | cons raw rtn ih => exact hcons raw rtn st _ _ (scanned_scanLine inFile cycle st raw) (ih _)

theorem scan_fctHours (inFile cycle : Str) (rtn : List Str) (st : GribScan) :
    (rtn.foldl (scanLine inFile cycle) st).fctHours = st.fctHours ++ hoursOf inFile rtn := by
  refine scan_rec (P := fun rtn st last => last.fctHours = st.fctHours ++ hoursOf inFile rtn)
    (fun st => by simp [hoursOf, listed]) ?_ rtn st
  intro raw rtn st st' last hstep ih
  rw [ih, hoursOf, hoursOf, listed_cons]
  cases hstep with
  | skipped h => simp [h]
  | refused h hrecord text => simp [h, hrecord]
  | counted h hrecord => simp [h, hrecord]

theorem scan_messages_eq_nil (rtn : List Str) (st : GribScan) :
    (rtn.foldl (scanLine inFile cycle) st).messages = [] ↔
      st.messages = [] ∧ ∀ cols ∈ listed inFile rtn, PassesTests cycle cols := by
  refine scan_rec (P := fun rtn st last => last.messages = [] ↔
    st.messages = [] ∧ ∀ cols ∈ listed inFile rtn, PassesTests cycle cols)
    (fun st => by simp [listed]) ?_ rtn st
  intro raw rtn st st' last hstep ih
  rw [ih, listed_cons]
  cases hstep with
  | skipped h => simp [h]
  | refused h hrecord text =>
    rw [if_pos h, List.forall_mem_cons]
    simp only [List.append_eq_nil_iff, List.cons_ne_nil, and_false, false_and, false_iff]
    rintro ⟨-, htests, -⟩
    rw [htests.record] at hrecord
    cases hrecord
  | counted h hrecord =>
    rw [if_pos h, List.forall_mem_cons, List.append_eq_nil_iff, recordMessages_eq_nil hrecord,
      and_assoc]

end Scan

/-- Code 0 and no messages. -/
def Clean (result : ℕ × Str × List Str) : Prop := result.1 = 0 ∧ result.2.2 = []

/-- The files can be read, and the directory is named by a date. -/
structure CanRead (io : QcFileIo) (inFile : Str) : Prop where
  fileExists : io.fileExists = true
  fileReadable : io.fileReadable = true
  gribLsExists : io.gribLsExists = true
  gribLsExecutable : io.gribLsExecutable = true
  date : isDirectoryDate (parentName (oneSlash inFile)) = true

section Passing
variable {io : QcFileIo} {hash : Enumeration Str} {inFile cycle : Str} {rtn : List Str}

/-- The type of a file, and the date by which its records are counted. -/
def fileType (inFile : Str) : Str := gensFileType (fileNameOf (oneSlash inFile))

def fileDate (inFile : Str) : Str := parentName (oneSlash inFile)

theorem qcGensFile_eq (h : CanRead io inFile) : qcGensFile io hash inFile cycle rtn =
    (0, "OK".toList,
      (rtn.foldl (scanLine (oneSlash inFile) cycle) { messages := callMessages rtn }).messages ++
      hoursMessages (fileNameOf (oneSlash inFile)) (hoursOf (oneSlash inFile) rtn) ++
      countMessages (fileType inFile) (fileDate inFile)
        (priFct hash (hoursOf (oneSlash inFile) rtn)) (hoursOf (oneSlash inFile) rtn).length) := by
  obtain ⟨hexists, hreadable, hls, hexecutable, hdate⟩ := h
  have hhours := scan_fctHours (oneSlash inFile) cycle rtn
  simp only [qcGensFile, hexists, hreadable, hls, hexecutable, hdate, hhours, Bool.not_true,
    Bool.false_eq_true, if_false, List.nil_append, fileType, fileDate]

/-- Otherwise the check ends with an error before it looks at the listing. -/
theorem qcGensFile_of_not_canRead (io : QcFileIo) (inFile cycle : Str) (rtn : List Str)
    (h : ¬ CanRead io inFile) : ∃ result : ℕ × Str × List Str,
      result.1 ≠ 0 ∧ ∀ hash, qcGensFile io hash inFile cycle rtn = result := by
  unfold qcGensFile
  dsimp only
  split_ifs with h1 h2 h3 h4 h5
  · exact ⟨_, one_ne_zero, fun _ => rfl⟩
  · exact ⟨_, one_ne_zero, fun _ => rfl⟩
  · exact ⟨_, two_ne_zero, fun _ => rfl⟩
  · exact ⟨_, two_ne_zero, fun _ => rfl⟩
  · exact ⟨_, four_ne_zero, fun _ => rfl⟩
  · simp only [Bool.not_eq_true', Bool.not_eq_false] at h1 h2 h3 h4 h5
    exact absurd ⟨h1, h2, h3, h4, h5⟩ h

/-- Every test that is made has passed. -/
structure Passes (io : QcFileIo) (hash : Enumeration Str) (inFile cycle : Str) (rtn : List Str) :
    Prop where
  canRead : CanRead io inFile
  printed : rtn ≠ []
  records : ∀ cols ∈ listed (oneSlash inFile) rtn, PassesTests cycle cols
  hours : hoursMessages (fileNameOf (oneSlash inFile)) (hoursOf (oneSlash inFile) rtn) = []
  count : countMessages (fileType inFile) (fileDate inFile)
    (priFct hash (hoursOf (oneSlash inFile) rtn)) (hoursOf (oneSlash inFile) rtn).length = []

theorem qcGensFile_clean_iff :
    Clean (qcGensFile io hash inFile cycle rtn) ↔ Passes io hash inFile cycle rtn := by
  by_cases h : CanRead io inFile
  · rw [Clean, qcGensFile_eq h]
    simp only [true_and, List.append_eq_nil_iff, scan_messages_eq_nil, callMessages,
      ite_eq_right_iff, List.cons_ne_nil, imp_false]
    constructor
    · rintro ⟨⟨⟨hprinted, hrecords⟩, hhours⟩, hcount⟩
      exact ⟨h, hprinted, hrecords, hhours, hcount⟩
    · rintro ⟨-, hprinted, hrecords, hhours, hcount⟩
      exact ⟨⟨⟨hprinted, hrecords⟩, hhours⟩, hcount⟩
  · obtain ⟨result, hcode, hresult⟩ := qcGensFile_of_not_canRead io inFile cycle rtn h
    rw [hresult]
    constructor
    · exact fun hclean => absurd hclean.1 hcode
    · exact fun hpasses => absurd hpasses.canRead h

end Passing

section Counting

/-- An hour that no other occurs more often than. -/
def IsPrimary (hours : List Str) (fct : Str) : Prop :=
  fct ∈ hours ∧ ∀ other ∈ hours, hours.count other ≤ hours.count fct

theorem isPrimary_priFct (hash : Enumeration Str) {hours : List Str} (h : hours ≠ []) :
    IsPrimary hours (priFct hash hours) := by
  obtain ⟨a, ha⟩ := List.exists_mem_of_ne_nil hours h
  have hkeys : ∀ other ∈ hours, other ∈ hash.order hours.dedup := fun other hother =>
    hash.mem_order.mpr (List.mem_dedup.mpr hother)
  obtain ⟨-, hge⟩ := foldl_better_ge hours.count (hash.order hours.dedup) ([], 0)
  rcases foldl_better_mem hours.count (hash.order hours.dedup) ([], 0) with hstart | ⟨hmem, hcount⟩
  · -- the hour `a` counts more than the search starts with
    have hle := hge a (hkeys a ha)
    rw [hstart] at hle
    exact absurd (List.count_pos_iff.mpr ha) (Nat.not_lt.mpr hle)
  · refine ⟨List.mem_dedup.mp (hash.mem_order.mp hmem), fun other hother => ?_⟩
    rw [priFct, ← hcount]
    exact hge other (hkeys other hother)

/-- A table gives one of its values, or the one it starts with. -/
theorem recCount_mem (table : List (Str × ℕ)) (start : ℕ) (dtg : Str) :
    recCount table start dtg ∈ start :: table.map Prod.snd := by
  induction table generalizing start with
  | nil => exact List.mem_cons_self
  | cons k table ih =>
    have hnext := ih (if k.1 ≤ dtg then k.2 else start)
    rw [recCount, List.foldl_cons]
    rw [List.mem_cons] at hnext
    rcases hnext with hvalue | hmem
    · rw [recCount] at hvalue
      rw [hvalue]
      split_ifs
      · exact List.mem_cons_of_mem _ List.mem_cons_self
      · exact List.mem_cons_self
    · exact List.mem_cons_of_mem _ (List.mem_cons_of_mem _ hmem)

theorem recCounts_cases (dtg : Str) :
    (aRecCountAnl dtg = 45 ∨ aRecCountAnl dtg = 73 ∨ aRecCountAnl dtg = 69) ∧
    (aRecCountFct dtg = 51 ∨ aRecCountFct dtg = 79) ∧
    (bRecCountAnl dtg = 283 ∨ bRecCountAnl dtg = 258) ∧
    (bRecCountFct dtg = 288 ∨ bRecCountFct dtg = 262) := by
  have hanl : aRecCountAnl dtg ∈ [45, 45, 73, 69] := recCount_mem _ 45 dtg
  have hfct : aRecCountFct dtg ∈ [51, 51, 79] := recCount_mem _ 51 dtg
  have hanl' : bRecCountAnl dtg ∈ [283, 283, 258] := recCount_mem _ 283 dtg
  have hfct' : bRecCountFct dtg ∈ [288, 288, 262] := recCount_mem _ 288 dtg
  exact ⟨by simpa using hanl, by simpa using hfct, by simpa using hanl', by simpa using hfct'⟩

/-- The records that a file of a type, a date and a forecast hour must have. -/
def minimumRecords (type dtg : Str) (hour : ℤ) : ℕ :=
  if type = "a".toList then if hour = 0 then aRecCountAnl dtg else aRecCountFct dtg
  else if hour = 0 then bRecCountAnl dtg - LOOSENESS else bRecCountFct dtg - LOOSENESS

/-- What an hour that reads as 0, one that reads as more, and any other come to. -/
def byHour {α : Type} (fct : Str) (anl fcst other : α) : α :=
  if (numberValue fct).eq 0 then anl else if (numberValue fct).gt 0 then fcst else other

/-- The minimum that the records are counted against. -/
def countMinimum (type dtg fct : Str) : ℕ :=
  if type = "a".toList then byHour fct (aRecCountAnl dtg) (aRecCountFct dtg) 0
  else if type = "b".toList then
    byHour fct (bRecCountAnl dtg - LOOSENESS) (bRecCountFct dtg - LOOSENESS) 0
  else 0

theorem countMinimum_le (type dtg fct : Str) : countMinimum type dtg fct ≤ 288 := by
  obtain ⟨hanl, hfct, hanl', hfct'⟩ := recCounts_cases dtg
  unfold countMinimum byHour
  split_ifs <;> omega

/-- What is said of fewer records. -/
def countMessage (type dtg fct : Str) (numRec : ℕ) : Str :=
  if type = "a".toList then
    "\n\t".toList ++ expected (byHour fct (aRecCountAnl dtg) (aRecCountFct dtg) 0) numRec
  else "\n\tTEST ".toList ++ expected (byHour fct (aRecCountAnl dtg) (bRecCountFct dtg) 0) numRec ++
    "\n".toList

theorem gt_of_eq {n : Number} {q : ℚ} (h : n.eq q = true) : n.gt q = false := by
  cases n with
  | finite p => simp [Number.gt, of_decide_eq_true h]
  | infinite negative => cases h
  | nan => cases h

/-- Of two messages for hours of different kinds at most one is given. -/
theorem hourMessages_eq (fct : Str) (numRec anl fcst : ℕ) (m m' : Str) :
    (if (numberValue fct).eq 0 && numRec < anl then [m] else []) ++
      (if (numberValue fct).gt 0 && numRec < fcst then [m'] else []) =
    if numRec < byHour fct anl fcst 0 then [byHour fct m m' []] else [] := by
  unfold byHour
  cases hzero : (numberValue fct).eq 0 with
  | true => simp [gt_of_eq hzero]
  | false =>
    cases hpos : (numberValue fct).gt 0 with
    | true => simp
    | false => simp

theorem countMessages_eq (type dtg fct : Str) (numRec : ℕ) : countMessages type dtg fct numRec =
    if numRec < countMinimum type dtg fct then [countMessage type dtg fct numRec] else [] := by
  unfold countMessages countMinimum countMessage
  dsimp only
  rw [hourMessages_eq, hourMessages_eq]
  unfold byHour
  split_ifs <;> first | rfl | omega

theorem countMessages_eq_nil {type dtg fct : Str} {numRec : ℕ} :
    countMessages type dtg fct numRec = [] ↔ countMinimum type dtg fct ≤ numRec := by
  rw [countMessages_eq]
  split_ifs with h
  · simpa using h
  · simpa using h

theorem gensFileType_eq {name : Str} (h : gefsFilepattern false name = true) :
    gensFileType name = parseType name := by
  rw [← isSome_gefsMatch] at h
  obtain ⟨g, hg⟩ := Option.isSome_iff_exists.mp h
  rw [gensFileType, hg, Option.elim_some]
  unfold gefsMatch at hg
  split at hg
  next => cases hg
  next =>
    obtain ⟨t, -, rfl⟩ := Option.map_eq_some_iff.mp hg
    rfl

theorem gensFileType_cases {name : Str} (h : gefsFilepattern false name = true) :
    gensFileType name = "a".toList ∨ gensFileType name = "b".toList := by
  rw [gensFileType_eq h]
  unfold gefsFilepattern at h
  split at h
  next v hv =>
    obtain ⟨u, hu, hacc⟩ := reads_eq_some.mp hv
    simp only [Bool.false_eq_true, if_false] at hu
    have hlength : u.length = 17 := hacc.length_eq.symm
    have hlast := List.Forall₂.get hacc (i := 16) (by decide) (by omega)
    have htype : parseType name = [u[16]] := by
      rw [parseType, hu, List.drop_append_of_le_length (by omega), List.take_append_of_le_length
        (by rw [List.length_drop]; omega), List.drop_eq_getElem_cons (by omega)]
      rfl
    have hab : u[16] = 'a' ∨ u[16] = 'b' := by
      have hatom : gefsHead.get ⟨16, by decide⟩ = .of ['a', 'b'] := by decide
      rw [hatom] at hlast
      simpa [Atom.accepts] using hlast
    rw [htype]
    exact hab.imp (congrArg fun c => [c]) (congrArg fun c => [c])
  next => cases h

end Counting

section Soundness

/-- `%ld`. -/
def printed (v : ℤ) : Str := sprintf0 0 v

theorem printed_inj {v w : ℤ} (h : printed v = printed w) : v = w := by
  have hvalue := congrArg numberValue h
  rw [printed, printed, numberValue_sprintf0, numberValue_sprintf0, Number.finite.injEq] at hvalue
  exact_mod_cast hvalue

structure GoodRecord (cycle : Str) (cols : List Str) : Prop where
  edition : column cols 1 = "2".toList
  totalLength : ∃ v, column cols 2 = printed v ∧ 128 ≤ v
  centre : column cols 3 = "kwbc".toList
  process : column cols 4 = "4".toList
  perturbation : ∃ v, column cols 5 = printed v ∧ 0 ≤ v ∧ v < perlGetNMembers cycle
  forecastTime : ∃ v, column cols 6 = printed v ∧ 0 ≤ v ∧ v ≤ 384
  dataPoints : column cols 7 = printed (getQcNumPoints cycle)

/-- What a file is taken for when the check has nothing to say about it. -/
structure SoundFile (hash : Enumeration Str) (inFile cycle : Str) (rtn : List Str) : Prop where
  records : ∀ cols ∈ listed (oneSlash inFile) rtn, GoodRecord cycle cols
  hours : (numberValue (parseFct (fileNameOf (oneSlash inFile)))).eq 192 = false →
    ((listed (oneSlash inFile) rtn).map fun cols => column cols 6).dedup.length ≤ 2
  count : ∃ hour,
    priFct hash ((listed (oneSlash inFile) rtn).map fun cols => column cols 6) = printed hour ∧
    IsPrimary ((listed (oneSlash inFile) rtn).map fun cols => column cols 6) (printed hour) ∧
    minimumRecords (fileType inFile) (fileDate inFile) hour ≤ (listed (oneSlash inFile) rtn).length

/-- The columns that are read as numbers are integers, and the forecast time is not negative. -/
structure IntegerColumns (cols : List Str) : Prop where
  totalLength : ∃ v, column cols 2 = printed v
  perturbation : ∃ v, column cols 5 = printed v
  forecastTime : ∃ v, column cols 6 = printed v ∧ 0 ≤ v
  dataPoints : ∃ v, column cols 7 = printed v

theorem int_finite (v : ℤ) : (Number.finite v).int = .finite v := by
  rw [Number.int]
  split_ifs <;> simp

theorem goodRecord_of_passesTests {cycle : Str} {cols : List Str} (h : PassesTests cycle cols)
    (hcols : IntegerColumns cols) : GoodRecord cycle cols := by
  obtain ⟨hrecord, hlength, hcentre, hprocess, ⟨hlow, hhigh⟩, ⟨htime, -⟩, hpoints⟩ := h
  obtain ⟨⟨length, hlength'⟩, ⟨member, hmember⟩, ⟨hour, hhour, hnonneg⟩, points, hpoints'⟩ := hcols
  rw [hlength', printed, numberValue_sprintf0, int_finite] at hlength
  rw [hmember, printed, numberValue_sprintf0] at hlow hhigh
  rw [hhour, printed, numberValue_sprintf0] at htime
  rw [hpoints', printed, numberValue_sprintf0] at hpoints
  have hlength := of_decide_eq_false hlength
  have hlow := of_decide_eq_false hlow
  have hhigh := of_decide_eq_false hhigh
  have htime := of_decide_eq_false htime
  have hpoints := of_decide_eq_true hpoints
  refine ⟨?_, ⟨length, hlength', ?_⟩, hcentre, hprocess, ⟨member, hmember, ?_, ?_⟩,
    ⟨hour, hhour, hnonneg, ?_⟩, ?_⟩
  · exact of_decide_eq_true (Bool.and_eq_true_iff.mp hrecord).2
  · have := not_lt.mp hlength
    exact_mod_cast this
  · have := not_lt.mp hlow
    exact_mod_cast this
  · have := not_le.mp hhigh
    exact_mod_cast this
  · have := not_lt.mp htime
    exact_mod_cast this
  · have : points = getQcNumPoints cycle := by exact_mod_cast hpoints
    rw [hpoints', this]

/-- A count that nothing is said about reaches the minimum of the hour. -/
theorem minimumRecords_le {type dtg : Str} {numRec : ℕ} {hour : ℤ} (hnonneg : 0 ≤ hour)
    (htype : type = "a".toList ∨ type = "b".toList)
    (h : countMessages type dtg (printed hour) numRec = []) :
    minimumRecords type dtg hour ≤ numRec := by
  have hzero : (numberValue (printed hour)).eq 0 = decide (hour = 0) := by
    rw [printed, numberValue_sprintf0]
    simp [Number.eq]
  have hpos : (numberValue (printed hour)).gt 0 = decide (0 < hour) := by
    rw [printed, numberValue_sprintf0]
    simp [Number.gt]
  have hhour : ∀ anl fcst : ℕ,
      byHour (printed hour) anl fcst 0 = if hour = 0 then anl else fcst := by
    intro anl fcst
    rw [byHour, hzero, hpos]
    rcases hnonneg.eq_or_lt with rfl | hlt
    · rfl
    · simp [hlt, hlt.ne']
  rw [countMessages_eq_nil, countMinimum, hhour, hhour] at h
  rw [minimumRecords]
  rcases htype with rfl | rfl
  · rwa [if_pos rfl] at h ⊢
  · rwa [if_neg (by decide), if_pos rfl] at h

variable {io : QcFileIo} {hash : Enumeration Str} {inFile cycle : Str} {rtn : List Str}

theorem Passes.hoursOf (h : Passes io hash inFile cycle rtn) : hoursOf (oneSlash inFile) rtn =
    (listed (oneSlash inFile) rtn).map fun cols => column cols 6 := by
  rw [Tigge.hoursOf, List.filter_eq_self.mpr fun cols hcols => (h.records cols hcols).record]

/-- A file without records falls short of the minimum of hour 0, as which its hour is read. -/
theorem Passes.listed_ne_nil (h : Passes io hash inFile cycle rtn)
    (htype : fileType inFile = "a".toList ∨ fileType inFile = "b".toList) :
    listed (oneSlash inFile) rtn ≠ [] := by
  intro hnil
  have hcount := h.count
  rw [h.hoursOf, hnil, countMessages_eq_nil, List.map_nil, List.length_nil] at hcount
  have hzero : (numberValue (priFct hash [])).eq 0 = true := by
    have hnone : hash.order [] = [] := List.perm_nil.mp (hash.perm [])
    rw [priFct, List.dedup_nil, hnone]
    decide
  obtain ⟨hanl, -, hanl', -⟩ := recCounts_cases (fileDate inFile)
  rw [countMinimum, byHour, byHour, if_pos hzero, if_pos hzero] at hcount
  rcases htype with htype | htype
  · rw [if_pos htype] at hcount
    omega
  · rw [htype, if_neg (by decide), if_pos rfl, LOOSENESS] at hcount
    omega

/-- The check lets only sound files through exactly when it is given none that passes its tests
with a column that is no integer, or with a negative forecast time. -/
theorem qcGensFile_sound_iff (io : QcFileIo) (hash : Enumeration Str) (inFile cycle : Str)
    (rtn : List Str) (hname : gefsFilepattern false (fileNameOf (oneSlash inFile)) = true) :
    (Clean (qcGensFile io hash inFile cycle rtn) → SoundFile hash inFile cycle rtn) ↔
      (Passes io hash inFile cycle rtn →
        ∀ cols ∈ listed (oneSlash inFile) rtn, IntegerColumns cols) := by
  rw [qcGensFile_clean_iff]
  refine forall_congr' fun h => ⟨fun hsound cols hcols => ?_, fun hcols => ?_⟩
  · obtain ⟨-, ⟨length, hlength, -⟩, -, -, ⟨member, hmember, -⟩, ⟨hour, hhour, hnonneg, -⟩,
      hpoints⟩ := hsound.records cols hcols
    exact ⟨⟨length, hlength⟩, ⟨member, hmember⟩, ⟨hour, hhour, hnonneg⟩, ⟨_, hpoints⟩⟩
  · have htype : fileType inFile = "a".toList ∨ fileType inFile = "b".toList :=
      gensFileType_cases hname
    have hprimary := isPrimary_priFct hash
      (mt List.map_eq_nil_iff.mp (h.listed_ne_nil htype) :
        ((listed (oneSlash inFile) rtn).map fun cols => column cols 6) ≠ [])
    obtain ⟨cols, hmem, hfct⟩ := List.mem_map.mp hprimary.1
    obtain ⟨hour, hhour, hnonneg⟩ := (hcols cols hmem).forecastTime
    have hpri := hfct.symm.trans hhour
    refine ⟨fun cols hmem => goodRecord_of_passesTests (h.records cols hmem) (hcols cols hmem),
      fun h192 => ?_, hour, hpri, hpri ▸ hprimary, ?_⟩
    · have hhours := h.hours
      rw [h.hoursOf, hoursMessages, ite_eq_nil, Bool.not_eq_true, Bool.and_eq_false_iff,
        h192] at hhours
      rcases hhours with hlength | h192
      · exact not_lt.mp (of_decide_eq_false hlength)
      · cases h192
    · have hcount := h.count
      rw [h.hoursOf, hpri, List.length_map] at hcount
      exact minimumRecords_le hnonneg htype hcount

end Soundness

section Listings

/-- A line of a listing, and its columns. -/
def gribLine (fct points : Str) : Str :=
  "GRIB 2 5000 kwbc 4 0 ".toList ++ fct ++ ' ' :: points ++ " 1 8 1 0 255 MISSING 0\n".toList

def gribColumns (v points : ℤ) : List Str :=
  ["GRIB".toList, "2".toList, printed 5000, "kwbc".toList, "4".toList, printed 0, printed v,
    printed points, "1".toList, "8".toList, "1".toList, "0".toList, "255".toList,
    "MISSING".toList, "0".toList]

def line2007 (fct : Str) : Str := gribLine fct "65160".toList

def readable : QcFileIo := ⟨true, true, "/usr/bin/grib_ls".toList, true, true⟩

def cycle2007 : Str := "2007010100".toList

def hour6File : Str := "/in/2007010100/gec00.t00z.pgrb2af06".toList

theorem canRead_hour6File : CanRead readable hour6File := ⟨rfl, rfl, rfl, rfl, by decide⟩

theorem passesTests_gribColumns {cycle : Str} {v points : ℤ} (hmembers : 0 < perlGetNMembers cycle)
    (hpoints : points = getQcNumPoints cycle) (hv : v ≤ 384) :
    PassesTests cycle (gribColumns v points) where
  record := rfl
  totalLength := by
    show (numberValue (printed 5000)).int.lt qcRecByteMin = false
    rw [printed, numberValue_sprintf0, int_finite]
    decide
  centre := rfl
  process := rfl
  perturbation := by
    show (numberValue (printed 0)).lt 0 = false ∧
      (numberValue (printed 0)).ge (perlGetNMembers cycle) = false
    rw [printed, numberValue_sprintf0]
    refine ⟨by decide, decide_eq_false (not_le.mpr ?_)⟩
    exact_mod_cast hmembers
  forecastTime := by
    show (numberValue (printed v)).gt FCT_HOURS = false ∧
      (numberValue (printed points)).lt 0 = false
    rw [printed, numberValue_sprintf0, printed, numberValue_sprintf0, hpoints]
    refine ⟨decide_eq_false (not_lt.mpr ?_), decide_eq_false (not_lt.mpr ?_)⟩
    · exact_mod_cast hv
    · exact_mod_cast Nat.zero_le _
  dataPoints := by
    show (numberValue (printed points)).eq (getQcNumPoints cycle) = true
    rw [printed, numberValue_sprintf0, hpoints]
    exact decide_eq_true (by norm_cast)

/-- A forecast time before the start of the forecast goes through, and then so does a file with a
single record. -/
theorem qcGensFile_negative_hour : ∃ io hash inFile cycle rtn,
    gefsFilepattern false (fileNameOf (oneSlash inFile)) = true ∧
      Clean (qcGensFile io hash inFile cycle rtn) ∧ ¬ SoundFile hash inFile cycle rtn := by
  have hlisted : listed (oneSlash hour6File) [line2007 "-6".toList] = [gribColumns (-6) 65160] := by
    decide +kernel
  have hhours : hoursOf (oneSlash hour6File) [line2007 "-6".toList] = [printed (-6)] := by
    decide +kernel
  refine ⟨readable, .asListed, hour6File, cycle2007, [line2007 "-6".toList], by decide +kernel,
    ?_, fun hsound => ?_⟩
  · refine qcGensFile_clean_iff.mpr ⟨canRead_hour6File, List.cons_ne_nil _ _, ?_, ?_, ?_⟩
    · rw [hlisted]
      intro cols hcols
      rw [List.mem_singleton.mp hcols]
      exact passesTests_gribColumns (by decide) rfl (by decide)
    · rw [hhours]
      rfl
    · rw [hhours]
      show countMessages _ _ (printed (-6)) 1 = []
      rw [countMessages_eq_nil, countMinimum, byHour, byHour, printed, numberValue_sprintf0]
      decide +kernel
  · have hgood := hsound.records (gribColumns (-6) 65160) (hlisted ▸ List.mem_cons_self)
    obtain ⟨v, hv, hnonneg, -⟩ := hgood.forecastTime
    have hsix : -6 = v := printed_inj hv
    omega

theorem qcGensFile_sound_hour6 : SoundFile .asListed hour6File cycle2007
    (List.replicate 51 (line2007 "6".toList)) := by
  have hlisted : listed (oneSlash hour6File) (List.replicate 51 (line2007 "6".toList)) =
      List.replicate 51 (gribColumns 6 65160) := by
    decide +kernel
  have hhours : hoursOf (oneSlash hour6File) (List.replicate 51 (line2007 "6".toList)) =
      List.replicate 51 (printed 6) := by
    decide +kernel
  refine (qcGensFile_sound_iff readable .asListed hour6File cycle2007 _ (by decide +kernel)).mpr
    (fun _ cols hcols => ?_) ?_
  · rw [hlisted] at hcols
    rw [List.eq_of_mem_replicate hcols]
    exact ⟨⟨5000, rfl⟩, ⟨0, rfl⟩, ⟨6, rfl, by decide⟩, ⟨65160, rfl⟩⟩
  · refine qcGensFile_clean_iff.mpr ⟨canRead_hour6File, List.cons_ne_nil _ _, ?_, ?_, ?_⟩
    · rw [hlisted]
      intro cols hcols
      rw [List.eq_of_mem_replicate hcols]
      exact passesTests_gribColumns (by decide) rfl (by decide)
    · rw [hhours]
      decide +kernel
    · rw [hhours]
      show countMessages _ _ (priFct .asListed (List.replicate 51 (printed 6))) 51 = []
      have hpri : priFct .asListed (List.replicate 51 (printed 6)) = printed 6 := by decide +kernel
      rw [countMessages_eq_nil, hpri, countMinimum, byHour, byHour, printed, numberValue_sprintf0]
      decide +kernel

end Listings

end Tigge

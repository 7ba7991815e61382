import Tigge.Lib.Conglomerate
import Tigge.Lib.Pattern
import Tigge.Names

/-! `mergeRecords`: the output records of a cycle, appended to one conglomerate for each member
and level type. -/

namespace Tigge
open Lib Lib.Directory TiggeVariable

/-- `qw(sl pl pt pv)`. -/
inductive Level
  | sl
  | pl
  | pt
  | pv
  deriving DecidableEq

def Level.code : Level → Str
  | .sl => "sl".toList
  | .pl => "pl".toList
  | .pt => "pt".toList
  | .pv => "pv".toList

def Level.all : List Level := [.sl, .pl, .pt, .pv]

theorem Level.mem_all (lv : Level) : lv ∈ Level.all := by cases lv <;> decide

theorem Level.code_injective : Function.Injective Level.code := by
  intro a b h
  cases a <;> cases b <;> first | rfl | exact absurd h (by decide)

/-- `cf` for the control member, `pf` for the others. -/
def forecastKind (mb : ℕ) : Str := if mb = 0 then "cf".toList else "pf".toList

/-- `/\.grib$/`. -/
def gribPattern : Pattern := ⟨false, literal ".grib".toList, none, true⟩

/-- `/_${lv}_\d{4}_${m}.*\.grib$/`. -/
def mergePattern (lv : Level) (mb : ℕ) : Pattern where
  anchored := false
  head := literal ('_' :: lv.code ++ ['_']) ++ List.replicate 4 .digit ++
    literal ('_' :: padded 3 mb)
  tail := some (literal ".grib".toList)
  closed := true

/-- `/^\d{10}$/`. -/
def cyclePattern : Pattern := ⟨true, List.replicate 10 .digit, none, true⟩

def conglomerateTokens (cyc : Str) (mb : ℕ) (lv : Level) : List Str :=
  ["z".toList, "tigge".toList, "c".toList, "kwbc".toList, cyc ++ "0000".toList, "glob".toList,
    "prod".toList, forecastKind mb, lv.code, padded 3 mb ++ ".grib".toList]

/-- `$ofn`. -/
def conglomerateName (cyc : Str) (mb : ℕ) (lv : Level) : Str :=
  ['_'].intercalate (conglomerateTokens cyc mb lv)

def mergePass (cyc : Str) (allFiles : List Str) (mb : ℕ) (lv : Level) : Pass where
  target := conglomerateName cyc mb lv
  sources := (allFiles.filter (mergePattern lv mb).found).insertionSort (· ≤ ·)

def mergeKeys (cyc : Str) : List (ℕ × Level) := (List.range (perlGetNMembers cyc)) ×ˢ Level.all

def mergePasses (cyc : Str) (allFiles : List Str) (ks : List (ℕ × Level)) : List Pass :=
  ks.map fun k => mergePass cyc allFiles k.1 k.2

def mergePlan (cyc : Str) (allFiles : List Str) : List Pass :=
  mergePasses cyc allFiles (mergeKeys cyc)

/-- What of `mergeRecords` can fail: reading the directory, and the operations of each pass. -/
structure MergeIo where
  dirReadable : Bool
  pass : Str → PassIo

def MergeIo.smooth : MergeIo := ⟨true, fun _ => .smooth⟩

variable {α : Type*} [Sized α]

/-- `mergeRecords(dir,dir,cyc)`. -/
def mergeRecords (io : MergeIo) (cyc : Str) (d : Directory α) : ℤ × Directory α :=
  if !cyclePattern.found cyc then (1, d)
  else if !io.dirReadable then (2, d)
  else
    let allFiles := d.sortedNames gribPattern.found
    if allFiles = [] then (-16, d)
    else
      let r := runPlan io.pass (mergePlan cyc allFiles) d
      (r.1.getD 0, r.2)

/-- The names under which records of one cycle are written out. -/
structure OutputName (members : ℕ) where
  lv : Level
  fff : ℕ
  em : ℕ
  llll : ℕ
  param : Str
  fff_lt : fff < 10 ^ 4
  em_lt : em < members
  llll_lt : llll < 10 ^ 4
  param_isAlphanum : ∀ c ∈ param, c.isAlphanum

def OutputName.tokens {members : ℕ} (o : OutputName members) (cyc : Str) : List Str :=
  ["z".toList, "tigge".toList, "c".toList, "kwbc".toList, cyc ++ "0000".toList, "glob".toList,
    "prod".toList, forecastKind o.em, o.lv.code, padded 4 o.fff, padded 3 o.em,
    padded 4 o.llll, o.param ++ ".grib".toList]

def OutputName.fileName {members : ℕ} (o : OutputName members) (cyc : Str) : Str :=
  ['_'].intercalate (o.tokens cyc)

def IsOutput (cyc f : Str) : Prop := ∃ o : OutputName (perlGetNMembers cyc), f = o.fileName cyc

def IsConglomerate (cyc f : Str) : Prop :=
  ∃ mb < perlGetNMembers cyc, ∃ lv, f = conglomerateName cyc mb lv

/-- `pv` for the potential temperature, `sl` for the other variables. -/
def levelType (v : TiggeVariable) : Level := if v = potentialTemperature then .pv else .sl

/-- What the program writes is named by level, hour and member. -/
theorem exists_outputName (v : TiggeVariable) (d : CycleDate) {fff em members : ℕ}
    (hf : fff < 10 ^ 4) (he : em < members) : ∃ o : OutputName members,
      o.fileName (dateString d) = generateFileName v d fff em ∧ o.lv = levelType v ∧ o.em = em := by
  have hparam : ∀ c ∈ v.shortName, c.isAlphanum := by cases v <;> simp [shortName]
  unfold levelType
  by_cases hv : v = potentialTemperature
  · refine ⟨⟨.pv, fff, em, 2, v.shortName, hf, he, by decide, hparam⟩, ?_, (if_pos hv).symm, rfl⟩
    rw [generateFileName_eq, OutputName.fileName]
    simp only [nameTokens, OutputName.tokens, if_pos hv, forecastKind, Level.code]
    rfl
  · refine ⟨⟨.sl, fff, em, 0, v.shortName, hf, he, by decide, hparam⟩, ?_, (if_neg hv).symm, rfl⟩
    rw [generateFileName_eq, OutputName.fileName]
    simp only [nameTokens, OutputName.tokens, if_neg hv, forecastKind, Level.code]
    rfl

theorem isOutput_generateFileName {cyc : Str} {d : CycleDate} (hd : dateString d = cyc)
    {fff em : ℕ} (hf : fff < 10 ^ 4) (he : em < perlGetNMembers cyc) (v : TiggeVariable) :
    IsOutput cyc (generateFileName v d fff em) := by
  obtain ⟨o, ho, -, -⟩ := exists_outputName v d hf he
  exact ⟨o, by rw [← ho, hd]⟩

section Names
variable {cyc : Str}

theorem notMem_forecastKind (mb : ℕ) : '_' ∉ forecastKind mb := by
  unfold forecastKind
  split_ifs <;> decide

theorem notMem_code (lv : Level) : '_' ∉ lv.code := by cases lv <;> decide

theorem notMem_cycleToken (hs : ∀ c ∈ cyc, c.isDigit) : '_' ∉ cyc ++ "0000".toList := by
  rw [List.mem_append, not_or]
  exact ⟨fun h => absurd (hs _ h) (by decide), by decide⟩

theorem notMem_conglomerateTokens (hs : ∀ c ∈ cyc, c.isDigit) (mb : ℕ) (lv : Level) :
    ∀ t ∈ conglomerateTokens cyc mb lv, '_' ∉ t := by
  have hmb : '_' ∉ padded 3 mb ++ ".grib".toList := by
    rw [List.mem_append, not_or]
    exact ⟨notMem_padded (by decide), by decide⟩
  simp only [conglomerateTokens, List.forall_mem_cons, List.not_mem_nil, false_implies,
    implies_true, and_true]
  exact ⟨by decide, by decide, by decide, by decide, notMem_cycleToken hs, by decide, by decide,
    notMem_forecastKind mb, notMem_code lv, hmb⟩

theorem notMem_tokens (hs : ∀ c ∈ cyc, c.isDigit) {n : ℕ} (o : OutputName n) :
    ∀ t ∈ o.tokens cyc, '_' ∉ t := by
  have hparam : '_' ∉ o.param ++ ".grib".toList := by
    rw [List.mem_append, not_or]
    exact ⟨fun h => absurd (o.param_isAlphanum _ h) (by decide), by decide⟩
  simp only [OutputName.tokens, List.forall_mem_cons, List.not_mem_nil, false_implies,
    implies_true, and_true]
  exact ⟨by decide, by decide, by decide, by decide, notMem_cycleToken hs, by decide, by decide,
    notMem_forecastKind _, notMem_code _, notMem_padded (by decide), notMem_padded (by decide),
    notMem_padded (by decide), hparam⟩

/-- A match of `mergePattern` in a joined name lines up with its tokens. -/
theorem tokens_of_mergePattern {lv : Level} {mb : ℕ} {ts : List Str} (ht : ∀ t ∈ ts, '_' ∉ t)
    (h : (mergePattern lv mb).found (['_'].intercalate ts) = true) :
    ∃ us hour x vs, ts = us ++ lv.code :: hour :: x :: vs ∧ us ≠ [] ∧ hour.length = 4 ∧
      (∀ c ∈ hour, c.isDigit) ∧ padded 3 mb <+: x := by
  obtain ⟨pre, u, mid, v, w, hname, hu, -, -, -⟩ := found_iff_of_tail.mp h
  obtain ⟨_, m, rfl, hu, hm⟩ := accepted_append.mp hu
  obtain ⟨l, hour, rfl, hl, hhour⟩ := accepted_append.mp hu
  rw [accepted_literal] at hl hm
  obtain ⟨hlen, hdigit⟩ := accepted_digits.mp hhour
  subst hl hm
  have hsep : ['_'].intercalate ts =
      pre ++ '_' :: (lv.code ++ '_' :: (hour ++ '_' :: (padded 3 mb ++ (mid ++ v ++ w)))) := by
    rw [hname]
    simp
  obtain ⟨us, vs, rfl, hus, hvs, hrest⟩ := tokens_of_separator ht hsep
  obtain ⟨t, vs, rfl⟩ := List.exists_cons_of_ne_nil hvs
  have ht' : ∀ x ∈ t :: vs, '_' ∉ x := fun x hx => ht x (List.mem_append_right _ hx)
  obtain ⟨rfl, hvs, hrest⟩ := token_of_append (notMem_code lv) ht' hrest
  obtain ⟨t, vs, rfl⟩ := List.exists_cons_of_ne_nil hvs
  have ht' : ∀ x ∈ t :: vs, '_' ∉ x := fun x hx => ht' x (List.mem_cons_of_mem _ hx)
  have hhour : '_' ∉ hour := fun hmem => absurd (hdigit _ hmem) (by decide)
  obtain ⟨rfl, hvs, hrest⟩ := token_of_append hhour ht' hrest
  obtain ⟨t, vs, rfl⟩ := List.exists_cons_of_ne_nil hvs
  exact ⟨us, hour, t, vs, rfl, hus, hlen, hdigit, token_of_prefix (notMem_padded (by decide))
    (ht' t (List.mem_cons_of_mem _ List.mem_cons_self)) hrest⟩

theorem length_forecastKind (mb : ℕ) : (forecastKind mb).length = 2 := by
  unfold forecastKind
  split_ifs <;> rfl

theorem length_code (lv : Level) : lv.code.length = 2 := by cases lv <;> rfl

theorem getElem?_of_append {us vs : List Str} {a b c : Str} {ts : List Str}
    (h : ts = us ++ a :: b :: c :: vs) :
    ts[us.length]? = some a ∧ ts[us.length + 1]? = some b ∧ ts[us.length + 2]? = some c := by
  subst h
  refine ⟨?_, ?_, ?_⟩ <;> simp

/-- A pattern for a member of three digits is found in the names of its own level and member. -/
theorem mergePattern_found_fileName (hl : cyc.length = 10) (hs : ∀ c ∈ cyc, c.isDigit) {n : ℕ}
    (hn : n ≤ 10 ^ 3) (o : OutputName n) {lv : Level} {mb : ℕ} (hmb : mb < 10 ^ 3) :
    (mergePattern lv mb).found (o.fileName cyc) = true ↔ o.lv = lv ∧ o.em = mb := by
  have hem : (padded 3 o.em).length = 3 := padded_length (by decide) (o.em_lt.trans_le hn)
  have hmb3 : (padded 3 mb).length = 3 := padded_length (by decide) hmb
  constructor
  · intro h
    obtain ⟨us, hour, x, vs, hts, hus, hlen, hdigit, hx⟩ :=
      tokens_of_mergePattern (notMem_tokens hs o) h
    obtain ⟨ha, hb, hc⟩ := getElem?_of_append hts
    have hpos : 0 < us.length := List.length_pos_iff.mpr hus
    have hbound : us.length < 11 := by
      obtain ⟨hlt, _⟩ := List.getElem?_eq_some_iff.mp hc
      exact Nat.lt_of_add_lt_add_right hlt
    generalize us.length = i at *
    -- only the fields of hour and level have four digits, and a level type precedes the first
    interval_cases i <;> simp only [OutputName.tokens, List.getElem?_cons_succ,
      List.getElem?_cons_zero, Option.some.injEq, Nat.reduceAdd] at ha hb hc
    case «1» => subst hb; exact absurd hlen (by decide)
    case «2» => subst hb; exact absurd (hdigit 'k' (by decide)) (by decide)
    case «3» => subst hb; simp [hl] at hlen
    case «4» => subst hb; exact absurd (hdigit 'g' (by decide)) (by decide)
    case «5» => subst hb; exact absurd (hdigit 'p' (by decide)) (by decide)
    case «6» => subst hb; rw [length_forecastKind] at hlen; exact absurd hlen (by decide)
    case «7» => subst hb; rw [length_code] at hlen; exact absurd hlen (by decide)
    case «8» =>
      subst hc
      exact ⟨Level.code_injective ha, (padded_injective 3
        (hx.eq_of_length (hmb3.trans hem.symm))).symm⟩
    case «9» => subst hb; rw [hem] at hlen; exact absurd hlen (by decide)
    case «10» => rw [ha, length_code] at hem; exact absurd hem (by decide)
  · rintro ⟨rfl, rfl⟩
    refine found_iff_of_tail.mpr ⟨['_'].intercalate ["z".toList, "tigge".toList, "c".toList,
      "kwbc".toList, cyc ++ "0000".toList, "glob".toList, "prod".toList, forecastKind o.em],
      '_' :: o.lv.code ++ ['_'] ++ padded 4 o.fff ++ '_' :: padded 3 o.em,
      '_' :: padded 4 o.llll ++ '_' :: o.param, ".grib".toList, [], ?_, ?_, ?_, ?_, ?_⟩
    · simp [OutputName.fileName, OutputName.tokens, List.intercalate]
    · refine accepted_append.mpr ⟨_, _, rfl, accepted_append.mpr ⟨_, _, rfl, ?_, ?_⟩, ?_⟩
      · exact accepted_literal.mpr rfl
      · exact accepted_digits.mpr ⟨padded_length (by decide) o.fff_lt,
          fun c hc => isDigit_of_mem_padded hc⟩
      · exact accepted_literal.mpr rfl
    · have hparam : '\n' ∉ o.param := fun h => absurd (o.param_isAlphanum _ h) (by decide)
      have hpad : '\n' ∉ padded 4 o.llll := notMem_padded (by decide)
      simp [hparam, hpad]
    · exact accepted_literal.mpr rfl
    · exact fun _ => .inl rfl

theorem mergePattern_found_output (hl : cyc.length = 10) (hs : ∀ c ∈ cyc, c.isDigit) {n : ℕ}
    (hn : n ≤ 31) (o : OutputName n) {lv : Level} {mb : ℕ} (hmb : mb < 31) :
    (mergePattern lv mb).found (o.fileName cyc) = true ↔ o.lv = lv ∧ o.em = mb :=
  mergePattern_found_fileName hl hs (hn.trans (by decide)) o (hmb.trans (by decide))

/-- No conglomerate is taken as an input. -/
theorem mergePattern_found_conglomerate (hl : cyc.length = 10) (hs : ∀ c ∈ cyc, c.isDigit)
    (lv lv' : Level) (mb mb' : ℕ) :
    (mergePattern lv mb).found (conglomerateName cyc mb' lv') = false := by
  by_contra h
  obtain ⟨us, hour, x, vs, hts, hus, hlen, hdigit, -⟩ :=
    tokens_of_mergePattern (notMem_conglomerateTokens hs mb' lv') (Bool.not_eq_false _ ▸ h)
  obtain ⟨-, hb, hc⟩ := getElem?_of_append hts
  have hpos : 0 < us.length := List.length_pos_iff.mpr hus
  have hbound : us.length < 8 := by
    obtain ⟨hlt, _⟩ := List.getElem?_eq_some_iff.mp hc
    exact Nat.lt_of_add_lt_add_right hlt
  generalize us.length = i at *
  interval_cases i <;> simp only [conglomerateTokens, List.getElem?_cons_succ,
    List.getElem?_cons_zero, Option.some.injEq, Nat.reduceAdd] at hb <;> subst hb
  case «1» => exact absurd hlen (by decide)
  case «2» => exact absurd (hdigit 'k' (by decide)) (by decide)
  case «3» => simp [hl] at hlen
  case «4» => exact absurd (hdigit 'g' (by decide)) (by decide)
  case «5» => exact absurd (hdigit 'p' (by decide)) (by decide)
  case «6» => rw [length_forecastKind] at hlen; exact absurd hlen (by decide)
  case «7» => rw [length_code] at hlen; exact absurd hlen (by decide)

theorem conglomerateName_cut (cyc : Str) (mb : ℕ) (lv : Level) : conglomerateName cyc mb lv =
    (['_'].intercalate (conglomerateTokens cyc mb lv).dropLast ++ '_' :: padded 3 mb) ++
      ".grib".toList := by
  simp [conglomerateName, conglomerateTokens, List.intercalate]

theorem grib_suffix_conglomerateName (cyc : Str) (mb : ℕ) (lv : Level) :
    ".grib".toList <:+ conglomerateName cyc mb lv := ⟨_, (conglomerateName_cut cyc mb lv).symm⟩

theorem conglomerateName_injective (hs : ∀ c ∈ cyc, c.isDigit) {mb mb' : ℕ} {lv lv' : Level}
    (h : conglomerateName cyc mb lv = conglomerateName cyc mb' lv') : mb = mb' ∧ lv = lv' := by
  have ht := intercalate_inj (notMem_conglomerateTokens hs mb lv)
    (notMem_conglomerateTokens hs mb' lv') (List.cons_ne_nil _ _) (List.cons_ne_nil _ _) h
  simp only [conglomerateTokens, List.cons.injEq, and_true, true_and] at ht
  exact ⟨padded_injective 3 (List.append_cancel_right ht.2.2), Level.code_injective ht.2.1⟩

theorem output_ne_conglomerate (hs : ∀ c ∈ cyc, c.isDigit) {n : ℕ} (o : OutputName n) (mb : ℕ)
    (lv : Level) : o.fileName cyc ≠ conglomerateName cyc mb lv := by
  intro h
  have ht := intercalate_inj (notMem_tokens hs o) (notMem_conglomerateTokens hs mb lv)
    (List.cons_ne_nil _ _) (List.cons_ne_nil _ _) h
  exact absurd (congrArg List.length ht) (by simp [OutputName.tokens, conglomerateTokens])

theorem gribPattern_of_mergePattern {lv : Level} {mb : ℕ} {f : Str}
    (h : (mergePattern lv mb).found f = true) : gribPattern.found f = true := by
  obtain ⟨pre, u, mid, v, w, rfl, -, -, hv, hw⟩ := found_iff_of_tail.mp h
  exact found_iff_of_tail_none.mpr ⟨pre ++ u ++ mid, v, w, rfl, hv, hw⟩

theorem gribPattern_found_output (hl : cyc.length = 10) (hs : ∀ c ∈ cyc, c.isDigit) {n : ℕ}
    (hn : n ≤ 31) (o : OutputName n) : gribPattern.found (o.fileName cyc) = true :=
  gribPattern_of_mergePattern
    ((mergePattern_found_output hl hs hn o (o.em_lt.trans_le hn)).mpr ⟨rfl, rfl⟩)

theorem cyclePattern_found (hl : cyc.length = 10) (hs : ∀ c ∈ cyc, c.isDigit) :
    cyclePattern.found cyc = true :=
  endsAt_iff.mpr ⟨cyc, [], by simp, accepted_digits.mpr ⟨hl, hs⟩, fun _ => .inl rfl⟩

end Names

section Plan
variable {cyc : Str}

theorem mem_mergeKeys {k : ℕ × Level} : k ∈ mergeKeys cyc ↔ k.1 < perlGetNMembers cyc := by
  rw [mergeKeys, List.mem_product, List.mem_range]
  exact and_iff_left (Level.mem_all _)

theorem nodup_mergeKeys (cyc : Str) : (mergeKeys cyc).Nodup :=
  List.nodup_range.product (by decide)

theorem mergeKeys_split {k : ℕ × Level} (hk : k ∈ mergeKeys cyc) :
    ∃ ks ls, mergeKeys cyc = ks ++ k :: ls ∧ k ∉ ks ∧ k ∉ ls := by
  obtain ⟨ks, ls, h⟩ := List.append_of_mem hk
  have hnodup := nodup_mergeKeys cyc
  rw [h, List.nodup_middle, List.nodup_cons, List.mem_append, not_or] at hnodup
  exact ⟨ks, ls, h, hnodup.1.1, hnodup.1.2⟩

theorem mem_mergePass_sources {allFiles : List Str} {mb : ℕ} {lv : Level} {f : Str} :
    f ∈ (mergePass cyc allFiles mb lv).sources ↔
      f ∈ allFiles ∧ (mergePattern lv mb).found f = true := by
  rw [mergePass, List.mem_insertionSort, List.mem_filter]

theorem untouched_conglomerate (hl : cyc.length = 10) (hs : ∀ c ∈ cyc, c.isDigit)
    {allFiles : List Str} {ks : List (ℕ × Level)} {k : ℕ × Level} (hk : k ∉ ks) :
    Untouched (conglomerateName cyc k.1 k.2) (mergePasses cyc allFiles ks) := by
  intro p hp
  obtain ⟨j, hj, rfl⟩ := List.mem_map.mp hp
  refine ⟨fun h => ?_, fun h => ?_⟩
  · obtain ⟨hmb, hlv⟩ := conglomerateName_injective hs h
    exact hk (Prod.ext hmb hlv ▸ hj)
  · have hfound := (mem_mergePass_sources.mp h).2
    rw [mergePattern_found_conglomerate hl hs] at hfound
    exact Bool.false_ne_true hfound

theorem untouched_output (hl : cyc.length = 10) (hs : ∀ c ∈ cyc, c.isDigit)
    {allFiles : List Str} {ks : List (ℕ × Level)} (hks : ks ⊆ mergeKeys cyc)
    (o : OutputName (perlGetNMembers cyc)) (hk : (o.em, o.lv) ∉ ks) :
    Untouched (o.fileName cyc) (mergePasses cyc allFiles ks) := by
  intro p hp
  obtain ⟨j, hj, rfl⟩ := List.mem_map.mp hp
  refine ⟨output_ne_conglomerate hs o _ _, fun h => ?_⟩
  have hj31 : j.1 < 31 := (mem_mergeKeys.mp (hks hj)).trans_le (perlGetNMembers_le cyc)
  obtain ⟨hlv, hem⟩ := (mergePattern_found_output hl hs (perlGetNMembers_le cyc) o hj31).mp
    (mem_mergePass_sources.mp h).2
  have hjk : (o.em, o.lv) = j := Prod.ext hem hlv
  exact hk (hjk ▸ hj)

/-- The pass for one member and level type, between passes that leave its conglomerate and its
records alone. -/
theorem mergePlan_split (hl : cyc.length = 10) (hs : ∀ c ∈ cyc, c.isDigit) (allFiles : List Str)
    {mb : ℕ} (hmb : mb < perlGetNMembers cyc) (lv : Level) :
    ∃ ks ls, mergeKeys cyc = ks ++ (mb, lv) :: ls ∧
      mergePlan cyc allFiles =
        mergePasses cyc allFiles ks ++ mergePass cyc allFiles mb lv :: mergePasses cyc allFiles ls ∧
      ∀ js, js = ks ∨ js = ls →
        Untouched (conglomerateName cyc mb lv) (mergePasses cyc allFiles js) ∧
        ∀ o : OutputName (perlGetNMembers cyc), o.em = mb → o.lv = lv →
          Untouched (o.fileName cyc) (mergePasses cyc allFiles js) := by
  have hk : (mb, lv) ∈ mergeKeys cyc := mem_mergeKeys.mpr hmb
  obtain ⟨ks, ls, hsplit, hks, hls⟩ := mergeKeys_split hk
  refine ⟨ks, ls, hsplit, ?_, fun js hjs => ?_⟩
  · rw [mergePlan, hsplit, mergePasses, mergePasses, mergePasses, List.map_append, List.map_cons]
  · have hmem : (mb, lv) ∉ js := by rcases hjs with rfl | rfl <;> assumption
    have hsub : js ⊆ mergeKeys cyc := by
      rw [hsplit]
      rcases hjs with rfl | rfl
      · exact List.subset_append_left _ _
      · exact fun x hx => List.mem_append_right _ (List.mem_cons_of_mem _ hx)
    refine ⟨untouched_conglomerate (k := (mb, lv)) hl hs hmem, ?_⟩
    rintro o rfl rfl
    exact untouched_output hl hs hsub o hmem

end Plan
end Tigge

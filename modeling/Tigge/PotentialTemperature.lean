import Tigge.Coverage

/-! The potential temperature: which records of the B file its search takes for the two
hemispheres, and what is made of their fields at one point. -/

namespace Tigge
open Lib
variable {n : ℕ}

/-! The search. -/

/-- The type of surface of the isentropic records, for one parameter of number zero. -/
def GribRecord.isSurface (r : GribRecord n) (category : ℤ) : Bool := r.isField 0 category 0 109

def GribRecord.isNorth (r : GribRecord n) (category : ℤ) : Bool :=
  r.isSurface category && r.scaledValueOfFirstFixedSurface = 2000

def GribRecord.isSouth (r : GribRecord n) (category : ℤ) : Bool :=
  r.isSurface category && (r.scaledValueOfFirstFixedSurface = 2147485648 ||
    r.scaledValueOfFirstFixedSurface = -2147485648)

def surfaceCategories : List ℤ := [3, 0]

/-- The records of a B file with both parameters on the level of either hemisphere. -/
structure SurfaceFile (n : ℕ) where
  records : List (GribRecord n)
  north : ∀ category ∈ surfaceCategories, ∃ r ∈ records, r.isNorth category
  south : ∀ category ∈ surfaceCategories, ∃ r ∈ records, r.isSouth category

/-- The search ends with the first record of each parameter on either level. -/
def SurfaceFile.Selects (b : SurfaceFile n) : Prop :=
  ∃ pn ps tn ts, scanHemispheres {} b.records = some (pn, ps, tn, ts) ∧
    b.records.find? (·.isNorth 3) = some pn ∧ b.records.find? (·.isSouth 3) = some ps ∧
      b.records.find? (·.isNorth 0) = some tn ∧ b.records.find? (·.isSouth 0) = some ts

/-- Apart from the first record on the northern level, the first record of the parameter is on
the southern one. -/
def SurfaceFile.SouthFirst (b : SurfaceFile n) (category : ℤ) : Prop :=
  ∀ r, (b.records.eraseP (·.isNorth category)).find? (·.isSurface category) = some r →
    r.isSouth category

/-- One record of the search, for the two slots of one parameter. -/
def takeSurface (category : ℤ) (slots : Option (GribRecord n) × Option (GribRecord n))
    (temp : GribRecord n) : Option (GribRecord n) × Option (GribRecord n) :=
  if slots.1.isNone ∧ temp.isNorth category then (some temp, slots.2)
  else if slots.2.isNone ∧ temp.isSurface category then (slots.1, some temp)
  else slots

namespace HemisphereRecords

def pressure (found : HemisphereRecords n) : Option (GribRecord n) × Option (GribRecord n) :=
  (found.pressureNorth, found.pressureSouth)

def temperature (found : HemisphereRecords n) : Option (GribRecord n) × Option (GribRecord n) :=
  (found.temperatureNorth, found.temperatureSouth)

/-- All four, once they are found. -/
def all (found : HemisphereRecords n) :
    Option (GribRecord n × GribRecord n × GribRecord n × GribRecord n) :=
  match found with
  | ⟨some pn, some ps, some tn, some ts⟩ => some (pn, ps, tn, ts)
  | _ => none

theorem isSurface_exclusive {r : GribRecord n} (h : r.isSurface 3 = true) :
    r.isSurface 0 = false := by
  simp only [GribRecord.isSurface, GribRecord.isField, GribRecord.isParameter, Bool.and_eq_true,
    decide_eq_true_eq] at h
  simp [GribRecord.isSurface, GribRecord.isField, GribRecord.isParameter, h.1.1.2]

/-- The test for the southern level accepts every level, so each parameter goes its own way. -/
theorem take_eq (found : HemisphereRecords n) (r : GribRecord n) :
    (found.take r).pressure = takeSurface 3 found.pressure r ∧
      (found.take r).temperature = takeSurface 0 found.temperature r := by
  have hnorth : ∀ category, r.isNorth category = true ↔
      r.isField 0 category 0 109 = true ∧ r.scaledValueOfFirstFixedSurface = 2000 := by
    intro category
    rw [GribRecord.isNorth, Bool.and_eq_true, decide_eq_true_iff, GribRecord.isSurface]
  obtain ⟨pn, ps, tn, ts⟩ := found
  simp only [take, pressure, temperature, takeSurface, hnorth]
  cases hp : r.isSurface 3 with
  | true =>
    have ht := isSurface_exclusive hp
    simp only [GribRecord.isSurface] at hp ht ⊢
    simp only [hp, ht, Bool.false_eq_true, true_and, false_and, and_false, and_true, if_false]
    split_ifs <;> exact ⟨rfl, rfl⟩
  | false =>
    simp only [GribRecord.isSurface] at hp ⊢
    simp only [hp, Bool.false_eq_true, false_and, and_false, if_false]
    constructor <;> split_ifs <;> simp_all

end HemisphereRecords

theorem foldl_take_pressure (found : HemisphereRecords n) (rest : List (GribRecord n)) :
    (rest.foldl HemisphereRecords.take found).pressure =
      rest.foldl (takeSurface 3) found.pressure :=
  (List.foldl_hom HemisphereRecords.pressure fun x y => ((x.take_eq y).1).symm).symm

theorem foldl_take_temperature (found : HemisphereRecords n) (rest : List (GribRecord n)) :
    (rest.foldl HemisphereRecords.take found).temperature =
      rest.foldl (takeSurface 0) found.temperature :=
  (List.foldl_hom HemisphereRecords.temperature fun x y => ((x.take_eq y).2).symm).symm

/-- Reading on past the fourth record would change nothing. -/
theorem scanHemispheres_eq (found : HemisphereRecords n) (rest : List (GribRecord n)) :
    scanHemispheres found rest = (rest.foldl HemisphereRecords.take found).all := by
  induction rest generalizing found with
  | nil =>
    obtain ⟨_ | pn, _ | ps, _ | tn, _ | ts⟩ := found <;> rfl
  | cons temp rest ih =>
    rw [List.foldl_cons, ← ih]
    obtain ⟨_ | pn, _ | ps, _ | tn, _ | ts⟩ := found <;> first | rfl | skip
    have hfull : HemisphereRecords.take ⟨some pn, some ps, some tn, some ts⟩ temp =
        ⟨some pn, some ps, some tn, some ts⟩ := by simp [HemisphereRecords.take]
    rw [hfull]
    cases rest <;> rfl

/-! The first matches of a list. -/

section FirstMatch
variable {α : Type*} {p q : α → Bool} {l : List α}

theorem find?_eraseP_of_not (h : ∀ a, p a = true → q a = false) :
    (l.eraseP p).find? q = l.find? q := by
  induction l with
  | nil => rfl
  | cons a l ih =>
    rw [List.eraseP_cons]
    cases hp : p a with
    | true => simp [h a hp]
    | false => simp [List.find?_cons, ih]

theorem find?_of_imp (h : ∀ a, q a = true → p a = true) {a : α} (hp : l.find? p = some a)
    (hq : q a = true) : l.find? q = some a := by
  obtain ⟨-, pre, post, rfl, hpre⟩ := List.find?_eq_some_iff_append.mp hp
  refine List.find?_eq_some_iff_append.mpr ⟨hq, pre, post, rfl, fun b hb => ?_⟩
  cases hqb : q b with
  | true => simpa [h b hqb] using hpre b hb
  | false => rfl

end FirstMatch

theorem isSurface_of_isNorth {r : GribRecord n} {category : ℤ} (h : r.isNorth category = true) :
    r.isSurface category = true := (Bool.and_eq_true_iff.mp h).1

theorem isSurface_of_isSouth {r : GribRecord n} {category : ℤ} (h : r.isSouth category = true) :
    r.isSurface category = true := (Bool.and_eq_true_iff.mp h).1

theorem isSouth_of_isNorth {r : GribRecord n} {category : ℤ} (h : r.isNorth category = true) :
    r.isSouth category = false := by
  have hlevel := (Bool.and_eq_true_iff.mp h).2
  rw [decide_eq_true_iff] at hlevel
  simp [GribRecord.isSouth, hlevel]

/-- The first record on the northern level takes the one slot, and the first record on any
surface that is left takes the other. -/
theorem foldl_takeSurface (category : ℤ) (l : List (GribRecord n))
    (slots : Option (GribRecord n) × Option (GribRecord n)) :
    l.foldl (takeSurface category) slots =
      (slots.1.or (l.find? (·.isNorth category)),
        slots.2.or ((if slots.1.isNone then l.eraseP (·.isNorth category) else l).find?
          (·.isSurface category))) := by
  induction l generalizing slots with
  | nil =>
    obtain ⟨_ | north, _ | south⟩ := slots <;> rfl
  | cons r l ih =>
    rw [List.foldl_cons, ih]
    -- the cases are which slots are taken, and on what level `r` is
    cases hn : r.isNorth category with
    | true =>
      have hs := isSurface_of_isNorth hn
      obtain ⟨_ | north, _ | south⟩ := slots <;> simp [takeSurface, hn, hs]
    | false =>
      cases hs : r.isSurface category <;>
        obtain ⟨_ | north, _ | south⟩ := slots <;> simp [takeSurface, hn, hs]

namespace SurfaceFile
variable (b : SurfaceFile n)

def foundSouth (category : ℤ) : Option (GribRecord n) :=
  (b.records.eraseP (·.isNorth category)).find? (·.isSurface category)

theorem foldl_take_empty {category : ℤ} :
    b.records.foldl (takeSurface category) (none, none) =
      (b.records.find? (·.isNorth category), b.foundSouth category) := foldl_takeSurface ..

theorem isSome_foundSouth {category : ℤ} (h : category ∈ surfaceCategories) :
    (b.foundSouth category).isSome := by
  obtain ⟨r, hr, hsouth⟩ := b.south category h
  have hnorth : ¬ r.isNorth category = true := fun hn =>
    Bool.false_ne_true ((isSouth_of_isNorth hn).symm.trans hsouth)
  have hleft : r ∈ b.records.eraseP (·.isNorth category) := by
    apply (List.mem_eraseP_of_neg ?_).mpr hr
    exact hnorth
  rw [foundSouth, List.find?_isSome]
  exact ⟨r, hleft, isSurface_of_isSouth hsouth⟩

theorem scan_eq {pn ps tn ts : GribRecord n} (hpn : b.records.find? (·.isNorth 3) = some pn)
    (hps : b.foundSouth 3 = some ps) (htn : b.records.find? (·.isNorth 0) = some tn)
    (hts : b.foundSouth 0 = some ts) : scanHemispheres {} b.records = some (pn, ps, tn, ts) := by
  have hpressure := foldl_take_pressure {} b.records
  have htemperature := foldl_take_temperature {} b.records
  rw [show ({} : HemisphereRecords n).pressure = (none, none) from rfl, b.foldl_take_empty,
    hpn, hps] at hpressure
  rw [show ({} : HemisphereRecords n).temperature = (none, none) from rfl, b.foldl_take_empty,
    htn, hts] at htemperature
  rw [scanHemispheres_eq]
  generalize b.records.foldl HemisphereRecords.take {} = found at hpressure htemperature
  obtain ⟨_, _, _, _⟩ := found
  obtain ⟨rfl, rfl⟩ := Prod.mk.inj hpressure
  obtain ⟨rfl, rfl⟩ := Prod.mk.inj htemperature
  rfl

theorem find?_isSouth_iff {category : ℤ} {s : GribRecord n} (hs : b.foundSouth category = some s) :
    b.records.find? (·.isSouth category) = some s ↔ s.isSouth category = true := by
  constructor
  · intro h
    exact List.find?_some (p := fun r : GribRecord n => r.isSouth category) h
  · intro h
    rw [← find?_eraseP_of_not (p := (·.isNorth category)) fun r => isSouth_of_isNorth]
    exact find?_of_imp (fun r => isSurface_of_isSouth) hs h

theorem mem_surfaceCategories :
    (3 : ℤ) ∈ surfaceCategories ∧ (0 : ℤ) ∈ surfaceCategories := by decide

theorem exists_found : ∃ pn ps tn ts, scanHemispheres {} b.records = some (pn, ps, tn, ts) ∧
    b.records.find? (·.isNorth 3) = some pn ∧ b.foundSouth 3 = some ps ∧
      b.records.find? (·.isNorth 0) = some tn ∧ b.foundSouth 0 = some ts := by
  have hnorth : ∀ category ∈ surfaceCategories,
      ∃ r, b.records.find? (·.isNorth category) = some r := by
    intro category h
    obtain ⟨r, hr, hn⟩ := b.north category h
    exact Option.isSome_iff_exists.mp (List.find?_isSome.mpr ⟨r, hr, hn⟩)
  obtain ⟨pn, hpn⟩ := hnorth 3 mem_surfaceCategories.1
  obtain ⟨tn, htn⟩ := hnorth 0 mem_surfaceCategories.2
  obtain ⟨ps, hps⟩ := Option.isSome_iff_exists.mp (b.isSome_foundSouth mem_surfaceCategories.1)
  obtain ⟨ts, hts⟩ := Option.isSome_iff_exists.mp (b.isSome_foundSouth mem_surfaceCategories.2)
  exact ⟨pn, ps, tn, ts, b.scan_eq hpn hps htn hts, hpn, hps, htn, hts⟩

variable {b}

theorem southFirst_iff {category : ℤ} {s : GribRecord n} (hs : b.foundSouth category = some s) :
    b.SouthFirst category ↔ s.isSouth category = true := by
  constructor
  · intro h
    exact h s hs
  · intro h r hr
    obtain rfl := Option.some.inj (hs.symm.trans hr)
    exact h

end SurfaceFile

/-- The search for the potential temperature selects the first record of each parameter on
either level, exactly when no other record of the parameter comes before its first record on the
southern level, but for the first one on the northern level. -/
theorem surfaceFile_selects_iff (b : SurfaceFile n) :
    b.Selects ↔ ∀ category ∈ surfaceCategories, b.SouthFirst category := by
  obtain ⟨pn, ps, tn, ts, hscan, hpn, hps, htn, hts⟩ := b.exists_found
  rw [surfaceCategories, List.forall_mem_cons, List.forall_mem_singleton,
    SurfaceFile.southFirst_iff hps, SurfaceFile.southFirst_iff hts, ← b.find?_isSouth_iff hps,
    ← b.find?_isSouth_iff hts]
  constructor
  · rintro ⟨pn', ps', tn', ts', hscan', -, hps', -, hts'⟩
    rw [hscan] at hscan'
    cases hscan'
    exact ⟨hps', hts'⟩
  · rintro ⟨hps', hts'⟩
    exact ⟨pn, ps, tn, ts, hscan, hpn, hps', htn, hts'⟩

/-- A pressure on another level, before the southern one. -/
def thirdSurface : SurfaceFile n where
  records := recordsOf [⟨0, 3, 0, 109, 2000⟩, ⟨0, 0, 0, 109, 2000⟩, ⟨0, 3, 0, 109, 1500⟩,
    ⟨0, 3, 0, 109, -2147485648⟩, ⟨0, 0, 0, 109, -2147485648⟩]
  north := by
    intro category h
    rcases List.mem_cons.mp h with rfl | h
    · exact ⟨_, List.mem_cons_self, rfl⟩
    · obtain rfl := List.mem_singleton.mp h
      exact ⟨_, List.mem_cons_of_mem _ List.mem_cons_self, rfl⟩
  south := by
    intro category h
    rcases List.mem_cons.mp h with rfl | h
    · exact ⟨_, List.mem_of_getElem? (i := 3) rfl, rfl⟩
    · obtain rfl := List.mem_singleton.mp h
      exact ⟨_, List.mem_of_getElem? (i := 4) rfl, rfl⟩

/-- It is taken as the pressure of the south. -/
theorem thirdSurface_not_selects : ¬ (thirdSurface : SurfaceFile 259920).Selects := by
  rintro ⟨pn, ps, tn, ts, hscan, -, hps, -⟩
  cases hscan
  have hsouth := (thirdSurface.find?_isSouth_iff rfl).mp hps
  exact absurd hsouth (by decide)

/-! The merge of the two hemispheres. -/

structure HemisphereFields (n : ℕ) where
  pressureNorth : Fin n → ℚ
  pressureSouth : Fin n → ℚ
  temperatureNorth : Fin n → ℚ
  temperatureSouth : Fin n → ℚ

/-- The mean of two values, or the one that is not missing. -/
structure IsMerge (south north merged : ℚ) : Prop where
  both : south ≠ 9999 → north ≠ 9999 → merged = (south + north) / 2
  onlyNorth : south = 9999 → north ≠ 9999 → merged = north
  onlySouth : south ≠ 9999 → north = 9999 → merged = south
  neither : south = 9999 → north = 9999 → merged = 9999

/-- Both values are there, and their mean is not the missing marker by chance. -/
def Overlaps (south north : ℚ) : Prop := south ≠ 9999 ∧ north ≠ 9999 ∧ (south + north) / 2 ≠ 9999

theorem mergeHemispheres_eq (south north : ℚ) : mergeHemispheres south north =
    if south = 9999 then north else if north = 9999 then south else 9999 := by
  by_cases hs : south = 9999 <;> by_cases hn : north = 9999 <;>
    (simp only [mergeHemispheres, hs, hn, ne_eq, not_true, not_false_eq_true, and_self, and_false,
      and_true, if_true, if_false]; rfl)

theorem isMerge_iff (south north : ℚ) :
    IsMerge south north (mergeHemispheres south north) ↔ ¬ Overlaps south north := by
  rw [mergeHemispheres_eq, Overlaps]
  by_cases hs : south = 9999
  · rw [if_pos hs]
    exact ⟨fun _ h => h.1 hs, fun _ => ⟨fun h => absurd hs h, fun _ _ => rfl,
      fun h => absurd hs h, fun _ hn => hn⟩⟩
  by_cases hn : north = 9999
  · rw [if_neg hs, if_pos hn]
    exact ⟨fun _ h => h.2.1 hn, fun _ => ⟨fun _ h => absurd hn h, fun h => absurd h hs,
      fun _ _ => rfl, fun h => absurd h hs⟩⟩
  · rw [if_neg hs, if_neg hn]
    constructor
    · intro h hoverlaps
      exact hoverlaps.2.2 (h.both hs hn).symm
    · intro h
      have hmean : (south + north) / 2 = 9999 := by
        by_contra hmean
        exact h ⟨hs, hn, hmean⟩
      exact ⟨fun _ _ => hmean.symm, fun h => absurd h hs, fun _ h => absurd h hn,
        fun h => absurd h hs⟩

namespace HemisphereFields
variable (api : GribApi n) (h : HemisphereFields n)

def mergedPressure (i : Fin n) : ℚ := mergeHemispheres (h.pressureSouth i) (h.pressureNorth i)

def mergedTemperature (i : Fin n) : ℚ :=
  mergeHemispheres (h.temperatureSouth i) (h.temperatureNorth i)

def values (i : Fin n) : ℚ :=
  potentialTemperatureAt api (h.mergedPressure i) (h.mergedTemperature i)

/-- Every point is merged, and missing or computed from the merged values. -/
structure Specified : Prop where
  pressure : ∀ i, IsMerge (h.pressureSouth i) (h.pressureNorth i) (h.mergedPressure i)
  temperature : ∀ i, IsMerge (h.temperatureSouth i) (h.temperatureNorth i) (h.mergedTemperature i)
  missing : ∀ i, h.mergedPressure i = 9999 ∨ h.mergedTemperature i = 9999 → h.values api i = 9999
  present : ∀ i, ¬ (h.mergedPressure i = 9999 ∨ h.mergedTemperature i = 9999) →
    h.values api i = h.mergedTemperature i * api.pow (100000 / h.mergedPressure i) (2854 / 10000)

end HemisphereFields

theorem generatePotentialTemperature_result (api : GribApi n) (f : NcepFiles n) :
    (generatePotentialTemperature api f).result = (scanHemispheres {} f.bFile.rest).map
      fun (pn, ps, tn, ts) =>
        (⟨pn.values, ps.values, tn.values, ts.values⟩ : HemisphereFields n).values api := by
  unfold generatePotentialTemperature
  cases scanHemispheres {} f.bFile.rest <;> rfl

/-- The potential temperature is as specified exactly when the hemispheres nowhere overlap. -/
theorem hemisphereFields_specified_iff (api : GribApi n) (h : HemisphereFields n) :
    h.Specified api ↔ ∀ i, ¬ Overlaps (h.pressureSouth i) (h.pressureNorth i) ∧
      ¬ Overlaps (h.temperatureSouth i) (h.temperatureNorth i) := by
  constructor
  · intro hspec i
    exact ⟨(isMerge_iff _ _).mp (hspec.pressure i), (isMerge_iff _ _).mp (hspec.temperature i)⟩
  · intro hno
    exact ⟨fun i => (isMerge_iff _ _).mpr (hno i).1, fun i => (isMerge_iff _ _).mpr (hno i).2,
      fun i hmissing => if_pos hmissing, fun i hpresent => if_neg hpresent⟩

/-- 200 and 300 hPa at the same point, which is then missing. -/
theorem hemisphereFields_not_specified : ¬ HemisphereFields.Specified plainApi
    (⟨fun _ => 20000, fun _ => 30000, fun _ => 340, fun _ => 340⟩ : HemisphereFields 259920) := by
  intro hspec
  refine (isMerge_iff _ _).mp (hspec.pressure 0) ⟨?_, ?_, ?_⟩ <;> norm_num

end Tigge

import Mathlib.Algebra.Order.Ring.Int
import Mathlib.Logic.Function.Basic
import Mathlib.Tactic.Common

/-! The coded keys of an edition 2 message, and how grib_api reads and sets them. -/

namespace Tigge

/-- The errors of grib_api that a run can end with. -/
inductive GribError
  | notFound
  | encodingError
  | valueCannotBeMissing
  | readOnly
  | wrongStep
  | wrongStepUnit
  | decodingError
  | conceptNoMatch
  | switchNoMatch
  | assertionFailure
  deriving DecidableEq, Repr

/-- The keys that are coded in the octets of a message, and `stepUnits`, which a handle only
remembers and where nothing is set but what was read from one octet. A key that is only carried
along is `other`, with its name and its number of octets. -/
inductive GribKey
  | reserved
  | discipline
  | editionNumber
  | centre
  | subCentre
  | tablesVersion
  | localTablesVersion
  | significanceOfReferenceTime
  | year
  | month
  | day
  | hour
  | minute
  | second
  | productionStatusOfProcessedData
  | typeOfProcessedData
  | sourceOfGridDefinition
  | numberOfDataPoints
  | numberOfOctectsForNumberOfPoints
  | interpretationOfNumberOfPoints
  | gridDefinitionTemplateNumber
  | Ni
  | Nj
  | basicAngleOfTheInitialProductionDomain
  | subdivisionsOfBasicAngle
  | latitudeOfFirstGridPoint
  | longitudeOfFirstGridPoint
  | resolutionAndComponentFlags
  | latitudeOfLastGridPoint
  | longitudeOfLastGridPoint
  | iDirectionIncrement
  | jDirectionIncrement
  | scanningMode
  | productDefinitionTemplateNumber
  | parameterCategory
  | parameterNumber
  | generatingProcessIdentifier
  | indicatorOfUnitOfTimeRange
  | stepUnits
  | forecastTime
  | typeOfFirstFixedSurface
  | scaleFactorOfFirstFixedSurface
  | scaledValueOfFirstFixedSurface
  | typeOfSecondFixedSurface
  | scaleFactorOfSecondFixedSurface
  | scaledValueOfSecondFixedSurface
  | typeOfEnsembleForecast
  | perturbationNumber
  | numberOfForecastsInEnsemble
  | yearOfEndOfOverallTimeInterval
  | monthOfEndOfOverallTimeInterval
  | dayOfEndOfOverallTimeInterval
  | hourOfEndOfOverallTimeInterval
  | minuteOfEndOfOverallTimeInterval
  | secondOfEndOfOverallTimeInterval
  | numberOfTimeRange
  | numberOfMissingInStatisticalProcess
  | typeOfStatisticalProcessing
  | typeOfTimeIncrement
  | indicatorOfUnitForTimeRange
  | lengthOfTimeRange
  | indicatorOfUnitForTimeIncrement
  | timeIncrement
  | numberOfValues
  | dataRepresentationTemplateNumber
  | typeOfOriginalFieldValues
  | bitMapIndicator
  | other (name : String) (octets : ℕ)
  deriving DecidableEq

/-- How the octets of a key are read: `unsigned[octets]` or `signed[octets]`, and the flag
`can_be_missing`. -/
structure Coding where
  octets : ℕ
  signed : Bool
  canBeMissing : Bool

/-- The declarations of the keys in the definition files. -/
def GribKey.coding : GribKey → Coding
  | reserved => ⟨2, false, true⟩
  | centre | subCentre | year | gridDefinitionTemplateNumber | productDefinitionTemplateNumber
  | yearOfEndOfOverallTimeInterval | dataRepresentationTemplateNumber => ⟨2, false, false⟩
  | numberOfDataPoints | Nj | basicAngleOfTheInitialProductionDomain | forecastTime
  | numberOfMissingInStatisticalProcess | lengthOfTimeRange | timeIncrement
  | numberOfValues => ⟨4, false, false⟩
  | Ni | subdivisionsOfBasicAngle | iDirectionIncrement | jDirectionIncrement
  | scaledValueOfFirstFixedSurface | scaledValueOfSecondFixedSurface => ⟨4, false, true⟩
  | scaleFactorOfFirstFixedSurface | scaleFactorOfSecondFixedSurface => ⟨1, true, true⟩
  | latitudeOfFirstGridPoint | longitudeOfFirstGridPoint | latitudeOfLastGridPoint
  | longitudeOfLastGridPoint => ⟨4, true, false⟩
  | other _ octets => ⟨octets, false, false⟩
  | _ => ⟨1, false, false⟩

/-- `GRIB_MISSING_LONG`. -/
def gribMissingLong : ℤ := 4294967295

namespace Coding

def size (c : Coding) : ℕ := 256 ^ c.octets

theorem size_pos (c : Coding) : 0 < c.size := Nat.pow_pos (by omega)

/-- The octets of a key, as the number that they make. -/
abbrev Octets (c : Coding) := Fin c.size

/-- The low octets of a number. -/
def low (c : Coding) (n : ℕ) : c.Octets := ⟨n % c.size, Nat.mod_lt _ c.size_pos⟩

def allOnes (c : Coding) : c.Octets := ⟨c.size - 1, Nat.sub_lt c.size_pos one_pos⟩

/-- The value that stands for a missing one: all ones, which a signed key reads as `-127` and so
on. -/
def missing (c : Coding) : ℤ := if c.signed then -((c.size / 2 - 1 : ℕ) : ℤ) else (c.size - 1 : ℕ)

/-- `grib_decode_unsigned_long` and `grib_decode_signed_long` of whole octets. -/
def decode (c : Coding) (raw : c.Octets) : ℤ :=
  if c.signed then
    let magnitude : ℤ := (raw.val % (c.size / 2) : ℕ)
    if c.size / 2 ≤ raw.val then -magnitude else magnitude
  else (raw.val : ℤ)

/-- `grib_encode_unsigned_long` and `grib_encode_signed_long` of whole octets. -/
def encode (c : Coding) (v : ℤ) : c.Octets :=
  if c.signed then
    let low := c.low v.natAbs
    if v < 0 ∧ low.val < c.size / 2 then c.low (low.val + c.size / 2) else low
  else c.low (v % (c.size : ℤ)).toNat

/-- `unpack_long` of the accessors `unsigned` and `signed`. -/
def unpack (c : Coding) (raw : c.Octets) : ℤ :=
  if c.canBeMissing ∧ c.decode raw = c.missing then gribMissingLong else c.decode raw

/-- `pack_long` of the accessors `unsigned` and `signed`. -/
def pack (c : Coding) (v : ℤ) : Except GribError c.Octets :=
  let value := if c.canBeMissing ∧ v = gribMissingLong then c.missing else v
  -- the marker of a missing value and all ones of a long are not checked
  if c.signed = false ∧ value ≠ gribMissingLong ∧ value ≠ -1 ∧
      (value < 0 ∨ c.octets < 4 ∧ (c.size : ℤ) ≤ value) then
    .error .encodingError
  else .ok (c.encode value)

/-- A coding of the definition files: a sign or the marker of a missing value takes octets, and a
value that can be missing has four at most. -/
structure WellFormed (c : Coding) : Prop where
  signed_pos : c.signed → 0 < c.octets
  missing_pos : c.canBeMissing → 0 < c.octets ∧ c.octets ≤ 4

/-- The values that the octets hold without a loss. -/
def InRange (c : Coding) (v : ℤ) : Prop :=
  if c.signed then |v| < (c.size / 2 : ℕ) else 0 ≤ v ∧ v < c.size

/-- The values that are read back after they were set. -/
def Represents (c : Coding) (v : ℤ) : Prop :=
  c.canBeMissing ∧ v = gribMissingLong ∨ c.InRange v ∧ ¬(c.canBeMissing ∧ v = c.missing)

instance (c : Coding) (v : ℤ) : Decidable (c.InRange v) :=
  inferInstanceAs (Decidable (if c.signed then |v| < (c.size / 2 : ℕ) else 0 ≤ v ∧ v < c.size))

instance (c : Coding) (v : ℤ) : Decidable (c.Represents v) :=
  inferInstanceAs (Decidable (c.canBeMissing ∧ v = gribMissingLong ∨
    c.InRange v ∧ ¬(c.canBeMissing ∧ v = c.missing)))

variable {c : Coding}

theorem size_eq (h : 0 < c.octets) : c.size = 256 * 256 ^ (c.octets - 1) := by
  obtain ⟨n, hn⟩ := Nat.exists_eq_succ_of_ne_zero h.ne'
  rw [size, hn, Nat.pow_succ, Nat.succ_sub_one, Nat.mul_comm]

theorem size_half (h : 0 < c.octets) : c.size = 2 * (c.size / 2) ∧ 128 ≤ c.size / 2 := by
  have hsize := size_eq h
  have hpow : 0 < 256 ^ (c.octets - 1) := Nat.pow_pos (by omega)
  omega

theorem decode_encode_unsigned (h : c.signed = false) (v : ℤ) :
    c.decode (c.encode v) = v % c.size := by
  have hpos : (0 : ℤ) < c.size := by exact_mod_cast c.size_pos
  have hlow := Int.emod_nonneg v hpos.ne'
  have hhigh := Int.emod_lt_of_pos v hpos
  simp only [decode, encode, h, low, Bool.false_eq_true, if_false]
  rw [Nat.mod_eq_of_lt (by omega), Int.toNat_of_nonneg hlow]

theorem decode_encode_signed (h : c.signed) (hc : c.WellFormed) (v : ℤ) :
    |c.decode (c.encode v)| < (c.size / 2 : ℕ) ∧
      (|v| < (c.size / 2 : ℕ) → c.decode (c.encode v) = v) := by
  obtain ⟨hhalf, hlarge⟩ := size_half (hc.signed_pos h)
  have hmod : ∀ n, n % (c.size / 2) < c.size / 2 := fun n => Nat.mod_lt _ (by omega)
  constructor
  · have hraw := hmod (c.encode v).val
    simp only [decode, h, if_true]
    rw [abs_lt]
    split <;> omega
  · intro hv
    rw [abs_lt] at hv
    have hsmall : v.natAbs < c.size / 2 := by omega
    have hlow : (c.low v.natAbs).val = v.natAbs := Nat.mod_eq_of_lt (by omega)
    have hval : (c.encode v).val = if v < 0 then v.natAbs + c.size / 2 else v.natAbs := by
      unfold encode
      rw [if_pos h]
      by_cases hneg : v < 0
      · rw [if_pos ⟨hneg, hlow.symm ▸ hsmall⟩, if_pos hneg]
        show ((c.low v.natAbs).val + c.size / 2) % c.size = _
        rw [hlow]
        exact Nat.mod_eq_of_lt (by omega)
      · rw [if_neg fun hand => hneg hand.1, if_neg hneg]
        exact hlow
    simp only [decode, h, if_true, hval]
    by_cases hneg : v < 0
    · rw [if_pos hneg, if_pos (by omega), Nat.add_mod_right, Nat.mod_eq_of_lt hsmall]
      omega
    · rw [if_neg hneg, if_neg (by omega), Nat.mod_eq_of_lt hsmall]
      omega

theorem decode_encode_iff (hc : c.WellFormed) (v : ℤ) :
    c.decode (c.encode v) = v ↔ c.InRange v := by
  cases h : c.signed with
  | true =>
    obtain ⟨hrange, hkeep⟩ := decode_encode_signed h hc v
    simp only [InRange, h, if_true]
    exact ⟨fun heq => heq ▸ hrange, hkeep⟩
  | false =>
    have hpos : (0 : ℤ) < c.size := by exact_mod_cast c.size_pos
    simp only [InRange, h, Bool.false_eq_true, if_false]
    rw [decode_encode_unsigned h]
    constructor
    · intro heq
      exact heq ▸ ⟨Int.emod_nonneg v hpos.ne', Int.emod_lt_of_pos v hpos⟩
    · rintro ⟨hlow, hhigh⟩
      exact Int.emod_eq_of_lt hlow hhigh

theorem missing_inRange (hc : c.WellFormed) (h : c.canBeMissing) : c.InRange c.missing := by
  obtain ⟨hpos, -⟩ := hc.missing_pos h
  obtain ⟨hhalf, hlarge⟩ := size_half hpos
  simp only [InRange, missing]
  split
  · rw [abs_lt]
    omega
  · omega

/-- What is read back after a value was set: the value itself, when it is represented. -/
theorem unpack_pack_iff (hc : c.WellFormed) (v : ℤ) :
    (∃ raw, c.pack v = .ok raw ∧ c.unpack raw = v) ↔ c.Represents v := by
  by_cases hmissing : c.canBeMissing ∧ v = gribMissingLong
  · -- the marker is set as all ones and read as the marker
    refine iff_of_true ?_ (.inl hmissing)
    obtain ⟨hm, rfl⟩ := hmissing
    have hkeep := (decode_encode_iff hc c.missing).mpr (missing_inRange hc hm)
    obtain ⟨hpos, hle⟩ := hc.missing_pos hm
    refine ⟨c.encode c.missing, ?_, ?_⟩
    · simp only [pack, hm, true_and, if_true]
      rw [if_neg]
      rintro ⟨hs, -, -, hrange⟩
      have hin := missing_inRange hc hm
      simp only [InRange, hs, Bool.false_eq_true, if_false] at hin
      omega
    · rw [unpack, hkeep, if_pos ⟨hm, rfl⟩]
  · have hpack : ∀ raw, c.pack v = .ok raw → raw = c.encode v := by
      intro raw hraw
      simp only [pack, if_neg hmissing] at hraw
      split at hraw
      · cases hraw
      · cases hraw
        rfl
    constructor
    · rintro ⟨raw, hraw, hv⟩
      have henc := hpack raw hraw
      subst henc
      right
      rw [unpack] at hv
      split at hv
      · rename_i hm
        exact absurd ⟨hm.1, hv.symm⟩ hmissing
      · rename_i hm
        rw [hv] at hm
        exact ⟨(decode_encode_iff hc v).mp hv, hm⟩
    · rintro (h | ⟨hin, hne⟩)
      · exact absurd h hmissing
      · have hkeep := (decode_encode_iff hc v).mpr hin
        refine ⟨c.encode v, ?_, ?_⟩
        · simp only [pack, if_neg hmissing]
          rw [if_neg]
          rintro ⟨hs, -, -, hrange⟩
          simp only [InRange, hs, Bool.false_eq_true, if_false] at hin
          omega
        · rw [unpack, hkeep, if_neg hne]

theorem unpack_unsigned (h : c.signed = false) (h' : c.canBeMissing = false) (raw : c.Octets) :
    c.unpack raw = raw.val := by
  simp only [unpack, decode, h, h', Bool.false_eq_true, false_and, if_false]

/-- The check of `pack_long`: fewer than four octets take no number above them. -/
theorem pack_lt {v : ℤ} {raw : c.Octets} (h : c.pack v = .ok raw) (hc : c.signed = false)
    (hm : c.canBeMissing = false) (hoctets : c.octets < 4) (hv : 0 ≤ v)
    (hne : v ≠ gribMissingLong) : v < c.size := by
  by_contra hlt
  simp only [pack, hc, hm, Bool.false_eq_true, false_and, if_false] at h
  rw [if_pos ⟨trivial, hne, by omega, .inr ⟨hoctets, not_lt.mp hlt⟩⟩] at h
  cases h

end Coding

theorem GribKey.coding_wellFormed (k : GribKey) : k.coding.WellFormed := by
  cases k <;> exact ⟨by simp [coding], by simp [coding]⟩

theorem bind_eq_ok {ε α β : Type} {x : Except ε α} {f : α → Except ε β} {b : β}
    (h : x >>= f = .ok b) : ∃ a, x = .ok a ∧ f a = .ok b := by
  cases x with
  | error e => cases h
  | ok a => exact ⟨a, rfl, h⟩

/-- The octets of the keys of a message; a key of another template has none. -/
abbrev GribMessage := (k : GribKey) → Option k.coding.Octets

namespace GribMessage

variable (m : GribMessage) (k : GribKey)

/-- `grib_get_long` of a coded key. -/
def getLong : Except GribError ℤ :=
  match m k with
  | none => .error .notFound
  | some raw => .ok (k.coding.unpack raw)

/-- `grib_is_missing` of a coded key. -/
def isMissing : Bool := m k = some k.coding.allOnes

/-- `grib_set_long` of a coded key. -/
def setLong (v : ℤ) : Except GribError GribMessage :=
  match m k with
  | none => .error .notFound
  | some _ =>
    match k.coding.pack v with
    | .error e => .error e
    | .ok raw => .ok (Function.update m k (some raw))

/-- `grib_set_missing` of a coded key. -/
def setMissing : Except GribError GribMessage :=
  match m k with
  | none => .error .notFound
  | some _ =>
    if k.coding.canBeMissing then m.setLong k gribMissingLong else .error .valueCannotBeMissing

variable {m k}

/-- What setting a key can do. -/
theorem setLong_cases {v : ℤ} {m' : GribMessage} (h : m.setLong k v = .ok m') :
    (m k).isSome ∧ ∃ raw, k.coding.pack v = .ok raw ∧ m' = Function.update m k (some raw) := by
  unfold setLong at h
  split at h
  · cases h
  · rename_i old hold
    split at h
    · cases h
    · rename_i raw hraw
      cases h
      exact ⟨by rw [hold]; rfl, raw, hraw, rfl⟩

theorem setLong_of_pack {v : ℤ} {raw : k.coding.Octets} (hk : (m k).isSome)
    (h : k.coding.pack v = .ok raw) : m.setLong k v = .ok (Function.update m k (some raw)) := by
  obtain ⟨old, hold⟩ := Option.isSome_iff_exists.mp hk
  simp only [setLong, hold, h]

theorem getLong_of_eq {raw : k.coding.Octets} (h : m k = some raw) :
    m.getLong k = .ok (k.coding.unpack raw) := by
  simp only [getLong, h]

theorem getLong_congr {m' : GribMessage} (h : m' k = m k) : m'.getLong k = m.getLong k := by
  simp only [getLong, h]

theorem getLong_bounds {v : ℤ} (h : m.getLong k = .ok v) (hsigned : k.coding.signed = false)
    (hmissing : k.coding.canBeMissing = false) : 0 ≤ v ∧ v < k.coding.size := by
  cases hraw : m k with
  | none =>
    rw [getLong, hraw] at h
    cases h
  | some raw =>
    rw [getLong_of_eq hraw, Coding.unpack_unsigned hsigned hmissing] at h
    cases h
    exact ⟨Int.natCast_nonneg _, by exact_mod_cast raw.isLt⟩

section Frame
variable {m' : GribMessage} {name : GribKey} {v : ℤ} (h : m.setLong name v = .ok m')
include h

theorem setLong_frame (hk : k ≠ name) : m' k = m k := by
  obtain ⟨-, raw, -, rfl⟩ := setLong_cases h
  exact Function.update_of_ne hk _ _

theorem getLong_frame (hk : k ≠ name) : m'.getLong k = m.getLong k :=
  getLong_congr (setLong_frame h hk)

theorem setLong_getLong (hv : name.coding.Represents v) : m'.getLong name = .ok v := by
  obtain ⟨-, raw, hraw, rfl⟩ := setLong_cases h
  obtain ⟨raw', hraw', hread⟩ := (Coding.unpack_pack_iff name.coding_wellFormed v).mpr hv
  rw [hraw] at hraw'
  cases hraw'
  rw [getLong_of_eq (Function.update_self name _ m), hread]

theorem setLong_present (hk : (m k).isSome) : (m' k).isSome := by
  obtain ⟨-, raw, -, rfl⟩ := setLong_cases h
  by_cases heq : k = name
  · subst heq
    rw [Function.update_self]
    rfl
  · rw [Function.update_of_ne heq]
    exact hk

end Frame

theorem setLong_missing {m' : GribMessage} {name : GribKey}
    (h : m.setLong name gribMissingLong = .ok m')
    (hname : name.coding.pack gribMissingLong = .ok name.coding.allOnes) :
    m'.isMissing name = true := by
  obtain ⟨-, raw, hraw, rfl⟩ := setLong_cases h
  rw [hname] at hraw
  cases hraw
  simp only [isMissing, Function.update_self, decide_true]

end GribMessage

end Tigge

import Tigge.Lib.Decimal
import Tigge.Lib.RecordStream

/-! GRIB records on the grid of one cycle and the A and B files they are read from. The number
of data points of a record is the grid's, as the input check demands of every record. Values
are exact, so packing loses nothing. -/

namespace Tigge
open Lib

/-- The keys that the searches read. -/
structure GribKeys where
  discipline : ℤ
  parameterCategory : ℤ
  parameterNumber : ℤ
  typeOfFirstFixedSurface : ℤ
  scaledValueOfFirstFixedSurface : ℤ
  deriving DecidableEq

structure GribRecord (n : ℕ) extends GribKeys where
  totalLength : ℕ+
  values : Fin n → ℚ

/-- What is used of the GRIB library: the keys of a record made from its template, the length
of an encoded message, and `pow`. -/
structure GribApi (n : ℕ) where
  template : GribKeys
  encodedLength : GribKeys → (Fin n → ℚ) → ℕ+
  pow : ℚ → ℚ → ℚ

variable {n : ℕ}

def GribApi.encode (api : GribApi n) (keys : GribKeys) (values : Fin n → ℚ) : GribRecord n :=
  { keys with totalLength := api.encodedLength keys values, values := values }

def newGribRecord (api : GribApi n) (values : Fin n → ℚ) : GribRecord n :=
  api.encode { api.template with discipline := 0 } values

def newBlankGribRecord (api : GribApi n) (discipline category parmNumber firstLevelType : ℤ) :
    GribRecord n :=
  api.encode
    { api.template with
      discipline := discipline
      parameterCategory := category
      parameterNumber := parmNumber
      typeOfFirstFixedSurface := firstLevelType } 0

/-- A library whose every message is one byte long. -/
def plainApi : GribApi n := ⟨⟨0, 0, 0, 0, 0⟩, fun _ _ => 1, fun x _ => x⟩

/-- A record with one value. -/
def pointRecord (keys : GribKeys) (value : ℚ) : GribRecord 1 := ⟨keys, 1, fun _ => value⟩

/-- What a loader hands to `addGribRecordToArray`: a message, or the zeroed bytes that stand
for the precipitation of hour zero. -/
inductive Message (n : ℕ)
  | grib (record : GribRecord n)
  | zeros (size : ℕ)

def Message.size : Message n → ℕ
  | .grib record => record.totalLength
  | .zeros size => size

/-- The two files of one member and hour. -/
structure NcepFiles (n : ℕ) where
  aFile : RecordStream (GribRecord n)
  bFile : RecordStream (GribRecord n)

namespace NcepFiles

def opened (a b : List (GribRecord n)) : NcepFiles n := ⟨.opened a, .opened b⟩

def rewind (f : NcepFiles n) : NcepFiles n := ⟨f.aFile.rewind, f.bFile.rewind⟩

def positions (f : NcepFiles n) : List ℕ := [f.aFile.position, f.bFile.position]

def seekEither (p : GribRecord n → Bool) (f : NcepFiles n) :
    Option (GribRecord n) × NcepFiles n :=
  let s := RecordStream.seekEither p f.aFile f.bFile
  (s.1, ⟨s.2.1, s.2.2⟩)

@[simp] theorem opened_rewind (a b : List (GribRecord n)) : (opened a b).rewind = opened a b := rfl

@[simp] theorem rewind_rewind (f : NcepFiles n) : f.rewind.rewind = f.rewind := rfl

@[simp] theorem rewind_positions (f : NcepFiles n) : f.rewind.positions = [0, 0] := rfl

@[simp] theorem seekEither_rewind (p : GribRecord n → Bool) (f : NcepFiles n) :
    (seekEither p f).2.rewind = f.rewind := by
  obtain ⟨ha, hb⟩ := RecordStream.seekEither_rewind p f.aFile f.bFile
  simp only [rewind, seekEither, ha, hb]

end NcepFiles

/-- Outcome of one loader or generator: what it produced, the files as it leaves them, and
the positions at which its searches began. -/
structure Retrieved (σ ρ : Type*) where
  result : Option ρ
  files : σ
  started : List ℕ

end Tigge

import Tigge.Lib.Commands
import Tigge.GribMessage

/-! The tool grib_filter and the rules that the conversion gives it. -/

namespace Tigge

/-- `grib_op_eq`, `grib_op_ne`, `grib_op_and` and `grib_op_add`. -/
inductive GribOp
  | eq
  | ne
  | and
  | add
  deriving DecidableEq

def GribOp.apply : GribOp → ℤ → ℤ → ℤ
  | eq, a, b => if a = b then 1 else 0
  | ne, a, b => if a = b then 0 else 1
  | and, a, b => if a ≠ 0 ∧ b ≠ 0 then 1 else 0
  | add, a, b => a + b

/-- The expressions of the rules; `missing` is the call `missing()`. -/
inductive GribExpression
  | long (v : ℤ)
  | accessor (name : GribKey)
  | missing
  | binop (op : GribOp) (left right : GribExpression)
  deriving DecidableEq

/-- `grib_expression_evaluate_long`: both sides of an operator are evaluated, the left one first. -/
def GribExpression.evaluateLong (m : GribMessage) : GribExpression → Except GribError ℤ
  | long v => .ok v
  | accessor name => m.getLong name
  | missing => .ok gribMissingLong
  | binop op left right =>
    match left.evaluateLong m with
    | .error e => .error e
    | .ok v1 =>
      match right.evaluateLong m with
      | .error e => .error e
      | .ok v2 => .ok (op.apply v1 v2)

/-- A key that a concept names: a coded one, or the alias `is_tigge`. -/
inductive ConceptKey
  | coded (k : GribKey)
  | isTigge
  deriving DecidableEq

/-- `grib_concept_value`: a name with the values that its keys have. -/
structure ConceptValue where
  name : String
  conditions : List (ConceptKey × ℤ)

/-- The concepts `shortName` for a centre, and `shortNameECMF`, which it falls back to. -/
structure ShortNames where
  concepts : ℤ → List ConceptValue
  ecmf : List ConceptValue

def isTigge (m : GribMessage) : Bool :=
  m.getLong .productionStatusOfProcessedData = .ok 4 ∨
    m.getLong .productionStatusOfProcessedData = .ok 5

def ConceptKey.getLong (m : GribMessage) : ConceptKey → Except GribError ℤ
  | coded k => m.getLong k
  | isTigge => .ok (if Tigge.isTigge m then 1 else 0)

def ConceptValue.holds (c : ConceptValue) (m : GribMessage) : Bool :=
  c.conditions.all fun e => e.1.getLong m = .ok e.2

/-- `grib_concept_evaluate`: the last name among those with the most conditions that all hold. -/
def gribConceptEvaluate (concepts : List ConceptValue) (m : GribMessage) : Option String :=
  (concepts.foldl (fun best c =>
    if c.holds m ∧ best.1 ≤ c.conditions.length then (c.conditions.length, some c.name) else best)
    ((0, none) : ℕ × Option String)).2

/-- `grib_set_values` on the keys of a concept. -/
def gribSetValues (m : GribMessage) : List (ConceptKey × ℤ) → Except GribError GribMessage
  | [] => .ok m
  | (.isTigge, _) :: _ => .error .readOnly
  | (.coded k, v) :: rest =>
    match m.setLong k v with
    | .error e => .error e
    | .ok m' => gribSetValues m' rest

/-- `grib_trie_get` on the index of a concept: the first value of a name, or of `default`. -/
def conceptGet (concepts : List ConceptValue) (name : String) : Option ConceptValue :=
  concepts.find? (·.name = name) <|> concepts.find? (·.name = "default")

/-- `grib_concept_apply`. -/
def gribConceptApply (concepts : List ConceptValue) (name : String) (m : GribMessage) :
    Except GribError GribMessage :=
  match conceptGet concepts name with
  | none => .error .conceptNoMatch
  | some c => gribSetValues m c.conditions

/-- The status of the products whose definitions name `tigge_short_name`. -/
def hasTiggeShortName (m : GribMessage) : Bool :=
  m.getLong .productionStatusOfProcessedData = .ok 4 ∨
    m.getLong .productionStatusOfProcessedData = .ok 5 ∨
      m.getLong .productionStatusOfProcessedData = .ok 8 ∨
        m.getLong .productionStatusOfProcessedData = .ok 9

/-- The key `tigge_short_name`, an alias of `shortName`. -/
def tiggeShortName (names : ShortNames) (m : GribMessage) : Option String :=
  match m.getLong .centre with
  | .error _ => none
  | .ok centre =>
    if hasTiggeShortName m then
      gribConceptEvaluate (names.concepts centre) m <|> gribConceptEvaluate names.ecmf m <|>
        some "unknown"
    else none

/-- The actions of a rules file that are no branches. -/
inductive FilterAction
  | set (name : GribKey) (expression : GribExpression)
  | setTiggeShortName (value : String)
  | assert (expression : GribExpression)
  | print (text : String)
  | write
  deriving DecidableEq

/-- The condition of an `if`, or a `case` of a `switch` on `tigge_short_name`. -/
inductive FilterTest
  | condition (expression : GribExpression)
  | case (value : String)

inductive FilterOutput
  | printed (text : String)
  | written (m : GribMessage)

/-- The `execute` of the classes of actions. -/
def filterMeaning (names : ShortNames) :
    Meaning FilterAction FilterTest GribMessage GribError FilterOutput where
  run
    | .set name expression, m =>
      match m name with
      | none => .error .notFound
      | some _ =>
        match expression.evaluateLong m with
        | .error e => .error e
        | .ok v =>
          match m.setLong name v with
          | .error e => .error e
          | .ok m' => .ok (m', [])
    | .setTiggeShortName value, m =>
      match m.getLong .centre with
      | .error e => .error e
      | .ok centre =>
        if hasTiggeShortName m then
          match gribConceptApply (names.concepts centre) value m with
          | .error e => .error e
          | .ok m' => .ok (m', [])
        else .error .notFound
    | .assert expression, m =>
      match expression.evaluateLong m with
      | .error e => .error e
      | .ok v => if v = 0 then .error .assertionFailure else .ok (m, [])
    | .print text, m => .ok (m, [.printed text])
    | .write, m => .ok (m, [.written m])
  test
    | .condition expression, m =>
      match expression.evaluateLong m with
      | .error .notFound => .ok false
      | .error e => .error e
      | .ok v => .ok (v ≠ 0)
    | .case value, m => .ok (tiggeShortName names m = some value)

abbrev FilterRules := Program FilterAction FilterTest

namespace FilterRules

open GribExpression

def isEq (k : GribKey) (v : ℤ) : GribExpression := binop .eq (accessor k) (long v)

def isNe (k : GribKey) (v : ℤ) : GribExpression := binop .ne (accessor k) (long v)

/-- Conditions joined by `&&`, from the left. -/
def both (c c' : GribExpression) : GribExpression := binop .and c c'

/-- `if(c) { … }` with actions only. -/
def ifThen (c : GribExpression) (actions : List FilterAction) : FilterRules :=
  .branch (.condition c) (.block actions) .done .done

/-- The condition on a parameter of discipline 0 and its level. -/
def isParameter (category number surface : ℤ) : GribExpression :=
  both (both (both (isEq .parameterCategory category) (isEq .parameterNumber number))
    (isEq .typeOfFirstFixedSurface surface)) (isEq .discipline 0)

/-- The condition on the records of CAPE and CIN. -/
def isConvective (number : ℤ) : GribExpression :=
  both (both (both (both (isEq .parameterCategory 7) (isEq .parameterNumber number))
    (isEq .discipline 0)) (isEq .typeOfFirstFixedSurface 1)) (isEq .typeOfSecondFixedSurface 255)

def secondSurfaceMissing : List FilterAction :=
  [.set .scaledValueOfSecondFixedSurface missing, .set .scaleFactorOfSecondFixedSurface missing]

def firstSurfaceMissing : List FilterAction :=
  [.set .scaledValueOfFirstFixedSurface missing, .set .scaleFactorOfFirstFixedSurface missing]

/-- The rules for CAPE and for CIN. -/
def convectiveRules (number : ℤ) : FilterRules :=
  ifThen (isConvective number)
    ([.set .parameterNumber (long number), .set .typeOfFirstFixedSurface (long 1),
      .set .typeOfSecondFixedSurface (long 8)] ++ secondSurfaceMissing ++ firstSurfaceMissing)

/-- The settings of every message. -/
def headerRules : FilterRules :=
  .block [.assert (isEq .editionNumber 2),
    .set .productionStatusOfProcessedData (long 4),
    .set .subdivisionsOfBasicAngle missing,
    .set .localTablesVersion (long 0),
    .set .tablesVersion (long 5),
    .set .numberOfForecastsInEnsemble
      (binop .add (accessor .numberOfForecastsInEnsemble) (long 1))]

/-- The settings that depend on the parameter. -/
def parameterRules : FilterRules :=
  .sequence [
    ifThen (isParameter 0 5 103) [.setTiggeShortName "mn2t6"],
    ifThen (isParameter 0 4 103) [.setTiggeShortName "mx2t6"],
    ifThen (isParameter 6 1 200) [.setTiggeShortName "tcc"],
    ifThen (isParameter 3 1 101) [.setTiggeShortName "msl"],
    convectiveRules 6,
    convectiveRules 7,
    ifThen (isParameter 0 0 1) [.setTiggeShortName "skt"],
    ifThen (isParameter 1 13 1) [.setTiggeShortName "sd"],
    ifThen (isParameter 1 8 1) [.setTiggeShortName "tp"]]

/-- The settings that depend on the surfaces. -/
def surfaceRules : FilterRules :=
  .sequence [
    ifThen (isEq .typeOfSecondFixedSurface 255) secondSurfaceMissing,
    ifThen (isEq .typeOfSecondFixedSurface 8) secondSurfaceMissing,
    ifThen (isEq .typeOfFirstFixedSurface 1) firstSurfaceMissing,
    ifThen (isEq .typeOfFirstFixedSurface 101) firstSurfaceMissing]

def settingRules : FilterRules := .sequence [headerRules, parameterRules, surfaceRules]

/-- The cases that the C program writes itself, each with what it prints. -/
def ignoredCases : List (String × String) :=
  [("pt", "ncdcTigge param pt ignored"), ("sf", "ncdcTigge param sf ignored"),
    ("sm", "ncdcTigge param sm ignored"), ("st", "ncdcTigge param st ignored"),
    ("ttr", "ncdcTigge param ttr ignored"), ("slhf", "ncdcTigge param slhf ignored"),
    ("ssr", "ncdcTigge param ssr ignored"), ("str", "ncdcTigge param str ignored"),
    ("sshf", "ncdcTigge param sshf ignored"), ("tcw", "ncdcTigge param tcw ignored"),
    ("tp", "ncdcTigge param tp removed")]

def temperatureCase : FilterRules :=
  ifThen (both (both (isNe .typeOfFirstFixedSurface 1) (isNe .typeOfFirstFixedSurface 103))
    (isNe .scaledValueOfFirstFixedSurface 5000)) [.write]

def orographyCase : FilterRules := ifThen (isEq .forecastTime 0) [.write]

def defaultCase : FilterRules :=
  .branch (.condition (both (isEq .typeOfFirstFixedSurface 100)
      (isEq .scaledValueOfFirstFixedSurface 5000)))
    (.branch (.condition (both (isEq .parameterCategory 3) (isEq .parameterNumber 5)))
      (.block [.write]) (.block [.print "EXCEPTION  no 50 mb except HGT"]) .done)
    (.block [.write]) .done

/-- A case that only prints. -/
def ignore (c : String × String) : FilterTest × FilterRules := (.case c.1, .block [.print c.2])

def writingCases : List (FilterTest × FilterRules) :=
  ignoredCases.map ignore ++ [(.case "t", temperatureCase), (.case "orog", orographyCase)]

/-- The `switch` on `tigge_short_name`. -/
def writingRules : FilterRules := .select writingCases defaultCase

end FilterRules

/-- The file `grib_filter_rules`. -/
def gribFilterRules : FilterRules := FilterRules.settingRules.append FilterRules.writingRules

/-- The messages among the outputs. -/
def writtenMessages (outputs : List FilterOutput) : List GribMessage :=
  outputs.filterMap fun
    | .written m => some m
    | .printed _ => none

/-- `grib_filter` without `-f`: what it writes for the messages of a file, and the error at which
it exits. -/
def gribFilter (names : ShortNames) : List GribMessage → List GribMessage × Option GribError
  | [] => ([], none)
  | m :: file =>
    let x := gribFilterRules.exec (filterMeaning names) m
    match x.result with
    | .error e => (writtenMessages x.emitted, some e)
    | .ok _ =>
      let rest := gribFilter names file
      (writtenMessages x.emitted ++ rest.1, rest.2)

end Tigge

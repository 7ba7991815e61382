import Tigge.LinkInput
import Tigge.Lib.Enumeration
import Tigge.Lib.Scalar

/-! `qcGensFile`: what `grib_ls` lists of one input file is checked line by line, and the records
are counted against what the type of the file and its forecast hour ask for. -/

namespace Tigge
open Lib

/-- `@gribLsKeys`, the columns of the listing. -/
def gribLsKeys : List Str :=
  ["identifier".toList, "editionNumber".toList, "totalLength".toList,
    "identificationOfOriginatingGeneratingCentre".toList, "typeOfGeneratingProcess".toList,
    "perturbationNumber".toList, "forecastTime".toList, "numberOfDataPoints".toList,
    "parameterCategory".toList, "parameterNumber".toList, "typeOfFirstFixedSurface".toList,
    "scaledValueOfFirstFixedSurface".toList, "typeOfSecondFixedSurface".toList,
    "scaledValueOfSecondFixedSurface".toList, "level".toList]

def gribLsKeysString : Str := [','].intercalate gribLsKeys

def qcCenterCode : Str := "kwbc".toList

def qcRecByteMin : ℕ := 128

def qcGensProcessIdNum : Str := "4".toList

def LOOSENESS : ℕ := 1

/-- The value of the last key that is not after the date, in the order of the keys. -/
def recCount (table : List (Str × ℕ)) (start : ℕ) (dtg : Str) : ℕ :=
  table.foldl (fun count k => if k.1 ≤ dtg then k.2 else count) start

def aRecCountAnl : Str → ℕ :=
  recCount [("0000000000".toList, 45), ("2010022312".toList, 73), ("2015120212".toList, 69)] 45

def bRecCountAnl : Str → ℕ :=
  recCount [("0000000000".toList, 283), ("2010022312".toList, 258)] 283

def aRecCountFct : Str → ℕ :=
  recCount [("0000000000".toList, 51), ("2010022312".toList, 79)] 51

def bRecCountFct : Str → ℕ :=
  recCount [("0000000000".toList, 288), ("2010022312".toList, 262)] 288

section Path

/-- `s/\/*\//\//g`. -/
def oneSlash : Str → Str
  | [] => []
  | c :: s => if c = '/' && s.head? = some '/' then oneSlash s else c :: oneSlash s

def fileNameOf (inFile : Str) : Str := inFile.rtakeWhile (· ≠ '/')

/-- `basename` of the directory that `fileparse` finds. -/
def parentName (inFile : Str) : Str :=
  match (inFile.splitOnP (· = '/')).reverse with
  | [_, []] => "/".toList
  | _ :: p :: _ => p
  | _ => ".".toList

/-- `/^\d{4}[0-1]\d[0-3]\d([0-2]\d)?([0-5]\d)?$/`. -/
def isDirectoryDate (s : Str) : Bool :=
  let hour := [.of "012".toList, .digit]
  let minute := [.of "012345".toList, .digit]
  [[], hour, minute, hour ++ minute].any fun t =>
    endsAt true (List.replicate 4 .digit ++
      [.of "01".toList, .digit, .of "0123".toList, .digit] ++ t) s

/-- `$gensFileType`; no name without a type matches. -/
def gensFileType (name : Str) : Str := (gefsMatch name).elim [] GefsMatch.type

/-- `$inFileParseFct`. -/
def parseFct (name : Str) : Str := (gefsMatch name).elim [] GefsMatch.fct

end Path

section Line

/-- `s/\s*\s/,/g`. -/
def commas : Str → Str
  | [] => []
  | c :: s =>
    if isSpace c then if s.head?.any isSpace then commas s else ',' :: commas s
    else c :: commas s

/-- A line of the listing as it is split: without blanks at its end, the other blanks replaced. -/
def lineOf (raw : Str) : Str := commas ((chomp raw).rdropWhile isSpace)

/-- `split(/,/,$line)`, which drops empty columns at the end. -/
def lineData (line : Str) : List Str := (line.splitOnP (· = ',')).rdropWhile (· = [])

/-- `$lineData[i]`, empty where there is none. -/
def column (cols : List Str) (i : ℕ) : Str := cols.getD i []

/-- The headers and footers of `grib_ls`. -/
def isHeading (inFile line : Str) : Bool :=
  let cols := lineData line
  (cols.length = 1 && column cols 0 = inFile) || line = gribLsKeysString ||
    (cols.length = 7 && column cols 1 = "of".toList) ||
    (cols.length = 9 && column cols 1 = "of".toList)

def qcError (numLine : ℕ) (text : Str) : Str :=
  "\n\tQC Error:".toList ++ padded 0 numLine ++ "  ".toList ++ text

def qcWarning (numLine : ℕ) (text : Str) : Str :=
  "\n\tQC Warning:".toList ++ padded 0 numLine ++ "  ".toList ++ text

/-- The errors that a record is counted in spite of. -/
def recordMessages (cycle : Str) (numLine : ℕ) (cols : List Str) : List Str :=
  (if (numberValue (column cols 2)).int.lt qcRecByteMin then
    [qcWarning numLine ("Record Size = ".toList ++ column cols 2 ++ " < ".toList ++
      padded 0 qcRecByteMin ++ " B".toList)] else []) ++
  (if column cols 3 ≠ qcCenterCode then
    [qcWarning numLine ("Orig.Center ".toList ++ column cols 3 ++ " is not ".toList ++
      qcCenterCode)] else []) ++
  (if column cols 4 ≠ qcGensProcessIdNum then
    [qcWarning numLine ("Gen.Process ID ".toList ++ column cols 4 ++ " is not ".toList ++
      qcGensProcessIdNum)] else []) ++
  (if (numberValue (column cols 5)).lt 0 || (numberValue (column cols 5)).ge (perlGetNMembers cycle)
    then [qcWarning numLine ("Invalid mem. number (".toList ++ column cols 5 ++ ")".toList)]
    else []) ++
  -- the lower bound is tested on the column of the data points
  (if (numberValue (column cols 6)).gt FCT_HOURS || (numberValue (column cols 7)).lt 0 then
    [qcWarning numLine ("Invalid forecast hour (".toList ++ column cols 6 ++ ")".toList)]
    else []) ++
  (if !(numberValue (column cols 7)).eq (getQcNumPoints cycle) then
    [qcWarning numLine ("Wrong #data-points (".toList ++ column cols 7 ++ ")".toList)] else [])

/-- The variables of the loop over the lines. -/
structure GribScan where
  numLine : ℕ := 0
  messages : List Str := []
  /-- `forecastTime` of each record; `%RecsPerFctHr` holds how often each occurs -/
  fctHours : List Str := []

/-- One line. -/
def scanLine (inFile cycle : Str) (st : GribScan) (raw : Str) : GribScan :=
  let st := { st with numLine := st.numLine + 1 }
  let line := lineOf raw
  let cols := lineData line
  if chomp raw = [] then st
  else if isHeading inFile line then st
  else if cols.length = gribLsKeys.length && column cols 0 = "GRIB".toList &&
      column cols 1 ≠ "2".toList then
    { st with messages := st.messages ++ [qcError st.numLine ("GRIB version ".toList ++
        column cols 1 ++ " is not GRIB 2\n".toList)] }
  else if !(cols.length = gribLsKeys.length && column cols 0 = "GRIB".toList &&
      column cols 1 = "2".toList) then
    { st with messages := st.messages ++ [qcError st.numLine
        ("grib_ls returned unidentified info: ".toList ++ line ++ "\n".toList)] }
  else
    { st with
      messages := st.messages ++ recordMessages cycle st.numLine cols
      fctHours := st.fctHours ++ [column cols 6] }

end Line

/-- `$priFct`, by the order in which the hash is enumerated. -/
def priFct (hash : Enumeration Str) (fctHours : List Str) : Str :=
  ((hash.order fctHours.dedup).foldl (better fctHours.count) ([], 0)).1

def expected (count numRec : ℕ) : Str :=
  "QC Warning:  Expected ".toList ++ padded 0 count ++ " Records, found ".toList ++ padded 0 numRec

/-- The checks on the number of records. -/
def countMessages (type dtg fct : Str) (numRec : ℕ) : List Str :=
  let hour := numberValue fct
  if type = "a".toList then
    (if hour.eq 0 && numRec < aRecCountAnl dtg then
      ["\n\t".toList ++ expected (aRecCountAnl dtg) numRec] else []) ++
    (if hour.gt 0 && numRec < aRecCountFct dtg then
      ["\n\t".toList ++ expected (aRecCountFct dtg) numRec] else [])
  else if type = "b".toList then
    -- the text of the first message gives the number for A files
    (if hour.eq 0 && numRec < bRecCountAnl dtg - LOOSENESS then
      ["\n\tTEST ".toList ++ expected (aRecCountAnl dtg) numRec ++ "\n".toList] else []) ++
    (if hour.gt 0 && numRec < bRecCountFct dtg - LOOSENESS then
      ["\n\tTEST ".toList ++ expected (bRecCountFct dtg) numRec ++ "\n".toList] else [])
  else []

/-- The check on the number of different forecast hours. -/
def hoursMessages (name : Str) (fctHours : List Str) : List Str :=
  if 2 < fctHours.dedup.length && !(numberValue (parseFct name)).eq 192 then
    ["\n\tQC Warning:  More than 2 different forecast hours present!".toList]
  else []

/-- The message where `grib_ls` prints nothing. -/
def callMessages (rtn : List Str) : List Str :=
  if rtn = [] then ["\n\tQC Error: GRIB_LS call failed".toList] else []

/-- What the file tests find. -/
structure QcFileIo where
  fileExists : Bool
  fileReadable : Bool
  gribLs : Str
  gribLsExists : Bool
  gribLsExecutable : Bool

/-- `qcGensFile` on the lines that `grib_ls` prints: code, description and messages. -/
def qcGensFile (io : QcFileIo) (hash : Enumeration Str) (inFile cycle : Str) (rtn : List Str) :
    ℕ × Str × List Str :=
  let inFile := oneSlash inFile
  let quoted := "\"".toList ++ inFile ++ "\"".toList
  if !io.fileExists then
    (1, "File related error".toList, ["File ".toList ++ quoted ++ " does not exist!\n\n".toList])
  else if !io.fileReadable then
    (1, "File related error".toList, ["File ".toList ++ quoted ++ " cannot be read!\n\n".toList])
  else if !io.gribLsExists then
    (2, "dependancy error".toList,
      ["\"".toList ++ io.gribLs ++ "\" : does not exist!\n\n".toList])
  else if !io.gribLsExecutable then
    (2, "dependancy error".toList, [io.gribLs ++ " : cannot be executed!\n\n".toList])
  else
    let dtg := parentName inFile
    if !isDirectoryDate dtg then
      (4, "file problem".toList, ["DTG be determined by filename \x7b".toList ++ inFile ++
        "\x7d::\x7bbad return data ".toList ++ dtg ++ "\n\x7d\n".toList])
    else
      let st := rtn.foldl (scanLine inFile cycle) { messages := callMessages rtn }
      (0, "OK".toList, st.messages ++ hoursMessages (fileNameOf inFile) st.fctHours ++
        countMessages (gensFileType (fileNameOf inFile)) dtg (priFct hash st.fctHours)
          st.fctHours.length)

end Tigge

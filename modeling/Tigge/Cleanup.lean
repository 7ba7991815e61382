import Tigge.Lib.Enumeration
import Tigge.Lib.FileTree
import Tigge.Lib.Scalar

/-! `cleanupLocation`, which unlinks the old files of a directory level by level. The directories
can be read, and the files unlinked. A link that leads somewhere stands as what it leads to. -/

namespace Tigge
open Lib

/-- What there is besides directories. -/
inductive Leaf
  | file (mtime : ℤ) (size : ℕ)
  | deadLink
  deriving DecidableEq

/-- The arguments of a call, and what its tests of the location find. -/
structure CleanupCall where
  location : Path
  targetAge : Str
  /-- the names that each further argument matches -/
  patterns : List (Str → Bool)
  curTime : ℤ
  readable : Bool
  writable : Bool
  opened : Bool

/-- `m/^\./`. -/
def startsWithDot (s : Str) : Bool := s.head? = some '.'

/-- `m/^[\d\.]*$/`. -/
def isPlain (s : Str) : Bool := (chomp s).all fun c => c.isDigit || c = '.'

/-- The variables that one target changes. -/
structure Sweep where
  tree : FileTree Leaf
  nextLevel : List Path
  /-- the files that have been removed -/
  unlinked : List Path

/-- The variables of the loop. -/
structure Cleanup extends Sweep where
  targets : List Path
  iterationBreaker : ℕ

inductive CleanupError
  | notNumeric
  | notDirectory
  | notReadable
  | notWritable
  | failedOpendir
  | noTargetsFound
  deriving DecidableEq

namespace CleanupCall
variable (c : CleanupCall)

/-- `m/$EXCLUDEpattern/`. -/
def excluded (name : Str) : Bool :=
  match c.patterns with
  | [] => startsWithDot name
  | patterns => patterns.any fun matches_ => matches_ name

/-- `$age`, in days. -/
def age (mtime : ℤ) : ℚ := (c.curTime - mtime) / 86400

/-- The text of the age has neither a sign nor an exponent. -/
def isPlainAge (mtime : ℤ) : Bool := c.age mtime = 0 || 1 / 10000 ≤ c.age mtime

/-- The numbers are compared as they are, where Perl compares the doubles next to them. -/
def expired (mtime : ℤ) : Bool := (numberValue c.targetAge).le (c.age mtime)

/-- The entries of a directory that are not excluded. -/
def listing (readdir : Enumeration Str) (tree : FileTree Leaf) (p : Path) : List Str :=
  (readdir.order (tree.names p)).filter fun f => !c.excluded f

/-- The first `@targets`. They are sorted, so that the order of the directory does not matter. -/
def topTargets (tree : FileTree Leaf) : List Path :=
  ((c.listing .asListed tree c.location).insertionSort (· ≤ ·)).map fun f => [f]

/-- `$thisTarget =~ m/^\./`. -/
def isDotTarget (target : Path) : Bool := target.head?.any startsWithDot

/-- One target, whose path below the location is cut at its slashes; `none` where `next` goes on
without a look at the next level. -/
def visit (readdir : Path → Enumeration Str) (w : Sweep) (target : Path) : Option Sweep :=
  if isDotTarget target then none
  else
    match w.tree.walk c.location target with
    | none => none
    | some p =>
      match w.tree.lookup p with
      | some .dir => some { w with
          nextLevel := w.nextLevel ++
            (c.listing (readdir target) w.tree p).map fun f => target ++ [f] }
      | some (.leaf (.file mtime _)) =>
        if !c.isPlainAge mtime then none
        else if c.expired mtime then
          some { w with tree := w.tree.unlink p, unlinked := w.unlinked ++ [p] }
        else some w
      | _ => none

def toNextLevel (s : Cleanup) : Cleanup :=
  if s.targets = [] ∧ s.nextLevel ≠ [] then
    { s with
      targets := s.nextLevel, nextLevel := [], iterationBreaker := s.iterationBreaker + 1 }
  else s

def cleanRound (readdir : Path → Enumeration Str) (s : Cleanup) : Cleanup :=
  match s.targets with
  | [] => s
  | target :: targets =>
    match c.visit readdir s.toSweep target with
    | none => { s with targets := targets }
    | some w => toNextLevel { s with toSweep := w, targets := targets }

/-- The loop, which is over after some number of rounds if not before: there is a time limit. -/
def cleanLoop (readdir : Path → Enumeration Str) : ℕ → Cleanup → Cleanup
  | 0, s => s
  | rounds + 1, s =>
    if s.targets ≠ [] ∧ s.iterationBreaker < 5 then
      cleanLoop readdir rounds (c.cleanRound readdir s)
    else s

def cleanupLocation (readdir : Path → Enumeration Str) (rounds : ℕ) (tree : FileTree Leaf) :
    Except CleanupError Cleanup :=
  if !isPlain c.targetAge then .error .notNumeric
  else if tree.lookup c.location ≠ some .dir then .error .notDirectory
  else if !c.readable then .error .notReadable
  else if !c.writable then .error .notWritable
  else if !c.opened then .error .failedOpendir
  else if c.topTargets tree = [] then .error .noTargetsFound
  else .ok (c.cleanLoop readdir rounds ⟨⟨tree, [], []⟩, c.topTargets tree, 1⟩)

/-- The files that a call unlinks. -/
def unlinks (readdir : Path → Enumeration Str) (rounds : ℕ) (tree : FileTree Leaf) : List Path :=
  match c.cleanupLocation readdir rounds tree with
  | .ok s => s.unlinked
  | .error _ => []

variable {c}

theorem expired_of_days (days : ℕ) {mtime : ℤ} (hdays : c.targetAge = padded 0 days)
    (h : mtime + days * 86400 ≤ c.curTime) : c.expired mtime = true := by
  have hvalue : numberValue c.targetAge = .finite (days : ℤ) :=
    hdays ▸ numberValue_sprintf0 0 (days : ℤ)
  rw [expired, hvalue]
  refine decide_eq_true ?_
  rw [age, le_div_iff₀ (by norm_num)]
  have hcast : ((mtime + days * 86400 : ℤ) : ℚ) ≤ c.curTime := by exact_mod_cast h
  push_cast at hcast ⊢
  linarith

end CleanupCall

end Tigge

import Tigge.Lib.Decimal

/-! The regular expressions that file names are tested against: single characters in a row,
with at most one `.*` among them. -/

namespace Tigge.Lib

/-- What one position of a pattern accepts. -/
inductive Atom
  | char (c : Char)
  | digit
  | any
  | of (cs : Str)
  deriving DecidableEq

def Atom.accepts : Atom → Char → Bool
  | .char c, d => d = c
  | .digit, d => d.isDigit
  | .any, d => d ≠ '\n'
  | .of cs, d => d ∈ cs

def literal (s : Str) : List Atom := s.map .char

/-- Literal text under `/i`. -/
def caseless (s : Str) : List Atom := s.map fun c => .of [c.toLower, c.toUpper]

/-- `head`, then `.*` and `tail` if there is a tail, between an optional `^` and `$`. -/
structure Pattern where
  anchored : Bool
  head : List Atom
  tail : Option (List Atom)
  closed : Bool

/-- Reads the atoms off the front and returns what is left. -/
def reads : List Atom → Str → Option Str
  | [], s => some s
  | _ :: _, [] => none
  | a :: as, c :: s => if a.accepts c then reads as s else none

/-- `$` also holds before a newline that ends the string. -/
def atEnd (s : Str) : Bool := s = [] || s = ['\n']

/-- What `.*` can leave: it does not cross a newline. -/
def lineSuffixes : Str → List Str
  | [] => [[]]
  | c :: s => (c :: s) :: if c = '\n' then [] else lineSuffixes s

def endsAt (closed : Bool) (as : List Atom) (s : Str) : Bool :=
  match reads as s with
  | some v => !closed || atEnd v
  | none => false

def Pattern.matchesAt (p : Pattern) (s : Str) : Bool :=
  match p.tail with
  | none => endsAt p.closed p.head s
  | some t =>
    match reads p.head s with
    | some v => (lineSuffixes v).any (endsAt p.closed t)
    | none => false

/-- `$s =~ m/p/`. -/
def Pattern.found (p : Pattern) (s : Str) : Bool :=
  if p.anchored then p.matchesAt s else s.tails.any p.matchesAt

/-- Every character is accepted by the atom at its place. -/
def Accepted (as : List Atom) (u : Str) : Prop := List.Forall₂ (fun a c => a.accepts c = true) as u

theorem reads_eq_some {as : List Atom} {s v : Str} :
    reads as s = some v ↔ ∃ u, s = u ++ v ∧ Accepted as u := by
  induction as generalizing s with
  | nil => simp [reads, Accepted]
  | cons a as ih =>
    cases s with
    | nil =>
      simp only [reads, reduceCtorEq, false_iff, not_exists, not_and]
      intro u hu ha
      have hnil : u = [] := (List.append_eq_nil_iff.mp hu.symm).1
      subst hnil
      cases ha
    | cons c s =>
      rw [reads]
      constructor
      · intro h
        split at h
        next hc =>
          obtain ⟨u, rfl, hu⟩ := ih.mp h
          exact ⟨c :: u, rfl, .cons hc hu⟩
        next => cases h
      · rintro ⟨u, hs, hu⟩
        cases hu with
        | cons hc hu =>
          obtain ⟨rfl, rfl⟩ := List.cons.inj hs
          rw [if_pos hc]
          exact ih.mpr ⟨_, rfl, hu⟩

theorem accepted_literal {w u : Str} : Accepted (literal w) u ↔ u = w := by
  induction w generalizing u with
  | nil => simp [Accepted, literal]
  | cons c w ih =>
    cases u with
    | nil => simp [Accepted, literal]
    | cons d u =>
      have hcons : Accepted (literal (c :: w)) (d :: u) ↔ d = c ∧ Accepted (literal w) u := by
        simp [Accepted, literal, Atom.accepts]
      rw [hcons, ih, List.cons.injEq]

theorem accepted_append {as bs : List Atom} {u : Str} :
    Accepted (as ++ bs) u ↔ ∃ v w, u = v ++ w ∧ Accepted as v ∧ Accepted bs w := by
  constructor
  · intro h
    induction as generalizing u with
    | nil => exact ⟨[], u, rfl, .nil, h⟩
    | cons a as ih =>
      cases h with
      | cons hc h =>
        obtain ⟨v, w, rfl, hv, hw⟩ := ih h
        exact ⟨_ :: v, w, rfl, .cons hc hv, hw⟩
  · rintro ⟨v, w, rfl, hv, hw⟩
    exact List.rel_append hv hw

theorem accepted_digits {n : ℕ} {u : Str} :
    Accepted (List.replicate n .digit) u ↔ u.length = n ∧ ∀ c ∈ u, c.isDigit := by
  induction n generalizing u with
  | zero =>
    simp only [Accepted, List.replicate_zero, List.forall₂_nil_left_iff, List.length_eq_zero_iff,
      iff_self_and]
    rintro rfl
    simp
  | succ n ih =>
    cases u with
    | nil => simp [Accepted, List.replicate_succ]
    | cons c u =>
      have hcons : Accepted (List.replicate (n + 1) .digit) (c :: u) ↔
          c.isDigit = true ∧ Accepted (List.replicate n .digit) u := by
        simp [Accepted, List.replicate_succ, Atom.accepts]
      rw [hcons, ih, List.length_cons, List.forall_mem_cons]
      constructor
      · rintro ⟨hc, hl, hu⟩
        exact ⟨by omega, hc, hu⟩
      · rintro ⟨hl, hc, hu⟩
        exact ⟨hc, by omega, hu⟩

theorem mem_lineSuffixes {s w : Str} :
    w ∈ lineSuffixes s ↔ ∃ u, s = u ++ w ∧ '\n' ∉ u := by
  induction s with
  | nil =>
    simp only [lineSuffixes, List.mem_singleton]
    constructor
    · rintro rfl; exact ⟨[], rfl, by simp⟩
    · rintro ⟨u, hu, _⟩; exact (List.append_eq_nil_iff.mp hu.symm).2
  | cons c s ih =>
    rw [lineSuffixes, List.mem_cons]
    constructor
    · rintro (rfl | h)
      · exact ⟨[], rfl, by simp⟩
      · split_ifs at h with hc
        · cases h
        · obtain ⟨u, rfl, hu⟩ := ih.mp h
          exact ⟨c :: u, rfl, by simp [hu, Ne.symm hc]⟩
    · rintro ⟨u, hs, hu⟩
      cases u with
      | nil => exact .inl hs.symm
      | cons d u =>
        obtain ⟨rfl, rfl⟩ := List.cons.inj hs
        rw [List.mem_cons, not_or] at hu
        rw [if_neg (Ne.symm hu.1)]
        exact .inr (ih.mpr ⟨u, rfl, hu.2⟩)

theorem endsAt_iff {closed : Bool} {as : List Atom} {s : Str} :
    endsAt closed as s = true ↔
      ∃ u v, s = u ++ v ∧ Accepted as u ∧ (closed = true → v = [] ∨ v = ['\n']) := by
  unfold endsAt
  constructor
  · intro h
    split at h
    next v hv =>
      obtain ⟨u, rfl, hu⟩ := reads_eq_some.mp hv
      refine ⟨u, v, rfl, hu, fun hc => ?_⟩
      simpa [hc, atEnd] using h
    next => cases h
  · rintro ⟨u, v, rfl, hu, hv⟩
    rw [reads_eq_some.mpr ⟨u, rfl, hu⟩]
    cases closed with
    | false => rfl
    | true => simpa [atEnd] using hv rfl

theorem found_iff_of_tail_none {as : List Atom} {closed : Bool} {s : Str} :
    Pattern.found ⟨false, as, none, closed⟩ s = true ↔
      ∃ pre u v, s = pre ++ u ++ v ∧ Accepted as u ∧ (closed = true → v = [] ∨ v = ['\n']) := by
  simp only [Pattern.found, Pattern.matchesAt, Bool.false_eq_true, if_false, List.any_eq_true,
    List.mem_tails]
  constructor
  · rintro ⟨t, ⟨pre, rfl⟩, ht⟩
    obtain ⟨u, v, rfl, hu, hv⟩ := endsAt_iff.mp ht
    exact ⟨pre, u, v, by simp, hu, hv⟩
  · rintro ⟨pre, u, v, rfl, hu, hv⟩
    exact ⟨u ++ v, ⟨pre, by simp⟩, endsAt_iff.mpr ⟨u, v, rfl, hu, hv⟩⟩

/-- Where an unanchored pattern with a `.*` is found. -/
theorem found_iff_of_tail {as bs : List Atom} {closed : Bool} {s : Str} :
    Pattern.found ⟨false, as, some bs, closed⟩ s = true ↔
      ∃ pre u mid v w, s = pre ++ u ++ mid ++ v ++ w ∧ Accepted as u ∧ '\n' ∉ mid ∧
        Accepted bs v ∧ (closed = true → w = [] ∨ w = ['\n']) := by
  simp only [Pattern.found, Pattern.matchesAt, Bool.false_eq_true, if_false, List.any_eq_true,
    List.mem_tails]
  constructor
  · rintro ⟨t, ⟨pre, rfl⟩, ht⟩
    split at ht
    next r hr =>
      obtain ⟨u, rfl, hu⟩ := reads_eq_some.mp hr
      obtain ⟨x, hx, hend⟩ := List.any_eq_true.mp ht
      obtain ⟨mid, rfl, hmid⟩ := mem_lineSuffixes.mp hx
      obtain ⟨v, w, rfl, hv, hw⟩ := endsAt_iff.mp hend
      exact ⟨pre, u, mid, v, w, by simp, hu, hmid, hv, hw⟩
    next => cases ht
  · rintro ⟨pre, u, mid, v, w, rfl, hu, hmid, hv, hw⟩
    refine ⟨u ++ (mid ++ (v ++ w)), ⟨pre, by simp⟩, ?_⟩
    rw [reads_eq_some.mpr ⟨u, rfl, hu⟩]
    exact List.any_eq_true.mpr ⟨v ++ w, mem_lineSuffixes.mpr ⟨mid, rfl, hmid⟩,
      endsAt_iff.mpr ⟨v, w, rfl, hv, hw⟩⟩

end Tigge.Lib

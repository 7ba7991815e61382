import Tigge.Lib.RecordStream

/-! Loops that read record after record until as many as are wanted have been found. -/

namespace Tigge.Lib
variable {R σ : Type*}

/-- `while (fewer than count are found)`: read a record and keep it if it is wanted. What is read
may depend on how many are found; where there is nothing to read the loop returns empty-handed.
`none` when the fuel runs out. -/
def collect (next : ℕ → σ → Option R × σ) (wanted : R → Bool) (count : ℕ) :
    ℕ → List R → σ → Option (Option (List R) × σ)
  | 0, found, s => if found.length = count then some (some found, s) else none
  | fuel + 1, found, s =>
    if found.length = count then some (some found, s)
    else
      match next found.length s with
      | (none, t) => some (none, t)
      | (some r, t) =>
        collect next wanted count fuel (if wanted r then found ++ [r] else found) t

/-- The searches that such a loop amounts to, one after the other. -/
def gather (seek : ℕ → σ → Option R × σ) : ℕ → List R → σ → Option (List R) × σ
  | 0, found, s => (some found, s)
  | k + 1, found, s =>
    match seek found.length s with
    | (none, t) => (none, t)
    | (some r, t) => gather seek k (found ++ [r]) t

/-- Reading on with `next` until a record is wanted is the search `seek`; `left` bounds how often
that can go on. -/
structure Scans (next seek : σ → Option R × σ) (wanted : R → Bool) (left : σ → ℕ) : Prop where
  fails : ∀ {s t}, next s = (none, t) → seek s = (none, t)
  finds : ∀ {s r t}, next s = (some r, t) → wanted r = true → seek s = (some r, t) ∧ left t ≤ left s
  skips : ∀ {s r t}, next s = (some r, t) → wanted r = false → seek s = seek t ∧ left t < left s

/-- The same loop over another presentation of the state. -/
theorem Scans.conj {τ : Type*} {next seek : σ → Option R × σ} {wanted : R → Bool} {left : σ → ℕ}
    (h : Scans next seek wanted left) (e : τ ≃ σ) :
    Scans (fun t => ((next (e t)).1, e.symm (next (e t)).2))
      (fun t => ((seek (e t)).1, e.symm (seek (e t)).2)) wanted (left ∘ e) := by
  constructor
  · intro s t hnext
    obtain ⟨hfst, rfl⟩ := Prod.ext_iff.mp hnext
    rw [h.fails (Prod.ext hfst rfl)]
  · intro s r t hnext hr
    obtain ⟨hfst, rfl⟩ := Prod.ext_iff.mp hnext
    obtain ⟨hseek, hleft⟩ := h.finds (Prod.ext hfst rfl) hr
    exact ⟨by rw [hseek], by simpa using hleft⟩
  · intro s r t hnext hr
    obtain ⟨hfst, rfl⟩ := Prod.ext_iff.mp hnext
    obtain ⟨hseek, hleft⟩ := h.skips (Prod.ext hfst rfl) hr
    exact ⟨by simp only [Equiv.apply_symm_apply]; rw [hseek], by simpa using hleft⟩

/-- The same loop on one part of a state, of which the other part is left alone. -/
theorem Scans.fst {τ : Type*} {next seek : σ → Option R × σ} {wanted : R → Bool} {left : σ → ℕ}
    (h : Scans next seek wanted left) (other : τ → ℕ) :
    Scans (fun s : σ × τ => ((next s.1).1, (next s.1).2, s.2))
      (fun s => ((seek s.1).1, (seek s.1).2, s.2)) wanted fun s => left s.1 + other s.2 := by
  constructor
  · rintro ⟨s, u⟩ t hnext
    obtain ⟨hfst, rfl⟩ := Prod.ext_iff.mp hnext
    rw [h.fails (Prod.ext hfst rfl)]
  · rintro ⟨s, u⟩ r t hnext hr
    obtain ⟨hfst, rfl⟩ := Prod.ext_iff.mp hnext
    obtain ⟨hseek, hleft⟩ := h.finds (Prod.ext hfst rfl) hr
    exact ⟨by rw [hseek], Nat.add_le_add_right hleft _⟩
  · rintro ⟨s, u⟩ r t hnext hr
    obtain ⟨hfst, rfl⟩ := Prod.ext_iff.mp hnext
    obtain ⟨hseek, hleft⟩ := h.skips (Prod.ext hfst rfl) hr
    exact ⟨by rw [hseek], Nat.add_lt_add_right hleft _⟩

theorem Scans.snd {τ : Type*} {next seek : σ → Option R × σ} {wanted : R → Bool} {left : σ → ℕ}
    (h : Scans next seek wanted left) (other : τ → ℕ) :
    Scans (fun s : τ × σ => ((next s.2).1, s.1, (next s.2).2))
      (fun s => ((seek s.2).1, s.1, (seek s.2).2)) wanted fun s => other s.1 + left s.2 := by
  have hswap := (h.fst other).conj (Equiv.prodComm τ σ)
  have hleft : (fun s : σ × τ => left s.1 + other s.2) ∘ Equiv.prodComm τ σ =
      fun s => other s.1 + left s.2 := by
    funext s
    exact Nat.add_comm _ _
  rwa [hleft] at hswap

section Collect
variable {next seek : ℕ → σ → Option R × σ} {wanted : R → Bool} {left : σ → ℕ} {count : ℕ}

theorem collect_of_full {fuel : ℕ} {found : List R} {s : σ} (h : found.length = count) :
    collect next wanted count fuel found s = some (some found, s) := by
  cases fuel <;> rw [collect, if_pos h]

theorem collect_step {fuel : ℕ} {found : List R} {s t : σ} {r : R} (h : found.length ≠ count)
    (hnext : next found.length s = (some r, t)) :
    collect next wanted count (fuel + 1) found s =
      collect next wanted count fuel (if wanted r then found ++ [r] else found) t := by
  rw [collect, if_neg h, hnext]

theorem gather_congr {k : ℕ} {found : List R} {s t : σ}
    (h : seek found.length s = seek found.length t) :
    gather seek (k + 1) found s = gather seek (k + 1) found t := by
  rw [gather, h, gather]

theorem gather_one (seek : ℕ → σ → Option R × σ) (s : σ) :
    gather seek 1 [] s = ((seek 0 s).1.map fun r => [r], (seek 0 s).2) := by
  rw [gather, List.length_nil]
  rcases seek 0 s with ⟨_ | r, t⟩ <;> rfl

theorem gather_two_of_none {s : σ} (h : (seek 0 s).1 = none) :
    gather seek 2 [] s = (none, (seek 0 s).2) := by
  rw [gather, List.length_nil]
  rcases hs : seek 0 s with ⟨_ | r, t⟩
  · rfl
  · rw [hs] at h
    cases h

theorem gather_two_of_some {s : σ} {r : R} (h : (seek 0 s).1 = some r) :
    gather seek 2 [] s =
      ((seek 1 (seek 0 s).2).1.map fun t => [r, t], (seek 1 (seek 0 s).2).2) := by
  rw [gather, List.length_nil]
  rcases hs : seek 0 s with ⟨_ | r', t⟩
  · rw [hs] at h
    cases h
  · rw [hs] at h
    cases h
    show gather seek 1 [r] t = _
    rw [gather, List.length_singleton]
    rcases seek 1 t with ⟨_ | r'', u⟩ <;> rfl

/-- With fuel for what is left to read and to find, the loop ends, and its end is that of the
searches. -/
theorem collect_eq (h : ∀ k < count, Scans (next k) (seek k) wanted left) {fuel : ℕ}
    {found : List R} {s : σ} (hfound : found.length ≤ count)
    (hfuel : left s + (count - found.length) ≤ fuel) :
    collect next wanted count fuel found s =
      some (gather seek (count - found.length) found s) := by
  induction fuel generalizing found s with
  | zero =>
    have hfull : found.length = count := by omega
    rw [collect_of_full hfull, hfull, Nat.sub_self, gather]
  | succ fuel ih =>
    rcases hfound.eq_or_lt with hfull | hlt
    · rw [collect_of_full hfull, hfull, Nat.sub_self, gather]
    obtain ⟨k, hk⟩ : ∃ k, count - found.length = k + 1 := ⟨count - found.length - 1, by omega⟩
    have hscan := h found.length hlt
    cases hnext : next found.length s with
    | mk o t =>
      cases o with
      | none =>
        rw [collect, if_neg hlt.ne, hnext, hk, gather, hscan.fails hnext]
      | some r =>
        rw [collect_step hlt.ne hnext]
        cases hwanted : wanted r with
        | true =>
          obtain ⟨hseek, hleft⟩ := hscan.finds hnext hwanted
          have hlen : (found ++ [r]).length = found.length + 1 := List.length_append
          rw [if_pos rfl, ih (by omega) (by omega), hk, gather, hseek, hlen,
            show count - (found.length + 1) = k by omega]
        | false =>
          obtain ⟨hseek, hleft⟩ := hscan.skips hnext hwanted
          rw [if_neg Bool.false_ne_true, ih hfound (by omega), hk, gather_congr hseek]

end Collect

/-- Records of two kinds, neither of which is the other. -/
theorem filter_or_perm (l : List R) {p q : R → Bool} (hpq : ∀ r, p r = true → q r = false) :
    (l.filter fun r => p r || q r).Perm (l.filter p ++ l.filter q) := by
  have hsplit := (List.filter_append_perm p (l.filter fun r => p r || q r)).symm
  have hp : (l.filter fun r => p r || q r).filter p = l.filter p := by
    rw [List.filter_filter]
    apply List.filter_congr
    intro r _
    cases p r <;> rfl
  have hq : (l.filter fun r => p r || q r).filter (fun r => !p r) = l.filter q := by
    rw [List.filter_filter]
    apply List.filter_congr
    intro r _
    cases hr : p r with
    | true => rw [hpq r hr]; rfl
    | false => rfl
  rwa [hp, hq] at hsplit

namespace RecordStream

/-- One record of a file. -/
def next (s : RecordStream R) : Option R × RecordStream R :=
  match s.rest with
  | [] => (none, s)
  | r :: rest => (some r, ⟨s.consumed ++ [r], rest⟩)

/-- One record of the first file, at its end of the second. -/
def nextEither (a b : RecordStream R) : Option R × RecordStream R × RecordStream R :=
  match next a with
  | (some r, a') => (some r, a', b)
  | (none, a') => ((next b).1, a', (next b).2)

theorem next_nil {s : RecordStream R} (h : s.rest = []) : next s = (none, s) := by
  rw [next, h]

theorem next_cons {s : RecordStream R} {r : R} {rest : List R} (h : s.rest = r :: rest) :
    next s = (some r, ⟨s.consumed ++ [r], rest⟩) := by
  rw [next, h]

theorem seek_nil {p : R → Bool} {s : RecordStream R} (h : s.rest = []) : seek p s = (none, s) := by
  rw [seek, h, seekFrom, ← h]

theorem seek_cons {p : R → Bool} {s : RecordStream R} {r : R} {rest : List R}
    (h : s.rest = r :: rest) : seek p s =
      if p r then (some r, ⟨s.consumed ++ [r], rest⟩) else seek p ⟨s.consumed ++ [r], rest⟩ := by
  rw [seek, h, seekFrom, seek]

/-- A search of a file that ends on a placeholder if there is one. -/
theorem scans_nextOr {p : R → Bool} (placeholder : Option R) (hp : ∀ r ∈ placeholder, p r = true) :
    Scans (fun s => ((next s).1.or placeholder, (next s).2))
      (fun s => ((seek p s).1.or placeholder, (seek p s).2)) p fun s => s.rest.length := by
  constructor
  · intro s t h
    cases hrest : s.rest with
    | nil =>
      rw [next_nil hrest] at h
      rw [seek_nil hrest, h]
    | cons r rest =>
      rw [next_cons hrest] at h
      cases h
  · intro s r t h hr
    cases hrest : s.rest with
    | nil =>
      rw [next_nil hrest] at h
      rw [seek_nil hrest, h]
      cases h
      exact ⟨rfl, by rw [hrest]⟩
    | cons r' rest =>
      rw [next_cons hrest] at h
      cases h
      rw [seek_cons hrest, if_pos hr]
      exact ⟨rfl, Nat.le_succ _⟩
  · intro s r t h hr
    have hskip : ¬ p r = true := by simp [hr]
    cases hrest : s.rest with
    | nil =>
      rw [next_nil hrest] at h
      -- only the placeholder is read past the end, and it is wanted
      exact absurd (hp r (Prod.ext_iff.mp h).1) hskip
    | cons r' rest =>
      rw [next_cons hrest] at h
      cases h
      rw [seek_cons hrest, if_neg hskip]
      exact ⟨rfl, Nat.lt_succ_self _⟩

theorem scans_next (p : R → Bool) : Scans next (seek p) p fun s => s.rest.length := by
  have h := scans_nextOr (p := p) none fun r hr => absurd hr (Option.not_mem_none r)
  simpa only [Option.or_none] using h

section Both
variable {p : R → Bool} {a b : RecordStream R} {r : R} {rest : List R}

theorem nextEither_nil (h : a.rest = []) : nextEither a b = ((next b).1, a, (next b).2) := by
  rw [nextEither, next_nil h]

theorem nextEither_cons (h : a.rest = r :: rest) :
    nextEither a b = (some r, ⟨a.consumed ++ [r], rest⟩, b) := by
  rw [nextEither, next_cons h]

theorem seekEither_nil (h : a.rest = []) :
    seekEither p a b = ((seek p b).1, a, (seek p b).2) := by
  rw [seekEither, seek_nil h]

theorem seekEither_cons (h : a.rest = r :: rest) : seekEither p a b =
    if p r then (some r, ⟨a.consumed ++ [r], rest⟩, b)
    else seekEither p ⟨a.consumed ++ [r], rest⟩ b := by
  rw [seekEither, seek_cons h]
  split_ifs <;> rfl

/-- A search of both files that ends on a placeholder if there is one: at the end of the first file
it is the search of the second. -/
theorem scans_nextEither (placeholder : Option R) (hp : ∀ r ∈ placeholder, p r = true) :
    Scans (σ := RecordStream R × RecordStream R)
      (fun s => ((nextEither s.1 s.2).1.or placeholder, (nextEither s.1 s.2).2))
      (fun s => ((seekEither p s.1 s.2).1.or placeholder, (seekEither p s.1 s.2).2)) p
      fun s => s.1.rest.length + s.2.rest.length := by
  have hsecond := (scans_nextOr placeholder hp).snd fun a : RecordStream R => a.rest.length
  constructor
  · rintro ⟨a, b⟩ t h
    cases ha : a.rest with
    | nil =>
      rw [nextEither_nil ha] at h
      rw [seekEither_nil ha]
      exact hsecond.fails h
    | cons r rest =>
      rw [nextEither_cons ha] at h
      cases h
  · rintro ⟨a, b⟩ r t h hr
    cases ha : a.rest with
    | nil =>
      rw [nextEither_nil ha] at h
      obtain ⟨hseek, hleft⟩ := hsecond.finds h hr
      rw [seekEither_nil ha]
      rw [ha] at hleft
      exact ⟨hseek, hleft⟩
    | cons r' rest =>
      rw [nextEither_cons ha] at h
      cases h
      rw [seekEither_cons ha, if_pos hr]
      exact ⟨rfl, by simp only [List.length_cons]; omega⟩
  · rintro ⟨a, b⟩ r t h hr
    cases ha : a.rest with
    | nil =>
      rw [nextEither_nil ha] at h
      obtain ⟨hseek, hleft⟩ := hsecond.skips h hr
      obtain rfl : a = t.1 := congrArg (fun x => x.2.1) h
      rw [seekEither_nil ha, seekEither_nil ha]
      rw [ha] at hleft
      exact ⟨hseek, by rwa [ha]⟩
    | cons r' rest =>
      rw [nextEither_cons ha] at h
      cases h
      rw [seekEither_cons ha, if_neg (by simp [hr])]
      exact ⟨rfl, by simp only [List.length_cons]; omega⟩

end Both
end RecordStream
end Tigge.Lib

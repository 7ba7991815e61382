import Tigge.Lib.Decimal

/-! Directories of named files. A file's content is a sequence of units of known size, with
pieces of units where a write broke off. -/

namespace Tigge.Lib

/-- Types whose values take up a positive number of bytes. -/
class Sized (α : Type*) where
  bytes : α → ℕ+

instance : Sized UInt8 := ⟨fun _ => 1⟩

inductive Chunk (α : Type*)
  | whole (a : α)
  | piece (n : ℕ+)
  deriving DecidableEq

variable {α : Type*}

section Contents
variable [Sized α]

def Chunk.size : Chunk α → ℕ
  | .whole a => Sized.bytes a
  | .piece n => n

theorem Chunk.size_pos (c : Chunk α) : 0 < c.size := by
  cases c with
  | whole a => exact (Sized.bytes a).pos
  | piece n => exact n.pos

def fileSize (cs : List (Chunk α)) : ℕ := (cs.map Chunk.size).sum

@[simp] theorem fileSize_nil : fileSize ([] : List (Chunk α)) = 0 := rfl

@[simp] theorem fileSize_cons (c : Chunk α) (cs : List (Chunk α)) :
    fileSize (c :: cs) = c.size + fileSize cs := by simp [fileSize]

@[simp] theorem fileSize_append (cs ds : List (Chunk α)) :
    fileSize (cs ++ ds) = fileSize cs + fileSize ds := by simp [fileSize]

theorem fileSize_eq_zero {cs : List (Chunk α)} : fileSize cs = 0 ↔ cs = [] := by
  cases cs with
  | nil => simp
  | cons c cs =>
    have := c.size_pos
    simp only [fileSize_cons, reduceCtorEq, iff_false]
    omega

/-- The first `n` bytes: the units that fit, and a piece of the one that does not. -/
def firstBytes : ℕ → List (Chunk α) → List (Chunk α)
  | _, [] => []
  | n, c :: cs =>
    if c.size ≤ n then c :: firstBytes (n - c.size) cs
    else if h : 0 < n then [.piece ⟨n, h⟩] else []

theorem fileSize_firstBytes (n : ℕ) (cs : List (Chunk α)) :
    fileSize (firstBytes n cs) = min n (fileSize cs) := by
  induction cs generalizing n with
  | nil => simp [firstBytes]
  | cons c cs ih =>
    rw [firstBytes, fileSize_cons]
    split_ifs with hc hn
    · rw [fileSize_cons, ih]
      omega
    · have hpiece : fileSize [(Chunk.piece ⟨n, hn⟩ : Chunk α)] = n := by
        simp [Chunk.size]
      rw [hpiece]
      omega
    · rw [fileSize_nil]
      omega

theorem firstBytes_of_le {n : ℕ} {cs : List (Chunk α)} (h : fileSize cs ≤ n) :
    firstBytes n cs = cs := by
  induction cs generalizing n with
  | nil => rfl
  | cons c cs ih =>
    rw [fileSize_cons] at h
    rw [firstBytes, if_pos (by omega), ih (by omega)]

theorem count_firstBytes_le [DecidableEq α] (a : α) (n : ℕ) (cs : List (Chunk α)) :
    (firstBytes n cs).count (.whole a) ≤ cs.count (.whole a) := by
  induction cs generalizing n with
  | nil => exact le_rfl
  | cons c cs ih =>
    rw [firstBytes]
    split_ifs with hc hn
    · rw [List.count_cons, List.count_cons]
      exact Nat.add_le_add_right (ih _) _
    · rw [List.count_singleton, if_neg (by simp)]
      exact Nat.zero_le _
    · exact Nat.zero_le _

end Contents

theorem count_flatMap_of_single {β γ : Type*} [DecidableEq β] [DecidableEq γ] {l : List β}
    {g : β → List γ} {c : γ} {b : β} (hl : l.Nodup) (h : ∀ x ∈ l, x ≠ b → c ∉ g x) :
    (l.flatMap g).count c = if b ∈ l then (g b).count c else 0 := by
  have hsum : (l.map (List.count c ∘ g)).sum = l.count b • (g b).count c :=
    List.sum_map_eq_nsmul_single b (List.count c ∘ g)
      fun x hx hmem => List.count_eq_zero.mpr (h x hmem hx)
  rw [List.count_flatMap, hsum]
  split_ifs with hb
  · rw [List.count_eq_one_of_mem hl hb, one_smul]
  · rw [List.count_eq_zero_of_not_mem hb, zero_smul]

/-- Where no list holds `c` twice, their join holds it once when exactly one of them does. -/
theorem count_flatMap_eq_one_iff {β γ : Type*} [DecidableEq γ] {l : List β} {g : β → List γ}
    {c : γ} (hl : l.Nodup) (h : ∀ x ∈ l, (g x).count c ≤ 1) :
    (l.flatMap g).count c = 1 ↔ ∃! x, x ∈ l ∧ c ∈ g x := by
  have hfilter : (l.flatMap g).count c = (l.filter fun x => c ∈ g x).length := by
    clear hl
    induction l with
    | nil => rfl
    | cons x l ih =>
      have hx := h x List.mem_cons_self
      rw [List.flatMap_cons, List.count_append, ih fun y hy => h y (List.mem_cons_of_mem x hy)]
      by_cases hc : c ∈ g x
      · have hpos := List.count_pos_iff.mpr hc
        rw [List.filter_cons_of_pos (by simpa using hc), List.length_cons]
        omega
      · rw [List.filter_cons_of_neg (by simpa using hc), List.count_eq_zero.mpr hc, Nat.zero_add]
  have hmem : ∀ x, x ∈ (l.filter fun x => c ∈ g x) ↔ x ∈ l ∧ c ∈ g x := fun x => by
    rw [List.mem_filter, decide_eq_true_iff]
  rw [hfilter]
  constructor
  · intro hone
    obtain ⟨x, hx⟩ := List.length_eq_one_iff.mp hone
    refine ⟨x, (hmem x).mp (hx ▸ List.mem_singleton_self x), fun y hy => ?_⟩
    exact List.mem_singleton.mp (hx ▸ (hmem y).mpr hy)
  · rintro ⟨x, hx, honly⟩
    have hperm : (l.filter fun x => c ∈ g x).Perm [x] := by
      refine (List.perm_ext_iff_of_nodup (hl.filter _) (List.nodup_singleton x)).mpr fun y => ?_
      rw [hmem, List.mem_singleton]
      exact ⟨honly y, fun hy => hy ▸ hx⟩
    exact hperm.length_eq

/-- A directory lists its files in some order, each name once. -/
abbrev Directory (α : Type*) := AList fun _ : Str => List (Chunk α)

namespace Directory

def content (d : Directory α) (name : Str) : List (Chunk α) := (d.lookup name).getD []

/-- `-s $name`, which is false on a missing file. -/
def size [Sized α] (d : Directory α) (name : Str) : ℕ := fileSize (d.content name)

/-- `sort grep(..,readdir(DIR))`. -/
def sortedNames (d : Directory α) (p : Str → Bool) : List Str :=
  (d.keys.filter p).insertionSort (· ≤ ·)

theorem content_congr {d e : Directory α} {name : Str} (h : d.lookup name = e.lookup name) :
    d.content name = e.content name := by rw [content, content, h]

theorem content_eq_of_lookup {d : Directory α} {name : Str} {cs : List (Chunk α)}
    (h : d.lookup name = some cs) : d.content name = cs := by rw [content, h]; rfl

theorem content_eq_nil {d : Directory α} {name : Str} (h : d.lookup name = none) :
    d.content name = [] := by rw [content, h]; rfl

theorem mem_of_mem_content {d : Directory α} {name : Str} {c : Chunk α} (h : c ∈ d.content name) :
    name ∈ d := by
  by_contra hname
  rw [content_eq_nil (AList.lookup_eq_none.mpr hname)] at h
  exact List.not_mem_nil h

theorem mem_sortedNames {d : Directory α} {p : Str → Bool} {name : Str} :
    name ∈ d.sortedNames p ↔ name ∈ d ∧ p name = true := by
  rw [sortedNames, List.mem_insertionSort, List.mem_filter, AList.mem_keys]

theorem nodup_sortedNames (d : Directory α) (p : Str → Bool) : (d.sortedNames p).Nodup :=
  (List.perm_insertionSort _ _).nodup_iff.mpr (d.keys_nodup.filter _)

theorem pairwise_sortedNames (d : Directory α) (p : Str → Bool) :
    (d.sortedNames p).Pairwise (· ≤ ·) := List.pairwise_insertionSort _ _

theorem eq_sortedNames {d : Directory α} {p : Str → Bool} {l : List Str}
    (hsorted : l.Pairwise (· ≤ ·)) (hnodup : l.Nodup)
    (h : ∀ s, s ∈ l ↔ s ∈ d ∧ p s = true) : l = d.sortedNames p := by
  refine List.Perm.eq_of_pairwise' hsorted (d.pairwise_sortedNames p) ?_
  rw [List.perm_ext_iff_of_nodup hnodup (d.nodup_sortedNames p)]
  intro s
  rw [h, mem_sortedNames]

theorem sortedNames_filter (d : Directory α) (p q : Str → Bool) :
    ((d.sortedNames p).filter q).insertionSort (· ≤ ·) = d.sortedNames fun s => p s && q s := by
  have hsorted := (d.pairwise_sortedNames p).filter q
  rw [List.Pairwise.insertionSort_eq hsorted]
  refine eq_sortedNames hsorted ((d.nodup_sortedNames p).filter _) fun s => ?_
  rw [List.mem_filter, mem_sortedNames, and_assoc, Bool.and_eq_true]

theorem sortedNames_congr {d e : Directory α} {p : Str → Bool}
    (h : ∀ s, p s = true → (s ∈ d ↔ s ∈ e)) : d.sortedNames p = e.sortedNames p :=
  eq_sortedNames (d.pairwise_sortedNames p) (d.nodup_sortedNames p) fun s => by
    rw [mem_sortedNames]
    exact and_congr_left (h s)

end Directory
end Tigge.Lib

import Mathlib

/-!
# Block I/O counts

The loop over the block I/O entries in `Stats` of `internal/deploy/docker.go`. The entries of an
operation count for `blockRead`, for `blockWrite` or for neither.

## Main results

* `blockBytes_eq`: the count is one wrapped sum, from the last entry that is too large for `int64`
* `blockIO_exact_iff`: for which entries the two counts are the saturated sums
-/

namespace DeployMonster.Deploy

open List

/-- An entry of the block I/O statistics: an operation and its number of bytes. -/
structure BlkioEntry where
  op : String
  value : UInt64

/-- The largest `int64`. -/
def maxInt64 : ℕ := 2 ^ 63 - 1

/-- The loop for the count of the operations `ops`: an entry above the largest `int64` replaces the
count, and any other one is added to it with wraparound. -/
def blockBytes (ops : List String) (entries : List BlkioEntry) : ℤ :=
  entries.foldl (fun count entry =>
    if entry.op ∈ ops then
      if entry.value.toNat > maxInt64 then maxInt64
      else (count + entry.value.toNat).bmod (2 ^ 64)
    else count) 0

/-- `BlockRead` of the statistics. -/
def blockRead (entries : List BlkioEntry) : ℤ := blockBytes ["read", "Read"] entries

/-- `BlockWrite` of the statistics. -/
def blockWrite (entries : List BlkioEntry) : ℤ := blockBytes ["write", "Write"] entries

/-- The values of the entries for the operations. -/
def blkioValues (ops : List String) (entries : List BlkioEntry) : List ℕ :=
  (entries.filter (·.op ∈ ops)).map (·.value.toNat)

/-- The values behind the last one that is above the largest `int64`, or all of them. -/
def lastValues (values : List ℕ) : List ℕ := values.reverse.takeWhile (· ≤ maxInt64)

/-- What the count is before those values are added. -/
def baseCount (values : List ℕ) : ℕ := if ∀ v ∈ values, v ≤ maxInt64 then 0 else maxInt64

/-- The values sum up to an `int64`; or, with the largest `int64` for the last value above it, those
from there on sum up to the largest `int64` but for multiples of `2 ^ 64`. -/
def ExactCount (values : List ℕ) : Prop :=
  values.sum ≤ maxInt64 ∨ (baseCount values + (lastValues values).sum) % 2 ^ 64 = maxInt64
  deriving Decidable

lemma blkioValues_append (ops : List String) (entries : List BlkioEntry) (entry : BlkioEntry) :
    blkioValues ops (entries ++ [entry]) =
      blkioValues ops entries ++ if entry.op ∈ ops then [entry.value.toNat] else [] := by
  by_cases hop : entry.op ∈ ops <;> simp [blkioValues, hop]

lemma lastValues_append (values : List ℕ) (v : ℕ) :
    lastValues (values ++ [v]) = if v ≤ maxInt64 then v :: lastValues values else [] := by
  by_cases hv : v ≤ maxInt64 <;> simp [lastValues, hv]

lemma baseCount_append (values : List ℕ) (v : ℕ) :
    baseCount (values ++ [v]) = if v ≤ maxInt64 then baseCount values else maxInt64 := by
  simp only [baseCount, forall_mem_append, forall_mem_singleton]
  by_cases hv : v ≤ maxInt64 <;> simp [hv]

/-- The count is one wrapped sum: the wraps of the additions before the last one do not matter. -/
lemma blockBytes_eq (ops : List String) (entries : List BlkioEntry) :
    blockBytes ops entries = (baseCount (blkioValues ops entries) +
      (lastValues (blkioValues ops entries)).sum : ℤ).bmod (2 ^ 64) := by
  induction entries using reverseRecOn with
  | nil => simp [blockBytes, blkioValues, baseCount, lastValues]
  | append_singleton entries entry ih =>
    have hstep : blockBytes ops (entries ++ [entry]) = if entry.op ∈ ops then
        if entry.value.toNat > maxInt64 then (maxInt64 : ℤ)
        else (blockBytes ops entries + entry.value.toNat).bmod (2 ^ 64)
      else blockBytes ops entries := by rw [blockBytes, foldl_append]; rfl
    rw [hstep, blkioValues_append]
    by_cases hop : entry.op ∈ ops
    · rw [if_pos hop, if_pos hop, baseCount_append, lastValues_append]
      by_cases hsmall : entry.value.toNat ≤ maxInt64
      · rw [if_neg (Nat.not_lt.mpr hsmall), if_pos hsmall, if_pos hsmall, ih, Int.bmod_add_bmod, sum_cons]
        push_cast
        ring_nf
      · rw [if_pos (Nat.not_le.mp hsmall), if_neg hsmall, if_neg hsmall]
        decide
    · rw [if_neg hop, if_neg hop, append_nil, ih]

lemma blockBytes_eq_min_iff (ops : List String) (entries : List BlkioEntry) :
    blockBytes ops entries = min (blkioValues ops entries).sum maxInt64 ↔
      ExactCount (blkioValues ops entries) := by
  rw [blockBytes_eq, ExactCount, baseCount]
  generalize blkioValues ops entries = values
  by_cases h : ∀ v ∈ values, v ≤ maxInt64
  · have hall : lastValues values = values.reverse := takeWhile_eq_self_iff.mpr (by simpa using h)
    rw [if_pos h, hall, sum_reverse, Int.bmod]
    simp only [maxInt64]
    omega
  · rw [if_neg h, Int.bmod]
    push Not at h
    obtain ⟨v, hv, hlarge⟩ := h
    have hsum : v ≤ values.sum := le_sum_of_mem hv
    simp only [maxInt64] at hlarge ⊢
    omega

/-- **For which entries the counts are the saturated sums**, whatever the order of the entries. -/
theorem blockIO_exact_iff (entries : List BlkioEntry) :
    (blockRead entries = min (blkioValues ["read", "Read"] entries).sum maxInt64 ↔
      ExactCount (blkioValues ["read", "Read"] entries)) ∧
    (blockWrite entries = min (blkioValues ["write", "Write"] entries).sum maxInt64 ↔
      ExactCount (blkioValues ["write", "Write"] entries)) :=
  ⟨blockBytes_eq_min_iff _ entries, blockBytes_eq_min_iff _ entries⟩

/-- One byte more than the largest count. -/
theorem blockRead_wraps :
    let entries := [⟨"read", 2 ^ 63 - 1⟩, ⟨"read", 1⟩]
    (blkioValues ["read", "Read"] entries).sum = 2 ^ 63 ∧ blockRead entries = -2 ^ 63 := by
  decide +kernel

end DeployMonster.Deploy

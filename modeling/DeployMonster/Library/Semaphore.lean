import Mathlib

/-!
# Buffered channels as semaphores

A buffered channel of empty values is a counting semaphore. A blocked operation is one that is not
enabled.
-/

/-- A channel of capacity `cap` with `len` values in its buffer. -/
structure Semaphore where
  (cap len : ℕ)
  len_le : len ≤ cap

namespace Semaphore

variable {s s' : Semaphore}

def make (cap : ℕ) : Semaphore := ⟨cap, 0, Nat.zero_le cap⟩

/-- A send: enabled while the buffer has room. -/
def acquire (s : Semaphore) : Option Semaphore :=
  if h : s.len < s.cap then some ⟨s.cap, s.len + 1, h⟩ else none

/-- A receive: enabled while the buffer holds a value. -/
def release (s : Semaphore) : Option Semaphore :=
  if 0 < s.len then some ⟨s.cap, s.len - 1, Nat.le_trans (Nat.sub_le _ _) s.len_le⟩ else none

lemma acquire_eq_some (h : s.acquire = some s') :
    s.len < s.cap ∧ s'.cap = s.cap ∧ s'.len = s.len + 1 := by
  unfold acquire at h
  split at h
  · cases h
    exact ⟨‹_›, rfl, rfl⟩
  · cases h

lemma release_eq_some (h : s.release = some s') :
    0 < s.len ∧ s'.cap = s.cap ∧ s'.len + 1 = s.len := by
  unfold release at h
  split at h
  · cases h
    exact ⟨‹_›, rfl, Nat.succ_pred_eq_of_pos ‹_›⟩
  · cases h

lemma isSome_acquire : s.acquire.isSome ↔ s.len < s.cap := by
  unfold acquire
  split <;> simp_all

lemma isSome_release : s.release.isSome ↔ 0 < s.len := by
  unfold release
  split <;> simp_all

end Semaphore

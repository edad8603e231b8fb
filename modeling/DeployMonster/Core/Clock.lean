import Mathlib

/-!
# Wall-clock times

Times are nanoseconds since the Unix epoch; `Unix()` drops the fraction of a second.
-/

namespace DeployMonster.Clock

def second : ℤ := 1000000000

def minute : ℤ := 60 * second

def day : ℤ := 24 * 60 * minute

def unix (t : ℤ) : ℤ := t / second

lemma unix_mono {t t' : ℤ} (h : t ≤ t') : unix t ≤ unix t' :=
  Int.ediv_le_ediv (by decide) h

lemma unix_lt_iff {t n : ℤ} : unix t < n ↔ t < n * second :=
  Int.ediv_lt_iff_lt_mul (by decide)

lemma le_unix_iff {t n : ℤ} : n ≤ unix t ↔ n * second ≤ t :=
  Int.le_ediv_iff_mul_le (by decide)

lemma unix_add (t n : ℤ) : unix (t + n * second) = unix t + n :=
  Int.add_mul_ediv_right t n (by decide)

end DeployMonster.Clock

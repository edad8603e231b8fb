import DeployMonster.Library.SmoothRoundRobin

/-!
# The weighted load balancer

`internal/ingress/lb/weighted.go`. `Next` is smooth weighted round-robin on Go integers: 64 bits
wide, wrapping around on overflow. The empty string stands for "no backend picked yet" in its loop.
-/

namespace DeployMonster.Ingress

open SmoothRoundRobin List Function

def wrap (z : ℤ) : ℤ := z.bmod (2 ^ 64)

lemma wrap_eq_self {z : ℤ} (hle : -2 ^ 63 ≤ z) (hlt : z < 2 ^ 63) : wrap z = z :=
  Int.bmod_eq_of_le (by norm_num; exact hle) (by norm_num; exact hlt)

/-- The balancer: its static weights, and its running weights, zero where the map has none. -/
structure Weighted where
  weights : String → Option ℤ
  current : String → ℤ

def newWeighted : Weighted := ⟨fun _ => none, fun _ => 0⟩

variable (w : Weighted)

namespace Weighted

def setWeight (backend : String) (weight : ℤ) : Weighted where
  weights := update w.weights backend (some (if weight < 0 then 0 else weight))
  current := update w.current backend 0

/-- `SetWeights`, which starts over with empty maps. -/
def setWeights (_ : Weighted) (weights : String → Option ℤ) : Weighted where
  weights := fun b => (weights b).map fun wt => if wt < 0 then 0 else wt
  current := fun _ => 0

def weight (backend : String) : ℤ := (w.weights backend).getD 1

def total (backends : List String) : ℤ :=
  backends.foldl (fun total b => wrap (total + w.weight b)) 0

/-- The variables of the second loop of `Next`. -/
structure Scan where
  current : String → ℤ
  best : String
  bestCur : ℤ
  first : Bool

/-- One iteration of the second loop. -/
def scan (st : Scan) (b : String) : Scan :=
  let wt := w.weight b
  if wt = 0 then st
  else
    let cur := wrap (st.current b + wt)
    let st := { st with current := update st.current b cur }
    if st.first || cur > st.bestCur then { st with best := b, bestCur := cur, first := false }
    else st

def next : List String → Weighted × String
  | [] => (w, "")
  | b0 :: bs =>
    let total := w.total (b0 :: bs)
    if total = 0 then (w, b0)
    else
      let st := (b0 :: bs).foldl w.scan ⟨w.current, "", 0, true⟩
      if st.best = "" then ({ w with current := st.current }, b0)
      else
        let cur := wrap (st.current st.best - total)
        ({ w with current := update st.current st.best cur }, st.best)

/-- The balancer after `n` calls of `Next` with the same list, and what they returned. -/
def calls (w : Weighted) (backends : List String) : ℕ → Weighted × List String
  | 0 => (w, [])
  | n + 1 =>
    let (w, picks) := w.calls backends n
    let (w, b) := w.next backends
    (w, picks ++ [b])

end Weighted

/-- A call that configures the balancer. -/
inductive WeightCall
  | setWeight (backend : String) (weight : ℤ)
  | setWeights (weights : String → Option ℤ)

def WeightCall.apply : WeightCall → Weighted
  | setWeight backend weight => w.setWeight backend weight
  | setWeights weights => w.setWeights weights

def configured (cs : List WeightCall) : Weighted := cs.foldl WeightCall.apply newWeighted

/-! ## One pick in exact arithmetic -/

namespace Weighted

variable {w : Weighted} {bs : List String}

lemma total_eq_sum (hw : ∀ b ∈ bs, 0 ≤ w.weight b) (hlt : (bs.map w.weight).sum < 2 ^ 63) :
    w.total bs = (bs.map w.weight).sum := by
  induction bs using reverseRecOn with
  | nil => rfl
  | append_singleton bs b ih =>
    have hb : 0 ≤ w.weight b := hw b (by simp)
    have hbs : ∀ b ∈ bs, 0 ≤ w.weight b := fun b hb => hw b (by simp [hb])
    have hsum : 0 ≤ (bs.map w.weight).sum := sum_nonneg (by simpa using hbs)
    simp only [map_append, map_singleton, sum_append, sum_singleton] at hlt ⊢
    have htotal : w.total (bs ++ [b]) = wrap (w.total bs + w.weight b) := by
      simp [total, foldl_append]
    rw [htotal, ih hbs (by omega)]
    exact wrap_eq_self (by omega) hlt

/-- The second loop: every running weight has its weight added, and the best is one of the greatest
of those with a weight. -/
structure Scanned (w : Weighted) (bs : List String) (st : Scan) : Prop where
  current_eq : ∀ b, st.current b = w.current b + if b ∈ bs then w.weight b else 0
  of_first : st.first = true → ∀ b ∈ bs, w.weight b = 0
  best_mem : st.first = false → st.best ∈ bs ∧ w.weight st.best ≠ 0
  best_cur : st.first = false → st.bestCur = w.current st.best + w.weight st.best
  best_le : st.first = false →
    ∀ b ∈ bs, w.weight b ≠ 0 → w.current b + w.weight b ≤ st.bestCur

lemma current_scan {st : Scan} {b : String} (hcur : st.current b = w.current b)
    (hrange : -2 ^ 63 ≤ w.current b + w.weight b ∧ w.current b + w.weight b < 2 ^ 63) :
    (w.scan st b).current = update st.current b (w.current b + w.weight b) := by
  unfold scan
  dsimp only
  split_ifs with hzero hbest
  · rw [hzero, add_zero, ← hcur, update_eq_self]
  · rw [hcur, wrap_eq_self hrange.1 hrange.2]
  · rw [hcur, wrap_eq_self hrange.1 hrange.2]

lemma Scanned.snoc {st : Scan} {b : String} (h : Scanned w bs st) (hb : b ∉ bs)
    (hrange : -2 ^ 63 ≤ w.current b + w.weight b ∧ w.current b + w.weight b < 2 ^ 63) :
    Scanned w (bs ++ [b]) (w.scan st b) := by
  have hcur : st.current b = w.current b := by simp [h.current_eq b, hb]
  have hcurrent := current_scan hcur hrange
  have hnew : ∀ b', (w.scan st b).current b' =
      w.current b' + if b' ∈ bs ++ [b] then w.weight b' else 0 := by
    intro b'
    rw [hcurrent, update_apply]
    split_ifs with heq hmem hmem
    · rw [heq]
    · simp [heq] at hmem
    · simp [h.current_eq b', (mem_append.mp hmem).resolve_right (by simpa using heq)]
    · have hmem' : b' ∉ bs := fun hbs => hmem (mem_append_left _ hbs)
      simp [h.current_eq b', hmem']
  by_cases hzero : w.weight b = 0
  · have hskip : w.scan st b = st := by simp [scan, hzero]
    rw [hskip] at hnew ⊢
    refine ⟨hnew, fun hf => ?_, fun hf => ?_, h.best_cur, fun hf => ?_⟩
    · simpa [hzero, or_imp, forall_and] using h.of_first hf
    · exact ⟨mem_append_left _ (h.best_mem hf).1, (h.best_mem hf).2⟩
    exact forall_mem_append.mpr ⟨h.best_le hf, forall_mem_singleton.mpr (absurd hzero)⟩
  · by_cases hbest : st.first = true ∨ st.bestCur < w.current b + w.weight b
    · have htake : w.scan st b =
          ⟨update st.current b (w.current b + w.weight b), b,
            w.current b + w.weight b, false⟩ := by
        simp [scan, hzero, hcur, wrap_eq_self hrange.1 hrange.2, hbest]
      rw [htake] at hnew ⊢
      refine ⟨hnew, by simp, fun _ => ⟨by simp, hzero⟩, fun _ => rfl, fun _ => ?_⟩
      intro b' hb' hne
      rcases mem_append.mp hb' with hb' | hb'
      · rcases hbest with hfirst | hlt
        · exact absurd (h.of_first hfirst b' hb') hne
        · cases hfirst : st.first with
          | true => exact absurd (h.of_first hfirst b' hb') hne
          | false => exact le_trans (h.best_le hfirst b' hb' hne) hlt.le
      · rw [mem_singleton.mp hb']
    · obtain ⟨hfirst, hle⟩ := not_or.mp hbest
      have hkeep : w.scan st b =
          { st with current := update st.current b (w.current b + w.weight b) } := by
        simp [scan, hzero, hcur, wrap_eq_self hrange.1 hrange.2, hbest]
      rw [hkeep] at hnew ⊢
      refine ⟨hnew, fun hf => absurd hf hfirst, fun hf => ?_, h.best_cur, fun hf => ?_⟩
      · exact ⟨mem_append_left _ (h.best_mem hf).1, (h.best_mem hf).2⟩
      exact forall_mem_append.mpr ⟨h.best_le hf, forall_mem_singleton.mpr fun _ => not_lt.mp hle⟩

lemma scanned_foldl (hnodup : bs.Nodup)
    (hrange : ∀ b ∈ bs, -2 ^ 63 ≤ w.current b + w.weight b ∧ w.current b + w.weight b < 2 ^ 63) :
    Scanned w bs (bs.foldl w.scan ⟨w.current, "", 0, true⟩) := by
  induction bs using reverseRecOn with
  | nil => exact ⟨by simp, by simp, by simp, by simp, by simp⟩
  | append_singleton bs b ih =>
    obtain ⟨hbs, -, hdisj⟩ := nodup_append.mp hnodup
    rw [foldl_append]
    exact (ih hbs fun b hb => hrange b (by simp [hb])).snoc
      (fun hb => hdisj b hb b (by simp) rfl) (hrange b (by simp))

lemma next_spec (hnodup : bs.Nodup) (hw : ∀ b ∈ bs, 0 ≤ w.weight b)
    (hne : ∀ b ∈ bs, 0 < w.weight b → b ≠ "") (hpos : 0 < (bs.map w.weight).sum)
    (hlt : (bs.map w.weight).sum < 2 ^ 63)
    (hrange : ∀ b ∈ bs, -2 ^ 63 ≤ w.current b + w.weight b ∧ w.current b + w.weight b < 2 ^ 63)
    (hpick : ∀ b ∈ bs, (∀ b' ∈ bs, 0 < w.weight b' →
      w.current b' + w.weight b' ≤ w.current b + w.weight b) → 0 < w.current b + w.weight b) :
    ∃ best ∈ bs, 0 < w.weight best ∧
      (∀ b ∈ bs, 0 < w.weight b →
        w.current b + w.weight b ≤ w.current best + w.weight best) ∧
      (w.next bs).2 = best ∧ (w.next bs).1.weights = w.weights ∧
      ∀ b ∈ bs, (w.next bs).1.current b =
        w.current b + w.weight b - if best = b then (bs.map w.weight).sum else 0 := by
  have hscan := scanned_foldl hnodup hrange
  have htotal := total_eq_sum hw hlt
  generalize hst : bs.foldl w.scan ⟨w.current, "", 0, true⟩ = st at hscan
  have hfirst : st.first = false := by
    by_contra hfirst
    have hzero := hscan.of_first (Bool.eq_true_of_not_eq_false hfirst)
    rw [map_congr_left hzero] at hpos
    simp at hpos
  obtain ⟨hmem, hweight⟩ := hscan.best_mem hfirst
  have hbestpos : 0 < w.weight st.best := lt_of_le_of_ne (hw _ hmem) (Ne.symm hweight)
  have hcur : st.current st.best = w.current st.best + w.weight st.best := by
    rw [hscan.current_eq, if_pos hmem]
  have hmax : ∀ b ∈ bs, 0 < w.weight b →
      w.current b + w.weight b ≤ w.current st.best + w.weight st.best := by
    intro b hb hb'
    rw [← hscan.best_cur hfirst]
    exact hscan.best_le hfirst b hb hb'.ne'
  have hnext : w.next bs =
      (⟨w.weights, update st.current st.best
        (w.current st.best + w.weight st.best - (bs.map w.weight).sum)⟩, st.best) := by
    cases bs with
    | nil => simp at hmem
    | cons b0 bs =>
      have hlow := hpick st.best hmem hmax
      have hhigh := hrange st.best hmem
      simp only [next, hst, htotal, hpos.ne', hne st.best hmem hbestpos, if_false, hcur]
      rw [wrap_eq_self (by omega) (by omega)]
  refine ⟨st.best, hmem, hbestpos, hmax, by rw [hnext], by rw [hnext], ?_⟩
  intro b hb
  rw [hnext]
  dsimp only
  rw [update_apply]
  split_ifs with heq heq' heq'
  · rw [heq]
  · exact absurd heq.symm heq'
  · exact absurd heq'.symm heq
  · rw [hscan.current_eq, if_pos hb, sub_zero]

/-! ## Repeated picks -/

/-- The balancer follows the picks: they are greedy, and its running weights are their credits. -/
structure Follows (w0 : Weighted) (bs : List String) (w : Weighted) (picks : List String) :
    Prop where
  weights_eq : w.weights = w0.weights
  greedy : Greedy w0.weight bs.toFinset picks
  current_eq : ∀ b ∈ bs, w.current b = credit w0.weight bs.toFinset picks b

lemma total_toFinset (hnodup : bs.Nodup) :
    SmoothRoundRobin.total w.weight bs.toFinset = (bs.map w.weight).sum :=
  sum_toFinset _ hnodup

section

variable {w0 : Weighted} (hnodup : bs.Nodup) (hw : ∀ b ∈ bs, 0 ≤ w0.weight b)
  (hne : ∀ b ∈ bs, 0 < w0.weight b → b ≠ "") (hpos : 0 < (bs.map w0.weight).sum)
  (hlt : bs.length * (bs.map w0.weight).sum < 2 ^ 63)
include hnodup hw hne hpos hlt

lemma follows_next {picks : List String} (h : Follows w0 bs w picks) :
    Follows w0 bs (w.next bs).1 (picks ++ [(w.next bs).2]) := by
  have hweight : w.weight = w0.weight := by
    funext b
    rw [weight, h.weights_eq, weight]
  have htotal := total_toFinset (w := w0) hnodup
  have hwF : ∀ b ∈ bs.toFinset, 0 ≤ w0.weight b := fun b hb => hw b (mem_toFinset.mp hb)
  have hposF : 0 < SmoothRoundRobin.total w0.weight bs.toFinset := htotal ▸ hpos
  have hsum : (bs.map w0.weight).sum < 2 ^ 63 := by
    have hlen : 1 ≤ (bs.length : ℤ) := by
      cases bs with
      | nil => simp at hpos
      | cons b bs => simp
    nlinarith
  have hrange : ∀ b ∈ bs, -2 ^ 63 ≤ w.current b + w0.weight b ∧
      w.current b + w0.weight b < 2 ^ 63 := by
    intro b hb
    have hb' := mem_toFinset.mpr hb
    have hge := h.greedy.neg_total_lt_credit hwF hposF hb'
    have hle := h.greedy.credit_add_le hwF hposF hb'
    have hwb := hw b hb
    rw [toFinset_card_of_nodup hnodup, htotal] at hle
    rw [htotal] at hge
    rw [h.current_eq b hb]
    exact ⟨by omega, lt_of_le_of_lt hle hlt⟩
  have hpick : ∀ b ∈ bs, (∀ b' ∈ bs, 0 < w0.weight b' →
      w.current b' + w0.weight b' ≤ w.current b + w0.weight b) →
        0 < w.current b + w0.weight b := by
    intro b hb hmax
    rw [h.current_eq b hb] at hmax ⊢
    refine h.greedy.pick_pos hwF hposF fun b' hb' hpos' => ?_
    have hb' := mem_toFinset.mp hb'
    rw [← h.current_eq b' hb']
    exact hmax b' hb' hpos'
  obtain ⟨best, hmem, hbestpos, hmax, hpick, hweights, hcurrent⟩ :=
    next_spec (w := w) hnodup (by rwa [hweight]) (by rwa [hweight]) (by rwa [hweight])
      (by rwa [hweight]) (by rwa [hweight]) (by rwa [hweight])
  rw [hweight] at hbestpos hmax hcurrent
  rw [hpick]
  refine ⟨hweights.trans h.weights_eq, h.greedy.snoc (mem_toFinset.mpr hmem) hbestpos ?_, ?_⟩
  · intro b hb hb'
    have hb := mem_toFinset.mp hb
    rw [← h.current_eq b hb, ← h.current_eq best hmem]
    exact hmax b hb hb'
  · intro b hb
    rw [hcurrent b hb, credit_snoc, h.current_eq b hb, htotal]

lemma follows_calls (hfresh : ∀ b, w0.current b = 0) (n : ℕ) :
    Follows w0 bs (w0.calls bs n).1 (w0.calls bs n).2 ∧ (w0.calls bs n).2.length = n := by
  induction n with
  | zero => exact ⟨⟨rfl, .nil, fun b _ => by simp [calls, hfresh b]⟩, rfl⟩
  | succ n ih =>
    refine ⟨follows_next hnodup hw hne hpos hlt ih.1, ?_⟩
    simp [calls, ih.2]

end

lemma calls_prefix (w : Weighted) (bs : List String) (n k : ℕ) :
    (w.calls bs n).2 <+: (w.calls bs (n + k)).2 := by
  induction k with
  | zero => exact prefix_refl _
  | succ k ih => exact ih.trans (prefix_append _ _)

/-- What is fair about the picks from a list of backends, in cycles of the total weight. -/
structure Fair (w : Weighted) (bs : List String) : Prop where
  count_cycle : ∀ m, ∀ b ∈ bs,
    (((w.calls bs ((m + 1) * (bs.map w.weight).sum.toNat)).2.drop
      (m * (bs.map w.weight).sum.toNat)).count b : ℤ) = w.weight b
  weight_ne_zero : ∀ n, ∀ b ∈ (w.calls bs n).2, w.weight b ≠ 0
  sum_current : ∀ n, (bs.map (w.calls bs n).1.current).sum = 0
  current_cycle : ∀ m, ∀ b ∈ bs, (w.calls bs (m * (bs.map w.weight).sum.toNat)).1.current b = 0

end Weighted

lemma configured_fresh (cs : List WeightCall) :
    (∀ b, (configured cs).current b = 0) ∧ ∀ b, 0 ≤ (configured cs).weight b := by
  have hclamp : ∀ wt : ℤ, 0 ≤ if wt < 0 then 0 else wt := by
    intro wt
    split_ifs <;> omega
  induction cs using reverseRecOn with
  | nil => exact ⟨fun _ => rfl, fun _ => by simp [configured, newWeighted, Weighted.weight]⟩
  | append_singleton cs c ih =>
    have hsnoc : configured (cs ++ [c]) = c.apply (configured cs) := by
      simp [configured, foldl_append]
    rw [hsnoc]
    cases c with
    | setWeight backend weight =>
      refine ⟨fun b => ?_, fun b => ?_⟩
      · simp only [WeightCall.apply, Weighted.setWeight, update_apply, ih.1 b, ite_self]
      have hb := ih.2 b
      simp only [WeightCall.apply, Weighted.setWeight, Weighted.weight, update_apply]
      split_ifs
      · exact le_refl _
      · simp only [Option.getD_some]
        omega
      · exact hb
    | setWeights weights =>
      refine ⟨fun _ => rfl, fun b => ?_⟩
      simp only [WeightCall.apply, Weighted.setWeights, Weighted.weight]
      cases weights b with
      | none => simp
      | some wt => exact hclamp wt

/-- **Weighted picks are fair** for every list of distinct backends of positive total weight, as
long as those with a weight have a name and the number of backends times the total weight is an
integer. -/
theorem weighted_fair (cs : List WeightCall) (bs : List String) (hnodup : bs.Nodup)
    (hpos : 0 < (bs.map (configured cs).weight).sum)
    (hname : ∀ b ∈ bs, 0 < (configured cs).weight b → b ≠ "")
    (hsize : bs.length * (bs.map (configured cs).weight).sum < 2 ^ 63) :
    (configured cs).Fair bs := by
  obtain ⟨hfresh, hnonneg⟩ := configured_fresh cs
  generalize configured cs = w at *
  have hcalls := Weighted.follows_calls hnodup (fun b _ => hnonneg b) hname hpos hsize hfresh
  have htotal := Weighted.total_toFinset (w := w) hnodup
  have hwF : ∀ b ∈ bs.toFinset, 0 ≤ w.weight b := fun b _ => hnonneg b
  have hposF : 0 < SmoothRoundRobin.total w.weight bs.toFinset := htotal ▸ hpos
  have hlen : ∀ m, ((w.calls bs (m * (bs.map w.weight).sum.toNat)).2.length : ℤ) =
      m * SmoothRoundRobin.total w.weight bs.toFinset := by
    intro m
    rw [(hcalls _).2, htotal, Nat.cast_mul, Int.toNat_of_nonneg hpos.le]
  refine ⟨fun m b hb => ?_, fun n b hb => ?_, fun n => ?_, fun m b hb => ?_⟩
  · have hb' := mem_toFinset.mpr hb
    obtain ⟨l, hl⟩ :=
      w.calls_prefix bs (m * (bs.map w.weight).sum.toNat) (bs.map w.weight).sum.toNat
    rw [← Nat.succ_mul] at hl
    have hbefore := (hcalls _).1.greedy.count_eq hwF hposF (hlen m) hb'
    have hafter := (hcalls _).1.greedy.count_eq hwF hposF (hlen (m + 1)) hb'
    rw [← hl, drop_left' (hcalls _).2]
    rw [← hl, count_append] at hafter
    push_cast at hafter
    linarith
  · exact ((hcalls n).1.greedy.mem hb).2.ne'
  · have hsum := (hcalls n).1.greedy.sum_credit
    rw [← sum_toFinset _ hnodup]
    rw [← hsum]
    exact Finset.sum_congr rfl fun b hb => (hcalls n).1.current_eq b (mem_toFinset.mp hb)
  · rw [(hcalls _).1.current_eq b hb]
    exact (hcalls _).1.greedy.credit_eq_zero hwF hposF (hlen m) (mem_toFinset.mpr hb)

def capacityTiers : List WeightCall :=
  [.setWeight "a:80" 8, .setWeight "b:80" 2, .setWeight "c:80" 2]

theorem weighted_fair_capacityTiers : (configured capacityTiers).Fair ["a:80", "b:80", "c:80"] :=
  weighted_fair _ _ (by decide) (by decide) (by decide) (by decide)

def hugeWeights : List WeightCall :=
  [.setWeight "a:80" (2 ^ 62), .setWeight "b:80" (2 ^ 62), .setWeight "c:80" (2 ^ 62)]

/-- A backend without a name is never picked, and huge weights overflow. -/
theorem weighted_unfair : (["a:80", ""].Nodup ∧ 0 < (["a:80", ""].map (configured []).weight).sum ∧
      ¬ (configured []).Fair ["a:80", ""]) ∧
    (["a:80", "b:80", "c:80"].Nodup ∧
      0 < (["a:80", "b:80", "c:80"].map (configured hugeWeights).weight).sum ∧
      ¬ (configured hugeWeights).Fair ["a:80", "b:80", "c:80"]) := by
  refine ⟨⟨by decide, by decide, fun h => ?_⟩, ⟨by decide, by decide, fun h => ?_⟩⟩
  · exact absurd (h.sum_current 2) (by decide)
  · exact absurd (h.sum_current 2) (by decide)

end DeployMonster.Ingress

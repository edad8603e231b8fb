import DeployMonster.Library.Pool

/-!
# Clean-ups that race

What deployments of one application do to its containers, with the programs left aside: the
containers that are there, the one that is created next, the highest version, and the stage of each
deployment.
-/

namespace DeployMonster.Deploy

open List Option Pool

inductive CleanupStage
  /-- No version yet. -/
  | before
  | reserved (version : ℕ)
  | created (version containerID : ℕ)
  /-- The containers that are still to be removed, and whether the first one has been stopped. -/
  | cleaning (version containerID : ℕ) (todo : List ℕ) (stopped : Bool)
  | failed
  deriving DecidableEq

namespace CleanupStage

def version? : CleanupStage → Option ℕ
  | reserved v | created v _ | cleaning v _ _ _ => some v
  | before | failed => none

def container? : CleanupStage → Option ℕ
  | created _ id | cleaning _ id _ _ => some id
  | before | reserved _ | failed => none

def todo : CleanupStage → List ℕ
  | cleaning _ _ todo _ => todo
  | before | reserved _ | created _ _ | failed => []

def listed : CleanupStage → Bool
  | cleaning _ _ _ _ => true
  | before | reserved _ | created _ _ | failed => false

def Holds (v x : ℕ) (g : CleanupStage) : Prop := g.version? = some v ∧ g.container? = some x

end CleanupStage

open CleanupStage

structure Converging (live : Set ℕ) (next m : ℕ) (stages : List CleanupStage) : Prop where
  live_lt : ∀ x ∈ live, x < next
  version_le : ∀ g ∈ stages, ∀ v, g.version? = some v → v ≤ m
  newest : (∃ g ∈ stages, g.version? ≠ none) → ∃ g ∈ stages, g.version? = some m
  container_lt : ∀ g ∈ stages, ∀ x, g.container? = some x → x < next
  container_inj : ∀ (i j : ℕ) g g' x, stages[i]? = some g → stages[j]? = some g' →
    g.container? = some x → g'.container? = some x → i = j
  todo_lt : ∀ g ∈ stages, ∀ x ∈ g.todo, x < next
  /-- The container of the highest version is there,. -/
  present : ∀ g ∈ stages, ∀ x, g.Holds m x → x ∈ live
  /-- No clean-up will remove it,. -/
  spared : ∀ g ∈ stages, ∀ x, g.Holds m x → ∀ g' ∈ stages, x ∉ g'.todo
  /-- And its clean-up will remove the others, but for those whose clean-ups have not begun. -/
  doomed : ∀ g ∈ stages, ∀ x, g.Holds m x → g.listed = true → ∀ y ∈ live, y ≠ x →
    y ∈ g.todo ∨ ∃ v, created v y ∈ stages

namespace Converging

variable {live : Set ℕ} {next m : ℕ} {stages : List CleanupStage} {i : ℕ} {g g' : CleanupStage}

lemma start (hlive : ∀ x ∈ live, x < next) (m n : ℕ) :
    Converging live next m (List.replicate n before) := by
  have hbefore : ∀ g ∈ List.replicate n before, g = before :=
    fun g hg => eq_of_mem_replicate hg
  have hnone : ∀ g ∈ List.replicate n before, ∀ x, ¬ g.Holds m x := by
    rintro g hg x ⟨-, hx⟩
    rw [hbefore g hg] at hx
    cases hx
  refine
    { live_lt := hlive
      version_le := ?_
      newest := ?_
      container_lt := ?_
      container_inj := ?_
      todo_lt := ?_
      present := fun g hg x hx => absurd hx (hnone g hg x)
      spared := fun g hg x hx => absurd hx (hnone g hg x)
      doomed := fun g hg x hx => absurd hx (hnone g hg x) }
  · intro g hg v hv
    rw [hbefore g hg] at hv
    cases hv
  · rintro ⟨g, hg, hv⟩
    rw [hbefore g hg] at hv
    exact absurd rfl hv
  · intro g hg x hx
    rw [hbefore g hg] at hx
    cases hx
  · intro i j g g' x hg _ hx
    rw [hbefore g (mem_of_getElem? hg)] at hx
    cases hx
  · intro g hg x hx
    rw [hbefore g hg] at hx
    cases hx

variable (h : Converging live next m stages)
include h

lemma newest_set (hi : stages[i]? = some g) (hv : g'.version? = g.version?) :
    (∃ q ∈ stages.set i g', q.version? ≠ none) → ∃ q ∈ stages.set i g', q.version? = some m := by
  have hg' : g' ∈ stages.set i g' := mem_of_getElem? (getElem?_set_self hi g')
  rintro ⟨q, hq, hsome⟩
  have hold : ∃ q ∈ stages, q.version? ≠ none := by
    rcases mem_or_eq_of_mem_set hq with hq | rfl
    · exact ⟨q, hq, hsome⟩
    · exact ⟨g, mem_of_getElem? hi, by rwa [← hv]⟩
  obtain ⟨q, hq, hm⟩ := h.newest hold
  by_cases hqg : q = g
  · exact ⟨g', hg', by rw [hv, ← hqg, hm]⟩
  · exact ⟨q, mem_set_of_ne hi hq hqg g', hm⟩

lemma container_inj_set (hi : stages[i]? = some g)
    (hg' : ∀ x, g'.container? = some x → g.container? = some x ∨ next ≤ x) :
    ∀ (j l : ℕ) q q' x, (stages.set i g')[j]? = some q → (stages.set i g')[l]? = some q' →
      q.container? = some x → q'.container? = some x → j = l := by
  have hfresh : ∀ (j : ℕ) q x, stages[j]? = some q → q.container? = some x →
      g'.container? = some x → j = i := by
    intro j q x hq hx hx'
    rcases hg' x hx' with hx' | hle
    · exact h.container_inj j i q g x hq hi hx hx'
    · exact absurd (h.container_lt q (mem_of_getElem? hq) x hx) (Nat.not_lt.mpr hle)
  intro j l q q' x hj hl hx hx'
  rcases getElem?_set hj with ⟨rfl, rfl⟩ | ⟨-, hj'⟩
  · rcases getElem?_set hl with ⟨rfl, rfl⟩ | ⟨-, hl'⟩
    · rfl
    · exact (hfresh l q' x hl' hx' hx).symm
  · rcases getElem?_set hl with ⟨rfl, rfl⟩ | ⟨-, hl'⟩
    · exact hfresh j q x hj' hx hx'
    · exact h.container_inj j l q q' x hj' hl' hx hx'

lemma reserve (hi : stages[i]? = some before) :
    Converging live next (m + 1) (stages.set i (reserved (m + 1))) := by
  have hmem : reserved (m + 1) ∈ stages.set i (reserved (m + 1)) :=
    mem_of_getElem? (getElem?_set_self hi _)
  have hnone : ∀ g ∈ stages.set i (reserved (m + 1)), ∀ x, ¬ g.Holds (m + 1) x := by
    rintro g hg x ⟨hv, hx⟩
    rcases mem_or_eq_of_mem_set hg with hg | rfl
    · exact absurd (h.version_le g hg (m + 1) hv) (Nat.not_succ_le_self m)
    · cases hx
  refine
    { live_lt := h.live_lt
      version_le := forall_set (fun g hg v hv => Nat.le_succ_of_le (h.version_le g hg v hv)) ?_
      newest := fun _ => ⟨_, hmem, rfl⟩
      container_lt := forall_set h.container_lt nofun
      container_inj := h.container_inj_set hi nofun
      todo_lt := forall_set h.todo_lt nofun
      present := fun g hg x hx => absurd hx (hnone g hg x)
      spared := fun g hg x hx => absurd hx (hnone g hg x)
      doomed := fun g hg x hx => absurd hx (hnone g hg x) }
  intro v hv
  exact (some.inj hv).ge

lemma create {v : ℕ} (hi : stages[i]? = some (reserved v)) :
    Converging (insert next live) (next + 1) m (stages.set i (created v next)) := by
  have hmem : created v next ∈ stages.set i (created v next) :=
    mem_of_getElem? (getElem?_set_self hi _)
  refine
    { live_lt := ?_
      version_le := forall_set h.version_le
        (h.version_le (reserved v) (mem_of_getElem? hi))
      newest := h.newest_set hi rfl
      container_lt := forall_set
        (fun g hg x hx => Nat.lt_succ_of_lt (h.container_lt g hg x hx)) ?_
      container_inj := h.container_inj_set hi fun x hx => .inr (some.inj hx).le
      todo_lt := forall_set (fun g hg x hx => Nat.lt_succ_of_lt (h.todo_lt g hg x hx)) nofun
      present := forall_set
        (fun g hg x hx => Set.mem_insert_of_mem next (h.present g hg x hx)) ?_
      spared := ?_
      doomed := ?_ }
  · rintro x (rfl | hx)
    · exact Nat.lt_succ_self _
    · exact Nat.lt_succ_of_lt (h.live_lt x hx)
  · intro x hx
    cases hx
    exact Nat.lt_succ_self _
  · rintro x ⟨-, hx⟩
    cases hx
    exact Set.mem_insert _ _
  · intro g hg x hx
    refine forall_set (fun g' hg' => ?_) not_mem_nil
    rcases mem_or_eq_of_mem_set hg with hg | rfl
    · exact h.spared g hg x hx g' hg'
    · obtain rfl : next = x := some.inj hx.2
      exact fun hx => Nat.lt_irrefl _ (h.todo_lt g' hg' _ hx)
  · intro g hg x hx hlisted y hy hne
    rcases mem_or_eq_of_mem_set hg with hg | rfl
    · rcases hy with rfl | hy
      · exact .inr ⟨v, hmem⟩
      · rcases h.doomed g hg x hx hlisted y hy hne with hy | ⟨v', hv'⟩
        · exact .inl hy
        · exact .inr ⟨v', mem_set_of_ne hi hv' nofun _⟩
    · cases hlisted

lemma list {v x : ℕ} {snapshot : List ℕ}
    (hi : stages[i]? = some (created v x)) (hsnapshot : ∀ y, y ∈ snapshot ↔ y ∈ live ∧ y ≠ x)
    (hguard : ∀ g ∈ stages, ∀ y, g.Holds m y → y = x) :
    Converging live next m (stages.set i (cleaning v x snapshot false)) := by
  have hmem : created v x ∈ stages := mem_of_getElem? hi
  have hspared : ∀ g ∈ stages.set i (cleaning v x snapshot false), ∀ y, g.Holds m y →
      y = x ∧ ∀ g' ∈ stages, y ∉ g'.todo := by
    intro g hg y hy
    rcases mem_or_eq_of_mem_set hg with hg | rfl
    · exact ⟨hguard g hg y hy, h.spared g hg y hy⟩
    · exact ⟨(some.inj hy.2).symm, h.spared (created v x) hmem y hy⟩
  refine
    { live_lt := h.live_lt
      version_le := forall_set h.version_le (h.version_le (created v x) hmem)
      newest := h.newest_set hi rfl
      container_lt := forall_set h.container_lt (h.container_lt (created v x) hmem)
      container_inj := h.container_inj_set hi fun y hy => .inl hy
      todo_lt := forall_set h.todo_lt fun y hy => h.live_lt y ((hsnapshot y).mp hy).1
      present := forall_set h.present (h.present (created v x) hmem)
      spared := ?_
      doomed := ?_ }
  · intro g hg y hy
    obtain ⟨rfl, hold⟩ := hspared g hg y hy
    exact forall_set hold fun hy => ((hsnapshot y).mp hy).2 rfl
  intro g hg y hy hlisted z hz hne
  rcases mem_or_eq_of_mem_set hg with hg' | rfl
  · obtain rfl := hguard g hg' y hy
    obtain ⟨j, hj⟩ := getElem?_of_mem hg'
    obtain rfl : j = i := h.container_inj j i g _ y hj hi hy.2 rfl
    cases hj.symm.trans hi
    cases hlisted
  · obtain rfl : x = y := some.inj hy.2
    exact .inl ((hsnapshot z).mpr ⟨hz, hne⟩)

lemma clean {removed : Set ℕ} (hi : stages[i]? = some g) (hv : g'.version? = g.version?)
    (hx : g'.container? = g.container?) (hlisted : g'.listed = g.listed)
    (hnot : ∀ v y, created v y ≠ g) (htodo : ∀ y, y ∈ g.todo ↔ y ∈ removed ∨ y ∈ g'.todo) :
    Converging (live \ removed) next m (stages.set i g') := by
  have hmem : g ∈ stages := mem_of_getElem? hi
  have hholds : ∀ z, g'.Holds m z → g.Holds m z := by
    rintro z ⟨hz, hz'⟩
    exact ⟨hv ▸ hz, hx ▸ hz'⟩
  have hpresent : ∀ q ∈ stages, ∀ z, q.Holds m z → z ∈ live \ removed := by
    intro q hq z hz
    refine ⟨h.present q hq z hz, fun hz' => ?_⟩
    exact h.spared q hq z hz g hmem ((htodo z).mpr (.inl hz'))
  have hspared : ∀ q ∈ stages, ∀ z, q.Holds m z → ∀ q' ∈ stages.set i g', z ∉ q'.todo := by
    intro q hq z hz
    refine forall_set (h.spared q hq z hz) fun hz' => ?_
    exact h.spared q hq z hz g hmem ((htodo z).mpr (.inr hz'))
  have hdoomed : ∀ q ∈ stages, ∀ z, q.Holds m z → q.listed = true → ∀ u ∈ live \ removed, u ≠ z →
      u ∈ q.todo ∨ ∃ v, created v u ∈ stages.set i g' := by
    intro q hq z hz hq' u hu hne
    refine (h.doomed q hq z hz hq' u hu.1 hne).imp_right ?_
    exact fun ⟨v, hmem'⟩ => ⟨v, mem_set_of_ne hi hmem' (hnot v u) g'⟩
  refine
    { live_lt := fun z hz => h.live_lt z hz.1
      version_le := forall_set h.version_le (hv ▸ h.version_le g hmem)
      newest := h.newest_set hi hv
      container_lt := forall_set h.container_lt (hx ▸ h.container_lt g hmem)
      container_inj := h.container_inj_set hi fun z hz => .inl (hx ▸ hz)
      todo_lt := forall_set h.todo_lt fun z hz => h.todo_lt g hmem z ((htodo z).mpr (.inr hz))
      present := forall_set hpresent fun z hz => hpresent g hmem z (hholds z hz)
      spared := forall_set hspared fun z hz => hspared g hmem z (hholds z hz)
      doomed := forall_set hdoomed fun z hz hlisted' u hu hne => ?_ }
  refine (hdoomed g hmem z (hholds z hz) (hlisted ▸ hlisted') u hu hne).imp_left fun hu' => ?_
  exact ((htodo u).mp hu').resolve_left hu.2

lemma stop {v x : ℕ} {todo : List ℕ} (hi : stages[i]? = some (cleaning v x todo false)) :
    Converging live next m (stages.set i (cleaning v x todo true)) := by
  have hclean : Converging (live \ ∅) next m (stages.set i (cleaning v x todo true)) :=
    h.clean hi rfl rfl rfl nofun fun y => (or_iff_right (Set.notMem_empty y)).symm
  rwa [Set.sdiff_empty] at hclean

lemma remove {v x y : ℕ} {todo : List ℕ} (hi : stages[i]? = some (cleaning v x (y :: todo) true)) :
    Converging (live \ {y}) next m (stages.set i (cleaning v x todo false)) :=
  h.clean hi rfl rfl rfl nofun fun _ => mem_cons

/-- **Once every clean-up is done, one container is left, the one of the highest version.** -/
theorem live_eq (hne : stages ≠ []) (hdone : ∀ g ∈ stages, ∃ v x, g = cleaning v x [] false) :
    ∃ x, cleaning m x [] false ∈ stages ∧ live = {x} := by
  obtain ⟨g, hg⟩ := exists_mem_of_ne_nil stages hne
  obtain ⟨v, x, rfl⟩ := hdone g hg
  obtain ⟨g, hg, hm⟩ := h.newest ⟨_, hg, nofun⟩
  obtain ⟨v, x, rfl⟩ := hdone g hg
  cases hm
  refine ⟨x, hg, Set.eq_singleton_iff_unique_mem.mpr ⟨h.present _ hg x ⟨rfl, rfl⟩, ?_⟩⟩
  intro y hy
  by_contra hyx
  rcases h.doomed _ hg x ⟨rfl, rfl⟩ rfl y hy hyx with hy | ⟨v', hv'⟩
  · cases hy
  · obtain ⟨_, _, hv'⟩ := hdone _ hv'
    cases hv'

end Converging

end DeployMonster.Deploy

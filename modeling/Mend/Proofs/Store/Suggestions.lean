import Mathlib.Data.List.Perm.Subperm
import Mend.Proofs.Text.Order
import Mend.Store.Directory

/-!
# Suggestions

The paths that are suggested for one that was not found are the best of the candidates
(`Similarity.Best`): no more than five, in order, and a candidate that is left out has five before
it. Which score a candidate has does not matter for this. Two candidates that come before each other
are equal, so the order in which a directory is searched does not matter either
(`Similarity.rank_best`).
-/

namespace Mend

namespace Similarity

variable {score : Text → Nat} {a b c : Text} {candidates other : List Text}

/-! ## The order of candidates -/

/-- A candidate comes before another one or is equal to it: by score from high to low, then by
path. -/
def Precedes (score : Text → Nat) (a b : Text) : Prop :=
  score b < score a ∨ score a = score b ∧ Text.le a b = true

theorem Precedes.antisymm (hab : Precedes score a b) (hba : Precedes score b a) : a = b := by
  rcases hab with hlt | ⟨heq, hab⟩
  · rcases hba with hgt | ⟨heq, -⟩
    · exact absurd hlt (Nat.lt_asymm hgt)
    · exact absurd heq (Nat.ne_of_lt hlt)
  · rcases hba with hgt | ⟨-, hba⟩
    · exact absurd heq (Nat.ne_of_lt hgt)
    · exact Text.le_antisymm hab hba

theorem listedBefore_iff :
    listedBefore (score a, a) (score b, b) = true ↔ Precedes score a b := by
  rw [listedBefore, Precedes]
  split
  · rename_i heq
    change score a = score b at heq
    simp [heq]
  · rename_i hne
    change ¬ score a = score b at hne
    simp [hne]

theorem listedBefore_trans (p q r : Nat × Text) (hpq : listedBefore p q = true)
    (hqr : listedBefore q r = true) : listedBefore p r = true := by
  rw [listedBefore] at hpq hqr ⊢
  split at hpq <;> split at hqr
  · rw [if_pos (by omega)]
    exact Text.le_trans hpq hqr
  · rw [if_neg (by omega)]
    simp only [decide_eq_true_eq] at hqr ⊢
    omega
  · rw [if_neg (by omega)]
    simp only [decide_eq_true_eq] at hpq ⊢
    omega
  · simp only [decide_eq_true_eq] at hpq hqr
    rw [if_neg (by omega)]
    simp only [decide_eq_true_eq]
    omega

theorem listedBefore_total (p q : Nat × Text) :
    (listedBefore p q || listedBefore q p) = true := by
  rw [listedBefore, listedBefore]
  by_cases heq : p.1 = q.1
  · rw [if_pos heq, if_pos heq.symm]
    exact Text.le_total ..
  · rw [if_neg heq, if_neg (Ne.symm heq), Bool.or_eq_true, decide_eq_true_iff, decide_eq_true_iff]
    omega

/-! ## Rankings -/

/-- The candidates that score. -/
def scoring (score : Text → Nat) (candidates : List Text) : List Text :=
  candidates.filter fun c => 0 < score c

/-- The candidates that score, the best first. -/
def ranking (score : Text → Nat) (candidates : List Text) : List Text :=
  (ranked score candidates).map Prod.snd

theorem rank_eq (target : Text) (candidates : List Text) :
    rank target candidates = (ranking (Similarity.score target) candidates).take maxSuggestions := by
  rw [rank, ranking, List.map_take]

/-- A ranking has the candidates that score. -/
theorem ranking_perm (score : Text → Nat) (candidates : List Text) :
    (ranking score candidates).Perm (scoring score candidates) := by
  have hscored : ((candidates.map fun c => (score c, c)).filter fun s => 0 < s.1)
      = (scoring score candidates).map fun c => (score c, c) := by
    rw [List.filter_map]
    rfl
  have hpaths : ((scoring score candidates).map fun c => (score c, c)).map Prod.snd
      = scoring score candidates := by
    rw [List.map_map]
    exact List.map_id _
  rw [ranking, ranked, hscored]
  exact ((List.mergeSort_perm ..).map Prod.snd).trans (.of_eq hpaths)

/-- Each scored path has its own score. -/
theorem eq_of_mem_ranked {s : Nat × Text} (h : s ∈ ranked score candidates) :
    s = (score s.2, s.2) := by
  rw [ranked, List.mem_mergeSort] at h
  obtain ⟨c, -, rfl⟩ := List.mem_map.1 (List.mem_filter.1 h).1
  rfl

theorem pairwise_ranking (score : Text → Nat) (candidates : List Text) :
    (ranking score candidates).Pairwise (Precedes score) := by
  rw [ranking, List.pairwise_map]
  refine (List.pairwise_mergeSort listedBefore_trans listedBefore_total _).imp_of_mem ?_
  intro s t hs ht hbefore
  rw [eq_of_mem_ranked hs, eq_of_mem_ranked ht] at hbefore
  exact listedBefore_iff.1 hbefore

/-- A ranking does not depend on the order of the candidates. -/
theorem ranking_congr (h : candidates.Perm other) : ranking score other = ranking score candidates := by
  have hperm : (ranking score other).Perm (ranking score candidates) :=
    (ranking_perm score other).trans ((h.symm.filter _).trans (ranking_perm score candidates).symm)
  exact hperm.eq_of_pairwise (fun a b _ _ => Precedes.antisymm) (pairwise_ranking score other)
    (pairwise_ranking score candidates)

/-! ## The best candidates -/

/-- The best of some candidates: those that come first among all that score, each as often as it is
there. -/
structure Best (score : Text → Nat) (candidates best : List Text) : Prop where
  length_le : best.length ≤ 5
  subperm : best.Subperm (candidates.filter fun c => 0 < score c)
  pairwise : best.Pairwise (Precedes score)
  /-- A candidate that scores and is left out has five before it. -/
  preceded : ∀ c, 0 < score c → best.count c < candidates.count c →
    best.length = 5 ∧ ∀ b ∈ best, Precedes score b c

/-- The first five of a ranking are the best. -/
theorem best_take_ranking (score : Text → Nat) (candidates : List Text) :
    Best score candidates ((ranking score candidates).take maxSuggestions) where
  length_le := List.length_take_le ..
  subperm := (List.take_sublist ..).subperm.trans (ranking_perm score candidates).subperm
  pairwise := (pairwise_ranking score candidates).sublist (List.take_sublist ..)
  preceded c hscore hcount := by
    have hall : (ranking score candidates).count c = candidates.count c := by
      rw [(ranking_perm score candidates).count_eq, scoring, List.count_filter (by simpa using hscore)]
    -- what is left out stands behind the first five
    have hsplit := List.take_append_drop maxSuggestions (ranking score candidates)
    have hlate : c ∈ (ranking score candidates).drop maxSuggestions := by
      rw [← List.count_pos_iff]
      have hsum := congrArg (List.count c) hsplit
      rw [List.count_append] at hsum
      omega
    have hlength : maxSuggestions < (ranking score candidates).length := by
      have hpos := List.length_pos_of_mem hlate
      rw [List.length_drop] at hpos
      omega
    have hpairwise := pairwise_ranking score candidates
    rw [← hsplit] at hpairwise
    exact ⟨List.length_take_of_le (Nat.le_of_lt hlength),
      fun b hb => (List.pairwise_append.1 hpairwise).2.2 b hb c hlate⟩

end Similarity

/-- The paths of the files that are searched below a place. -/
def DirectoryStore.candidates (d : Disk) (loc : Location) : List Text :=
  ((entriesBelow d loc [] suggestionDepth).filter fun e => e.2 ≠ .dir).map fun e =>
    Text.joinWith ['/'] e.1

theorem DirectoryStore.suggest_eq_rank {σ : DirectoryStore} {d : Disk} {loc : Location}
    (h : d.find σ.root = .ok (loc, .dir)) (path : Text) :
    σ.suggest path d = Similarity.rank path (candidates d loc) := by
  rw [suggest, h]
  rfl

namespace Similarity

/-- The suggestions for a path are the best of any candidates, in whatever order these are given, and
a store suggests the best of its files, in whatever order it is walked. -/
theorem rank_best (target : Text) :
    (∀ candidates, Best (score target) candidates (rank target candidates)) ∧
    (∀ candidates other, candidates.Perm other → rank target other = rank target candidates) ∧
    ∀ (σ : DirectoryStore) (d : Disk) (loc : Location) (walk : List Text),
      d.find σ.root = .ok (loc, .dir) → (DirectoryStore.candidates d loc).Perm walk →
        σ.suggest target d = rank target walk := by
  have hperm : ∀ candidates other, candidates.Perm other →
      rank target other = rank target candidates := by
    intro candidates other h
    rw [rank_eq, rank_eq, ranking_congr h]
  refine ⟨fun candidates => ?_, hperm, fun σ d loc walk hroot hwalk => ?_⟩
  · rw [rank_eq]
    exact best_take_ranking ..
  · rw [DirectoryStore.suggest_eq_rank hroot, hperm _ _ hwalk]

end Similarity

end Mend

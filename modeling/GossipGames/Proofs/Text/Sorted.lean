import GossipGames.Text.Sorted
import Mathlib.Data.List.Sort
import Mathlib.Data.String.Basic

/-!
# The order of sorted names

The list of a set of names ascends strictly, so it has no name twice.
-/

namespace GossipGames
namespace Sorted

theorem pairwise_insert (x : String) {ys : List String} (h : ys.Pairwise (· < ·)) :
    (insert x ys).Pairwise (· < ·) := by
  induction ys with
  | nil =>
      simp [insert]
  | cons y ys ih =>
      rcases List.pairwise_cons.mp h with ⟨hfirst, hrest⟩
      rcases lt_trichotomy x y with hlt | heq | hgt
      · rw [insert, if_pos hlt]
        refine List.pairwise_cons.mpr ⟨?_, h⟩
        intro z hz
        cases hz with
        | head =>
            exact hlt
        | tail _ hz =>
            exact lt_trans hlt (hfirst z hz)
      · rw [insert, if_neg (heq ▸ lt_irrefl x), if_pos heq]
        exact h
      · rw [insert, if_neg (lt_asymm hgt), if_neg (ne_of_gt hgt)]
        refine List.pairwise_cons.mpr ⟨?_, ih hrest⟩
        intro z hz
        rcases mem_insert.mp hz with rfl | hz
        · exact hgt
        · exact hfirst z hz

theorem pairwise_ofList (xs : List String) : (ofList xs).Pairwise (· < ·) := by
  induction xs with
  | nil =>
      exact List.Pairwise.nil
  | cons x xs ih =>
      exact pairwise_insert x ih

theorem nodup_ofList (xs : List String) : (ofList xs).Nodup :=
  (pairwise_ofList xs).imp fun h => ne_of_lt h

theorem filter_ofList (keep : String → Bool) (xs : List String) :
    (ofList xs).filter keep = ofList (xs.filter keep) := by
  have hfiltered := (pairwise_ofList xs).filter keep
  apply hfiltered.eq_of_mem_iff (pairwise_ofList (xs.filter keep))
  intro x
  rw [List.mem_filter, mem_ofList, mem_ofList, List.mem_filter]

end Sorted
end GossipGames

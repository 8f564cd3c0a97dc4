import Mathlib.Data.List.Perm.Basic

/-!
# Rearranged lists

A list is rearranged when its members are taken in another order and each of them may be replaced
by a related one.
-/

namespace GossipGames

/-- The second list has, in some order, a related member for each member of the first. -/
def Rearranged (R : α → β → Prop) (xs : List α) (ys : List β) : Prop :=
  ∃ zs, List.Forall₂ R xs zs ∧ zs.Perm ys

def Entrywise (R : α → β → Prop) (e : String × α) (e' : String × β) : Prop :=
  e.1 = e'.1 ∧ R e.2 e'.2

namespace Rearranged

variable {R : α → β → Prop} {xs : List α} {ys : List β}

theorem symm (h : Rearranged R xs ys) : Rearranged (flip R) ys xs := by
  rcases h with ⟨zs, hrelated, hperm⟩
  rcases List.perm_comp_forall₂ hperm.symm hrelated.flip with ⟨ws, hws, hxs⟩
  exact ⟨ws, hws, hxs⟩

theorem imp {R' : α → β → Prop} (himp : ∀ x y, R x y → R' x y) (h : Rearranged R xs ys) :
    Rearranged R' xs ys := by
  rcases h with ⟨zs, hrelated, hperm⟩
  exact ⟨zs, hrelated.imp himp, hperm⟩

theorem exists_related (h : Rearranged R xs ys) {x : α} (hx : x ∈ xs) : ∃ y ∈ ys, R x y := by
  rcases h with ⟨zs, hrelated, hperm⟩
  have hmatch : ∃ z ∈ zs, R x z := by
    clear hperm
    induction hrelated with
    | nil =>
        cases hx
    | cons hhead _ ih =>
        cases hx with
        | head =>
            exact ⟨_, List.mem_cons_self, hhead⟩
        | tail _ hx =>
            rcases ih hx with ⟨z, hz, hxz⟩
            exact ⟨z, List.mem_cons_of_mem _ hz, hxz⟩
  rcases hmatch with ⟨z, hz, hxz⟩
  exact ⟨z, hperm.mem_iff.mp hz, hxz⟩

theorem flatMap_perm {f : α → List γ} {g : β → List γ} (h : Rearranged R xs ys)
    (hfg : ∀ x y, R x y → (f x).Perm (g y)) : (xs.flatMap f).Perm (ys.flatMap g) := by
  rcases h with ⟨zs, hrelated, hperm⟩
  have hmatch : (xs.flatMap f).Perm (zs.flatMap g) := by
    clear hperm
    induction hrelated with
    | nil =>
        exact List.Perm.refl []
    | cons hhead _ ih =>
        exact (hfg _ _ hhead).append ih
  exact hmatch.trans (hperm.flatMap_right g)

theorem names_perm {xs : List (String × α)} {ys : List (String × β)}
    (h : Rearranged (Entrywise R) xs ys) : (xs.map Prod.fst).Perm (ys.map Prod.fst) := by
  rw [List.map_eq_flatMap, List.map_eq_flatMap]
  refine h.flatMap_perm fun e e' he => ?_
  rw [he.1]

end Rearranged
end GossipGames

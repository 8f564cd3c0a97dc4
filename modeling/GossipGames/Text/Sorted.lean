/-!
# Sorted names

A set of names is kept as its strictly ascending list.  Strings compare by code points, which is
also the order of their UTF-8 bytes.
-/

namespace GossipGames
namespace Sorted

def insert (x : String) : List String → List String
  | [] => [x]
  | y :: ys =>
      if x < y then x :: y :: ys
      else if x = y then y :: ys
      else y :: insert x ys

def ofList (xs : List String) : List String :=
  xs.foldr insert []

@[simp]
theorem mem_insert {x z : String} {ys : List String} :
    z ∈ insert x ys ↔ z = x ∨ z ∈ ys := by
  induction ys with
  | nil =>
      simp [insert]
  | cons y ys ih =>
      by_cases hlt : x < y
      · simp [insert, hlt]
      · by_cases heq : x = y
        · simp [insert, heq]
        · simp only [insert, hlt, heq, if_false, List.mem_cons, ih]
          exact or_left_comm

@[simp]
theorem mem_ofList {z : String} {xs : List String} :
    z ∈ ofList xs ↔ z ∈ xs := by
  induction xs with
  | nil =>
      simp [ofList]
  | cons x xs ih =>
      simpa [ofList] using or_congr_right ih

end Sorted
end GossipGames

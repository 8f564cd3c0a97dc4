import Mathlib.Data.List.Basic

/-!
# Decimal digits

A number is written with its decimal digits, of which only the number zero has a zero in front.
-/

namespace GossipGames

theorem isDigit_of_mem_repr {n : Nat} {c : Char} (h : c ∈ n.repr.toList) : c.isDigit = true := by
  rw [Nat.toList_repr] at h
  exact Nat.isDigit_of_mem_toDigits (by decide) (by decide) h

theorem head?_toDigits {n : Nat} (h : (Nat.toDigits 10 n).head? = some '0') : n = 0 := by
  induction n using Nat.strongRecOn with
  | ind n ih =>
      rcases Nat.lt_or_ge n 10 with hlt | hge
      · rw [Nat.toDigits_of_lt_base hlt] at h
        exact Nat.digitChar_eq_zero.mp (Option.some.inj h)
      · rw [Nat.toDigits_of_base_le (by decide) hge,
          List.head?_append_of_ne_nil _ Nat.toDigits_ne_nil] at h
        have hquotient := ih (n / 10) (by omega) h
        omega

theorem exists_digits (n : Nat) :
    ∃ c w, n.repr.toList = c :: w ∧ (∀ d ∈ c :: w, d.isDigit = true) ∧ (c = '0' → w = []) ∧
      Nat.ofDigitChars 10 (c :: w) 0 = n := by
  obtain ⟨c, w, hdigits⟩ : ∃ c w, n.repr.toList = c :: w := by
    rw [Nat.toList_repr]
    exact List.exists_cons_of_ne_nil Nat.toDigits_ne_nil
  have hzero : c = '0' → w = [] := by
    intro hc
    have hn : n = 0 := head?_toDigits (by rw [← Nat.toList_repr, hdigits, hc]; rfl)
    rw [hn] at hdigits
    cases hdigits
    rfl
  have hvalue : Nat.ofDigitChars 10 (c :: w) 0 = n := by
    rw [← hdigits, Nat.toList_repr]
    exact Nat.ofDigitChars_toDigits (by decide) (by decide)
  exact ⟨c, w, hdigits, fun d hd => isDigit_of_mem_repr (hdigits ▸ hd), hzero, hvalue⟩

end GossipGames

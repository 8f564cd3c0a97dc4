import GossipGames.Json.Layout
import GossipGames.Json.Reader
import Mathlib.Tactic.SplitIfs

/-!
# Characters of texts and numbers
-/

namespace GossipGames
namespace Json

theorem hexValue?_hexDigit {n : Nat} (h : n < 16) : Toml.hexValue? (hexDigit n) = some n := by
  have hall : ∀ n < 16, Toml.hexValue? (hexDigit n) = some n := by
    decide
  exact hall n h

theorem hexDigit_plain {n : Nat} (h : n < 16) :
    hexDigit n ≠ '"' ∧ hexDigit n ≠ '\\' ∧ 0x20 ≤ (hexDigit n).toNat := by
  have hall : ∀ n < 16, hexDigit n ≠ '"' ∧ hexDigit n ≠ '\\' ∧ 0x20 ≤ (hexDigit n).toNat := by
    decide
  exact hall n h

theorem escape_cases (c : Char) :
    (∃ l, 0x20 ≤ l.toNat ∧ letter? l = some c ∧ escape c = ['\\', l]) ∨
      (c.toNat < 0x20 ∧ escape c =
        ['\\', 'u', '0', '0', hexDigit (c.toNat / 16), hexDigit (c.toNat % 16)]) ∨
      (c ≠ '"' ∧ c ≠ '\\' ∧ 0x20 ≤ c.toNat ∧ escape c = [c]) := by
  generalize hw : escape c = w
  unfold escape at hw
  split_ifs at hw with hquote hbackslash hb hf hn hr ht hcontrol
  · exact Or.inl ⟨'"', by decide, congrArg some hquote.symm, hw.symm⟩
  · exact Or.inl ⟨'\\', by decide, congrArg some hbackslash.symm, hw.symm⟩
  · exact Or.inl ⟨'b', by decide, congrArg some hb.symm, hw.symm⟩
  · exact Or.inl ⟨'f', by decide, congrArg some hf.symm, hw.symm⟩
  · exact Or.inl ⟨'n', by decide, congrArg some hn.symm, hw.symm⟩
  · exact Or.inl ⟨'r', by decide, congrArg some hr.symm, hw.symm⟩
  · exact Or.inl ⟨'t', by decide, congrArg some ht.symm, hw.symm⟩
  · exact Or.inr (Or.inl ⟨hcontrol, hw.symm⟩)
  · exact Or.inr (Or.inr ⟨hquote, hbackslash, Nat.le_of_not_lt hcontrol, hw.symm⟩)

theorem hexNumber?_of_lt {n : Nat} (h : n < 0x20) :
    hexNumber? ['0', '0', hexDigit (n / 16), hexDigit (n % 16)] = some n := by
  have hzero : Toml.hexValue? '0' = some 0 := rfl
  have hhigh := hexValue?_hexDigit (n := n / 16) (by omega)
  have hlow := hexValue?_hexDigit (n := n % 16) (by omega)
  have hnumber : Toml.numberIn 16 [0, 0, n / 16, n % 16] = n := by
    simp only [Toml.numberIn, List.foldl_cons, List.foldl_nil]
    omega
  simp [hexNumber?, hzero, hhigh, hlow, hnumber]

theorem character?_toNat (c : Char) : character? c.toNat = some c := by
  have hvalid : c.toNat.isValidChar := c.valid
  rw [character?, if_pos hvalid, Char.ofNat_toNat]

theorem toNat_of_mem_escape {c d : Char} (h : d ∈ escape c) : 0x20 ≤ d.toNat := by
  rcases escape_cases c with ⟨l, hl, _, hescape⟩ | ⟨hcontrol, hescape⟩ | ⟨_, _, hc, hescape⟩
  · rw [hescape, List.mem_cons, List.mem_singleton] at h
    rcases h with rfl | rfl
    · decide
    · exact hl
  · have hhigh := (hexDigit_plain (n := c.toNat / 16) (by omega)).2.2
    have hlow := (hexDigit_plain (n := c.toNat % 16) (by omega)).2.2
    rw [hescape] at h
    simp only [List.mem_cons, List.not_mem_nil, or_false] at h
    rcases h with rfl | rfl | rfl | rfl | rfl | rfl
    · decide
    · decide
    · decide
    · decide
    · exact hhigh
    · exact hlow
  · rw [hescape, List.mem_singleton] at h
    rw [h]
    exact hc

theorem toList_toString_negSucc (n : Nat) :
    (toString (Int.negSucc n)).toList = '-' :: (n + 1).repr.toList :=
  String.toList_append

end Json
end GossipGames

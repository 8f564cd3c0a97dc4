import GossipGames.Proofs.Text.Digits
import GossipGames.Text.Blank
import GossipGames.Text.Numeral

/-!
# Integers in digits

An integer is written with one or more digits, perhaps after a sign.  There may be any number of
zeros in front, and the digits denote one number.
-/

namespace GossipGames
namespace Numeral

/-- One or more digits, and the number that they denote. -/
structure Digits (s : List Char) (n : Nat) : Prop where
  ne_nil : s ≠ []
  digits : ∀ c ∈ s, c.isDigit = true
  value : Nat.ofDigitChars 10 s 0 = n

inductive Unsigned : List Char → Nat → Prop where
  | plain : Digits s n → Unsigned s n
  | plus : Digits s n → Unsigned ('+' :: s) n

inductive Signed : List Char → Int → Prop where
  | unsigned : Unsigned s n → Signed s n
  | minus : Digits s n → Signed ('-' :: s) (-n)

theorem value_eq_ofDigitChars (n : Nat) (s : List Char) : value n s = Nat.ofDigitChars 10 s n := by
  rw [value, Nat.ofDigitChars]
  simp only [Nat.mul_comm]

theorem natural?_eq_some_iff {s : List Char} {n : Nat} : natural? s = some n ↔ Digits s n := by
  unfold natural?
  constructor
  · intro h
    split at h
    · next hdigits =>
      cases h
      exact ⟨hdigits.1, List.all_eq_true.mp hdigits.2, (value_eq_ofDigitChars 0 s).symm⟩
    · cases h
  · intro h
    rw [if_pos ⟨h.ne_nil, List.all_eq_true.mpr h.digits⟩, value_eq_ofDigitChars, h.value]

theorem map_natural?_eq_some_iff {f : Nat → Int} {s : List Char} {z : Int} :
    (natural? s).map f = some z ↔ ∃ n, Digits s n ∧ f n = z := by
  simp only [Option.map_eq_some_iff, natural?_eq_some_iff]

theorem Digits.head_ne {c : Char} {s : List Char} {n : Nat} (h : Digits (c :: s) n) :
    c ≠ '+' ∧ c ≠ '-' := by
  have hdigit := h.digits c List.mem_cons_self
  constructor
  · intro hc
    rw [hc] at hdigit
    cases hdigit
  · intro hc
    rw [hc] at hdigit
    cases hdigit

theorem integer?_eq_some_iff {s : List Char} {z : Int} : integer? s = some z ↔ Signed s z := by
  unfold integer?
  split
  · next s =>
    rw [map_natural?_eq_some_iff]
    constructor
    · intro h
      rcases h with ⟨n, hdigits, rfl⟩
      exact Signed.unsigned (Unsigned.plus hdigits)
    · intro h
      cases h with
      | unsigned h =>
          cases h with
          | plain hdigits =>
              exact absurd rfl hdigits.head_ne.1
          | plus hdigits =>
              exact ⟨_, hdigits, rfl⟩
  · next s =>
    rw [map_natural?_eq_some_iff]
    constructor
    · intro h
      rcases h with ⟨n, hdigits, rfl⟩
      exact Signed.minus hdigits
    · intro h
      cases h with
      | unsigned h =>
          cases h with
          | plain hdigits =>
              exact absurd rfl hdigits.head_ne.2
      | minus hdigits =>
          exact ⟨_, hdigits, rfl⟩
  · next hplus hminus =>
    rw [map_natural?_eq_some_iff]
    constructor
    · intro h
      rcases h with ⟨n, hdigits, rfl⟩
      exact Signed.unsigned (Unsigned.plain hdigits)
    · intro h
      cases h with
      | unsigned h =>
          cases h with
          | plain hdigits =>
              exact ⟨_, hdigits, rfl⟩
          | plus _ =>
              exact absurd rfl (hplus _)
      | minus _ =>
          exact absurd rfl (hminus _)

theorem Signed.unique {s : List Char} {z z' : Int} (h : Signed s z) (h' : Signed s z') :
    z = z' :=
  Option.some.inj ((integer?_eq_some_iff.mpr h).symm.trans (integer?_eq_some_iff.mpr h'))

theorem isBlank_of_isDigit {c : Char} (h : c.isDigit = true) : isBlank c = false := by
  have hrange : 48 ≤ c.toNat ∧ c.toNat ≤ 57 := Char.isDigit_iff_toNat.mp h
  rw [← Bool.not_eq_true]
  intro hblank
  simp only [isBlank, Bool.or_eq_true, decide_eq_true_eq, beq_iff_eq] at hblank
  omega

theorem Unsigned.isBlank {s : List Char} {n : Nat} (h : Unsigned s n) :
    ∀ c ∈ s, isBlank c = false := by
  cases h with
  | plain hdigits =>
      intro c hc
      exact isBlank_of_isDigit (hdigits.digits c hc)
  | plus hdigits =>
      rw [List.forall_mem_cons]
      constructor
      · rfl
      · intro c hc
        exact isBlank_of_isDigit (hdigits.digits c hc)

theorem Signed.ne_nil {s : List Char} {z : Int} (h : Signed s z) : s ≠ [] := by
  cases h with
  | unsigned h =>
      cases h with
      | plain hdigits =>
          exact hdigits.ne_nil
      | plus _ =>
          exact List.cons_ne_nil _ _
  | minus _ =>
      exact List.cons_ne_nil _ _

theorem Signed.exists_unsigned {s : List Char} {z : Int} (h : Signed s z) (hpos : 0 < z) :
    ∃ n : Nat, z = n ∧ Unsigned s n := by
  cases h with
  | unsigned h =>
      exact ⟨_, rfl, h⟩
  | minus _ =>
      omega

theorem digits_repr (n : Nat) : Digits n.repr.toList n := by
  rcases exists_digits n with ⟨c, w, hrepr, hdigits, _, hvalue⟩
  rw [hrepr]
  exact ⟨List.cons_ne_nil c w, hdigits, hvalue⟩

end Numeral
end GossipGames

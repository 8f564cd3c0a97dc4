import GossipGames.Gossip.AgentCount
import GossipGames.Proofs.Text.Numerals
import GossipGames.Proofs.Text.Trimming
import Mathlib.Algebra.Group.Int.Defs
import Mathlib.Algebra.Group.Nat.Defs

/-!
# Counts that are read

A text is read as a count when it is an integer between blanks, and the integer is positive and less
than two to the 64th.  Any other text is refused, and it is reported with its blanks.  An integer
beyond 127 binary digits is refused as if it were none.
-/

namespace GossipGames
namespace AgentCount

open Numeral (Signed Unsigned)

/-!
# Judgements

What is said of a text depends on what stands between the blanks at its ends.
-/

/-- What stands between the blanks is no integer, or one that is too far from zero to be read. -/
def Unreadable (s : List Char) : Prop :=
  ∀ z, Signed s z → z < -readable ∨ readable ≤ z

inductive Judged (s : List Char) : Except Refusal AgentCount → Prop where
  | missing : s = [] → Judged s (.error .missing)
  | notInteger : s ≠ [] → Unreadable s → Judged s (.error .notInteger)
  | notPositive : Signed s z → -readable ≤ z → z ≤ 0 → Judged s (.error .notPositive)
  | tooLarge : Signed s z → bound ≤ z → z < readable → Judged s (.error .tooLarge)
  | count (n : AgentCount) : Signed s n.size → Judged s (.ok n)

theorem bound_lt_readable : (bound : Int) < readable := by
  decide

theorem readable_pos : 0 < readable := by
  decide

theorem size_lt_readable (n : AgentCount) : (n.size : Int) < readable :=
  Int.lt_trans (Int.ofNat_lt.mpr n.fits) bound_lt_readable

theorem judged_ofInt {s : List Char} {z : Int} (h : Signed s z) (hlow : -readable ≤ z)
    (hhigh : z < readable) : Judged s (ofInt z) := by
  unfold ofInt
  split
  · next hpos =>
    exact Judged.notPositive h hlow hpos
  · next hpos =>
    have hsize : (z.toNat : Int) = z := Int.toNat_of_nonneg (by omega)
    split
    · exact Judged.count _ (by rwa [hsize])
    · next hfits =>
      exact Judged.tooLarge h (by omega) hhigh

theorem ofInt_of_not_positive {z : Int} (h : z ≤ 0) : ofInt z = .error .notPositive := by
  rw [ofInt, dif_pos h]

theorem ofInt_of_bound_le {z : Int} (h : bound ≤ z) : ofInt z = .error .tooLarge := by
  have hbound : 0 < bound := by
    decide
  rw [ofInt, dif_neg (by omega), dif_neg (by omega)]

theorem ofInt_size (n : AgentCount) : ofInt n.size = .ok n := by
  have hpos := n.pos
  have hfits := n.fits
  rw [ofInt, dif_neg (by omega)]
  exact dif_pos hfits

variable {text : String}

theorem parse_of_nil (h : trim text.toList = []) : parse text = .error .missing := by
  rw [parse, h]

theorem parse_of_ne_nil (h : trim text.toList ≠ []) :
    parse text =
      match Numeral.integer? (trim text.toList) with
      | none => .error .notInteger
      | some z => if z < -readable ∨ readable ≤ z then .error .notInteger else ofInt z := by
  unfold parse
  split
  · next hnil =>
    exact absurd hnil h
  · rfl

theorem parse_of_unreadable (hne : trim text.toList ≠ []) (h : Unreadable (trim text.toList)) :
    parse text = .error .notInteger := by
  rw [parse_of_ne_nil hne]
  split
  · rfl
  · next z hread =>
    rw [if_pos (h z (Numeral.integer?_eq_some_iff.mp hread))]

theorem parse_of_signed {z : Int} (h : Signed (trim text.toList) z) (hlow : -readable ≤ z)
    (hhigh : z < readable) : parse text = ofInt z := by
  rw [parse_of_ne_nil h.ne_nil, Numeral.integer?_eq_some_iff.mpr h]
  exact if_neg (by omega)

theorem judged_parse (text : String) : Judged (trim text.toList) (parse text) := by
  by_cases hnil : trim text.toList = []
  · rw [parse_of_nil hnil]
    exact Judged.missing hnil
  · by_cases hunreadable : Unreadable (trim text.toList)
    · rw [parse_of_unreadable hnil hunreadable]
      exact Judged.notInteger hnil hunreadable
    · simp only [Unreadable, not_forall, not_or, Int.not_lt, Int.not_le] at hunreadable
      rcases hunreadable with ⟨z, hz, hlow, hhigh⟩
      rw [parse_of_signed hz hlow hhigh]
      exact judged_ofInt hz hlow hhigh

theorem parse_of_judged {r : Except Refusal AgentCount} (h : Judged (trim text.toList) r) :
    parse text = r := by
  cases h with
  | missing hnil =>
      exact parse_of_nil hnil
  | notInteger hne hunreadable =>
      exact parse_of_unreadable hne hunreadable
  | notPositive hz hlow hpos =>
      have hhigh := readable_pos
      rw [parse_of_signed hz hlow (by omega), ofInt_of_not_positive hpos]
  | tooLarge hz hlarge hhigh =>
      have hlow := readable_pos
      rw [parse_of_signed hz (by omega) hhigh, ofInt_of_bound_le hlarge]
  | count n hz =>
      have hhigh := size_lt_readable n
      rw [parse_of_signed hz (by omega) hhigh, ofInt_size]

theorem parse_eq_iff {s : List Char} {r : Except Refusal AgentCount} (hs : Trims text.toList s) :
    parse text = r ↔ Judged s r := by
  rw [← trim_eq_iff.mpr hs]
  constructor
  · intro h
    rw [← h]
    exact judged_parse text
  · exact parse_of_judged

theorem read_eq_ok_iff {n : AgentCount} : read text = .ok n ↔ parse text = .ok n := by
  unfold read
  cases parse text <;> simp [Except.mapError]

theorem reason_injective : Function.Injective Refusal.reason := by
  intro r r' h
  cases r <;> cases r' <;> simp [Refusal.reason] at h ⊢

theorem read_eq_error_iff {r : Refusal} :
    read text = .error ⟨text, r.reason⟩ ↔ parse text = .error r := by
  unfold read
  cases parse text <;> simp [Except.mapError, invalid, reason_injective.eq_iff]

theorem read_cases (text : String) :
    (∃ n, read text = .ok n) ∨ ∃ r : Refusal, read text = .error ⟨text, r.reason⟩ := by
  cases hparse : parse text with
  | ok n =>
      exact Or.inl ⟨n, read_eq_ok_iff.mpr hparse⟩
  | error r =>
      exact Or.inr ⟨r, read_eq_error_iff.mpr hparse⟩

theorem exists_read_eq_ok_iff {s : List Char} (hs : Trims text.toList s) (n : Nat) :
    (∃ count, read text = .ok count ∧ count.size = n) ↔
      Unsigned s n ∧ 1 ≤ n ∧ n ≤ 2 ^ 64 - 1 := by
  simp only [read_eq_ok_iff, parse_eq_iff hs]
  constructor
  · intro h
    rcases h with ⟨count, hjudged, rfl⟩
    have hpos := count.pos
    have hfits := count.fits
    unfold bound at hfits
    cases hjudged with
    | count _ hz =>
        rcases hz.exists_unsigned (by omega) with ⟨n, hn, hdigits⟩
        rw [Int.ofNat_inj.mp hn]
        exact ⟨hdigits, by omega, by omega⟩
  · intro h
    rcases h with ⟨hdigits, hpos, hfits⟩
    have hbound : n < bound := by
      unfold bound
      omega
    exact ⟨⟨n, hpos, hbound⟩, Judged.count _ (Signed.unsigned hdigits), rfl⟩

/-- The texts of counts are the digits of the positive integers below two to the 64th, perhaps after
a plus sign and between blanks.  Any other text is refused as it stands, and a count that is written
is read back whatever blanks are put around it. -/
theorem reads_positive_integers :
    (∀ text n, (∃ count, read text = .ok count ∧ count.size = n) ↔
      ∃ s, Trims text.toList s ∧ Unsigned s n ∧ 1 ≤ n ∧ n ≤ 2 ^ 64 - 1) ∧
    (∀ text, (¬ ∃ s n, Trims text.toList s ∧ Unsigned s n ∧ 1 ≤ n ∧ n ≤ 2 ^ 64 - 1) →
      ∃ reason, read text = .error ⟨text, reason⟩) ∧
    ∀ (count : AgentCount) (before after : String), (∀ c ∈ before.toList, isBlank c = true) →
      (∀ c ∈ after.toList, isBlank c = true) →
        read (before ++ count.text ++ after) = .ok count := by
  have haccepts : ∀ text n, (∃ count, read text = .ok count ∧ count.size = n) ↔
      ∃ s, Trims text.toList s ∧ Unsigned s n ∧ 1 ≤ n ∧ n ≤ 2 ^ 64 - 1 := by
    intro text n
    constructor
    · intro h
      exact ⟨_, trims_trim _, (exists_read_eq_ok_iff (trims_trim _) n).mp h⟩
    · intro h
      rcases h with ⟨s, hs, hdigits⟩
      exact (exists_read_eq_ok_iff hs n).mpr hdigits
  refine ⟨haccepts, ?_, ?_⟩
  · intro text hnone
    rcases read_cases text with ⟨count, hread⟩ | ⟨r, hread⟩
    · rcases (haccepts text count.size).mp ⟨count, hread, rfl⟩ with ⟨s, hs⟩
      exact absurd ⟨s, count.size, hs⟩ hnone
    · exact ⟨_, hread⟩
  · intro count before after hbefore hafter
    have hdigits : Unsigned count.text.toList count.size :=
      Unsigned.plain (Numeral.digits_repr count.size)
    have htrims : Trims (before ++ count.text ++ after).toList count.text.toList := by
      rw [String.toList_append, String.toList_append]
      exact trims_of_no_blank hbefore hdigits.isBlank hafter
    exact read_eq_ok_iff.mpr ((parse_eq_iff htrims).mpr
      (Judged.count count (Signed.unsigned hdigits)))

theorem reads_positive_integers_greatest :
    let greatest : AgentCount := ⟨18446744073709551615, by decide, by decide⟩
    (∀ c ∈ "\t\u3000".toList, isBlank c = true) ∧ (∀ c ∈ " \n".toList, isBlank c = true) ∧
      read ("\t\u3000" ++ greatest.text ++ " \n") = .ok greatest ∧
      (¬ ∃ s n, Trims " +00 ".toList s ∧ Unsigned s n ∧ 1 ≤ n ∧ n ≤ 2 ^ 64 - 1) ∧
      ∃ reason, read " +00 " = .error ⟨" +00 ", reason⟩ := by
  intro greatest
  have hbefore : ∀ c ∈ "\t\u3000".toList, isBlank c = true :=
    List.all_eq_true.mp rfl
  have hafter : ∀ c ∈ " \n".toList, isBlank c = true :=
    List.all_eq_true.mp rfl
  have hzero : ¬ ∃ s n, Trims " +00 ".toList s ∧ Unsigned s n ∧ 1 ≤ n ∧ n ≤ 2 ^ 64 - 1 := by
    intro h
    rcases h with ⟨s, n, hs, hdigits, hpos, _⟩
    have hread : Numeral.integer? (trim " +00 ".toList) = some 0 := by
      decide
    rw [trim_eq_iff.mpr hs] at hread
    have hn := (Numeral.integer?_eq_some_iff.mp hread).unique (Signed.unsigned hdigits)
    omega
  exact ⟨hbefore, hafter, reads_positive_integers.2.2 greatest _ _ hbefore hafter, hzero,
    reads_positive_integers.2.1 _ hzero⟩

/-!
# Reasons

An integer that can be read is refused for what it is.  One beyond 127 binary digits cannot be read.
-/

theorem judged_missing_iff {s : List Char} : Judged s (.error .missing) ↔ s = [] := by
  constructor
  · intro h
    cases h with
    | missing hnil =>
        exact hnil
  · exact Judged.missing

theorem judged_notInteger_iff {s : List Char} :
    Judged s (.error .notInteger) ↔ s ≠ [] ∧ Unreadable s := by
  constructor
  · intro h
    cases h with
    | notInteger hne hunreadable =>
        exact ⟨hne, hunreadable⟩
  · intro h
    exact Judged.notInteger h.1 h.2

theorem judged_notPositive_iff {s : List Char} :
    Judged s (.error .notPositive) ↔ ∃ z, Signed s z ∧ -readable ≤ z ∧ z ≤ 0 := by
  constructor
  · intro h
    cases h with
    | notPositive hz hlow hpos =>
        exact ⟨_, hz, hlow, hpos⟩
  · intro h
    rcases h with ⟨z, hz, hlow, hpos⟩
    exact Judged.notPositive hz hlow hpos

theorem judged_tooLarge_iff {s : List Char} :
    Judged s (.error .tooLarge) ↔ ∃ z, Signed s z ∧ (bound : Int) ≤ z ∧ z < readable := by
  constructor
  · intro h
    cases h with
    | tooLarge hz hlarge hhigh =>
        exact ⟨_, hz, hlarge, hhigh⟩
  · intro h
    rcases h with ⟨z, hz, hlarge, hhigh⟩
    exact Judged.tooLarge hz hlarge hhigh

theorem read_eq_error_iff_judged (text : String) (r : Refusal) :
    read text = .error ⟨text, r.reason⟩ ↔ Judged (trim text.toList) (.error r) :=
  read_eq_error_iff.trans (parse_eq_iff (trims_trim _))

/-- The reason that is given for a text, by what stands between the blanks at its ends. -/
theorem reasons_of_refused (text : String) :
    ∃ s, Trims text.toList s ∧
      (read text = .error ⟨text, "missing agent count"⟩ ↔ s = []) ∧
      (read text = .error ⟨text, "expected a positive integer"⟩ ↔
        s ≠ [] ∧ ∀ z, Signed s z → z < -2 ^ 127 ∨ 2 ^ 127 ≤ z) ∧
      (read text = .error ⟨text, "agent count must be positive"⟩ ↔
        ∃ z, Signed s z ∧ -2 ^ 127 ≤ z ∧ z ≤ 0) ∧
      (read text = .error ⟨text, "agent count is too large"⟩ ↔
        ∃ z, Signed s z ∧ 2 ^ 64 ≤ z ∧ z < 2 ^ 127) := by
  have hjudged := read_eq_error_iff_judged text
  exact ⟨_, trims_trim _, (hjudged .missing).trans judged_missing_iff,
    (hjudged .notInteger).trans judged_notInteger_iff,
    (hjudged .notPositive).trans judged_notPositive_iff,
    (hjudged .tooLarge).trans judged_tooLarge_iff⟩

/-- Two to the 127th is an integer beyond every count, but it is refused as if it were none. -/
theorem integer_refused_as_none :
    let text := "170141183460469231731687303715884105728"
    Trims text.toList text.toList ∧ Signed text.toList (2 ^ 127) ∧
      read text = .error ⟨text, "expected a positive integer"⟩ ∧
      read text ≠ .error ⟨text, "agent count is too large"⟩ := by
  intro text
  have htrim : trim text.toList = text.toList := by
    decide +kernel
  have hsigned : Signed text.toList (2 ^ 127) :=
    Numeral.integer?_eq_some_iff.mp (by decide +kernel)
  have hunreadable : Unreadable text.toList := by
    intro z hz
    rw [hz.unique hsigned]
    exact Or.inr (Int.le_refl _)
  have hread : read text = .error ⟨text, Refusal.notInteger.reason⟩ := by
    rw [read_eq_error_iff_judged, htrim]
    exact Judged.notInteger hsigned.ne_nil hunreadable
  have hother : read text ≠ .error ⟨text, Refusal.tooLarge.reason⟩ := by
    rw [hread]
    simp [Refusal.reason]
  exact ⟨trim_eq_iff.mp htrim, hsigned, hread, hother⟩

end AgentCount
end GossipGames

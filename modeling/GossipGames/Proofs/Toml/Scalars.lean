import GossipGames.Proofs.Scanner
import GossipGames.Proofs.Text.Digits
import GossipGames.Proofs.Toml.Data

/-!
# Values on one line

Truth values, natural numbers and texts without escapes are read from what is written for them, at
every depth and whatever follows.
-/

namespace GossipGames
namespace Toml

/-!
# Numbers

A row of digits is neither a date nor a time, and no number of another base.
-/

section Digits

variable {s : List Char} (h : ∀ c ∈ s, c.isDigit = true)

theorem digitIn?_ten {c : Char} (h : c.isDigit = true) :
    digitIn? 10 c = some (c.toNat - '0'.toNat) := by
  have hlt : c.toNat - '0'.toNat < 10 := by
    have hrange : 48 ≤ c.toNat ∧ c.toNat ≤ 57 := Char.isDigit_iff_toNat.mp h
    show c.toNat - 48 < 10
    omega
  rw [digitIn?, hexValue?, if_pos h, Option.filter_some, if_pos (decide_eq_true hlt)]

theorem numberIn_eq_ofDigitChars (s : List Char) :
    numberIn 10 (s.map fun c => c.toNat - '0'.toNat) = Nat.ofDigitChars 10 s 0 := by
  rw [numberIn, Nat.ofDigitChars, List.foldl_map]
  simp only [Nat.mul_comm]

include h

theorem digits?_of_isDigit (hne : s ≠ []) :
    digits? (digitIn? 10) s = some (s.map fun c => c.toNat - '0'.toNat) := by
  fun_induction digits? (digitIn? 10) s with
  | case1 =>
      exact absurd rfl hne
  | case2 c =>
      rw [digitIn?_ten (h c List.mem_cons_self)]
      rfl
  | case3 c s ih =>
      exact absurd (h '_' (by simp)) (by decide)
  | case4 c s hone hunderscore ih =>
      have hrest := ih (fun d hd => h d (List.mem_cons_of_mem c hd)) (by simpa using hone)
      rw [digitIn?_ten (h c List.mem_cons_self), hrest]
      rfl

theorem afterDate?_of_isDigit : afterDate? s = none := by
  unfold afterDate?
  split
  · exact absurd (h '-' (by simp)) (by decide)
  · rfl

theorem afterTime?_of_isDigit : afterTime? s = none := by
  unfold afterTime?
  split
  · exact absurd (h ':' (by simp)) (by decide)
  · rfl

theorem based?_of_isDigit : based? s = none := by
  unfold based?
  split
  · exact absurd (h 'x' (by simp)) (by decide)
  · exact absurd (h 'o' (by simp)) (by decide)
  · exact absurd (h 'b' (by simp)) (by decide)
  · rfl

theorem signed_of_isDigit : signed s = (false, s) := by
  unfold signed
  split
  · exact absurd (h '+' (by simp)) (by decide)
  · exact absurd (h '-' (by simp)) (by decide)
  · rfl

end Digits

theorem wholeDigits?_repr (n : Nat) :
    wholeDigits? n.repr.toList = some (n.repr.toList.map fun c => c.toNat - '0'.toNat) := by
  rcases exists_digits n with ⟨c, w, hdigits, hall, hzero, -⟩
  rw [hdigits, wholeDigits?, digits?_of_isDigit hall (List.cons_ne_nil c w), Option.filter_some,
    if_pos]
  rw [decide_eq_true_eq, Classical.or_iff_not_imp_right, not_not]
  intro hhead
  have hc : c = '0' := by
    have hle : 48 ≤ c.toNat := (Char.isDigit_iff_toNat.mp (hall c List.mem_cons_self)).1
    have hsub : c.toNat - 48 = 0 := Option.some.inj hhead
    have hcode : c.toNat = '0'.toNat := Nat.le_antisymm (Nat.le_of_sub_eq_zero hsub) hle
    exact Char.toNat_inj.mp hcode
  simp [hzero hc]

theorem integer?_repr {n : Nat} (h : (n : Int) < integerBound) :
    integer? n.repr.toList = some (n : Int) := by
  have hall : ∀ c ∈ n.repr.toList, c.isDigit = true := fun c => isDigit_of_mem_repr
  have hvalue : numberIn 10 (n.repr.toList.map fun c => c.toNat - '0'.toNat) = n := by
    rcases exists_digits n with ⟨c, w, hdigits, -, -, hvalue⟩
    rw [numberIn_eq_ofDigitChars, hdigits, hvalue]
  have hbound : -integerBound ≤ (n : Int) ∧ (n : Int) < integerBound := by
    refine ⟨?_, h⟩
    unfold integerBound
    omega
  simp only [integer?, signed_of_isDigit hall, based?_of_isDigit hall, wholeDigits?_repr]
  simp only [Option.map_some, Option.map_none, Option.none_or, hvalue, withSign, Bool.false_eq_true,
    if_false, Int.ofNat_eq_natCast, Option.filter_some, decide_eq_true hbound, if_true]

theorem makes_word {w : List Char} (hne : w ≠ []) (hw : ∀ c ∈ w, isWordChar c = true) :
    word.Makes w (fun v => v = w) (Scanner.Avoids isWordChar) := by
  intro rest hrest
  rcases Scanner.exists_cons_of_avoids hne hw hrest with ⟨c, v, rfl, hc, htake, hdrop, hlt⟩
  refine ⟨c :: v, ⟨hlt, ?_⟩, rfl⟩
  simp only [List.cons_append, word, hc, if_true, htake, hdrop]

theorem makes_scalar {w : List Char} {x : Scalar} (hne : w ≠ [])
    (hw : ∀ c ∈ w, isWordChar c = true) (hdate : isDate w = false) (hx : scalar? w = some x) :
    scalar.Makes w (fun y => y = x) (Scanner.Avoids isWordChar) := by
  refine Scanner.makes_orElse_right (Scanner.makes_mapSome ?_) fun rest hrest => ?_
  · refine (makes_word hne hw).imp ?_ fun _ h => h
    rintro v rfl
    exact ⟨x, hx, rfl⟩
  · rcases makes_word hne hw rest hrest with ⟨v, ⟨hlt, hread⟩, rfl⟩
    simp [spacedMoment, Scanner.andThen, Scanner.mapSome, hread, hdate]

theorem makes_measured {make : Extent → α → β} {p : Scanner Char α} {ts : List Char} {P : β → Prop}
    {stop : List Char → Prop} (hp : p.Makes ts (fun a => ∀ e, P (make e a)) stop) :
    (measured make p).Makes ts P stop := by
  intro rest hrest
  rcases hp rest hrest with ⟨a, ⟨hlt, hread⟩, ha⟩
  exact ⟨make ⟨(ts ++ rest).length, rest.length⟩ a, ⟨hlt, by simp [measured, hread]⟩, ha _⟩

theorem measured_eq_none {make : Extent → α → β} {p : Scanner Char α} {s : List Char}
    (h : p s = none) : measured make p s = none := by
  rw [measured, h, Option.map_none]

theorem markedBlock_eq_none {mark : Char} {escapes : Bool} {s : List Char}
    (h : s.head? ≠ some mark) : markedBlock mark escapes s = none :=
  Scanner.map_eq_none (Scanner.precededBy_symbol_eq_none h)

theorem lineText_eq_none {s : List Char} (hquote : s.head? ≠ some '"')
    (hsingle : s.head? ≠ some '\'') : lineText s = none := by
  unfold lineText
  split
  · exact absurd rfl hquote
  · exact absurd rfl hsingle
  · rfl

theorem text_eq_none {s : List Char} (hquote : s.head? ≠ some '"')
    (hsingle : s.head? ≠ some '\'') : text s = none :=
  Scanner.orElse_eq_none
    (Scanner.orElse_eq_none (markedBlock_eq_none hquote) (markedBlock_eq_none hsingle))
    (lineText_eq_none hquote hsingle)

def isUnescaped (c : Char) : Bool :=
  isPlain c && c != '"' && c != '\\'

theorem isUnescaped_iff {c : Char} :
    isUnescaped c = true ↔ isPlain c = true ∧ c ≠ '"' ∧ c ≠ '\\' := by
  simp [isUnescaped, and_assoc]

theorem reads_line_cons {c : Char} {s t rest : List Char} (hc : isUnescaped c = true)
    (h : Scanner.Reads (line '"' true) t s rest) :
    Scanner.Reads (line '"' true) (c :: t) (c :: s) rest := by
  rcases isUnescaped_iff.mp hc with ⟨hplain, hquote, hbackslash⟩
  rcases h with ⟨hlt, hread⟩
  refine ⟨Nat.lt_succ_of_lt hlt, ?_⟩
  rw [line, if_neg hquote, if_neg (by simpa using hbackslash), if_pos hplain, hread]
  rfl

theorem reads_line_nil (rest : List Char) :
    Scanner.Reads (line '"' true) ('"' :: rest) [] rest := by
  refine ⟨Nat.lt_succ_self _, ?_⟩
  rw [line, if_pos rfl]
  rfl

theorem reads_line {s : List Char} (hs : ∀ c ∈ s, isUnescaped c = true) (rest : List Char) :
    Scanner.Reads (line '"' true) (s ++ '"' :: rest) s rest := by
  induction s with
  | nil =>
      exact reads_line_nil rest
  | cons c s ih =>
      exact reads_line_cons (hs c List.mem_cons_self)
        (ih fun d hd => hs d (List.mem_cons_of_mem c hd))

theorem makes_text {s : List Char} (hne : s ≠ []) (hs : ∀ c ∈ s, isUnescaped c = true) :
    text.Makes ('"' :: (s ++ ['"'])) (fun t => t = String.ofList s) fun _ => True := by
  refine Scanner.makes_orElse_right ?_ fun rest _ => ?_
  · intro rest _
    rcases reads_line hs rest with ⟨hlt, hread⟩
    rw [List.cons_append, List.append_assoc, List.singleton_append]
    exact ⟨_, ⟨Nat.lt_succ_of_lt hlt, by rw [lineText, hread]; rfl⟩, rfl⟩
  · -- The second character is no quotation mark, so there are no three of them.
    have hsecond : (s ++ ['"'] ++ rest).head? ≠ some '"' := by
      rcases List.exists_cons_of_ne_nil hne with ⟨c, w, rfl⟩
      simpa using (isUnescaped_iff.mp (hs c List.mem_cons_self)).2.1
    exact Scanner.orElse_eq_none (Scanner.map_eq_none
      (Scanner.precededBy_symbol_cons_eq_none (Scanner.precededBy_symbol_eq_none hsecond)))
      (markedBlock_eq_none (by simp))

/-!
# Values

A value that starts with neither bracket nor brace is the same at every depth.
-/

theorem makes_value {ts : List Char} {P : Value → Prop} {stop : List Char → Prop}
    (hbracket : ∀ rest, (ts ++ rest).head? ≠ some '[')
    (hbrace : ∀ rest, (ts ++ rest).head? ≠ some '\x7b') (hflat : flat.Makes ts P stop)
    (depth : Nat) : (value depth).Makes ts P stop := by
  cases depth with
  | zero =>
      exact hflat
  | succ depth =>
      refine Scanner.makes_orElse_right (Scanner.makes_orElse_right hflat fun rest _ => ?_)
        fun rest _ => ?_
      · exact Scanner.mapSome_eq_none
          (measured_eq_none (Scanner.precededBy_symbol_eq_none (hbrace rest)))
      · exact measured_eq_none (Scanner.precededBy_symbol_eq_none (hbracket rest))

/-- A value as a word: it starts with no sign of another kind of value. -/
theorem makes_value_of_scalar {w : List Char} {x : Scalar} {P : Value → Prop} (hne : w ≠ [])
    (hw : ∀ c ∈ w, isWordChar c = true) (hdate : isDate w = false) (hx : scalar? w = some x)
    (hP : ∀ e, P (ofScalar e x)) (depth : Nat) :
    (value depth).Makes w P (Scanner.Avoids isWordChar) := by
  have hhead : ∀ c rest, isWordChar c = false → (w ++ rest).head? ≠ some c := by
    intro c rest hc hhead
    rw [List.head?_append_of_ne_nil _ hne] at hhead
    rw [hw c (List.mem_of_mem_head? hhead)] at hc
    cases hc
  refine makes_value (fun rest => hhead _ rest (by decide)) (fun rest => hhead _ rest (by decide))
    (Scanner.makes_orElse_right (makes_measured ?_) fun rest _ => measured_eq_none
      (text_eq_none (hhead _ rest (by decide)) (hhead _ rest (by decide)))) depth
  refine (makes_scalar hne hw hdate hx).imp ?_ fun _ h => h
  rintro y rfl e
  exact hP e

/-- What is written for a value: a truth value by its name, a number by its digits, and a text
between quotation marks. -/
inductive Literal : List Char → Datum → Prop where
  | boolean (b : Bool) : Literal (toString b).toList (.boolean b)
  | natural {n : Nat} : (n : Int) < integerBound → Literal n.repr.toList (.integer n)
  | text {s : List Char} : s ≠ [] → (∀ c ∈ s, isUnescaped c = true) →
      Literal ('"' :: (s ++ ['"'])) (.text (String.ofList s))

theorem scalar?_toString (b : Bool) : scalar? (toString b).toList = some (.boolean b) := by
  cases b with
  | false =>
      have hword : (toString false).toList = ['f', 'a', 'l', 's', 'e'] := by
        decide
      rw [hword, scalar?, if_neg (by decide), if_pos rfl]
  | true =>
      have hword : (toString true).toList = ['t', 'r', 'u', 'e'] := by
        decide
      rw [hword, scalar?, if_pos rfl]

theorem scalar?_repr {n : Nat} (h : (n : Int) < integerBound) :
    isDate n.repr.toList = false ∧ scalar? n.repr.toList = some (.integer n) := by
  have hall : ∀ c ∈ n.repr.toList, c.isDigit = true := fun c => isDigit_of_mem_repr
  have hword : ∀ c w, c.isDigit = false → n.repr.toList ≠ c :: w := by
    intro c w hc heq
    rw [hall c (heq ▸ List.mem_cons_self)] at hc
    cases hc
  have hmoment : isMoment n.repr.toList = false := by
    rw [isMoment, afterDate?_of_isDigit hall, afterTime?_of_isDigit hall]
    rfl
  refine ⟨by rw [isDate, afterDate?_of_isDigit hall]; rfl, ?_⟩
  rw [scalar?, if_neg (hword 't' _ (by decide)), if_neg (hword 'f' _ (by decide)), hmoment,
    if_neg Bool.false_ne_true, integer?_repr h]
  rfl

theorem Literal.makes {ts : List Char} {d : Datum} (h : Literal ts d) (depth : Nat) :
    (value depth).Makes ts (fun v => v.datum = d) (Scanner.Avoids isWordChar) := by
  cases h with
  | boolean b =>
      have hword : ∀ c ∈ (toString b).toList, isWordChar c = true := by
        cases b <;> exact List.all_eq_true.mp (by decide)
      have hdate : isDate (toString b).toList = false := by
        cases b <;> decide
      refine makes_value_of_scalar ?_ hword hdate (scalar?_toString b) (fun _ => rfl) depth
      cases b <;> decide
  | @natural n hn =>
      have hall : ∀ c ∈ n.repr.toList, c.isDigit = true := fun c => isDigit_of_mem_repr
      rcases exists_digits n with ⟨c, w, hdigits, -⟩
      refine makes_value_of_scalar (by rw [hdigits]; exact List.cons_ne_nil c w) ?_
        (scalar?_repr hn).1 (scalar?_repr hn).2 (fun _ => rfl) depth
      intro d hd
      simp [isWordChar, Char.isAlphanum, hall d hd]
  | text hne hs =>
      refine makes_value (by simp) (by simp) (Scanner.makes_orElse_left (makes_measured ?_)) depth
      refine (makes_text hne hs).imp ?_ fun _ _ => trivial
      rintro t rfl e
      rfl

end Toml
end GossipGames

import GossipGames.Proofs.Guard.Writing
import Mathlib.Algebra.Ring.Parity

/-!
# Chains of guards

Texts of guards can be put into parentheses, negated any number of times and joined by the sign of a
connective.  The text that arises is a guard, and what it says depends on the values of the parts
alone: a chain of exclusive disjunctions counts the parts that hold, a chain of equivalences those
that fail.
-/

namespace GossipGames
namespace Guard

/-- What a chain of parts with these values says. -/
def Connective.Holds : Connective → List Bool → Prop
  | iff, values => Even (values.count false)
  | implies, values => ¬ ((∀ v ∈ values.dropLast, v = true) ∧ values.getLast? = some false)
  | xor, values => Odd (values.count true)
  | or, values => ∃ v ∈ values, v = true
  | and, values => ∀ v ∈ values, v = true

theorem odd_count_xor (a b : Bool) (values : List Bool) :
    Odd (((a != b) :: values).count true) ↔ Odd ((a :: b :: values).count true) := by
  cases a <;> cases b <;> simp [Nat.odd_add_one]

theorem even_count_iff (a b : Bool) (values : List Bool) :
    Even (((a == b) :: values).count false) ↔ Even ((a :: b :: values).count false) := by
  cases a <;> cases b <;> simp [Nat.even_add_one]

theorem eval_join_xor (truth : String → Bool) (g : Guard) (gs : List Guard) :
    (Connective.xor.join g gs).eval truth = true ↔
      Odd (((g :: gs).map (eval truth)).count true) := by
  rw [Connective.join]
  induction gs generalizing g with
  | nil =>
      cases hg : g.eval truth <;> simp [hg]
  | cons h gs ih =>
      rw [List.foldl_cons, ih, List.map_cons, eval, odd_count_xor]
      rfl

theorem eval_join_iff (truth : String → Bool) (g : Guard) (gs : List Guard) :
    (Connective.iff.join g gs).eval truth = true ↔
      Even (((g :: gs).map (eval truth)).count false) := by
  rw [Connective.join]
  induction gs generalizing g with
  | nil =>
      cases hg : g.eval truth <;> simp [hg]
  | cons h gs ih =>
      rw [List.foldl_cons, ih, List.map_cons, eval, even_count_iff]
      rfl

theorem eval_join_implies (truth : String → Bool) (g : Guard) (gs : List Guard) :
    (Connective.implies.join g gs).eval truth = true ↔
      Connective.implies.Holds ((g :: gs).map (eval truth)) := by
  induction gs generalizing g with
  | nil =>
      cases hg : g.eval truth <;> simp [Connective.join, Connective.Holds, hg]
  | cons h gs ih =>
      rw [Connective.join, eval, Bool.or_eq_true, ih h]
      cases hg : g.eval truth <;> simp [Connective.Holds, hg]

theorem eval_join (c : Connective) (truth : String → Bool) (g : Guard) (gs : List Guard) :
    (c.join g gs).eval truth = true ↔ c.Holds ((g :: gs).map (eval truth)) := by
  cases c with
  | iff =>
      exact eval_join_iff truth g gs
  | implies =>
      exact eval_join_implies truth g gs
  | xor =>
      exact eval_join_xor truth g gs
  | or =>
      rw [eval_join_or]
      simp [Connective.Holds]
  | and =>
      rw [eval_join_and]
      simp [Connective.Holds]

theorem writtenAs_of_parse {text : String} {g : Guard} (h : parse text = .ok g) :
    WrittenAs text Phrase.iff g := by
  rcases parse_eq_ok_iff.mp h with ⟨ts, hlexemes, hderives⟩
  exact ⟨ts, spells_of_lexemes hlexemes, hderives⟩

theorem writtenAs_parenthesised {text : String} {g : Guard} (h : parse text = .ok g) (ph : Phrase) :
    WrittenAs ("(" ++ text ++ ")") ph g := by
  have htightest : ph.rank ≤ Phrase.atom.rank := by
    cases ph <;> decide
  exact (writtenAs_paren (writtenAs_of_parse h)).looser htightest

theorem Connective.exists_chain (c : Connective) :
    ∃ ph below : Phrase, ph.chain? = some (c, below) := by
  cases c with
  | iff =>
      exact ⟨Phrase.iff, _, rfl⟩
  | implies =>
      exact ⟨Phrase.implies, _, rfl⟩
  | xor =>
      exact ⟨Phrase.xor, _, rfl⟩
  | or =>
      exact ⟨Phrase.or, _, rfl⟩
  | and =>
      exact ⟨Phrase.and, _, rfl⟩

theorem parse_chain {c : Connective} {sep : String}
    (hsep : Separates sep.toList (Token.connective c)) {part : String × Guard}
    {parts : List (String × Guard)} (h : ∀ q ∈ part :: parts, parse q.1 = .ok q.2) :
    parse (sep.intercalate ((part :: parts).map fun q => "(" ++ q.1 ++ ")")) =
      .ok (c.join part.2 (parts.map Prod.snd)) := by
  rcases c.exists_chain with ⟨ph, below, hchain⟩
  have hparts : ∀ q ∈ part :: parts, WrittenAs ("(" ++ q.1 ++ ")") below q.2 :=
    fun q hq => writtenAs_parenthesised (h q hq) below
  exact parse_of_writtenAs (writtenAs_chain hchain hsep hparts)

def negations (k : Nat) : String :=
  String.ofList (List.replicate k '!')

theorem writtenAs_negations {w : String} {g : Guard} (h : WrittenAs w Phrase.unary g) (k : Nat) :
    WrittenAs (negations k ++ w) Phrase.unary (Guard.not^[k] g) := by
  induction k with
  | zero =>
      exact h
  | succ k ih =>
      have hfirst : negations (k + 1) ++ w = "!" ++ (negations k ++ w) := by
        simp [negations, List.replicate_succ, String.ofList_cons, String.append_assoc]
      rw [hfirst, Function.iterate_succ_apply']
      exact writtenAs_not ih

theorem eval_negations (truth : String → Bool) (g : Guard) (k : Nat) :
    (Guard.not^[k] g).eval truth = Bool.not^[k] (g.eval truth) := by
  induction k with
  | zero =>
      rfl
  | succ k ih =>
      rw [Function.iterate_succ_apply', Function.iterate_succ_apply', eval, ih]

/-- Texts of guards, each in parentheses, form a guard with the sign of any connective between them
and any blanks around the signs.  It says of the values of the parts what the connective says of a
chain.  A single text in parentheses is the same guard, and signs of negation in front of it negate
its value as often as they occur. -/
theorem chains_and_negations_of_parse :
    (∀ (c : Connective) (before after : String) (parts : List (String × Guard)),
      (∀ d ∈ before.toList, Lexer.isSkipped d = true) →
      (∀ d ∈ after.toList, Lexer.isSkipped d = true) →
      2 ≤ parts.length → (∀ q ∈ parts, parse q.1 = .ok q.2) →
        ∃ g, parse ((before ++ c.spelling ++ after).intercalate
            (parts.map fun q => "(" ++ q.1 ++ ")")) = .ok g ∧
          ∀ truth, g.eval truth = true ↔ c.Holds (parts.map fun q => q.2.eval truth)) ∧
    ∀ text g, parse text = .ok g →
      parse ("(" ++ text ++ ")") = .ok g ∧
        ∀ k, ∃ h, parse (negations k ++ ("(" ++ text ++ ")")) = .ok h ∧
          ∀ truth, h.eval truth = Bool.not^[k] (g.eval truth) := by
  constructor
  · intro c before after parts hbefore hafter hlength hparts
    match parts with
    | part :: parts =>
        have hparse := parse_chain (separates_between hbefore hafter c) hparts
        refine ⟨_, hparse, fun truth => ?_⟩
        rw [eval_join, List.map_cons, List.map_map]
        rfl
  · intro text g h
    have hwritten := writtenAs_parenthesised h Phrase.unary
    constructor
    · exact parse_of_writtenAs hwritten
    · intro k
      exact ⟨_, parse_of_writtenAs (writtenAs_negations hwritten k),
        fun truth => eval_negations truth g k⟩

theorem chains_and_negations_of_three :
    let parts := [("a -> b", Guard.implies (var "a") (var "b")), ("! c", Guard.not (var "c")),
      ("a", var "a")]
    (∀ d ∈ "".toList, Lexer.isSkipped d = true) ∧ (∀ d ∈ "\n ".toList, Lexer.isSkipped d = true) ∧
      (∀ q ∈ parts, parse q.1 = .ok q.2) ∧
      (∃ g, parse "(a -> b)->\n (! c)->\n (a)" = .ok g ∧ ∀ truth,
        g.eval truth = true ↔ Connective.implies.Holds (parts.map fun q => q.2.eval truth)) ∧
      ∃ h, parse "!!!(a -> b)" = .ok h ∧
        ∀ truth, h.eval truth = Bool.not^[3] ((Guard.implies (var "a") (var "b")).eval truth) := by
  intro parts
  have hbefore : ∀ d ∈ "".toList, Lexer.isSkipped d = true :=
    List.all_eq_true.mp rfl
  have hafter : ∀ d ∈ "\n ".toList, Lexer.isSkipped d = true :=
    List.all_eq_true.mp rfl
  have hparts : ∀ q ∈ parts, parse q.1 = .ok q.2 := by
    decide +kernel
  have hchain := chains_and_negations_of_parse.1 Connective.implies "" "\n " parts hbefore hafter
    (by decide) hparts
  have hnegated := (chains_and_negations_of_parse.2 _ _ (hparts _ List.mem_cons_self)).2 3
  exact ⟨hbefore, hafter, hparts, hchain, hnegated⟩

end Guard
end GossipGames

import GossipGames.Gossip.Basic
import GossipGames.Proofs.Guard.Joined

/-!
# The guards of a gossip game

Every agent waits under the conjunction of the negated propositions of the others and goes back
under the disjunction of these propositions.
-/

namespace GossipGames

namespace AgentCount

@[simp]
theorem mem_indices {n : AgentCount} {i : Nat} : i ∈ n.indices ↔ 1 ≤ i ∧ i ≤ n.size := by
  rw [indices, List.mem_range'_1]
  omega

@[simp]
theorem mem_others {n : AgentCount} {i j : Nat} :
    j ∈ n.others i ↔ (1 ≤ j ∧ j ≤ n.size) ∧ j ≠ i := by
  simp [others]

theorem others_eq_nil_iff {n : AgentCount} {i : Nat} (hi : i ∈ n.indices) :
    n.others i = [] ↔ n.size = 1 := by
  rw [mem_indices] at hi
  rw [List.eq_nil_iff_forall_not_mem]
  simp only [mem_others]
  constructor
  · intro h
    have hone := h 1
    have htwo := h 2
    omega
  · intro h j hj
    omega

end AgentCount

namespace Gossip

open Guard (Token Spells)

theorem append_toString_injective (stem : String) :
    Function.Injective fun i : Nat => stem ++ toString i := by
  intro i j h
  have hdigits : Nat.toDigits 10 i = Nat.toDigits 10 j := by
    simpa using congrArg String.toList h
  simpa using congrArg (fun digits => Nat.ofDigitChars 10 digits 0) hdigits

theorem toList_proposition (i : Nat) : (proposition i).toList = 'g' :: Nat.toDigits 10 i := by
  simp [proposition]

theorem word_proposition (i : Nat) :
    Guard.Lexer.word (proposition i).toList = Token.name (proposition i) := by
  rw [Guard.Lexer.word, toList_proposition, if_neg (by simp), if_neg (by simp),
    ← toList_proposition, String.ofList_toList]

theorem spells_proposition (i : Nat) :
    Spells (proposition i).toList [Token.name (proposition i)] := by
  have hdigits : ∀ c ∈ Nat.toDigits 10 i, Guard.Lexer.isNameChar c = true := by
    intro c hc
    have hdigit : c.isDigit = true :=
      Nat.isDigit_of_mem_toDigits (by decide) (by decide) hc
    simp [Guard.Lexer.isNameChar, Char.isAlphanum, hdigit]
  rw [← word_proposition, toList_proposition]
  exact Guard.spells_word rfl hdigits

theorem spells_negated_proposition (i : Nat) :
    Spells ("!" ++ proposition i).toList [Token.negation, Token.name (proposition i)] := by
  rw [String.toList_append]
  exact Guard.spells_negation (spells_proposition i)

theorem writtenAs_proposition (i : Nat) :
    Guard.WrittenAs (proposition i) Guard.Phrase.atom (Guard.var (proposition i)) :=
  ⟨_, spells_proposition i, Guard.Derives.atomName _⟩

theorem writtenAs_negated_proposition (i : Nat) :
    Guard.WrittenAs ("!" ++ proposition i) Guard.Phrase.unary
      (Guard.not (Guard.var (proposition i))) :=
  ⟨_, spells_negated_proposition i,
    Guard.Derives.unaryNot (Guard.Derives.unaryAtom (Guard.Derives.atomName _))⟩

theorem parse_nobodyElse {n : AgentCount} {i : Nat} (h : n.others i ≠ []) :
    ∃ g, Guard.parse (nobodyElse n i) = .ok g ∧ g.leaves = (n.others i).map proposition ∧
      ∀ truth, g.eval truth = (n.others i).all fun j => !truth (proposition j) := by
  rcases List.exists_cons_of_ne_nil h with ⟨j, js, hothers⟩
  have hchain : Guard.Phrase.and.chain? = some (Guard.Connective.and, Guard.Phrase.unary) := rfl
  have hwritten : Guard.WrittenAs (" & ".intercalate ((j :: js).map fun k => "!" ++ proposition k))
      Guard.Phrase.and _ :=
    Guard.writtenAs_chain hchain Guard.separates_and fun k _ => writtenAs_negated_proposition k
  have hparse := Guard.parse_of_writtenAs hwritten
  refine ⟨_, by rw [nobodyElse, hothers]; exact hparse, ?_, ?_⟩
  · rw [Guard.leaves_join, hothers, List.map_eq_flatMap (f := proposition)]
    simp [Guard.leaves, List.flatMap_map]
  · intro truth
    rw [Guard.eval_join_and, hothers]
    simp [Guard.eval, List.all_map, Function.comp_def]

theorem parse_somebodyElse {n : AgentCount} {i : Nat} (h : n.others i ≠ []) :
    ∃ g, Guard.parse (somebodyElse n i) = .ok g ∧ g.leaves = (n.others i).map proposition ∧
      ∀ truth, g.eval truth = (n.others i).any fun j => truth (proposition j) := by
  rcases List.exists_cons_of_ne_nil h with ⟨j, js, hothers⟩
  have hchain : Guard.Phrase.or.chain? = some (Guard.Connective.or, Guard.Phrase.and) := rfl
  have hwritten : Guard.WrittenAs (" | ".intercalate ((j :: js).map proposition))
      Guard.Phrase.or _ :=
    Guard.writtenAs_chain hchain Guard.separates_or
      fun k _ => (writtenAs_proposition k).looser (by decide)
  have hparse := Guard.parse_of_writtenAs hwritten
  refine ⟨_, by rw [somebodyElse, hothers]; exact hparse, ?_, ?_⟩
  · rw [Guard.leaves_join, hothers, List.map_eq_flatMap (f := proposition)]
    simp [Guard.leaves, List.flatMap_map]
  · intro truth
    rw [Guard.eval_join_or, hothers]
    simp [Guard.eval, List.any_map, Function.comp_def]

end Gossip
end GossipGames

import GossipGames.Proofs.Gossip.Names
import GossipGames.Proofs.Lint.Decision

/-!
# Gossip games are sound

A game of two or more agents keeps every rule.  A single agent has nobody to wait for, so both of
its guards in the second state are empty, and nothing else is wrong with its game.
-/

namespace GossipGames
namespace Gossip

open Guard (Token Lexeme)
open Lint

variable {n : AgentCount} {i limit : Nat} {declared : List String}

theorem lexemes_operator {c : Char} (hc : Guard.Lexer.isNameStart c = true) (s : List Char) :
    Guard.lexemes (c :: ' ' :: s) = Lexeme.token (Guard.Lexer.word [c]) :: Guard.lexemes s := by
  have hends : Guard.EndsWord (' ' :: s) := Guard.endsWord_cons rfl s
  have hword := Guard.lexemes_word (w := []) hc (by simp) hends
  rwa [List.nil_append, Guard.lexemes_space] at hword

theorem lexemes_agent_goal (n : AgentCount) (i : Nat) :
    (Guard.lex (agent n i).goal).map Guard.Piece.lexeme =
      [Token.name "G", Token.name "F", Token.name (proposition i)].map Lexeme.token := by
  show Guard.lexemes ("G F " ++ proposition i).toList = _
  rw [String.toList_append]
  show Guard.lexemes ('G' :: ' ' :: 'F' :: ' ' :: (proposition i).toList) = _
  rw [lexemes_operator rfl, lexemes_operator rfl, Guard.lexemes_of_spells (spells_proposition i)]
  rfl

theorem lexemes_build_goal (n : AgentCount) :
    (Guard.lex (build n).goal).map Guard.Piece.lexeme =
      (Token.name "F" :: Token.name "G" :: Token.openParen ::
        ([Token.connective Guard.Connective.and].intercalate
          (n.indices.map fun i => [Token.name (proposition i)]) ++
            [Token.closeParen])).map Lexeme.token := by
  have hall := Guard.spells_intercalate Guard.separates_and spells_proposition n.indices
    [')'] (Guard.endsWord_cons rfl [])
  show Guard.lexemes
    ("F G (" ++ " & ".intercalate (n.indices.map proposition) ++ ")").toList = _
  rw [String.toList_append, String.toList_append, List.append_assoc]
  show Guard.lexemes ('F' :: ' ' :: 'G' :: ' ' :: '(' ::
    ((" & ".intercalate (n.indices.map proposition)).toList ++ [')'])) = _
  rw [lexemes_operator rfl, lexemes_operator rfl, Guard.lexemes_openParen, hall]
  have hF : Guard.Lexer.word ['F'] = Token.name "F" := rfl
  have hG : Guard.Lexer.word ['G'] = Token.name "G" := rfl
  simp [hF, hG]

theorem goalSound_agent (hi : proposition i ∈ declared) :
    GoalSound declared (agent n i).goal := by
  intro name hname
  rw [lexemes_agent_goal] at hname
  simp only [List.map_cons, List.map_nil, List.mem_cons, Lexeme.token.injEq, Token.name.injEq,
    List.not_mem_nil, or_false] at hname
  rcases hname with rfl | rfl | rfl
  · exact Or.inr (by decide)
  · exact Or.inr (by decide)
  · exact Or.inl hi

theorem goalSound_build (n : AgentCount) : GoalSound (build n).propositions (build n).goal := by
  intro name hname
  rw [lexemes_build_goal] at hname
  rcases List.mem_map.mp hname with ⟨t, ht, heq⟩
  cases heq
  simp only [List.mem_cons, List.mem_append, Token.name.injEq, reduceCtorEq, List.not_mem_nil,
    or_false, false_or] at ht
  rcases ht with rfl | rfl | hjoined
  · exact Or.inr (by decide)
  · exact Or.inr (by decide)
  · rcases Guard.mem_or_exists_of_mem_intercalate hjoined with hsign | ⟨part, hpart, hmem⟩
    · simp at hsign
    · rcases List.mem_map.mp hpart with ⟨i, hi, rfl⟩
      simp only [List.mem_singleton, Token.name.injEq] at hmem
      exact Or.inl (hmem ▸ List.mem_map_of_mem hi)

/-!
# States

Both states name existing targets and give each of their actions one target.
-/

theorem not_overlaps {s : State} {m : Module} {truth : String → Bool} {action : String}
    (hwildcard : ∀ t ∈ s.transitions, t.action ≠ "*")
    (hone : ∀ t ∈ s.transitions, ∀ u ∈ s.transitions, t.action = u.action → t.target = u.target) :
    ¬ s.Overlaps m truth action := by
  intro h
  rcases h with ⟨t, ht, u, hu, htarget, _, _, htstands, hustands⟩
  have haction : ∀ v ∈ s.transitions, v.StandsFor m action → v.action = action := by
    intro v hv hstands
    rcases hstands with hsame | hany
    · exact hsame.2
    · exact absurd hany.1 (hwildcard v hv)
  exact htarget (hone t ht u hu ((haction t ht htstands).trans (haction u hu hustands).symm))

theorem exists_state_idle (n : AgentCount) (i : Nat) :
    ∃ s, (idleState, s) ∈ (agent n i).states :=
  ⟨idle, List.mem_cons_self⟩

theorem exists_state_signal (n : AgentCount) (i : Nat) :
    ∃ s, (signalState, s) ∈ (agent n i).states :=
  ⟨signal n i, List.mem_cons_of_mem _ List.mem_cons_self⟩

theorem parse_true : Guard.parse "true" = .ok (Guard.const true) := by
  have hname : ∀ c ∈ ['r', 'u', 'e'], Guard.Lexer.isNameChar c = true := by
    intro c hc
    simp only [List.mem_cons, List.not_mem_nil, or_false] at hc
    rcases hc with rfl | rfl | rfl <;> rfl
  have hlexemes : Guard.lexemes ['t', 'r', 'u', 'e'] = [Token.const true].map Lexeme.token :=
    Guard.lexemes_of_spells (Guard.spells_word rfl hname)
  exact Guard.parse_eq_ok_iff.mpr
    ⟨_, hlexemes, Guard.derives_iff (Guard.Derives.atomConst true)⟩

theorem stateSound_idle (n : AgentCount) (i : Nat) :
    StateSound declared limit (agent n i) idle where
  labels := by
    intro l hl
    cases hl
  transitions := by
    have hguard : GuardSound declared "true" :=
      ⟨_, parse_true, by simp [Guard.leaves]⟩
    intro t ht
    simp only [idle, List.mem_cons, List.not_mem_nil, or_false] at ht
    rcases ht with rfl | rfl
    · exact ⟨Or.inr (by simp [agent, actions]), exists_state_idle n i, hguard⟩
    · exact ⟨Or.inr (by simp [agent, actions]), exists_state_signal n i, hguard⟩
  complete := by
    intro _ _ truth
    exact ⟨⟨"a", "true", idleState⟩, List.mem_cons_self, Guard.const true, parse_true, rfl⟩
  deterministic := by
    intro _ _ truth action
    exact not_overlaps (by simp [idle]) (by simp [idle])

theorem guardSound_of_leaves {text : String} {g : Guard} (hparse : Guard.parse text = .ok g)
    (hleaves : g.leaves = (n.others i).map proposition) :
    GuardSound (build n).propositions text := by
  refine ⟨g, hparse, ?_⟩
  intro p hp
  rw [hleaves] at hp
  rcases List.mem_map.mp hp with ⟨j, hj, rfl⟩
  exact List.mem_map_of_mem (List.mem_of_mem_filter hj)

theorem guardSound_nobodyElse (hothers : n.others i ≠ []) :
    GuardSound (build n).propositions (nobodyElse n i) := by
  rcases parse_nobodyElse hothers with ⟨g, hparse, hleaves, _⟩
  exact guardSound_of_leaves hparse hleaves

theorem guardSound_somebodyElse (hothers : n.others i ≠ []) :
    GuardSound (build n).propositions (somebodyElse n i) := by
  rcases parse_somebodyElse hothers with ⟨g, hparse, hleaves, _⟩
  exact guardSound_of_leaves hparse hleaves

theorem exists_enabled_signal (hothers : n.others i ≠ []) (truth : String → Bool) :
    ∃ t ∈ (signal n i).transitions, t.Enabled truth := by
  rcases parse_nobodyElse hothers with ⟨wait, hwait, _, hwaitEval⟩
  rcases parse_somebodyElse hothers with ⟨back, hback, _, hbackEval⟩
  cases hsignals : back.eval truth with
  | true =>
      exact ⟨⟨"g", somebodyElse n i, idleState⟩, by simp [signal], back, hback, hsignals⟩
  | false =>
      have hnobody : wait.eval truth = true := by
        rw [hwaitEval]
        rw [hbackEval, List.any_eq_false] at hsignals
        simpa using hsignals
      exact ⟨⟨"w", nobodyElse n i, signalState⟩, by simp [signal], wait, hwait, hnobody⟩

theorem stateSound_signal (hothers : n.others i ≠ []) :
    StateSound (build n).propositions limit (agent n i) (signal n i) where
  labels := by
    intro l hl
    exact hl
  transitions := by
    intro t ht
    simp only [signal, List.mem_cons, List.not_mem_nil, or_false] at ht
    rcases ht with rfl | rfl
    · exact ⟨Or.inr (by simp [agent, actions]), exists_state_signal n i,
        guardSound_nobodyElse hothers⟩
    · exact ⟨Or.inr (by simp [agent, actions]), exists_state_idle n i,
        guardSound_somebodyElse hothers⟩
  complete := by
    intro _ _ truth
    exact exists_enabled_signal hothers truth
  deterministic := by
    intro _ _ truth action
    exact not_overlaps (by simp [signal]) (by simp [signal])

/-!
# A single agent

Nobody else is there, so no operand is joined and the guards are empty.
-/

theorem guardDefects_empty : guardDefects declared "" = [Defect.emptyGuard] :=
  rfl

theorem transitionDefects_eq_guardDefects {m : Module} {t : Transition}
    (haction : t.action ∈ m.actions) (htarget : ∃ s, (t.target, s) ∈ m.states) :
    transitionDefects declared m t = guardDefects declared t.guard := by
  rw [transitionDefects, if_pos (Or.inr (hasAction_iff.mpr haction)),
    if_pos (hasState_iff.mpr htarget)]
  rfl

theorem checkState_signal_alone (location : String) (hothers : n.others i = []) :
    checkState declared limit (agent n i) location (signal n i) =
      [⟨location ++ "/w#0", Defect.emptyGuard⟩, ⟨location ++ "/g#1", Defect.emptyGuard⟩] := by
  have hwait : nobodyElse n i = "" := by
    simp [nobodyElse, hothers]
  have hback : somebodyElse n i = "" := by
    simp [somebodyElse, hothers]
  have hlabels : labelDefects (agent n i) (signal n i) = [] :=
    labelDefects_eq_nil_iff.mpr fun _ hl => hl
  have hcoverage : coverageDefects declared limit (agent n i) (signal n i) = [] := by
    simp only [coverageDefects, signal, hwait]
    rfl
  have hfirst : transitionDefects declared (agent n i) ⟨"w", "", signalState⟩ =
      [Defect.emptyGuard] := by
    rw [transitionDefects_eq_guardDefects (by simp [agent, actions]) (exists_state_signal n i)]
    exact guardDefects_empty
  have hsecond : transitionDefects declared (agent n i) ⟨"g", "", idleState⟩ =
      [Defect.emptyGuard] := by
    rw [transitionDefects_eq_guardDefects (by simp [agent, actions]) (exists_state_idle n i)]
    exact guardDefects_empty
  have hzero : Nat.repr 0 = "0" := rfl
  have hone : Nat.repr 1 = "1" := rfl
  rw [checkState, hlabels, hcoverage]
  simp [checkTransitions, signal, hwait, hback, hfirst, hsecond, findingsAt, transitionLocation,
    String.append_assoc, hzero, hone]

theorem moduleDefects_agent (hi : i ∈ n.indices) :
    moduleDefects (build n).propositions (agent n i) = [] := by
  have hown : proposition i ∈ (build n).propositions := List.mem_map_of_mem hi
  refine moduleDefects_eq_nil_iff.mpr ⟨goalSound_agent hown, ?_, ?_, exists_state_idle n i⟩
  · simp [agent]
  · intro l hl
    rcases List.mem_singleton.mp hl with rfl
    exact hown

theorem checkModule_agent (hi : i ∈ n.indices) :
    checkModule (build n).propositions limit (moduleName i) (agent n i) =
      checkState (build n).propositions limit (agent n i)
        (moduleName i ++ "/" ++ signalState) (signal n i) := by
  have hidle : ∀ location, checkState (build n).propositions limit (agent n i) location idle = [] :=
    fun location => checkState_eq_nil_iff.mpr (stateSound_idle n i)
  rw [checkModule, moduleDefects_agent hi]
  show [] ++ (checkState _ _ _ _ idle ++ (checkState _ _ _ _ (signal n i) ++ [])) = _
  rw [hidle, List.nil_append, List.nil_append, List.append_nil]

theorem check_build_eq_flatMap (o : Options) (n : AgentCount) :
    check o (build n) = n.indices.flatMap fun i =>
      checkModule (build n).propositions o.maxEnumerated (moduleName i) (agent n i) := by
  have hdeclared : repeated [] (build n).propositions = [] :=
    repeated_eq_nil_iff.mpr ⟨nodup_propositions n, by simp⟩
  have hgoal : goalDefects (build n).propositions (build n).goal = [] :=
    goalDefects_eq_nil_iff.mpr (goalSound_build n)
  rw [check, hdeclared, hgoal]
  exact List.flatMap_map _ _ _

theorem check_build_alone (o : Options) (h : n.size = 1) :
    check o (build n) =
      [⟨"A1/s2/w#0", Defect.emptyGuard⟩, ⟨"A1/s2/g#1", Defect.emptyGuard⟩] := by
  have hindices : n.indices = [1] := by
    rw [AgentCount.indices, h]
    rfl
  have hself : 1 ∈ n.indices := by
    simp [hindices]
  have hothers : n.others 1 = [] :=
    (AgentCount.others_eq_nil_iff hself).mpr h
  rw [check_build_eq_flatMap, hindices, List.flatMap_singleton, checkModule_agent hself,
    checkState_signal_alone _ hothers]
  rfl

theorem check_build_several (o : Options) (h : n.size ≠ 1) : check o (build n) = [] := by
  rw [check_build_eq_flatMap, List.flatMap_eq_nil_iff]
  intro i hi
  have hothers : n.others i ≠ [] := by
    intro hnil
    exact h ((AgentCount.others_eq_nil_iff hi).mp hnil)
  rw [checkModule_agent hi]
  exact checkState_eq_nil_iff.mpr (stateSound_signal hothers)

/-- The game of two or more agents is sound whatever the limit is.  The one of a single agent has
two empty guards. -/
theorem check_build_eq (o : Options) (n : AgentCount) :
    check o (build n) =
        (if n.size = 1 then
          [⟨"A1/s2/w#0", Defect.emptyGuard⟩, ⟨"A1/s2/g#1", Defect.emptyGuard⟩]
        else []) ∧
      ∀ f ∈ check o (build n), f.category = Category.guard ∧ f.defect.diagnostic? = none := by
  by_cases h : n.size = 1
  · rw [if_pos h, check_build_alone o h]
    refine ⟨rfl, ?_⟩
    intro f hf
    rw [List.mem_cons, List.mem_singleton] at hf
    rcases hf with rfl | rfl
    · exact ⟨rfl, rfl⟩
    · exact ⟨rfl, rfl⟩
  · rw [if_neg h, check_build_several o h]
    refine ⟨rfl, ?_⟩
    intro f hf
    cases hf

end Gossip
end GossipGames

import GossipGames.Proofs.Guard.Operands

/-!
# The furthest failure of the parser

The parser tries one token after the other, goes back behind a sign that no operand follows, and
remembers where it failed the furthest.  This is where the tokens can go on no more, and what it
tried there is what could have come.
-/

namespace GossipGames
namespace Guard

open Attempt
open Failure (Names)
open Scanner (Row)

/-!
# Chains

What an operand of the next level leaves starts with the sign of the chain, and then the rest of the
chain is shorter, or it does not, and then the chain ends here.
-/

section Chain

variable {R : List Token → Guard → Prop} {p : Attempt Token Expectation Guard} {c : Connective}
  {cs : List Connective} {us more rest : List Token} {g : Guard}

theorem reading_chain_last {f : Option (Failure Expectation)} (hother : c ∉ cs) (hus : R us g)
    (hstops : Stops cs rest) (hreads : p.Reads (us ++ rest) g rest f)
    (hnames : Names rest.length (signs cs) f) (hsign : rest.head? ≠ some (Token.connective c)) :
    Reading (Row (Token.connective c) R) (c :: cs)
      (Attempt.chain (sign (Token.connective c)) p) (us ++ rest) := by
  have hone := hreads.chain_one (refuses_sign hsign)
  have hnew : ∀ e ∈ [Expectation.token (Token.connective c)], e ∉ signs cs := by
    simp only [List.forall_mem_singleton, signs, List.mem_map, List.mem_reverse]
    intro hsame
    rcases hsame with ⟨d, hd, heq⟩
    cases heq
    exact hother hd
  rw [hnames.after_here hnew] at hone
  have hexpected : signs (c :: cs) = signs cs ++ [Expectation.token (Token.connective c)] := by
    simp [signs]
  refine Reading.whole (Row.one hus) ?_ hone (hexpected ▸ Names.here _)
  intro d hd
  cases hd with
  | head =>
      exact hsign
  | tail _ hd =>
      exact hstops d hd

theorem reading_chain_more {f : Option (Failure Expectation)} (hus : R us g)
    (hreads : p.Reads (us ++ Token.connective c :: more) g (Token.connective c :: more) f)
    (hnames : Names (more.length + 1) (signs cs) f)
    (hmore : Reading (Row (Token.connective c) R) (c :: cs)
      (Attempt.chain (sign (Token.connective c)) p) more) :
    Reading (Row (Token.connective c) R) (c :: cs)
      (Attempt.chain (sign (Token.connective c)) p) (us ++ Token.connective c :: more) := by
  have hsign := reads_sign (Token.connective c) more
  have hassoc : ∀ vs ws : List Token, us ++ Token.connective c :: (vs ++ ws) =
      us ++ Token.connective c :: vs ++ ws := by
    simp
  cases hmore with
  | @whole vs rest q _ hvs hstops hreads' hnames' =>
      have hlt : rest.length < (vs ++ rest).length + 1 := by
        rw [List.length_append]
        omega
      have hall := hreads.chain_more hsign hreads'
      rw [hassoc] at hall ⊢
      exact Reading.whole (Row.more hus hvs) hstops hall ((hnames.further hlt).furthest hnames')
  | @dangling vs last q d e hvs hd hreads' hblocked =>
      have hlt : e.left < (vs ++ Token.connective d :: last).length + 1 := by
        have hleft := hblocked.left_le
        rw [List.length_append, List.length_cons]
        omega
      have hall := hreads.chain_more hsign hreads'
      rw [Failure.furthest_some, hnames.after_further hlt] at hall
      rw [hassoc] at hall ⊢
      exact Reading.dangling (Row.more hus hvs) hd hall hblocked
  | refused hrefuses hblocked =>
      have hall := hreads.chain_dangling hsign hrefuses
      rw [hnames.after_further (Nat.lt_succ_of_le hblocked.left_le)] at hall
      exact Reading.dangling (Row.one hus) List.mem_cons_self hall hblocked

theorem reading_chain {depth : Nat} (hother : c ∉ cs)
    (hp : ∀ ts : List Token, ts.count Token.openParen ≤ depth → Reading R cs p ts)
    {ts : List Token} (hcount : ts.count Token.openParen ≤ depth) :
    Reading (Row (Token.connective c) R) (c :: cs)
      (Attempt.chain (sign (Token.connective c)) p) ts := by
  induction hn : ts.length using Nat.strongRecOn generalizing ts with
  | ind n ih =>
      have hread := hp ts hcount
      cases hread with
      | @whole us rest g f hus hstops hreads hnames =>
          by_cases hsign : rest.head? = some (Token.connective c)
          · rcases List.head?_eq_some_iff.mp hsign with ⟨more, rfl⟩
            -- Behind the sign stands a chain again, or nothing that the parser could read.
            have hshorter : more.length < n := by
              rw [← hn, List.length_append, List.length_cons]
              omega
            have hfewer : more.count Token.openParen ≤ depth := by
              rw [List.count_append, List.count_cons] at hcount
              omega
            exact reading_chain_more hus hreads hnames (ih more.length hshorter hfewer rfl)
          · exact reading_chain_last hother hus hstops hreads hnames hsign
      | @dangling us more g d f hus hd hreads hblocked =>
          have hsign : (Token.connective d :: more).head? ≠ some (Token.connective c) := by
            intro heq
            cases heq
            exact hother hd
          have hone := hreads.chain_one (refuses_sign hsign)
          rw [Failure.after_some, Failure.join_of_lt (Nat.lt_succ_of_le hblocked.left_le)] at hone
          exact Reading.dangling (Row.one hus) (List.mem_cons_of_mem c hd) hone hblocked
      | refused hrefuses hblocked =>
          exact Reading.refused hrefuses.chain hblocked

end Chain

theorem reading_level {p : Attempt Token Expectation Guard} {ph : Phrase} {cs : List Connective}
    {depth : Nat}
    (hp : ∀ ts : List Token, ts.count Token.openParen ≤ depth →
      Reading (Derives Phrase.unary) [] p ts)
    (hnests : Nests ph cs) (hdistinct : cs.Nodup) {ts : List Token}
    (hcount : ts.count Token.openParen ≤ depth) :
    Reading (Derives ph) cs (level p cs) ts := by
  induction hnests generalizing ts with
  | unary =>
      exact hp ts hcount
  | chain hchain _ ih =>
      rcases List.nodup_cons.mp hdistinct with ⟨hother, hdistinct⟩
      exact (reading_chain hother (fun us => ih hdistinct) hcount).map
        fun us q hrow => derives_of_row hchain hrow

theorem reading_upTo {depth : Nat} {ts : List Token} (hcount : ts.count Token.openParen ≤ depth) :
    Reading (Derives Phrase.iff) Connective.looseToTight (upTo depth) ts := by
  induction depth generalizing ts with
  | zero =>
      refine reading_level (fun us => reading_operand ?_) nests_looseToTight (by decide) hcount
      intro us hus
      exact absurd hus (Nat.not_lt_zero _)
  | succ depth ih =>
      refine reading_level (fun us => reading_operand ?_) nests_looseToTight (by decide) hcount
      intro us hus
      exact ih (Nat.le_of_lt_succ hus)

/-- The parser makes a guard of the tokens that is derived from them, or its furthest failure is
where the tokens can go on no more. -/
theorem ofTokens_cases (ts : List Token) :
    (∃ g, Derives Phrase.iff ts g ∧ ofTokens ts = .ok g) ∨
      ((∀ g, ¬ Derives Phrase.iff ts g) ∧ ofTokens ts = .error (Awaiting.start.failure ts)) := by
  have hread := reading_upTo (Nat.le_refl (ts.count Token.openParen))
  cases hread with
  | @whole us rest g f hus hstops hreads hnames =>
      cases rest with
      | nil =>
          refine Or.inl ⟨g, ?_, hreads.run_nil⟩
          rwa [List.append_nil]
      | cons t rest =>
          have hafter := Awaiting.takesOperand_of_derives hus 0
          have hstuck := stuck_of_stops 0 hstops (absurd rfl)
          refine Or.inr ⟨?_, ?_⟩
          · intro g' hg'
            have hall := Awaiting.takesOperand_of_derives hg' 0
            rw [Awaiting.after_append, hafter] at hall
            simp [hstuck t rfl] at hall
          · have hend : Failure.after ⟨rest.length + 1, [Expectation.ending]⟩ f =
                Awaiting.start.failure (us ++ t :: rest) :=
              (hnames.after_here (by decide)).trans
                ((Awaiting.failure_append hafter _).trans (Awaiting.failure_of_stuck hstuck)).symm
            exact hreads.run_cons.trans (congrArg _ hend)
  | @dangling us more g c f hus _ hreads hblocked =>
      have hall := hblocked.connective (Awaiting.takesOperand_of_derives hus) c
      have hend : Failure.after ⟨more.length + 1, [Expectation.ending]⟩ (some f) =
          Awaiting.start.failure (us ++ Token.connective c :: more) :=
        (Failure.join_of_lt (Nat.lt_succ_of_le hblocked.left_le)).trans (hall 0).symm
      exact Or.inr ⟨fun g => hall.not_derives, hreads.run_cons.trans (congrArg _ hend)⟩
  | refused hrefuses hblocked =>
      exact Or.inr ⟨fun g => hblocked.not_derives, hrefuses.run.trans (congrArg _ (hblocked 0).symm)⟩

end Guard
end GossipGames

import GossipGames.Proofs.Guard.Furthest
import Mathlib.Data.Set.Subsingleton

/-!
# Parsing and the grammar

The parser makes a guard of exactly the rows of tokens that the grammar derives, because the grammar
derives at most one guard from them.
-/

namespace GossipGames
namespace Guard

open Scanner (Row Unambiguous)

/-!
# One guard for a row of tokens

Of tokens that are continued in two ways the same first operand can be read.  The induction is on
the number of tokens, because a phrase in parentheses has fewer of them.
-/

theorem unambiguous_unary {n : Nat}
    (hinside : Unambiguous (fun us g => Derives Phrase.iff us g ∧ us.length < n)
      (Stops Connective.looseToTight)) :
    Unambiguous (fun us g => Derives Phrase.unary us g ∧ us.length ≤ n) fun _ => True := by
  intro us us' g g' rest rest' h h' heq _ _
  rcases h with ⟨h, hlength⟩
  rcases h' with ⟨h', hlength'⟩
  generalize hph : Phrase.unary = ph at h
  induction h generalizing us' g' with
  | unaryNot h ih =>
      cases h' with
      | unaryNot h' =>
          have hrest := List.tail_eq_of_cons_eq heq
          rcases ih hrest (Nat.le_of_succ_le hlength) h' (Nat.le_of_succ_le hlength') rfl with
            ⟨rfl, rfl⟩
          exact ⟨rfl, rfl⟩
      | unaryAtom h' =>
          cases h' <;> simp at heq
  | unaryAtom h =>
      cases h' with
      | unaryNot h' =>
          cases h <;> simp at heq
      | unaryAtom h' =>
          cases h with
          | atomConst value =>
              cases h' <;> simp_all
          | atomName name =>
              cases h' <;> simp_all
          | atomParen h =>
              cases h' with
              | atomConst | atomName =>
                  simp at heq
              | atomParen h' =>
                  have hstops : ∀ rest, Stops Connective.looseToTight (Token.closeParen :: rest) :=
                    fun rest c _ => by simp
                  rw [List.length_cons, List.length_append] at hlength hlength'
                  have hrest := List.tail_eq_of_cons_eq heq
                  simp only [List.append_eq, List.append_assoc] at hrest
                  rcases hinside ⟨h, by omega⟩ ⟨h', by omega⟩ hrest (hstops _) (hstops _) with
                    ⟨rfl, rfl⟩
                  exact ⟨rfl, rfl⟩
  | _ =>
      cases hph

theorem unambiguous_level {ph : Phrase} {cs : List Connective} {n : Nat}
    (hunary : Unambiguous (fun us g => Derives Phrase.unary us g ∧ us.length ≤ n) fun _ => True)
    (hnests : Nests ph cs) (hdistinct : cs.Nodup) :
    Unambiguous (fun us g => Derives ph us g ∧ us.length ≤ n) (Stops cs) := by
  induction hnests with
  | unary =>
      intro us us' g g' rest rest' h h' heq _ _
      exact hunary h h' heq trivial trivial
  | @chain ph below c cs hchain _ ih =>
      rcases List.nodup_cons.mp hdistinct with ⟨hother, hdistinct⟩
      have hsign : ∀ rest, Stops cs (Token.connective c :: rest) := by
        intro rest d hd heq
        cases heq
        exact hother hd
      have hstops : ∀ rest, Stops (c :: cs) rest →
          Stops cs rest ∧ rest.head? ≠ some (Token.connective c) := fun rest h =>
        ⟨fun d hd => h d (List.mem_cons_of_mem c hd), h c List.mem_cons_self⟩
      intro us us' g g' rest rest' h h' heq hrest hrest'
      rcases exists_row_of_derives h.1 hchain with ⟨q, hrow, rfl⟩
      rcases exists_row_of_derives h'.1 hchain with ⟨q', hrow', rfl⟩
      rcases (Row.unambiguous (ih hdistinct) hsign) (hrow.of_length_le h.2)
        (hrow'.of_length_le h'.2) heq (hstops rest hrest) (hstops rest' hrest') with ⟨rfl, rfl⟩
      exact ⟨rfl, rfl⟩

theorem unambiguous_iff (n : Nat) :
    Unambiguous (fun us g => Derives Phrase.iff us g ∧ us.length ≤ n)
      (Stops Connective.looseToTight) := by
  induction n with
  | zero =>
      refine unambiguous_level (unambiguous_unary ?_) nests_looseToTight (by decide)
      intro us us' g g' rest rest' h
      exact absurd h.2 (Nat.not_lt_zero _)
  | succ n ih =>
      refine unambiguous_level (unambiguous_unary ?_) nests_looseToTight (by decide)
      intro us us' g g' rest rest' h h'
      exact ih ⟨h.1, Nat.le_of_lt_succ h.2⟩ ⟨h'.1, Nat.le_of_lt_succ h'.2⟩

theorem derives_unique {ts : List Token} {g g' : Guard} (h : Derives Phrase.iff ts g)
    (h' : Derives Phrase.iff ts g') : g = g' := by
  have hstops : Stops Connective.looseToTight [] := by
    intro c _ hc
    cases hc
  have hlength := Nat.le_refl ts.length
  exact (unambiguous_iff ts.length ⟨h, hlength⟩ ⟨h', hlength⟩ rfl hstops hstops).2

theorem ofTokens_eq_ok_iff {ts : List Token} {g : Guard} :
    ofTokens ts = .ok g ↔ Derives Phrase.iff ts g := by
  rcases ofTokens_cases ts with ⟨g', hderives, hread⟩ | ⟨hnone, hread⟩
  · rw [hread, Except.ok.injEq]
    constructor
    · intro heq
      exact heq ▸ hderives
    · exact derives_unique hderives
  · rw [hread]
    exact iff_of_false (fun h => nomatch h) (hnone g)

theorem exists_tokens_iff {ps : List Piece} {ts : List Token} :
    (∃ spanned, tokens ps = .ok spanned ∧ spanned.map Prod.fst = ts) ↔
      ps.map Piece.lexeme = ts.map Lexeme.token := by
  induction ps generalizing ts with
  | nil =>
      simp [tokens, eq_comm]
  | cons p ps ih =>
      rcases p with ⟨lexeme, span⟩
      cases lexeme with
      | unknown c =>
          cases ts <;> simp [tokens]
      | token t =>
          cases ts with
          | nil =>
              cases htokens : tokens ps <;> simp [tokens, htokens, Except.map]
          | cons u ts =>
              have hrest := @ih ts
              cases htokens : tokens ps <;>
                simp [tokens, htokens, Except.map] at hrest ⊢ <;> simp [hrest]

theorem parse_eq_ok_iff {text : String} {g : Guard} :
    parse text = .ok g ↔
      ∃ ts, (lex text).map Piece.lexeme = ts.map Lexeme.token ∧ Derives Phrase.iff ts g := by
  constructor
  · intro h
    unfold parse at h
    cases htokens : tokens (lex text) with
    | error r =>
        simp [htokens] at h
    | ok spanned =>
        cases hread : ofTokens (spanned.map Prod.fst) with
        | error f =>
            simp [htokens, hread, Except.mapError] at h
        | ok g' =>
            simp [htokens, hread, Except.mapError] at h
            cases h
            exact ⟨_, exists_tokens_iff.mp ⟨spanned, htokens, rfl⟩, ofTokens_eq_ok_iff.mp hread⟩
  · intro h
    rcases h with ⟨ts, hlexemes, hderives⟩
    rcases exists_tokens_iff.mpr hlexemes with ⟨spanned, htokens, rfl⟩
    simp [parse, htokens, ofTokens_eq_ok_iff.mpr hderives, Except.mapError]

/-- The parser accepts the texts of the grammar with the guard that is derived, and no tokens have
two guards. -/
theorem parses_exactly_the_grammar :
    (∀ text g, parse text = .ok g ↔
      ∃ ts, (lex text).map Piece.lexeme = ts.map Lexeme.token ∧ Derives Phrase.iff ts g) ∧
    ∀ ts, {g | Derives Phrase.iff ts g}.Subsingleton := by
  constructor
  · intro text g
    exact parse_eq_ok_iff
  · intro ts g hg g' hg'
    exact derives_unique hg hg'

end Guard
end GossipGames

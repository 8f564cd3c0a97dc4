import GossipGames.Guard.Diagnosis
import GossipGames.Proofs.Guard.Parsing
import Mathlib.Order.Bounds.Defs

/-!
# Where a text is refused

A text that is no guard is refused at its first unknown character.  Without one, it is refused at
the first token that cannot follow those before it in any guard, or at its end if its tokens are
only the start of a guard.
-/

namespace GossipGames
namespace Guard

theorem tokens_of_unknown {pre post : List Piece} {c : Char} {span : Span}
    (hpre : ∀ p ∈ pre, ∃ t, p.lexeme = Lexeme.token t) :
    tokens (pre ++ ⟨Lexeme.unknown c, span⟩ :: post) = .error (Rejection.unknown c span) := by
  induction pre with
  | nil =>
      rfl
  | cons p pre ih =>
      rcases p with ⟨lexeme, here⟩
      rcases hpre _ List.mem_cons_self with ⟨t, rfl⟩
      rw [List.cons_append, tokens, ih fun q hq => hpre q (List.mem_cons_of_mem _ hq)]
      rfl

theorem tokens_of_known (ts : List (Token × Span)) :
    tokens (ts.map fun q => ⟨Lexeme.token q.1, q.2⟩) = .ok ts := by
  induction ts with
  | nil =>
      rfl
  | cons q ts ih =>
      rw [List.map_cons, tokens, ih]
      rfl

/-!
# Tokens that cannot follow

The furthest failure of the parser is at a token or at the end of the text.
-/

theorem refusal_eq_unexpected (size : Nat) (pre post : List (Token × Span)) (t : Token)
    (span : Span) (es : List Expectation) :
    refusal size (pre ++ (t, span) :: post) ⟨post.length + 1, es⟩ =
      Rejection.unexpected t span es := by
  have hplace : (pre ++ (t, span) :: post).length - (post.length + 1) = pre.length := by
    simp
  rw [refusal, hplace, List.drop_left]

theorem refusal_eq_unfinished (size : Nat) (ts : List (Token × Span)) (es : List Expectation) :
    refusal size ts ⟨0, es⟩ =
      Rejection.unfinished ⟨size, (ts.getLast?.map fun q => q.2.stop).getD size⟩ es := by
  rw [refusal, Nat.sub_zero, List.drop_length]

theorem refusal_cases (size : Nat) (ts : List (Token × Span)) :
    (∃ pre t span post next, ts = pre ++ (t, span) :: post ∧
      Awaiting.start.after (pre.map Prod.fst) = some next ∧ next.advance t = none ∧
        refusal size ts (Awaiting.start.failure (ts.map Prod.fst)) =
          Rejection.unexpected t span next.expected) ∨
      ∃ next, Awaiting.start.after (ts.map Prod.fst) = some next ∧
        refusal size ts (Awaiting.start.failure (ts.map Prod.fst)) =
          Rejection.unfinished ⟨size, (ts.getLast?.map fun q => q.2.stop).getD size⟩
            next.expected := by
  rcases Awaiting.start.failure_cases (ts.map Prod.fst) with
    ⟨pre, t, post, next, hts, hafter, hadvance, hfailure⟩ | ⟨next, hafter, hfailure⟩
  · rcases List.map_eq_append_iff.mp hts with ⟨pre, more, rfl, rfl, hmore⟩
    rcases List.map_eq_cons_iff.mp hmore with ⟨⟨t, span⟩, post, rfl, rfl, rfl⟩
    rw [hfailure, List.length_map, refusal_eq_unexpected]
    exact Or.inl ⟨pre, t, span, post, next, rfl, hafter, hadvance, rfl⟩
  · rw [hfailure, refusal_eq_unfinished]
    exact Or.inr ⟨next, hafter, rfl⟩

theorem eq_refusal_of_parse {text : String} {ts : List (Token × Span)} {r : Rejection}
    (hlex : lex text = ts.map fun q => ⟨Lexeme.token q.1, q.2⟩) (h : parse text = .error r) :
    r = refusal text.utf8ByteSize ts (Awaiting.start.failure (ts.map Prod.fst)) := by
  simp only [parse, hlex, tokens_of_known] at h
  rcases ofTokens_cases (ts.map Prod.fst) with ⟨g, _, hread⟩ | ⟨_, hread⟩
  · rw [hread] at h
    cases h
  · rw [hread] at h
    exact (Except.error.inj h).symm

theorem known_or_unknown (ps : List Piece) :
    (∃ ts : List (Token × Span), ps = ts.map fun q => ⟨Lexeme.token q.1, q.2⟩) ∨
      ∃ pre c span post, ps = pre ++ ⟨Lexeme.unknown c, span⟩ :: post ∧
        ∀ p ∈ pre, ∃ t, p.lexeme = Lexeme.token t := by
  induction ps with
  | nil =>
      exact Or.inl ⟨[], rfl⟩
  | cons p ps ih =>
      rcases p with ⟨_ | c, span⟩
      · rename_i t
        rcases ih with ⟨ts, rfl⟩ | ⟨pre, c, there, post, rfl, hpre⟩
        · exact Or.inl ⟨(t, span) :: ts, rfl⟩
        · refine Or.inr ⟨⟨Lexeme.token t, span⟩ :: pre, c, there, post, rfl, ?_⟩
          intro q hq
          cases hq with
          | head =>
              exact ⟨t, rfl⟩
          | tail _ hq =>
              exact hpre q hq
      · refine Or.inr ⟨[], c, span, ps, rfl, ?_⟩
        intro q hq
        cases hq

theorem unknown_mem_lex {text : String} {pre post : List Piece} {c : Char} {span : Span}
    (hlex : lex text = pre ++ ⟨Lexeme.unknown c, span⟩ :: post) :
    ⟨Lexeme.unknown c, span⟩ ∈ lex text := by
  rw [hlex]
  exact List.mem_append_right pre List.mem_cons_self

theorem token_mem_lex {text : String} {ts : List (Token × Span)}
    (hlex : lex text = ts.map fun q => ⟨Lexeme.token q.1, q.2⟩) {q : Token × Span} (hq : q ∈ ts) :
    ⟨Lexeme.token q.1, q.2⟩ ∈ lex text := by
  rw [hlex]
  exact List.mem_map_of_mem hq

theorem rejection_cases {text : String} {r : Rejection} (h : parse text = .error r) :
    (∃ pre c span post, lex text = pre ++ ⟨Lexeme.unknown c, span⟩ :: post ∧
        (∀ p ∈ pre, ∃ t, p.lexeme = Lexeme.token t) ∧ r = Rejection.unknown c span) ∨
      ∃ ts : List (Token × Span), lex text = ts.map (fun q => ⟨Lexeme.token q.1, q.2⟩) ∧
        ((∃ pre t span post next, ts = pre ++ (t, span) :: post ∧
            Awaiting.start.after (pre.map Prod.fst) = some next ∧ next.advance t = none ∧
              r = Rejection.unexpected t span next.expected) ∨
          ∃ next, Awaiting.start.after (ts.map Prod.fst) = some next ∧
            r = Rejection.unfinished
              ⟨text.utf8ByteSize, (ts.getLast?.map fun q => q.2.stop).getD text.utf8ByteSize⟩
                next.expected) := by
  rcases known_or_unknown (lex text) with ⟨ts, hlex⟩ | ⟨pre, c, span, post, hlex, hpre⟩
  · refine Or.inr ⟨ts, hlex, ?_⟩
    have hr := eq_refusal_of_parse hlex h
    rcases refusal_cases text.utf8ByteSize ts with
      ⟨pre, t, span, post, next, hts, hafter, hadvance, hrefusal⟩ | ⟨next, hafter, hrefusal⟩
    · exact Or.inl ⟨pre, t, span, post, next, hts, hafter, hadvance, hr.trans hrefusal⟩
    · exact Or.inr ⟨next, hafter, hr.trans hrefusal⟩
  · refine Or.inl ⟨pre, c, span, post, hlex, hpre, ?_⟩
    simp only [parse, hlex, tokens_of_unknown hpre] at h
    exact (Except.error.inj h).symm

end Guard
end GossipGames

import GossipGames.Proofs.Guard.Rejections
import GossipGames.Proofs.Guard.Tiling

/-!
# What could have stood instead

The rejection of a text names what is expected at its place: the tokens that can follow those before
the place in some guard, the atoms all under one word, and the end of the text if the tokens before
the place are a guard already.
-/

namespace GossipGames
namespace Guard

def tokensBefore (text : String) (place : Nat) : List Token :=
  (lex text).filterMap fun p =>
    match p.lexeme with
    | Lexeme.token t => if p.span.stop ≤ place then some t else none
    | Lexeme.unknown _ => none

def Token.opensAtom : Token → Bool
  | const _ => true
  | name _ => true
  | openParen => true
  | _ => false

/-- After the tokens `p`, the words of `expected` name what some guard goes on with and nothing
else. -/
structure Offers (p : List Token) (expected : List String) : Prop where
  negation : "'!'" ∈ expected ↔ Viable (p ++ [Token.negation])
  atom : ∀ t, t.opensAtom = true → ("proposition" ∈ expected ↔ Viable (p ++ [t]))
  connective : ∀ c : Connective,
    "'" ++ c.spelling ++ "'" ∈ expected ↔ Viable (p ++ [Token.connective c])
  closeParen : "')'" ∈ expected ↔ Viable (p ++ [Token.closeParen])
  ending : "end of guard" ∈ expected ↔ ∃ g, Derives Phrase.iff p g
  nothingElse : ∀ e ∈ expected, e ∈ ["'!'", "proposition", "')'", "end of guard"] ∨
    ∃ c : Connective, e = "'" ++ c.spelling ++ "'"

theorem viable_append_singleton_iff {p : List Token} {here : Awaiting}
    (h : Awaiting.start.after p = some here) (t : Token) :
    Viable (p ++ [t]) ↔ ∃ next, here.advance t = some next := by
  rw [viable_iff_after, Awaiting.after_append, h]
  simp

theorem exists_derives_iff_eq {p : List Token} {here : Awaiting}
    (h : Awaiting.start.after p = some here) :
    (∃ g, Derives Phrase.iff p g) ↔ here = Awaiting.continuation 0 := by
  rw [exists_derives_iff_after, h, Option.some_inj]

theorem offers_of_operand {p : List Token} {depth : Nat}
    (h : Awaiting.start.after p = some (Awaiting.operand depth)) :
    Offers p ["'!'", "proposition"] where
  negation := by
    simp [viable_append_singleton_iff h, Awaiting.advance]
  atom t ht := by
    rw [viable_append_singleton_iff h]
    cases t with
    | const _ | name _ | openParen =>
        simp [Awaiting.advance]
    | negation | connective _ | closeParen =>
        cases ht
  connective c := by
    cases c <;> simp [viable_append_singleton_iff h, Awaiting.advance, Connective.spelling]
  closeParen := by
    simp [viable_append_singleton_iff h, Awaiting.advance]
  ending := by
    simp [exists_derives_iff_eq h]
  nothingElse := by
    simp

theorem offers_of_continuation {p : List Token} {depth : Nat}
    (h : Awaiting.start.after p = some (Awaiting.continuation depth)) :
    Offers p ["'&'", "'|'", "'^'", "'->'", "'<->'", if depth = 0 then "end of guard" else "')'"] where
  negation := by
    cases depth <;> simp [viable_append_singleton_iff h, Awaiting.advance]
  atom t ht := by
    rw [viable_append_singleton_iff h]
    cases t with
    | const _ | name _ | openParen =>
        cases depth <;> simp [Awaiting.advance]
    | negation | connective _ | closeParen =>
        cases ht
  connective c := by
    cases c <;> simp [viable_append_singleton_iff h, Connective.spelling]
  closeParen := by
    cases depth <;> simp [viable_append_singleton_iff h, Awaiting.advance]
  ending := by
    cases depth <;> simp [exists_derives_iff_eq h]
  nothingElse := by
    intro e he
    simp only [List.mem_cons, List.not_mem_nil, or_false] at he
    rcases he with rfl | rfl | rfl | rfl | rfl | rfl
    · exact Or.inr ⟨Connective.and, rfl⟩
    · exact Or.inr ⟨Connective.or, rfl⟩
    · exact Or.inr ⟨Connective.xor, rfl⟩
    · exact Or.inr ⟨Connective.implies, rfl⟩
    · exact Or.inr ⟨Connective.iff, rfl⟩
    · cases depth <;> simp

theorem offers_of_after {p : List Token} {here : Awaiting}
    (h : Awaiting.start.after p = some here) :
    Offers p (here.expected.map Expectation.wording) := by
  cases here with
  | operand depth =>
      exact offers_of_operand h
  | continuation depth =>
      cases depth with
      | zero =>
          exact offers_of_continuation h
      | succ depth =>
          exact offers_of_continuation h

theorem tokensBefore_of_known {text : String} {ts : List (Token × Span)}
    (hlex : lex text = ts.map fun q => ⟨Lexeme.token q.1, q.2⟩) (place : Nat) :
    tokensBefore text place =
      (ts.filter fun q => decide (q.2.stop ≤ place)).map Prod.fst := by
  rw [tokensBefore, hlex]
  clear hlex
  induction ts with
  | nil =>
      rfl
  | cons q ts ih =>
      by_cases hq : q.2.stop ≤ place
      · simp [hq, ih]
      · simp [hq, ih]

theorem spans_of_known {text : String} {ts : List (Token × Span)}
    (hlex : lex text = ts.map fun q => ⟨Lexeme.token q.1, q.2⟩) :
    (ts.Pairwise fun q r => q.2.stop ≤ r.2.start) ∧
      ∀ q ∈ ts, q.2.start < q.2.stop ∧ q.2.stop ≤ text.utf8ByteSize := by
  constructor
  · have hordered := (tiles_lex text).pairwise
    rwa [hlex, List.pairwise_map] at hordered
  · intro q hq
    rcases exists_cuts_of_mem_lex (token_mem_lex hlex hq) with
      ⟨before, within, after, hcuts, htakes⟩
    exact ⟨htakes.start_lt_stop hcuts, hcuts.stop_le⟩

theorem tokensBefore_start {text : String} {pre post : List (Token × Span)} {t : Token}
    {span : Span}
    (hlex : lex text = (pre ++ (t, span) :: post).map fun q => ⟨Lexeme.token q.1, q.2⟩) :
    tokensBefore text span.start = pre.map Prod.fst := by
  rcases spans_of_known hlex with ⟨hordered, hspans⟩
  rcases List.pairwise_append.mp hordered with ⟨_, hrest, hbefore⟩
  have hlt : span.start < span.stop :=
    (hspans _ (List.mem_append_right pre List.mem_cons_self)).1
  have hpre : pre.filter (fun q => decide (q.2.stop ≤ span.start)) = pre := by
    rw [List.filter_eq_self]
    intro q hq
    exact decide_eq_true (hbefore q hq _ List.mem_cons_self)
  have hpost : post.filter (fun q => decide (q.2.stop ≤ span.start)) = [] := by
    rw [List.filter_eq_nil_iff]
    intro q hq
    have hafter : span.stop ≤ q.2.start := (List.pairwise_cons.mp hrest).1 q hq
    have hpos := (hspans q (List.mem_append_right _ (List.mem_cons_of_mem _ hq))).1
    simp only [decide_eq_true_eq]
    omega
  rw [tokensBefore_of_known hlex, List.filter_append, List.filter_cons_of_neg, hpre, hpost,
    List.append_nil]
  simpa using hlt

theorem tokensBefore_size {text : String} {ts : List (Token × Span)}
    (hlex : lex text = ts.map fun q => ⟨Lexeme.token q.1, q.2⟩) :
    tokensBefore text text.utf8ByteSize = ts.map Prod.fst := by
  rw [tokensBefore_of_known hlex, List.filter_eq_self.mpr]
  intro q hq
  exact decide_eq_true ((spans_of_known hlex).2 q hq).2

/-- Where a text without unknown characters is refused, the tokens before the place are the start of
a guard, and what is expected there is what some guard goes on with. -/
theorem offers_of_parse {text : String} {r : Rejection}
    (hknown : ∀ p ∈ lex text, ∃ t, p.lexeme = Lexeme.token t) (h : parse text = .error r) :
    Viable (tokensBefore text r.diagnostic.span.start) ∧
      Offers (tokensBefore text r.diagnostic.span.start) r.diagnostic.expected := by
  rcases rejection_cases h with
    ⟨pre, c, span, post, hlex, _, _⟩ |
      ⟨ts, hlex, ⟨pre, t, span, post, next, rfl, hafter, _, rfl⟩ | ⟨next, hafter, rfl⟩⟩
  · rcases hknown _ (unknown_mem_lex hlex) with ⟨t, ht⟩
    cases ht
  · show Viable (tokensBefore text span.start) ∧ Offers (tokensBefore text span.start) _
    rw [tokensBefore_start hlex]
    exact ⟨viable_iff_after.mpr ⟨next, hafter⟩, offers_of_after hafter⟩
  · show Viable (tokensBefore text text.utf8ByteSize) ∧
      Offers (tokensBefore text text.utf8ByteSize) _
    rw [tokensBefore_size hlex]
    exact ⟨viable_iff_after.mpr ⟨next, hafter⟩, offers_of_after hafter⟩

theorem offers_of_parse_unclosed :
    (∀ p ∈ lex "(a b", ∃ t, p.lexeme = Lexeme.token t) ∧
      ∃ r, parse "(a b" = .error r ∧ Viable (tokensBefore "(a b" r.diagnostic.span.start) ∧
        Offers (tokensBefore "(a b" r.diagnostic.span.start) r.diagnostic.expected := by
  have hparse : parse "(a b" = .error (Rejection.unexpected (Token.name "b") ⟨3, 4⟩
      (Awaiting.continuation 1).expected) := by
    decide +kernel
  have hlex : lex "(a b" = [⟨Lexeme.token Token.openParen, ⟨0, 1⟩⟩,
      ⟨Lexeme.token (Token.name "a"), ⟨1, 2⟩⟩, ⟨Lexeme.token (Token.name "b"), ⟨3, 4⟩⟩] := by
    decide +kernel
  have hknown : ∀ p ∈ lex "(a b", ∃ t, p.lexeme = Lexeme.token t := by
    simp [hlex]
  exact ⟨hknown, _, hparse, offers_of_parse hknown hparse⟩

end Guard
end GossipGames

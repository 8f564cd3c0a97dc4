import GossipGames.Proofs.Guard.Rejections
import GossipGames.Proofs.Guard.Tiling

/-!
# The places of rejections

The place of a rejection lies between characters of its text.  At the end of a text that breaks off,
the place starts where the text ends and stops where the last token does, so it is out of order when
blanks follow that token.
-/

namespace GossipGames
namespace Guard

open String (utf8Len)

/-- The text is only the start of a guard, and it goes on with blanks after its last token. -/
structure BreaksOff (text : String) : Prop where
  tokens : ∃ ts, ts ≠ [] ∧ (lex text).map Piece.lexeme = ts.map Lexeme.token ∧ Viable ts
  blank : ∃ c ∈ text.toList.getLast?, Lexer.isSkipped c = true

/-- The place of a rejection lies in the text.  It is in order unless the text breaks off before
blanks, and a text that breaks off without them is refused at its very end. -/
structure Placed (text : String) (r : Rejection) : Prop where
  start_valid : String.Pos.Raw.IsValid text ⟨r.diagnostic.span.start⟩
  stop_valid : String.Pos.Raw.IsValid text ⟨r.diagnostic.span.stop⟩
  ordered : r.diagnostic.span.start ≤ r.diagnostic.span.stop ↔ ¬ BreaksOff text
  ending : ∀ span expected, r = Rejection.unfinished span expected → ¬ BreaksOff text →
    span = ⟨text.utf8ByteSize, text.utf8ByteSize⟩

variable {text : String}

theorem isSkipped_of_getLast? {p : Piece} (hp : (lex text).getLast? = some p)
    {before within after : List Char} (hcuts : p.span.Cuts text before within after) :
    ∀ c ∈ after, Lexer.isSkipped c = true := by
  intro c hc
  rcases List.append_of_mem hc with ⟨between, rest, rfl⟩
  have hchars : text.toList = (before ++ within ++ between) ++ c :: rest := by
    rw [hcuts.chars]
    simp
  rw [← Bool.not_eq_false, ← (tiles_lex text).exists_contains_iff hchars]
  rintro ⟨q, hq, hcontains⟩
  have hle : q.span.stop ≤ p.span.stop := by
    rcases List.getLast?_eq_some_iff.mp hp with ⟨ps, hps⟩
    have hordered := (tiles_lex text).pairwise
    rw [hps] at hordered hq
    rcases List.mem_append.mp hq with hq | hq
    · have hstop := (List.pairwise_append.mp hordered).2.2 q hq p (List.mem_singleton.mpr rfl)
      exact Nat.le_trans hstop hcuts.start_le_stop
    · rw [List.mem_singleton.mp hq]
  have hlt := Nat.lt_of_lt_of_le hcontains.2 hle
  rw [hcuts.stop, Nat.zero_add, String.utf8Len_append, String.utf8Len_append] at hlt
  omega

theorem stop_lt_iff_of_getLast? {p : Piece} (hp : (lex text).getLast? = some p) :
    p.span.stop < text.utf8ByteSize ↔ ∃ c ∈ text.toList.getLast?, Lexer.isSkipped c = true := by
  rcases exists_cuts_of_mem_lex (List.mem_of_getLast? hp) with
    ⟨before, within, after, hcuts, htakes⟩
  rw [hcuts.size_eq, hcuts.chars]
  rcases List.eq_nil_or_concat after with rfl | ⟨blanks, c, rfl⟩
  · rcases (List.eq_nil_or_concat within).resolve_left htakes.ne_nil with ⟨front, c, rfl⟩
    have hc : Lexer.isSkipped c = false := htakes.isSkipped c (by simp)
    simp [hc]
  · have hc : Lexer.isSkipped c = true := isSkipped_of_getLast? hp hcuts c (by simp)
    have hpos := c.utf8Size_pos
    simp [hc]
    omega

theorem map_lexeme_of_known {ts : List (Token × Span)}
    (hlex : lex text = ts.map fun q => ⟨Lexeme.token q.1, q.2⟩) :
    (lex text).map Piece.lexeme = (ts.map Prod.fst).map Lexeme.token := by
  simp [hlex]

theorem viable_of_breaksOff {ts : List (Token × Span)}
    (hlex : lex text = ts.map fun q => ⟨Lexeme.token q.1, q.2⟩) (h : BreaksOff text) :
    ts ≠ [] ∧ Viable (ts.map Prod.fst) := by
  rcases h.tokens with ⟨us, hne, hus, hviable⟩
  rw [map_lexeme_of_known hlex] at hus
  have hsame : ts.map Prod.fst = us :=
    List.map_injective_iff.mpr (fun _ _ => Lexeme.token.inj) hus
  rw [hsame]
  refine ⟨?_, hviable⟩
  rintro rfl
  exact hne hsame.symm

theorem not_breaksOff_of_unknown {p : Piece} {c : Char} (hp : p ∈ lex text)
    (hc : p.lexeme = Lexeme.unknown c) : ¬ BreaksOff text := by
  intro h
  rcases h.tokens with ⟨ts, _, hts, _⟩
  have hmem := List.mem_map_of_mem (f := Piece.lexeme) hp
  rw [hts, hc] at hmem
  rcases List.mem_map.mp hmem with ⟨t, _, ht⟩
  cases ht

theorem not_breaksOff_of_advance {pre post : List (Token × Span)} {t : Token} {span : Span}
    {next : Awaiting}
    (hlex : lex text = (pre ++ (t, span) :: post).map fun q => ⟨Lexeme.token q.1, q.2⟩)
    (hafter : Awaiting.start.after (pre.map Prod.fst) = some next)
    (hadvance : next.advance t = none) : ¬ BreaksOff text := by
  intro h
  rcases viable_iff_after.mp (viable_of_breaksOff hlex h).2 with ⟨there, hthere⟩
  rw [List.map_append, Awaiting.after_append, hafter] at hthere
  simp [hadvance] at hthere

theorem breaksOff_iff_stop_lt {ts : List (Token × Span)} {q : Token × Span} {next : Awaiting}
    (hlex : lex text = ts.map fun q => ⟨Lexeme.token q.1, q.2⟩)
    (hafter : Awaiting.start.after (ts.map Prod.fst) = some next)
    (hlast : ts.getLast? = some q) : BreaksOff text ↔ q.2.stop < text.utf8ByteSize := by
  have hlast' : (lex text).getLast? = some ⟨Lexeme.token q.1, q.2⟩ := by
    rw [hlex, List.getLast?_map, hlast]
    rfl
  rw [stop_lt_iff_of_getLast? hlast']
  constructor
  · intro h
    exact h.blank
  · intro hblank
    refine ⟨⟨ts.map Prod.fst, ?_, map_lexeme_of_known hlex, viable_iff_after.mpr ⟨next, hafter⟩⟩,
      hblank⟩
    intro hnil
    rw [List.map_eq_nil_iff.mp hnil] at hlast
    cases hlast

theorem placed_of_mem {p : Piece} (hp : p ∈ lex text) {r : Rejection}
    (hr : r.diagnostic.span = p.span) (hbreaks : ¬ BreaksOff text)
    (hending : ∀ span expected, r ≠ Rejection.unfinished span expected) : Placed text r := by
  rcases exists_cuts_of_mem_lex hp with ⟨before, within, after, hcuts, _⟩
  constructor
  · rw [hr]
    exact hcuts.isValid_start
  · rw [hr]
    exact hcuts.isValid_stop
  · rw [hr]
    exact iff_of_true hcuts.start_le_stop hbreaks
  · intro span expected heq
    exact absurd heq (hending span expected)

theorem placed_at_end {stop : Nat} {expected : List Expectation}
    (hstop : String.Pos.Raw.IsValid text ⟨stop⟩)
    (hbreaks : BreaksOff text ↔ stop < text.utf8ByteSize) :
    Placed text (Rejection.unfinished ⟨text.utf8ByteSize, stop⟩ expected) where
  start_valid := String.Pos.Raw.isValid_rawEndPos
  stop_valid := hstop
  ordered := by
    rw [hbreaks, Nat.not_lt]
    rfl
  ending span expected' heq h := by
    cases heq
    rw [hbreaks, Nat.not_lt] at h
    have hle : stop ≤ text.utf8ByteSize := hstop.le_utf8ByteSize
    rw [Nat.le_antisymm hle h]

theorem placed_of_parse {r : Rejection} (h : parse text = .error r) : Placed text r := by
  rcases rejection_cases h with
    ⟨pre, c, span, post, hlex, _, rfl⟩ |
      ⟨ts, hlex, ⟨pre, t, span, post, next, rfl, hafter, hadvance, rfl⟩ | ⟨next, hafter, rfl⟩⟩
  · have hmem := unknown_mem_lex hlex
    refine placed_of_mem hmem rfl (not_breaksOff_of_unknown hmem rfl) ?_
    intro span expected heq
    cases heq
  · have hmem := token_mem_lex hlex (List.mem_append_right pre List.mem_cons_self)
    refine placed_of_mem hmem rfl (not_breaksOff_of_advance hlex hafter hadvance) ?_
    intro span expected heq
    cases heq
  · cases hlast : ts.getLast? with
    | none =>
        refine placed_at_end String.Pos.Raw.isValid_rawEndPos (iff_of_false ?_ (Nat.lt_irrefl _))
        intro hbreaks
        exact (viable_of_breaksOff hlex hbreaks).1 (List.getLast?_eq_none_iff.mp hlast)
    | some q =>
        refine placed_at_end ?_ (breaksOff_iff_stop_lt hlex hafter hlast)
        have hmem := token_mem_lex hlex (List.mem_of_getLast? hlast)
        rcases exists_cuts_of_mem_lex hmem with ⟨before, within, after, hcuts, _⟩
        exact hcuts.isValid_stop

theorem render_eq_none_iff {r : Rejection} (h : parse text = .error r) (name : String) :
    (r.diagnostic.report name text).render = none ↔ BreaksOff text := by
  have hordered := (placed_of_parse h).ordered
  have hrender : (r.diagnostic.report name text).render = none ↔
      ¬ r.diagnostic.span.start ≤ r.diagnostic.span.stop := by
    unfold Report.render
    split_ifs <;> simp_all [Diagnostic.report]
  rw [hrender, hordered, not_not]

end Guard
end GossipGames

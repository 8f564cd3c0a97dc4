import GossipGames.Proofs.Guard.LongestMatch
import GossipGames.Proofs.Text.Slices

/-!
# Texts cut into pieces

The lexer goes over a text from its front, skips blanks and cuts off one piece after the other.  So
the pieces stand one after the other, each on the characters that its lexeme takes, and only blanks
stand outside them.
-/

namespace GossipGames
namespace Guard

open String (utf8Len)

/-!
# One piece after the other

The relation follows the text from its front: blanks are passed over, and a piece covers what its
lexeme takes.
-/

/-- These are the pieces of a text that stands `offset` bytes after the start of the whole. -/
inductive Tiles : Nat → List Char → List Piece → Prop where
  | done (offset : Nat) : Tiles offset [] []
  | skip {offset : Nat} {c : Char} {s : List Char} {ps : List Piece} :
      Lexer.isSkipped c = true → Tiles (offset + 1) s ps → Tiles offset (c :: s) ps
  | take {offset : Nat} {l : Lexeme} {w rest : List Char} {ps : List Piece} :
      Takes l w rest → Tiles (offset + utf8Len w) rest ps →
      Tiles offset (w ++ rest) (⟨l, ⟨offset, offset + utf8Len w⟩⟩ :: ps)

theorem tiles_pieces (offset : Nat) (s : List Char) : Tiles offset s (Lexer.pieces offset s) := by
  fun_induction Lexer.pieces offset s with
  | case1 offset =>
      exact Tiles.done offset
  | case2 offset c s hskipped ih =>
      exact Tiles.skip hskipped ih
  | case3 offset c s hskipped ih =>
      rcases exists_takes_cut (Bool.not_eq_true _ ▸ hskipped) s with ⟨w, hs, htakes⟩
      rw [htakes.size_eq] at ih ⊢
      rw [hs]
      exact Tiles.take htakes ih

namespace Tiles

variable {offset : Nat} {s : List Char} {ps : List Piece}

theorem exists_takes (h : Tiles offset s ps) : ∀ p ∈ ps, ∃ before w rest,
    s = before ++ w ++ rest ∧ p.span.start = offset + utf8Len before ∧
      p.span.stop = p.span.start + utf8Len w ∧ Takes p.lexeme w rest := by
  induction h with
  | done =>
      intro p hp
      cases hp
  | @skip offset c s ps hc _ ih =>
      intro p hp
      rcases ih p hp with ⟨before, w, rest, rfl, hstart, hstop, htakes⟩
      refine ⟨c :: before, w, rest, rfl, ?_, hstop, htakes⟩
      rw [hstart, String.utf8Len_cons, utf8Size_of_isSkipped hc]
      omega
  | @take offset l v s ps hfirst _ ih =>
      intro p hp
      cases hp with
      | head =>
          exact ⟨[], v, s, rfl, rfl, rfl, hfirst⟩
      | tail _ hp =>
          rcases ih p hp with ⟨before, w, rest, rfl, hstart, hstop, htakes⟩
          refine ⟨v ++ before, w, rest, by simp, ?_, hstop, htakes⟩
          rw [hstart, String.utf8Len_append, Nat.add_assoc]

theorem le_start (h : Tiles offset s ps) {p : Piece} (hp : p ∈ ps) : offset ≤ p.span.start := by
  rcases h.exists_takes p hp with ⟨before, w, rest, _, hstart, _⟩
  rw [hstart]
  exact Nat.le_add_right _ _

theorem pairwise (h : Tiles offset s ps) : ps.Pairwise fun p q => p.span.stop ≤ q.span.start := by
  induction h with
  | done =>
      exact List.Pairwise.nil
  | skip _ _ ih =>
      exact ih
  | take _ hrest ih =>
      exact List.Pairwise.cons (fun q hq => hrest.le_start hq) ih

theorem exists_contains_iff (h : Tiles offset s ps) {before after : List Char} {c : Char}
    (hs : s = before ++ c :: after) :
    (∃ p ∈ ps, p.span.Contains (offset + utf8Len before)) ↔ Lexer.isSkipped c = false := by
  induction h generalizing before with
  | done =>
      simp at hs
  | @skip offset d s ps hd hrest ih =>
      cases before with
      | nil =>
          cases hs
          simp only [hd, Bool.true_eq_false, iff_false, not_exists, not_and]
          intro p hp hcontains
          exact absurd (hrest.le_start hp) (Nat.not_le_of_lt (Nat.lt_succ_of_le hcontains.1))
      | cons e before =>
          cases hs
          rw [← ih rfl, String.utf8Len_cons, utf8Size_of_isSkipped hd, Nat.add_assoc,
            Nat.add_comm 1]
  | @take offset l v s ps htakes hrest ih =>
      -- The place is in what comes after the first piece, or in the first piece itself.
      have hafter : ∀ between, before = v ++ between → s = between ++ c :: after →
          ((∃ p ∈ (⟨l, ⟨offset, offset + utf8Len v⟩⟩ :: ps : List Piece),
            p.span.Contains (offset + utf8Len before)) ↔ Lexer.isSkipped c = false) := by
        rintro between rfl hs
        rw [← ih hs, String.utf8Len_append, List.exists_mem_cons_iff, Nat.add_assoc]
        refine or_iff_right ?_
        intro hcontains
        exact absurd hcontains.2
          (Nat.not_lt_of_le (Nat.add_le_add_left (Nat.le_add_right _ _) offset))
      rcases List.append_eq_append_iff.mp hs with
          ⟨between, hbefore, hrest⟩ | ⟨within, rfl, hinside⟩
      · exact hafter between hbefore hrest
      · cases within with
        | nil =>
            exact hafter [] (by simp) hinside.symm
        | cons d within =>
            cases hinside
            have hmem : c ∈ before ++ c :: within := List.mem_append_right _ List.mem_cons_self
            simp only [htakes.isSkipped c hmem, iff_true]
            refine ⟨_, List.mem_cons_self, Nat.le_add_right _ _, ?_⟩
            have hpos := c.utf8Size_pos
            simp only [String.utf8Len_append, String.utf8Len_cons]
            omega

end Tiles

/-- A piece of a text covers `within`, and `after` follows it. -/
structure Fits (l : Lexeme) (within after : List Char) : Prop where
  token : ∀ t, l = Lexeme.token t → within = t.spelling.toList ∧
    ∀ u v, Token.Matches u v → v <+: within ++ after → v.length ≤ within.length
  name : ∀ text, l = Lexeme.token (Token.name text) → IsWord within
  const : ∀ value, l = Lexeme.token (Token.const value) ↔
    within = (Token.const value).spelling.toList
  word : ∀ t, l = Lexeme.token t → t.isSign = false →
    ∀ c ∈ after.head?, Lexer.isNameChar c = false
  connective : ∀ c : Connective, c.spelling.toList <+: within ++ after →
    l = Lexeme.token (Token.connective c)
  unknown : ∀ c, l = Lexeme.unknown c → within = [c] ∧
    ∀ t v, Token.Matches t v → ¬ v <+: within ++ after

/-- The pieces are apart and in order, only blanks stand outside them, and each piece is the longest
token at its place, or one character at which no token starts. -/
structure Tiled (text : String) (ps : List Piece) : Prop where
  boundary : ∀ p ∈ ps, String.Pos.Raw.IsValid text ⟨p.span.start⟩ ∧
    String.Pos.Raw.IsValid text ⟨p.span.stop⟩ ∧ p.span.start < p.span.stop
  ordered : ps.Pairwise fun p q => p.span.stop ≤ q.span.start
  blank : ∀ before c after, text.toList = before ++ c :: after →
    ((∃ p ∈ ps, p.span.Contains (utf8Len before)) ↔ c ∉ [' ', '\t', '\n', '\r'])
  fits : ∀ p ∈ ps, ∃ before within after,
    p.span.Cuts text before within after ∧ Fits p.lexeme within after

theorem tiles_lex (text : String) : Tiles 0 text.toList (lex text) :=
  tiles_pieces 0 text.toList

theorem exists_cuts_of_mem_lex {text : String} {p : Piece} (hp : p ∈ lex text) :
    ∃ before within after, p.span.Cuts text before within after ∧
      Takes p.lexeme within after := by
  rcases (tiles_lex text).exists_takes p hp with ⟨before, w, rest, hs, hstart, hstop, htakes⟩
  rw [Nat.zero_add] at hstart
  exact ⟨before, w, rest, ⟨hs, hstart, hstart ▸ hstop⟩, htakes⟩

theorem Takes.start_lt_stop {p : Piece} {text : String} {before within after : List Char}
    (htakes : Takes p.lexeme within after) (hcuts : p.span.Cuts text before within after) :
    p.span.start < p.span.stop := by
  rcases List.exists_cons_of_ne_nil htakes.ne_nil with ⟨c, cs, rfl⟩
  have hpos := c.utf8Size_pos
  rw [hcuts.start, hcuts.stop, String.utf8Len_cons]
  omega

theorem Takes.fits {l : Lexeme} {within after : List Char} (h : Takes l within after) :
    Fits l within after where
  token t ht := by
    subst ht
    cases h with
    | token htaken hlongest =>
        exact ⟨htaken.matched.1, hlongest⟩
  name text hname := by
    subst hname
    cases h with
    | token htaken _ =>
        exact htaken.matched.2 text rfl
  const value := by
    constructor
    · rintro rfl
      cases h with
      | token htaken _ =>
          exact htaken.matched.1
    · intro hwithin
      cases h with
      | token htaken _ =>
          rw [htaken.const value hwithin]
      | unknown _ _ =>
          cases value <;> cases hwithin
  word t ht hsign := by
    subst ht
    refine h.endsWord ?_
    cases h with
    | token htaken _ =>
        refine htaken.matched.isWord_or_isSign.resolve_right ?_
        rw [hsign]
        exact Bool.false_ne_true
  connective c hstarts :=
    h.eq_of_isSign rfl hstarts
  unknown c hc := by
    subst hc
    cases h with
    | unknown _ hnone =>
        exact ⟨rfl, hnone⟩

theorem tiled_lex (text : String) : Tiled text (lex text) where
  boundary p hp := by
    rcases exists_cuts_of_mem_lex hp with ⟨before, within, after, hcuts, htakes⟩
    exact ⟨hcuts.isValid_start, hcuts.isValid_stop, htakes.start_lt_stop hcuts⟩
  ordered := (tiles_lex text).pairwise
  blank before c after hs := by
    have hcovered := (tiles_lex text).exists_contains_iff hs
    rw [Nat.zero_add] at hcovered
    rw [hcovered]
    simp [Lexer.isSkipped, and_assoc]
  fits p hp := by
    rcases exists_cuts_of_mem_lex hp with ⟨before, within, after, hcuts, htakes⟩
    exact ⟨before, within, after, hcuts, htakes.fits⟩

end Guard
end GossipGames

import GossipGames.Proofs.Guard.Parsing
import GossipGames.Proofs.Text.Trimming
import Mathlib.Data.List.TakeWhile

/-!
# The lexemes of a text

What a text is cut into does not depend on where it stands, so its lexemes are examined apart from
their places.  A blank text has no lexeme or starts with an unknown one; it is no guard.
-/

namespace GossipGames
namespace Guard

/-- A text is empty, or something else follows a character that is skipped or a first lexeme. -/
theorem lexeme_induction {motive : List Char → Prop} (nil : motive [])
    (skip : ∀ c s, Lexer.isSkipped c = true → motive s → motive (c :: s))
    (cut : ∀ c s, Lexer.isSkipped c = false → motive (Lexer.cut c s).2 → motive (c :: s))
    (s : List Char) : motive s :=
  Lexer.pieces.induct (fun _ s => motive s) (fun _ => nil) (fun _ => skip)
    (fun _ c s hc => cut c s (Bool.eq_false_iff.mpr hc)) 0 s

def lexemes (s : List Char) : List Lexeme :=
  (Lexer.pieces 0 s).map Piece.lexeme

theorem map_lexeme_pieces (offset : Nat) (s : List Char) :
    (Lexer.pieces offset s).map Piece.lexeme = lexemes s := by
  have hall : ∀ offset offset',
      (Lexer.pieces offset s).map Piece.lexeme = (Lexer.pieces offset' s).map Piece.lexeme := by
    induction s using lexeme_induction with
    | nil =>
        simp [Lexer.pieces]
    | skip c s hskipped ih =>
        intro offset offset'
        rw [Lexer.pieces, Lexer.pieces, if_pos hskipped, if_pos hskipped]
        exact ih _ _
    | cut c s hskipped ih =>
        intro offset offset'
        rw [Lexer.pieces, Lexer.pieces, if_neg (by simp [hskipped]), if_neg (by simp [hskipped])]
        exact congrArg (_ :: ·) (ih _ _)
  exact hall offset 0

theorem map_lexeme_lex (text : String) : (lex text).map Piece.lexeme = lexemes text.toList :=
  rfl

/-!
# One lexeme

A sign is cut off wherever it stands.  At any other place a word is cut off, or a character that
starts none.
-/

def Token.isSign : Token → Bool
  | const _ => false
  | name _ => false
  | _ => true

theorem Token.exists_spelling_of_isSign {t : Token} (h : t.isSign = true) :
    ∃ c w, t.spelling.toList = c :: w ∧ Lexer.isNameStart c = false ∧ isBlank c = false := by
  cases t with
  | const _ | name _ =>
      cases h
  | negation | openParen | closeParen =>
      exact ⟨_, _, rfl, rfl, rfl⟩
  | connective c =>
      cases c <;> exact ⟨_, _, rfl, rfl, rfl⟩

theorem cut_of_isSign {t : Token} {c : Char} {s rest : List Char} (ht : t.isSign = true)
    (h : c :: s = t.spelling.toList ++ rest) : Lexer.cut c s = (Lexeme.token t, rest) := by
  cases t with
  | const _ | name _ =>
      cases ht
  | negation | openParen | closeParen =>
      cases h
      rfl
  | connective d =>
      cases d <;> cases h <;> rfl

theorem cut_cases (c : Char) (s : List Char) :
    (∃ t rest, t.isSign = true ∧ c :: s = t.spelling.toList ++ rest ∧
        Lexer.cut c s = (Lexeme.token t, rest)) ∨
      (Lexer.isNameStart c = true ∧ Lexer.cut c s =
        (Lexeme.token (Lexer.word (c :: s.takeWhile Lexer.isNameChar)),
          s.dropWhile Lexer.isNameChar)) ∨
      (Lexer.isNameStart c = false ∧ Lexer.cut c s = (Lexeme.unknown c, s)) := by
  unfold Lexer.cut
  split
  case h_9 =>
    cases hstart : Lexer.isNameStart c with
    | true =>
        exact Or.inr (Or.inl ⟨rfl, if_pos rfl⟩)
    | false =>
        exact Or.inr (Or.inr ⟨rfl, if_neg Bool.false_ne_true⟩)
  all_goals exact Or.inl ⟨_, _, rfl, rfl, rfl⟩

@[simp]
theorem lexemes_nil : lexemes [] = [] := by
  simp [lexemes, Lexer.pieces]

theorem lexemes_of_isSkipped {c : Char} (h : Lexer.isSkipped c = true) (s : List Char) :
    lexemes (c :: s) = lexemes s := by
  rw [lexemes, Lexer.pieces, if_pos h, map_lexeme_pieces]

theorem lexemes_of_not_isSkipped {c : Char} (h : Lexer.isSkipped c = false) (s : List Char) :
    lexemes (c :: s) = (Lexer.cut c s).1 :: lexemes (Lexer.cut c s).2 := by
  rw [lexemes, Lexer.pieces, if_neg (by simp [h]), List.map_cons, map_lexeme_pieces]

@[simp]
theorem lexemes_space (s : List Char) : lexemes (' ' :: s) = lexemes s :=
  lexemes_of_isSkipped rfl s

@[simp]
theorem lexemes_negation (s : List Char) :
    lexemes ('!' :: s) = Lexeme.token Token.negation :: lexemes s :=
  lexemes_of_not_isSkipped rfl s

@[simp]
theorem lexemes_openParen (s : List Char) :
    lexemes ('(' :: s) = Lexeme.token Token.openParen :: lexemes s :=
  lexemes_of_not_isSkipped rfl s

@[simp]
theorem lexemes_closeParen (s : List Char) :
    lexemes (')' :: s) = Lexeme.token Token.closeParen :: lexemes s :=
  lexemes_of_not_isSkipped rfl s

/-- No character at the front of the list would make a word before it longer. -/
def EndsWord (s : List Char) : Prop :=
  ∀ c ∈ s.head?, Lexer.isNameChar c = false

theorem isNameChar_of_isSkipped {c : Char} (h : Lexer.isSkipped c = true) :
    Lexer.isNameChar c = false := by
  simp only [Lexer.isSkipped, Bool.or_eq_true, beq_iff_eq] at h
  rcases h with ((rfl | rfl) | rfl) | rfl <;> rfl

theorem isSkipped_of_isNameChar {c : Char} (h : Lexer.isNameChar c = true) :
    Lexer.isSkipped c = false := by
  rw [← Bool.not_eq_true]
  intro hskipped
  rw [isNameChar_of_isSkipped hskipped] at h
  cases h

theorem isNameChar_of_isNameStart {c : Char} (h : Lexer.isNameStart c = true) :
    Lexer.isNameChar c = true := by
  simp only [Lexer.isNameStart, Lexer.isNameChar, Char.isAlphanum, Bool.or_eq_true] at h ⊢
  rcases h with halpha | hline
  · exact Or.inl (Or.inl halpha)
  · exact Or.inr hline

theorem isNameStart_cases {c : Char} (h : Lexer.isNameStart c = true) :
    Lexer.isSkipped c = false ∧
      ∀ s, Lexer.cut c s =
        (Lexeme.token (Lexer.word (c :: s.takeWhile Lexer.isNameChar)),
          s.dropWhile Lexer.isNameChar) := by
  constructor
  · exact isSkipped_of_isNameChar (isNameChar_of_isNameStart h)
  · intro s
    rcases cut_cases c s with ⟨t, rest, ht, hs, _⟩ | ⟨_, hcut⟩ | ⟨hstart, _⟩
    · rcases Token.exists_spelling_of_isSign ht with ⟨d, w, hspelling, hstart, _⟩
      rw [hspelling, List.cons_append] at hs
      rw [← (List.cons_eq_cons.mp hs).1, h] at hstart
      cases hstart
    · exact hcut
    · rw [h] at hstart
      cases hstart

theorem lexemes_word {c : Char} {w s : List Char} (hc : Lexer.isNameStart c = true)
    (hw : ∀ d ∈ w, Lexer.isNameChar d = true) (hs : EndsWord s) :
    lexemes (c :: (w ++ s)) = Lexeme.token (Lexer.word (c :: w)) :: lexemes s := by
  rcases isNameStart_cases hc with ⟨hskipped, hcut⟩
  rcases Scanner.takeWhile_append_of_avoids hw hs with ⟨htake, hdrop⟩
  rw [lexemes_of_not_isSkipped hskipped, hcut, htake, hdrop]

theorem toNat_of_isNameStart {c : Char} (h : Lexer.isNameStart c = true) :
    (65 ≤ c.toNat ∧ c.toNat ≤ 90) ∨ (97 ≤ c.toNat ∧ c.toNat ≤ 122) ∨ c.toNat = 95 := by
  have hclasses : ((decide (65 ≤ c.val ∧ c.val ≤ 90) ||
      (decide (97 ≤ c.val) && decide (c.val ≤ 122))) || c == '_') = true := h
  simp only [Bool.or_eq_true, Bool.and_eq_true, decide_eq_true_eq, beq_iff_eq,
    UInt32.le_iff_toNat_le] at hclasses
  rcases hclasses with (hupper | hlower) | rfl
  · exact Or.inl hupper
  · exact Or.inr (Or.inl hlower)
  · exact Or.inr (Or.inr rfl)

theorem isNameStart_of_isBlank {c : Char} (h : isBlank c = true) :
    Lexer.isNameStart c = false := by
  rw [← Bool.not_eq_true]
  intro hstart
  have hrange := toNat_of_isNameStart hstart
  simp only [isBlank, Bool.or_eq_true, decide_eq_true_eq, beq_iff_eq] at h
  omega

theorem cut_of_isBlank {c : Char} (h : isBlank c = true) (s : List Char) :
    Lexer.cut c s = (Lexeme.unknown c, s) := by
  rcases cut_cases c s with ⟨t, rest, ht, hs, _⟩ | ⟨hstart, _⟩ | ⟨_, hcut⟩
  · rcases Token.exists_spelling_of_isSign ht with ⟨d, w, hspelling, _, hblank⟩
    rw [hspelling, List.cons_append] at hs
    rw [← (List.cons_eq_cons.mp hs).1, h] at hblank
    cases hblank
  · rw [isNameStart_of_isBlank h] at hstart
    cases hstart
  · exact hcut

theorem lexemes_of_blank {s : List Char} (h : ∀ c ∈ s, isBlank c = true) :
    lexemes s = [] ∨ ∃ c ls, lexemes s = Lexeme.unknown c :: ls := by
  induction s with
  | nil =>
      exact Or.inl lexemes_nil
  | cons c s ih =>
      cases hskipped : Lexer.isSkipped c with
      | true =>
          rw [lexemes_of_isSkipped hskipped]
          exact ih fun d hd => h d (List.mem_cons_of_mem c hd)
      | false =>
          rw [lexemes_of_not_isSkipped hskipped, cut_of_isBlank (h c List.mem_cons_self)]
          exact Or.inr ⟨c, _, rfl⟩

theorem trim_ne_nil_of_parse {text : String} {g : Guard} (h : parse text = .ok g) :
    trim text.toList ≠ [] := by
  intro htrim
  rcases parse_eq_ok_iff.mp h with ⟨ts, hlexemes, hderives⟩
  rw [map_lexeme_lex] at hlexemes
  rcases lexemes_of_blank (trim_eq_nil_iff.mp htrim) with hnil | ⟨c, ls, hcons⟩
  · rw [hnil] at hlexemes
    exact derives_ne_nil hderives (List.map_eq_nil_iff.mp hlexemes.symm)
  · rw [hcons] at hlexemes
    cases ts <;> cases hlexemes

end Guard
end GossipGames

import GossipGames.Proofs.Guard.Rejections
import GossipGames.Proofs.Guard.Tiling
import GossipGames.Proofs.Report.Marks

/-!
# Marks on unknown characters

The place of an unknown character counts bytes, and a report counts characters.  The two agree where
the character starts, since tokens and blanks are written in characters of one byte.  They agree
where it ends if it takes one byte itself.
-/

namespace GossipGames
namespace Guard

open String (utf8Len)

/-- The first character of a text at which no token starts, and what stands before it. -/
structure FirstUnknown (text : String) (before : List Char) (c : Char) : Prop where
  stands : ∃ after, text.toList = before ++ c :: after
  piece : ⟨Lexeme.unknown c, ⟨utf8Len before, utf8Len before + c.utf8Size⟩⟩ ∈ lex text
  first : ∀ p ∈ lex text, p.span.start < utf8Len before → ∃ t, p.lexeme = Lexeme.token t

theorem utf8Size_of_isNameChar {c : Char} (h : Lexer.isNameChar c = true) : c.utf8Size = 1 := by
  rw [Char.utf8Size_eq_one_iff]
  rcases (Bool.or_eq_true _ _).mp h with halphanum | hline
  · rcases (Bool.or_eq_true _ _).mp halphanum with halpha | hdigit
    · rcases (Bool.or_eq_true _ _).mp halpha with hupper | hlower
      · exact UInt32.le_trans (of_decide_eq_true hupper).2 (by decide)
      · exact UInt32.le_trans (of_decide_eq_true ((Bool.and_eq_true _ _).mp hlower).2) (by decide)
    · exact UInt32.le_trans (of_decide_eq_true ((Bool.and_eq_true _ _).mp hdigit).2) (by decide)
  · rw [eq_of_beq hline]
    decide

theorem IsWord.utf8Size {w : List Char} (h : IsWord w) : ∀ c ∈ w, c.utf8Size = 1 := by
  rcases h with ⟨d, cs, rfl, hd, hcs⟩
  rw [List.forall_mem_cons]
  exact ⟨utf8Size_of_isNameChar (isNameChar_of_isNameStart hd),
    fun c hc => utf8Size_of_isNameChar (hcs c hc)⟩

theorem Token.utf8Size_of_isSign {t : Token} (h : t.isSign = true) :
    ∀ c ∈ t.spelling.toList, c.utf8Size = 1 := by
  cases t with
  | const _ | name _ =>
      cases h
  | negation | openParen | closeParen =>
      simp [spelling, Char.utf8Size]
  | connective c =>
      cases c <;> simp [spelling, Connective.spelling, Char.utf8Size]

theorem Takes.utf8Size {t : Token} {w rest : List Char} (h : Takes (Lexeme.token t) w rest) :
    ∀ c ∈ w, c.utf8Size = 1 := by
  cases h with
  | token htaken _ =>
      rcases htaken.matched.isWord_or_isSign with hword | hsign
      · exact hword.utf8Size
      · rw [htaken.matched.1]
        exact Token.utf8Size_of_isSign hsign

/-- Before an unknown character that follows tokens only, every character takes one byte. -/
theorem Tiles.exists_of_unknown {offset : Nat} {s : List Char} {pre post : List Piece} {c : Char}
    {span : Span} (h : Tiles offset s (pre ++ ⟨Lexeme.unknown c, span⟩ :: post))
    (hpre : ∀ p ∈ pre, ∃ t, p.lexeme = Lexeme.token t) :
    ∃ before after, s = before ++ c :: after ∧ (∀ d ∈ before, d.utf8Size = 1) ∧
      span = ⟨offset + utf8Len before, offset + utf8Len before + c.utf8Size⟩ := by
  generalize hps : pre ++ ⟨Lexeme.unknown c, span⟩ :: post = ps at h
  induction h generalizing pre with
  | done =>
      simp at hps
  | @skip offset d s ps hd _ ih =>
      rcases ih hpre hps with ⟨before, after, rfl, hsizes, rfl⟩
      refine ⟨d :: before, after, rfl, ?_, ?_⟩
      · exact List.forall_mem_cons.mpr ⟨utf8Size_of_isSkipped hd, hsizes⟩
      · rw [String.utf8Len_cons, utf8Size_of_isSkipped hd, Nat.add_comm (utf8Len before),
          ← Nat.add_assoc]
  | @take offset l w rest ps htakes _ ih =>
      cases pre with
      | nil =>
          cases hps
          cases htakes with
          | unknown _ _ =>
              exact ⟨[], rest, rfl, by simp, by simp⟩
      | cons p pre =>
          cases hps
          rw [List.forall_mem_cons] at hpre
          rcases hpre with ⟨⟨t, rfl⟩, hpre⟩
          rcases ih hpre rfl with ⟨before, after, rfl, hsizes, rfl⟩
          refine ⟨w ++ before, after, by simp, ?_, ?_⟩
          · exact List.forall_mem_append.mpr ⟨htakes.utf8Size, hsizes⟩
          · rw [String.utf8Len_append, Nat.add_assoc]

theorem firstUnknown_of_lex {text : String} {pre post : List Piece} {c : Char} {before : List Char}
    {span : Span} (hlex : lex text = pre ++ ⟨Lexeme.unknown c, span⟩ :: post)
    (hpre : ∀ p ∈ pre, ∃ t, p.lexeme = Lexeme.token t)
    (hspan : span = ⟨utf8Len before, utf8Len before + c.utf8Size⟩)
    (hstands : ∃ after, text.toList = before ++ c :: after) : FirstUnknown text before c where
  stands := hstands
  piece := by
    rw [← hspan]
    exact unknown_mem_lex hlex
  first p hp hbefore := by
    have hordered := (tiles_lex text).pairwise
    rw [hlex] at hp hordered
    rcases List.mem_append.mp hp with hp | hp
    · exact hpre p hp
    · cases hp with
      | head =>
          rw [hspan] at hbefore
          exact absurd hbefore (Nat.lt_irrefl _)
      | tail _ hp =>
          have hstop := List.rel_of_pairwise_cons (List.pairwise_append.mp hordered).2.1 hp
          rw [hspan] at hstop
          exact absurd (Nat.le_trans (Nat.le_add_right _ _) hstop) (Nat.not_le_of_lt hbefore)

/-- A text with an unknown character is refused at the first one, and the report marks that
character alone exactly when it takes one byte. -/
theorem marks_unknown_iff {text : String}
    (h : ∃ c, Lexeme.unknown c ∈ (lex text).map Piece.lexeme) :
    ∃ before c r, FirstUnknown text before c ∧ parse text = .error r ∧
      r = Rejection.unknown c ⟨before.length, before.length + c.utf8Size⟩ ∧
      ∀ name, (r.diagnostic.report name text).Marks before.length ↔ c.utf8Size = 1 := by
  rcases known_or_unknown (lex text) with ⟨ts, hlex⟩ | ⟨pre, c, span, post, hlex, hpre⟩
  · rcases h with ⟨c, hc⟩
    simp [hlex] at hc
  · have htiles := tiles_lex text
    rw [hlex] at htiles
    rcases htiles.exists_of_unknown hpre with ⟨before, after, hs, hsizes, hspan⟩
    rw [Nat.zero_add] at hspan
    have hfirst := firstUnknown_of_lex hlex hpre hspan ⟨after, hs⟩
    rw [utf8Len_eq_length hsizes] at hspan
    refine ⟨before, c, Rejection.unknown c span, hfirst, ?_, by rw [hspan], ?_⟩
    · rw [parse, hlex, tokens_of_unknown hpre]
    · intro name
      refine Report.marks_iff hspan ?_
      show before.length < text.toList.length
      rw [hs]
      simp

theorem marks_unknown_iff_number_sign :
    (∃ c, Lexeme.unknown c ∈ (lex "a # b").map Piece.lexeme) ∧
      ∃ r, parse "a # b" = .error r ∧ r.diagnostic.span = ⟨2, 3⟩ ∧
        ∀ name, (r.diagnostic.report name "a # b").Marks 2 := by
  have hunknown : ∃ c, Lexeme.unknown c ∈ (lex "a # b").map Piece.lexeme :=
    ⟨'#', by decide +kernel⟩
  have hparse : parse "a # b" = .error (Rejection.unknown '#' ⟨2, 3⟩) := by
    decide +kernel
  rcases marks_unknown_iff hunknown with ⟨before, c, r, _, hrejected, rfl, hmarks⟩
  rw [hparse] at hrejected
  injection hrejected with hsame
  injection hsame with hc hspan
  injection hspan with hlength _
  rw [← hlength, ← hc] at hmarks
  refine ⟨hunknown, _, hparse, rfl, fun name => ?_⟩
  have hmarked := (hmarks name).mpr rfl
  exact hmarked

/-- An `é` alone takes two bytes.  Its place ends beyond the text, and its line is left out. -/
theorem accented_letter_left_out :
    ∃ r, parse "é" = .error r ∧ r.diagnostic.span = ⟨0, 2⟩ ∧ "é".toList.length = 1 ∧
      ∀ name, (∀ place, ¬ (r.diagnostic.report name "é").Marks place) ∧
        (r.diagnostic.report name "é").excerpt =
          (r.diagnostic.report name "é").opening 1 ⟨0, 0, ['é']⟩ ++
            (Report.blankMargin 1 "│" ++ "\n") ++ Report.closing 1 := by
  have hparse : parse "é" = .error (Rejection.unknown 'é' ⟨0, 2⟩) := by
    decide +kernel
  have hlines : ∀ place ≤ 1, Report.Line.containing ['é'] place = some ⟨0, 0, ['é']⟩ := by
    intro place hplace
    simp [Report.Line.containing, Report.Line.ofText, Report.Line.split, Report.Line.isBreak,
      Report.Line.number, hplace]
  have hdigits : (Nat.repr 1).length = 1 := by
    decide +kernel
  have hbeyond : ¬ 2 ≤ "é".toList.length := by
    decide
  refine ⟨_, hparse, rfl, rfl, fun name => ⟨?_, ?_⟩⟩
  · intro place hmarks
    exact hbeyond hmarks.inside
  · simp [Report.excerpt, Rejection.diagnostic, Diagnostic.report, Report.last, hlines,
      Report.single, Report.Line.stop, hdigits]

end Guard
end GossipGames

import GossipGames.Proofs.Guard.Lexemes
import Mathlib.Data.String.Basic

/-!
# The longest token

Where the lexer cuts a text, it takes the longest spelling of a token that starts there, or a single
character if none does.
-/

namespace GossipGames
namespace Guard

open String (utf8Len)

/-!
# Spellings

A name is spelled by any word, and each other token by its own sign.  The two words of the constants
are no names.
-/

/-- A letter or underscore, and letters, digits and underscores after it. -/
def IsWord (w : List Char) : Prop :=
  ∃ c cs, w = c :: cs ∧ Lexer.isNameStart c = true ∧ ∀ d ∈ cs, Lexer.isNameChar d = true

namespace Token

def Matches (t : Token) (w : List Char) : Prop :=
  w = t.spelling.toList ∧ ∀ text, t = name text → IsWord w

/-- The token is taken for these characters: its pattern matches them, and no constant is taken for
a name. -/
structure TakenFor (t : Token) (w : List Char) : Prop where
  matched : t.Matches w
  const : ∀ value, w = (Token.const value).spelling.toList → t = Token.const value

end Token

/-- The lexeme is what is taken of a text that starts with `w` and goes on with `rest`. -/
inductive Takes : Lexeme → List Char → List Char → Prop where
  | token {t : Token} {w rest : List Char} : t.TakenFor w →
      (∀ u v, Token.Matches u v → v <+: w ++ rest → v.length ≤ w.length) →
      Takes (Lexeme.token t) w rest
  | unknown {c : Char} {rest : List Char} : Lexer.isSkipped c = false →
      (∀ u v, Token.Matches u v → ¬ v <+: c :: rest) → Takes (Lexeme.unknown c) [c] rest

theorem isWord_const (value : Bool) : IsWord (Token.const value).spelling.toList := by
  cases value with
  | true =>
      exact ⟨'t', ['r', 'u', 'e'], rfl, rfl, List.all_eq_true.mp rfl⟩
  | false =>
      exact ⟨'f', ['a', 'l', 's', 'e'], rfl, rfl, List.all_eq_true.mp rfl⟩

theorem spelling_word (w : List Char) : (Lexer.word w).spelling.toList = w := by
  unfold Lexer.word
  split
  · next h => simp [h, Token.spelling]
  · split
    · next h => simp [h, Token.spelling]
    · exact String.toList_ofList

theorem takenFor_word {w : List Char} (hw : IsWord w) : (Lexer.word w).TakenFor w where
  matched := ⟨(spelling_word w).symm, fun _ _ => hw⟩
  const value h := by
    rw [h]
    cases value <;> rfl

namespace Token

theorem Matches.isWord_or_isSign {t : Token} {w : List Char} (h : t.Matches w) :
    IsWord w ∨ t.isSign = true := by
  cases t with
  | const value =>
      rw [h.1]
      exact Or.inl (isWord_const value)
  | name text =>
      exact Or.inl (h.2 text rfl)
  | negation | connective _ | openParen | closeParen =>
      exact Or.inr rfl

theorem takenFor_of_isSign {t : Token} (h : t.isSign = true) : t.TakenFor t.spelling.toList where
  matched := by
    refine ⟨rfl, ?_⟩
    rintro text rfl
    cases h
  const value heq := by
    cases t with
    | const _ | name _ =>
        cases h
    | negation | openParen | closeParen =>
        cases value <;> cases heq
    | connective c =>
        cases c <;> cases value <;> cases heq

end Token

theorem cut_of_isWord {w : List Char} {c : Char} {s : List Char} (hw : IsWord w)
    (h : w <+: c :: s) :
    ∃ v, (Lexer.cut c s).1 = Lexeme.token (Lexer.word v) ∧ w.length ≤ v.length := by
  rcases hw with ⟨d, cs, rfl, hd, hcs⟩
  rcases List.cons_prefix_cons.mp h with ⟨rfl, rest, rfl⟩
  refine ⟨_, congrArg Prod.fst ((isNameStart_cases hd).2 _), ?_⟩
  rw [List.takeWhile_append_of_pos hcs]
  simp

theorem exists_cut_of_matches {u : Token} {v : List Char} {c : Char} {s : List Char}
    (hu : u.Matches v) (hv : v <+: c :: s) :
    ∃ t, (Lexer.cut c s).1 = Lexeme.token t ∧ v.length ≤ t.spelling.toList.length := by
  rcases hu.isWord_or_isSign with hword | hsign
  · rcases cut_of_isWord hword hv with ⟨w, hcut, hlength⟩
    rw [← spelling_word w] at hlength
    exact ⟨_, hcut, hlength⟩
  · rw [hu.1] at hv ⊢
    rcases hv with ⟨rest, hrest⟩
    exact ⟨u, congrArg Prod.fst (cut_of_isSign hsign hrest.symm), Nat.le_refl _⟩

theorem exists_takenFor_cut (c : Char) (s : List Char) :
    (∃ t w, (Lexer.cut c s).1 = Lexeme.token t ∧ c :: s = w ++ (Lexer.cut c s).2 ∧
        t.TakenFor w) ∨
      Lexer.cut c s = (Lexeme.unknown c, s) := by
  rcases cut_cases c s with ⟨t, rest, ht, hs, hcut⟩ | ⟨hstart, hcut⟩ | ⟨_, hcut⟩
  · rw [hcut]
    exact Or.inl ⟨t, _, rfl, hs, Token.takenFor_of_isSign ht⟩
  · have hword : IsWord (c :: s.takeWhile Lexer.isNameChar) :=
      ⟨c, _, rfl, hstart, fun d hd => List.mem_takeWhile_imp hd⟩
    rw [hcut]
    exact Or.inl ⟨_, _, rfl, by simp [List.takeWhile_append_dropWhile], takenFor_word hword⟩
  · exact Or.inr hcut

theorem exists_takes_cut {c : Char} (hc : Lexer.isSkipped c = false) (s : List Char) :
    ∃ w, c :: s = w ++ (Lexer.cut c s).2 ∧ Takes (Lexer.cut c s).1 w (Lexer.cut c s).2 := by
  rcases exists_takenFor_cut c s with ⟨t, w, hcut, hs, htaken⟩ | hcut
  · refine ⟨w, hs, ?_⟩
    rw [hcut]
    refine Takes.token htaken ?_
    intro u v hu hv
    rw [← hs] at hv
    rcases exists_cut_of_matches hu hv with ⟨t', hcut', hlength⟩
    rw [hcut] at hcut'
    cases hcut'
    rwa [← htaken.matched.1] at hlength
  · rw [hcut]
    refine ⟨[c], rfl, Takes.unknown hc ?_⟩
    intro u v hu hv
    rcases exists_cut_of_matches hu hv with ⟨t, hcut', _⟩
    rw [hcut] at hcut'
    cases hcut'

/-!
# What a lexeme takes
-/

theorem utf8Size_of_isSkipped {c : Char} (h : Lexer.isSkipped c = true) : c.utf8Size = 1 := by
  simp only [Lexer.isSkipped, Bool.or_eq_true, beq_iff_eq] at h
  rcases h with ((rfl | rfl) | rfl) | rfl <;> rfl

theorem IsWord.isSkipped {w : List Char} (h : IsWord w) : ∀ c ∈ w, Lexer.isSkipped c = false := by
  rcases h with ⟨d, cs, rfl, hd, hcs⟩
  intro c hc
  cases hc with
  | head =>
      exact (isNameStart_cases hd).1
  | tail _ hc =>
      exact isSkipped_of_isNameChar (hcs c hc)

theorem Token.isSkipped_of_isSign {t : Token} (h : t.isSign = true) :
    ∀ c ∈ t.spelling.toList, Lexer.isSkipped c = false := by
  cases t with
  | const _ | name _ =>
      cases h
  | negation | openParen | closeParen =>
      simp [spelling, Lexer.isSkipped]
  | connective c =>
      cases c <;> simp [spelling, Connective.spelling, Lexer.isSkipped]

theorem isSign_word (w : List Char) : (Lexer.word w).isSign = false := by
  unfold Lexer.word
  split
  · rfl
  · split <;> rfl

namespace Takes

variable {l : Lexeme} {w rest : List Char}

theorem size_eq (h : Takes l w rest) : l.size = utf8Len w := by
  cases h with
  | token htaken _ =>
      rw [htaken.matched.1, ← String.utf8ByteSize_ofList, String.ofList_toList]
      rfl
  | unknown _ _ =>
      simp [Lexeme.size]

theorem ne_nil (h : Takes l w rest) : w ≠ [] := by
  cases h with
  | @token t _ _ htaken _ =>
      rcases htaken.matched.isWord_or_isSign with ⟨c, cs, rfl, _⟩ | hsign
      · exact List.cons_ne_nil c cs
      · rcases Token.exists_spelling_of_isSign hsign with ⟨c, cs, hspelling, _⟩
        rw [htaken.matched.1, hspelling]
        exact List.cons_ne_nil c cs
  | unknown _ _ =>
      exact List.cons_ne_nil _ _

theorem isSkipped (h : Takes l w rest) : ∀ c ∈ w, Lexer.isSkipped c = false := by
  cases h with
  | token htaken _ =>
      rcases htaken.matched.isWord_or_isSign with hword | hsign
      · exact hword.isSkipped
      · rw [htaken.matched.1]
        exact Token.isSkipped_of_isSign hsign
  | unknown hc _ =>
      intro d hd
      rwa [List.mem_singleton.mp hd]

/-- A word is taken as a whole: with the next letter it would be a longer name. -/
theorem endsWord (h : Takes l w rest) (hword : IsWord w) : EndsWord rest := by
  intro d hd
  rw [← Bool.not_eq_true]
  intro hchar
  rcases hword with ⟨c, cs, rfl, hc, hcs⟩
  rcases List.head?_eq_some_iff.mp hd with ⟨s, rfl⟩
  have hlonger : (Token.name (String.ofList (c :: (cs ++ [d])))).Matches (c :: (cs ++ [d])) := by
    refine ⟨String.toList_ofList.symm, ?_⟩
    intro text _
    refine ⟨c, cs ++ [d], rfl, hc, ?_⟩
    intro e he
    rcases List.mem_append.mp he with he | he
    · exact hcs e he
    · rwa [List.mem_singleton.mp he]
  have hstarts : c :: (cs ++ [d]) <+: c :: cs ++ d :: s := ⟨s, by simp⟩
  cases h with
  | token _ hlongest =>
      simpa using hlongest _ _ hlonger hstarts
  | unknown _ hnone =>
      exact hnone _ _ hlonger hstarts

theorem eq_of_isSign {t : Token} (h : Takes l w rest) (ht : t.isSign = true)
    (hstarts : t.spelling.toList <+: w ++ rest) : l = Lexeme.token t := by
  cases h with
  | @token u _ _ htaken hlongest =>
      rcases hstarts with ⟨after, hafter⟩
      rcases htaken.matched.isWord_or_isSign with ⟨c, cs, rfl, hc, hcs⟩ | hsign
      · have hcut := cut_of_isSign ht hafter.symm
        rw [(isNameStart_cases hc).2] at hcut
        cases hcut
        rw [isSign_word] at ht
        cases ht
      · rcases List.exists_cons_of_ne_nil (Takes.token htaken hlongest).ne_nil with ⟨c, cs, rfl⟩
        have hcut : Lexer.cut c (cs ++ rest) = (Lexeme.token u, rest) :=
          cut_of_isSign hsign (by rw [← htaken.matched.1, List.cons_append])
        have hcut' : Lexer.cut c (cs ++ rest) = (Lexeme.token t, after) :=
          cut_of_isSign ht hafter.symm
        rw [hcut'] at hcut
        exact (congrArg Prod.fst hcut).symm
  | unknown _ hnone =>
      exact absurd hstarts (hnone t _ (Token.takenFor_of_isSign ht).matched)

end Takes

end Guard
end GossipGames

import GossipGames.Proofs.Guard.Lexemes

/-!
# Joined texts

Texts that are joined by the sign of a connective between blanks give the tokens of each of them
with the sign between two neighbours.
-/

namespace GossipGames
namespace Guard

def Connective.sign (c : Connective) : String :=
  " " ++ c.spelling ++ " "

/-- The text gives these tokens wherever a word may end after it. -/
def Spells (w : List Char) (ts : List Token) : Prop :=
  ∀ s, EndsWord s → lexemes (w ++ s) = ts.map Lexeme.token ++ lexemes s

/-- The text ends the word before it and gives this one token whatever follows. -/
def Separates (w : List Char) (t : Token) : Prop :=
  ∀ s, EndsWord (w ++ s) ∧ lexemes (w ++ s) = Lexeme.token t :: lexemes s

variable {ι : Type} {text : ι → String} {ts : ι → List Token} {g : ι → Guard}

theorem endsWord_nil : EndsWord [] := by
  intro c hc
  cases hc

theorem endsWord_cons {c : Char} (h : Lexer.isNameChar c = false) (s : List Char) :
    EndsWord (c :: s) := by
  intro d hd
  cases hd
  exact h

theorem EndsWord.append {w s : List Char} (hw : EndsWord w) (hs : EndsWord s) :
    EndsWord (w ++ s) := by
  cases w with
  | nil =>
      exact hs
  | cons c w =>
      exact hw

theorem lexemes_of_spells {w : List Char} {ts : List Token} (h : Spells w ts) :
    lexemes w = ts.map Lexeme.token := by
  simpa using h [] endsWord_nil

/-- A word at the end of the text goes on into what follows, and no other token does. -/
theorem cut_append {c : Char} {s rest : List Char} {t : Token}
    (h : (Lexer.cut c s).1 = Lexeme.token t) (hrest : EndsWord rest) :
    Lexer.cut c (s ++ rest) = (Lexeme.token t, (Lexer.cut c s).2 ++ rest) := by
  rcases cut_cases c s with ⟨u, s', hu, hs, hcut⟩ | ⟨hstart, hcut⟩ | ⟨_, hcut⟩
  · rw [hcut] at h ⊢
    cases h
    exact cut_of_isSign hu (by rw [← List.cons_append, hs, List.append_assoc])
  · have hword : ∀ d ∈ s.takeWhile Lexer.isNameChar, Lexer.isNameChar d = true :=
      fun d hd => List.mem_takeWhile_imp hd
    have hends : EndsWord (s.dropWhile Lexer.isNameChar ++ rest) :=
      EndsWord.append (Scanner.avoids_dropWhile _ s) hrest
    rcases Scanner.takeWhile_append_of_avoids hword hends with ⟨htake, hdrop⟩
    rw [← List.append_assoc, List.takeWhile_append_dropWhile] at htake hdrop
    rw [hcut] at h ⊢
    rw [(isNameStart_cases hstart).2, htake, hdrop]
    exact congrArg (fun l => (l, s.dropWhile Lexer.isNameChar ++ rest)) h
  · rw [hcut] at h
    cases h

theorem spells_of_lexemes {w : List Char} {ts : List Token}
    (h : lexemes w = ts.map Lexeme.token) : Spells w ts := by
  intro rest hrest
  induction w using lexeme_induction generalizing ts with
  | nil =>
      rw [← h, lexemes_nil]
      rfl
  | skip c w hskipped ih =>
      rw [lexemes_of_isSkipped hskipped] at h
      rw [List.cons_append, lexemes_of_isSkipped hskipped, ih h]
  | cut c w hskipped ih =>
      rw [lexemes_of_not_isSkipped hskipped] at h
      cases ts with
      | nil =>
          cases h
      | cons t ts =>
          rcases List.cons_eq_cons.mp h with ⟨hfirst, hothers⟩
          rw [List.cons_append, lexemes_of_not_isSkipped hskipped, cut_append hfirst hrest,
            ih hothers]
          rfl

theorem spells_word {c : Char} {w : List Char} (hc : Lexer.isNameStart c = true)
    (hw : ∀ d ∈ w, Lexer.isNameChar d = true) : Spells (c :: w) [Lexer.word (c :: w)] := by
  intro s hs
  exact lexemes_word hc hw hs

theorem spells_negation {w : List Char} {ts : List Token} (h : Spells w ts) :
    Spells ('!' :: w) (Token.negation :: ts) := by
  intro s hs
  rw [List.cons_append, lexemes_negation, h s hs]
  rfl

theorem lexemes_skipped {w : List Char} (hw : ∀ c ∈ w, Lexer.isSkipped c = true) (s : List Char) :
    lexemes (w ++ s) = lexemes s := by
  induction w with
  | nil =>
      rfl
  | cons c w ih =>
      rw [List.forall_mem_cons] at hw
      rw [List.cons_append, lexemes_of_isSkipped hw.1, ih hw.2]

theorem separates_spelling (c : Connective) : Separates c.spelling.toList (Token.connective c) := by
  intro s
  cases c <;> exact ⟨endsWord_cons rfl _, lexemes_of_not_isSkipped rfl _⟩

theorem separates_between {before after : String}
    (hbefore : ∀ d ∈ before.toList, Lexer.isSkipped d = true)
    (hafter : ∀ d ∈ after.toList, Lexer.isSkipped d = true) (c : Connective) :
    Separates (before ++ c.spelling ++ after).toList (Token.connective c) := by
  intro s
  rcases separates_spelling c (after.toList ++ s) with ⟨hends, hsign⟩
  rw [String.toList_append, String.toList_append, List.append_assoc, List.append_assoc]
  constructor
  · have hblank : EndsWord before.toList :=
      fun d hd => isNameChar_of_isSkipped (hbefore d (List.mem_of_mem_head? hd))
    exact hblank.append hends
  · rw [lexemes_skipped hbefore, hsign, lexemes_skipped hafter]

theorem separates_sign (c : Connective) : Separates c.sign.toList (Token.connective c) := by
  have hblank : ∀ d ∈ " ".toList, Lexer.isSkipped d = true :=
    List.all_eq_true.mp rfl
  exact separates_between hblank hblank c

theorem separates_and : Separates " & ".toList (Token.connective Connective.and) := by
  have hsign : Connective.and.sign = " & " := by
    decide
  rw [← hsign]
  exact separates_sign Connective.and

theorem separates_or : Separates " | ".toList (Token.connective Connective.or) := by
  have hsign : Connective.or.sign = " | " := by
    decide
  rw [← hsign]
  exact separates_sign Connective.or

theorem spells_separated {v w sep : List Char} {us vs : List Token} {t : Token}
    (hsep : Separates sep t) (hv : Spells v us) (hw : Spells w vs) :
    Spells (v ++ sep ++ w) (us ++ t :: vs) := by
  intro s hs
  rcases hsep (w ++ s) with ⟨hends, hsign⟩
  rw [List.append_assoc, List.append_assoc, hv _ hends, hsign, hw s hs]
  simp

theorem spells_intercalate {sep : String} {t : Token} (hsep : Separates sep.toList t)
    (hspells : ∀ i, Spells (text i).toList (ts i)) (is : List ι) :
    Spells (sep.intercalate (is.map text)).toList ([t].intercalate (is.map ts)) := by
  induction is with
  | nil =>
      intro s _
      simp
  | cons i is ih =>
      cases is with
      | nil =>
          simpa using hspells i
      | cons j is =>
          simpa [String.intercalate_cons_cons] using spells_separated hsep (hspells i) ih

theorem mem_or_exists_of_mem_intercalate {α : Type} {sep : List α} {parts : List (List α)} {x : α}
    (h : x ∈ sep.intercalate parts) : x ∈ sep ∨ ∃ part ∈ parts, x ∈ part := by
  induction parts with
  | nil =>
      cases h
  | cons first parts ih =>
      cases parts with
      | nil =>
          exact Or.inr ⟨first, List.mem_cons_self, by simpa using h⟩
      | cons second parts =>
          rw [List.intercalate_cons_cons, List.mem_append, List.mem_append] at h
          rcases h with (hfirst | hsep) | hrest
          · exact Or.inr ⟨first, List.mem_cons_self, hfirst⟩
          · exact Or.inl hsep
          · rcases ih hrest with hsep | ⟨part, hpart, hx⟩
            · exact Or.inl hsep
            · exact Or.inr ⟨part, List.mem_cons_of_mem first hpart, hx⟩

/-!
# Joined guards

What is joined reads as the chain of the operands.
-/

theorem leaves_foldl {f : Guard → Guard → Guard}
    (hf : ∀ g h, (f g h).leaves = g.leaves ++ h.leaves) (g : Guard) (gs : List Guard) :
    (gs.foldl f g).leaves = (g :: gs).flatMap leaves := by
  induction gs generalizing g with
  | nil =>
      simp
  | cons h gs ih =>
      rw [List.foldl_cons, ih]
      simp [hf]

theorem leaves_join (c : Connective) (g : Guard) (gs : List Guard) :
    (c.join g gs).leaves = (g :: gs).flatMap leaves := by
  cases c with
  | iff =>
      rw [Connective.join]
      exact leaves_foldl (fun _ _ => by simp [leaves]) g gs
  | xor =>
      rw [Connective.join]
      exact leaves_foldl (fun _ _ => by simp [leaves]) g gs
  | implies =>
      induction gs generalizing g with
      | nil =>
          simp [Connective.join]
      | cons h gs ih =>
          simp [Connective.join, leaves, ih]
  | or | and =>
      cases gs <;> simp [Connective.join, leaves]

theorem eval_join_and (truth : String → Bool) (g : Guard) (gs : List Guard) :
    (Connective.and.join g gs).eval truth = (g :: gs).all (eval truth) := by
  cases gs <;> simp [Connective.join, eval]

theorem eval_join_or (truth : String → Bool) (g : Guard) (gs : List Guard) :
    (Connective.or.join g gs).eval truth = (g :: gs).any (eval truth) := by
  cases gs <;> simp [Connective.join, eval]

theorem derives_iff {ph : Phrase} {ts : List Token} {g : Guard} (h : Derives ph ts g) :
    Derives Phrase.iff ts g :=
  derives_of_rank_le h (Nat.zero_le ph.rank)

/-!
# Texts of phrases

A text is a phrase of a guard when it gives tokens from which the grammar derives the guard.
-/

def WrittenAs (w : String) (ph : Phrase) (g : Guard) : Prop :=
  ∃ ts, Spells w.toList ts ∧ Derives ph ts g

theorem WrittenAs.looser {w : String} {ph looser : Phrase} {g : Guard} (h : WrittenAs w ph g)
    (hle : looser.rank ≤ ph.rank) : WrittenAs w looser g := by
  rcases h with ⟨ts, hspells, hderives⟩
  exact ⟨ts, hspells, derives_of_rank_le hderives hle⟩

theorem parse_of_writtenAs {w : String} {ph : Phrase} {g : Guard} (h : WrittenAs w ph g) :
    parse w = .ok g := by
  rcases h with ⟨ts, hspells, hderives⟩
  exact parse_eq_ok_iff.mpr ⟨ts, lexemes_of_spells hspells, derives_iff hderives⟩

theorem exists_row_of_writtenAs {below : Phrase} {c : Connective} {sep : String}
    (hsep : Separates sep.toList (Token.connective c)) {i : ι} {js : List ι}
    (h : ∀ j ∈ i :: js, WrittenAs (text j) below (g j)) :
    ∃ ts, Spells (sep.intercalate ((i :: js).map text)).toList ts ∧
      Scanner.Row (Token.connective c) (Derives below) ts (g i, js.map g) := by
  induction js generalizing i with
  | nil =>
      rcases h i List.mem_cons_self with ⟨ts, hspells, hderives⟩
      exact ⟨ts, by simpa using hspells, Scanner.Row.one hderives⟩
  | cons j js ih =>
      rcases h i List.mem_cons_self with ⟨ts, hspells, hderives⟩
      rcases ih fun k hk => h k (List.mem_cons_of_mem i hk) with ⟨us, hrest, hrow⟩
      have hspells := spells_separated hsep hspells hrest
      exact ⟨_, by simpa [String.intercalate_cons_cons] using hspells,
        Scanner.Row.more hderives hrow⟩

theorem writtenAs_chain {ph below : Phrase} {c : Connective} {sep : String}
    (hchain : ph.chain? = some (c, below)) (hsep : Separates sep.toList (Token.connective c))
    {i : ι} {js : List ι} (h : ∀ j ∈ i :: js, WrittenAs (text j) below (g j)) :
    WrittenAs (sep.intercalate ((i :: js).map text)) ph (c.join (g i) (js.map g)) := by
  rcases exists_row_of_writtenAs hsep h with ⟨ts, hspells, hrow⟩
  exact ⟨ts, hspells, derives_of_row hchain hrow⟩

end Guard
end GossipGames

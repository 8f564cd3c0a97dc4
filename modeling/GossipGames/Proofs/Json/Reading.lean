import GossipGames.Proofs.Json.Words

/-!
# Reading and the grammar

The reader makes a value of exactly the texts of the grammar.  Soundness holds for any depth of
lists and objects; completeness holds for the texts that are not longer than this depth.
-/

namespace GossipGames
namespace Json

open Scanner (Avoids)

/-!
# Blanks

What stands between blanks does not start with a blank, nor with a closing bracket.
-/

theorem blank_takeWhile (s : List Char) : Blank (s.takeWhile isSpace) := by
  intro c hc
  exact List.mem_takeWhile_imp hc

theorem eq_blanks_append (s : List Char) : s = s.takeWhile isSpace ++ blanks.apply s :=
  List.takeWhile_append_dropWhile.symm

theorem apply_blanks_append {w s : List Char} (hw : Blank w) (hs : Avoids isSpace s) :
    blanks.apply (w ++ s) = s :=
  (Scanner.takeWhile_append_of_avoids hw hs).2

def Opens (R : List Char → α → Prop) : Prop :=
  ∀ w a, R w a → ∃ c t, w = c :: t ∧ isSpace c = false ∧ c ≠ ']' ∧ c ≠ '\x7d'

/-- What may follow a value that has blanks around it. -/
def Ends (s : List Char) : Prop :=
  Avoids isSpace s ∧ Avoids Char.isDigit s

theorem ends_cons {c : Char} (hspace : isSpace c = false) (hdigit : c.isDigit = false)
    (s : List Char) : Ends (c :: s) :=
  ⟨Scanner.avoids_cons hspace s, Scanner.avoids_cons hdigit s⟩

theorem isDigit_of_isSpace {c : Char} (h : isSpace c = true) : c.isDigit = false := by
  simp only [isSpace, Bool.or_eq_true, beq_iff_eq] at h
  rcases h with ((rfl | rfl) | rfl) | rfl <;> rfl

theorem avoids_blanks_append {w s : List Char} (hw : Blank w) (hs : Avoids Char.isDigit s) :
    Avoids Char.isDigit (w ++ s) := by
  cases w with
  | nil =>
      exact hs
  | cons c w =>
      intro d hd
      cases hd
      exact isDigit_of_isSpace (hw c List.mem_cons_self)

theorem head?_surrounded {R : List Char → α → Prop} {w : List Char} {a : α}
    (hopens : Opens R) (h : Surrounded R w a) (s : List Char) :
    (blanks.apply (w ++ s)).head? ≠ some ']' ∧ (blanks.apply (w ++ s)).head? ≠ some '\x7d' := by
  cases h with
  | @blanks before u _ after hbefore hu hafter =>
      rcases hopens u a hu with ⟨c, t, rfl, hspace, hlist, hobject⟩
      have hfirst := Scanner.avoids_cons hspace (t ++ (after ++ s))
      have happly : blanks.apply (before ++ (c :: t ++ after) ++ s) = c :: (t ++ (after ++ s)) := by
        rw [← apply_blanks_append hbefore hfirst]
        simp
      rw [happly]
      simpa using And.intro hlist hobject

theorem sound_surroundedBy {p : Scanner Char α} {R : List Char → α → Prop} (hp : p.Sound R) :
    (p.surroundedBy blanks).Sound (Surrounded R) := by
  intro s a rest h
  rcases Scanner.reads_surroundedBy_iff.mp h with ⟨mid, hread, rfl⟩
  rcases hp _ a mid hread with ⟨w, hs, hw⟩
  refine ⟨_, ?_, Surrounded.blanks (blank_takeWhile s) hw (blank_takeWhile mid)⟩
  rw [List.append_assoc, List.append_assoc, ← eq_blanks_append, ← hs, ← eq_blanks_append]

theorem complete_surroundedBy {p : Scanner Char α} {R : List Char → α → Prop}
    (hp : p.Complete R (Avoids Char.isDigit)) (hopens : Opens R) :
    (p.surroundedBy blanks).Complete (Surrounded R) Ends := by
  intro ts a rest h hrest
  cases h with
  | @blanks before w _ after hbefore hw hafter =>
      have hread := hp w a (after ++ rest) hw (avoids_blanks_append hafter hrest.2)
      rcases hopens w a hw with ⟨c, t, rfl, hspace, _⟩
      have hfirst := Scanner.avoids_cons hspace (t ++ (after ++ rest))
      apply Scanner.reads_surroundedBy_iff.mpr
      refine ⟨after ++ rest, ?_, apply_blanks_append hafter hrest.1⟩
      rw [List.append_assoc, List.append_assoc, List.cons_append,
        apply_blanks_append hbefore hfirst]
      exact hread

variable {closing : Char} {part : Scanner Char α} {R : List Char → α → Prop}
  {stop : List Char → Prop}

theorem sound_parts (hpart : part.Sound R) :
    (parts closing part).Sound (Parts closing R) := by
  intro s as rest h
  rcases Scanner.reads_orElse_cases h with h | h
  · rcases Scanner.reads_map_iff.mp h with ⟨_, hread, rfl⟩
    have hs : blanks.apply s = closing :: rest :=
      Scanner.reads_symbol_iff.mp (Scanner.reads_skippingBefore_iff.mp hread)
    refine ⟨s.takeWhile isSpace ++ [closing], ?_, Parts.none (blank_takeWhile s)⟩
    rw [List.append_assoc, List.singleton_append, ← hs]
    exact eq_blanks_append s
  · rcases Scanner.reads_followedBy_iff.mp h with ⟨mid, _, hmapped, hclose⟩
    rcases Scanner.reads_map_iff.mp hmapped with ⟨⟨a, as⟩, hchain, rfl⟩
    rcases Scanner.sound_chain hpart s (a, as) mid hchain with ⟨w, hs, hrow⟩
    refine ⟨w ++ [closing], ?_, Parts.some hrow⟩
    rw [List.append_assoc, List.singleton_append, hs, Scanner.reads_symbol_iff.mp hclose]

theorem complete_parts (hpart : part.Complete R stop) (hcomma : ∀ rest, stop (',' :: rest))
    (hclosing : ∀ rest, stop (closing :: rest)) (hspace : isSpace closing = false)
    (hne : closing ≠ ',')
    (hfirst : ∀ w a s, R w a → (blanks.apply (w ++ s)).head? ≠ some closing) :
    (parts closing part).Complete (Parts closing R) (fun _ => True) := by
  intro ts as rest h _
  cases h with
  | none hw =>
      have hdrop : blanks.apply (_ ++ closing :: rest) = closing :: rest :=
        apply_blanks_append hw (by simpa [Avoids] using hspace)
      apply Scanner.reads_orElse_left
      rw [List.append_assoc]
      exact Scanner.reads_map_iff.mpr ⟨(), Scanner.reads_skippingBefore_iff.mpr
        (Scanner.reads_symbol_iff.mpr hdrop), rfl⟩
  | @some w a as hrow =>
      rw [List.append_assoc, List.singleton_append]
      have hstart : (blanks.apply (w ++ closing :: rest)).head? ≠ some closing := by
        cases hrow with
        | one ha =>
            exact hfirst _ _ _ ha
        | more ha _ =>
            rw [List.append_assoc]
            exact hfirst _ _ _ ha
      have hchain := Scanner.complete_chain hpart hcomma w (a, as) (closing :: rest) hrow
        ⟨hclosing rest, by simpa using hne⟩
      apply Scanner.reads_orElse_right
      · simp [Scanner.map, Scanner.skippingBefore, Scanner.symbol_eq_none_iff.mpr hstart]
      · exact Scanner.reads_followedBy_iff.mpr ⟨_, (), Scanner.reads_map_iff.mpr ⟨_, hchain, rfl⟩,
          Scanner.reads_symbol_iff.mpr rfl⟩

/-!
# Values

The relations are bounded by the length of the text.  Inside a pair of brackets one less is left.
-/

theorem opens_literal : Opens Literal := by
  intro w t h
  cases h with
  | marks =>
      exact ⟨'"', _, rfl, by decide⟩

theorem opens_number : Opens Number := by
  intro w n h
  cases h with
  | plain h =>
      cases h with
      | digits hdigits _ =>
          have hfirst := hdigits _ List.mem_cons_self
          refine ⟨_, _, rfl, ?_, ?_, ?_⟩
          · rw [← Bool.not_eq_true]
            intro hspace
            rw [isDigit_of_isSpace hspace] at hfirst
            cases hfirst
          · rintro rfl
            cases hfirst
          · rintro rfl
            cases hfirst
  | negative =>
      exact ⟨'-', _, rfl, by decide⟩

theorem opens_value : Opens (Denotes Phrase.value) := by
  intro w v h
  cases h with
  | word h =>
      cases h with
      | null | true | false =>
          exact ⟨_, _, rfl, by decide⟩
  | integer h =>
      exact opens_number w _ h
  | text h =>
      exact opens_literal w _ h
  | list =>
      exact ⟨'[', _, rfl, by decide⟩
  | object =>
      exact ⟨'\x7b', _, rfl, by decide⟩

theorem sound_member {inner : Scanner Char Json} (hinner : inner.Sound (Denotes Phrase.element)) :
    (member inner).Sound Member := by
  intro s m rest h
  rcases Scanner.reads_andThen_iff.mp h with ⟨name, mid, hname, hmapped⟩
  rcases Scanner.reads_map_iff.mp hmapped with ⟨v, hread, rfl⟩
  rcases Scanner.reads_followedBy_iff.mp hname with ⟨mid', _, hliteral, hcolon⟩
  rcases sound_surroundedBy sound_string s name mid' hliteral with ⟨u, hs, hu⟩
  rcases hinner mid v rest hread with ⟨w, hmid, hw⟩
  refine ⟨u ++ ':' :: w, ?_, Denotes.member hu hw⟩
  rw [hs, Scanner.reads_symbol_iff.mp hcolon, hmid, List.append_assoc, List.cons_append]

theorem sound_value {inner : Scanner Char Json} (hinner : inner.Sound (Denotes Phrase.element)) :
    (value inner).Sound (Denotes Phrase.value) := by
  apply Scanner.sound_orElse
  · apply Scanner.sound_map
    exact sound_number.imp fun _ _ => Denotes.integer
  · apply Scanner.sound_orElse
    · exact sound_word.imp fun _ _ => Denotes.word
    · apply Scanner.sound_orElse
      · apply Scanner.sound_map
        exact sound_string.imp fun _ _ => Denotes.text
      · apply Scanner.sound_orElse
        · apply Scanner.sound_map
          apply Scanner.sound_precededBy_symbol
          exact (sound_parts hinner).imp fun _ _ => Denotes.list
        · apply Scanner.sound_map
          apply Scanner.sound_precededBy_symbol
          exact (sound_parts (sound_member hinner)).imp fun _ _ => Denotes.object

theorem sound_element (depth : Nat) : (element depth).Sound (Denotes Phrase.element) := by
  induction depth with
  | zero =>
      intro s v rest h
      rcases h with ⟨_, h⟩
      cases h
  | succ depth ih =>
      exact (sound_surroundedBy (sound_value ih)).imp fun _ _ => Denotes.element

def UpTo (n : Nat) (R : List Char → α → Prop) (w : List Char) (a : α) : Prop :=
  R w a ∧ w.length ≤ n

theorem Parts.upTo {w : List Char} {as : List α} {n : Nat} (h : Parts closing R w as)
    (hlength : w.length ≤ n) : Parts closing (UpTo n R) w as := by
  cases h with
  | none hw =>
      exact Parts.none hw
  | some hrow =>
      rw [List.length_append] at hlength
      exact Parts.some (hrow.of_length_le (Nat.le_trans (Nat.le_add_right _ _) hlength))

theorem Surrounded.upTo {w : List Char} {a : α} {n : Nat} (h : Surrounded R w a)
    (hlength : w.length ≤ n) : Surrounded (UpTo n R) w a := by
  cases h with
  | blanks hbefore hw hafter =>
      simp only [List.length_append] at hlength
      exact Surrounded.blanks hbefore ⟨hw, by omega⟩ hafter

variable {inner : Scanner Char Json} {n : Nat}

theorem complete_member (hinner : inner.Complete (UpTo n (Denotes Phrase.element)) Ends) :
    (member inner).Complete (UpTo n Member) Ends := by
  intro ts m rest h hrest
  rcases m with ⟨name, v⟩
  rcases h with ⟨hmember, hlength⟩
  cases hmember with
  | @member u _ w _ hu hw =>
      simp only [List.length_append, List.length_cons] at hlength
      have hcolon : Ends (':' :: (w ++ rest)) := ends_cons rfl rfl _
      have hstring : string.Complete Literal (Avoids Char.isDigit) :=
        fun ts t rest h _ => complete_string ts t rest h trivial
      have hname := complete_surroundedBy hstring opens_literal u name _ hu hcolon
      have hvalue := hinner w v rest ⟨hw, by omega⟩ hrest
      rw [List.append_assoc, List.cons_append]
      apply Scanner.reads_andThen_iff.mpr
      exact ⟨name, w ++ rest, Scanner.reads_followedBy_iff.mpr
        ⟨_, (), hname, Scanner.reads_symbol_iff.mpr rfl⟩,
        Scanner.reads_map_iff.mpr ⟨v, hvalue, rfl⟩⟩

theorem complete_list (hinner : inner.Complete (UpTo n (Denotes Phrase.element)) Ends) :
    (parts ']' inner).Complete (Parts ']' (UpTo n (Denotes Phrase.element))) (fun _ => True) := by
  refine complete_parts hinner (ends_cons rfl rfl) (ends_cons rfl rfl) rfl (by decide) ?_
  intro w v s hw
  cases hw.1 with
  | element hvalue =>
      exact (head?_surrounded opens_value hvalue s).1

theorem complete_object (hinner : inner.Complete (UpTo n (Denotes Phrase.element)) Ends) :
    (parts '\x7d' (member inner)).Complete (Parts '\x7d' (UpTo n Member)) (fun _ => True) := by
  refine complete_parts (complete_member hinner) (ends_cons rfl rfl) (ends_cons rfl rfl) rfl
    (by decide) ?_
  intro w m s hw
  cases hw.1 with
  | member hname _ =>
      rw [List.append_assoc]
      exact (head?_surrounded opens_literal hname _).2

theorem reads_value {c : Char} {s rest : List Char} {v : Json} (hsign : c ≠ '-')
    (hdigit : c.isDigit = false) (h : (nonnumeric inner).Reads (c :: s) v rest) :
    (value inner).Reads (c :: s) v rest := by
  apply Scanner.reads_orElse_right
  · rw [Scanner.map, number_eq_none hsign hdigit]
    rfl
  · exact h

theorem complete_value (hinner : inner.Complete (UpTo n (Denotes Phrase.element)) Ends) :
    (value inner).Complete (UpTo (n + 1) (Denotes Phrase.value)) (Avoids Char.isDigit) := by
  intro ts v rest h hrest
  rcases h with ⟨hvalue, hlength⟩
  cases hvalue with
  | integer hw =>
      apply Scanner.reads_orElse_left
      exact Scanner.reads_map_iff.mpr ⟨_, complete_number ts _ rest hw hrest, rfl⟩
  | word hw =>
      have hread := complete_word ts v rest hw trivial
      cases hw with
      | null | true | false =>
          exact reads_value (by decide) rfl (Scanner.reads_orElse_left hread)
  | text hw =>
      have hread := complete_string ts _ rest hw trivial
      cases hw with
      | marks =>
          apply reads_value (by decide) rfl
          apply Scanner.reads_orElse_right rfl
          exact Scanner.reads_orElse_left (Scanner.reads_map_iff.mpr ⟨_, hread, rfl⟩)
  | list hparts =>
      have hbounded := hparts.upTo (Nat.le_of_succ_le_succ hlength)
      have hread := complete_list hinner _ _ rest hbounded trivial
      apply reads_value (by decide) rfl
      apply Scanner.reads_orElse_right rfl
      apply Scanner.reads_orElse_right rfl
      apply Scanner.reads_orElse_left
      exact Scanner.reads_map_iff.mpr
        ⟨_, Scanner.reads_precededBy_symbol_iff.mpr ⟨_, rfl, hread⟩, rfl⟩
  | object hparts =>
      have hbounded := hparts.upTo (Nat.le_of_succ_le_succ hlength)
      have hread := complete_object hinner _ _ rest hbounded trivial
      apply reads_value (by decide) rfl
      apply Scanner.reads_orElse_right rfl
      apply Scanner.reads_orElse_right rfl
      apply Scanner.reads_orElse_right rfl
      exact Scanner.reads_map_iff.mpr
        ⟨_, Scanner.reads_precededBy_symbol_iff.mpr ⟨_, rfl, hread⟩, rfl⟩

theorem complete_element (depth : Nat) :
    (element depth).Complete (UpTo depth (Denotes Phrase.element)) Ends := by
  induction depth with
  | zero =>
      intro ts v rest h _
      rcases h with ⟨h, hlength⟩
      cases h with
      | element h =>
          cases h with
          | blanks _ hw _ =>
              rcases opens_value _ _ hw with ⟨c, t, rfl, _⟩
              simp at hlength
  | succ depth ih =>
      intro ts v rest h hrest
      rcases h with ⟨h, hlength⟩
      cases h with
      | element h =>
          have hopens : Opens (UpTo (depth + 1) (Denotes Phrase.value)) :=
            fun w v hw => opens_value w v hw.1
          exact complete_surroundedBy (complete_value ih) hopens ts v rest (h.upTo hlength) hrest

theorem read?_eq_some_iff {document : String} {v : Json} :
    read? document = some v ↔ Denotes Phrase.element document.toList v := by
  constructor
  · intro h
    unfold read? at h
    split at h
    · next v' hnil hread =>
      cases h
      rcases sound_element _ document.toList v [] ⟨hnil, hread⟩ with ⟨w, hw, hdenotes⟩
      rwa [hw, List.append_nil]
    · cases h
  · intro h
    have hends : Ends [] := by
      constructor
      · intro c hc
        cases hc
      · intro c hc
        cases hc
    have hread := complete_element _ document.toList v [] ⟨h, Nat.le_refl _⟩ hends
    rw [List.append_nil] at hread
    rcases hread with ⟨hlt, hread⟩
    simp [read?, hread]

end Json
end GossipGames

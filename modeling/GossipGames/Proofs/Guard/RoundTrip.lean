import GossipGames.Proofs.Guard.Writing

/-!
# What the parser makes

Every guard that the parser makes can be written: its names come from words of the text, and a
conjunction or disjunction comes from two operands or more.
-/

namespace GossipGames
namespace Guard

theorem isName_of_word {c : Char} {w : List Char} {name : String}
    (hc : Lexer.isNameStart c = true) (hw : ∀ d ∈ w, Lexer.isNameChar d = true)
    (h : Lexer.word (c :: w) = Token.name name) : isName name = true := by
  unfold Lexer.word at h
  split at h
  · cases h
  · next htrue =>
    split at h
    · cases h
    · next hfalse =>
      cases h
      simp only [isName, String.toList_ofList, hc, Bool.true_and, Bool.and_eq_true,
        List.all_eq_true, bne_iff_ne, ne_eq]
      refine ⟨⟨hw, ?_⟩, ?_⟩
      · intro heq
        exact htrue (String.ofList_injective heq)
      · intro heq
        exact hfalse (String.ofList_injective heq)

theorem isName_of_cut {c : Char} {s : List Char} {name : String}
    (h : (Lexer.cut c s).1 = Lexeme.token (Token.name name)) : isName name = true := by
  rcases cut_cases c s with ⟨t, rest, ht, _, hcut⟩ | ⟨hstart, hcut⟩ | ⟨_, hcut⟩
  · rw [hcut] at h
    cases h
    cases ht
  · rw [hcut] at h
    exact isName_of_word hstart (fun d hd => List.mem_takeWhile_imp hd) (Lexeme.token.inj h)
  · rw [hcut] at h
    cases h

theorem isName_of_mem_lexemes {s : List Char} {name : String}
    (h : Lexeme.token (Token.name name) ∈ lexemes s) : isName name = true := by
  induction s using lexeme_induction with
  | nil =>
      simp at h
  | skip c s hskipped ih =>
      rw [lexemes_of_isSkipped hskipped] at h
      exact ih h
  | cut c s hskipped ih =>
      rw [lexemes_of_not_isSkipped hskipped, List.mem_cons] at h
      rcases h with hfirst | hrest
      · exact isName_of_cut hfirst.symm
      · exact ih hrest

theorem mem_intercalate_of_mem {α : Type} {sep part : List α} {parts : List (List α)} {x : α}
    (hpart : part ∈ parts) (hx : x ∈ part) : x ∈ sep.intercalate parts := by
  induction parts with
  | nil =>
      cases hpart
  | cons first parts ih =>
      cases parts with
      | nil =>
          rw [List.mem_singleton.mp hpart] at hx
          simpa using hx
      | cons second parts =>
          rw [List.intercalate_cons_cons, List.mem_append, List.mem_append]
          cases hpart with
          | head =>
              exact Or.inl (Or.inl hx)
          | tail _ hpart =>
              exact Or.inr (ih hpart)

def NamesOf (ts : List Token) : Prop :=
  ∀ name, Token.name name ∈ ts → isName name = true

theorem NamesOf.of_subset {ts us : List Token} (h : NamesOf us) (hsub : ts ⊆ us) : NamesOf ts :=
  fun name hname => h name (hsub hname)

theorem NamesOf.of_append_cons {ts us : List Token} {t : Token} (h : NamesOf (ts ++ t :: us)) :
    NamesOf ts ∧ NamesOf us := by
  constructor
  · exact h.of_subset (List.subset_append_left ts _)
  · exact h.of_subset (List.subset_append_of_subset_right ts (List.subset_cons_self t us))

theorem writable_parts {c : Connective} {parts : List (List Token × Guard)}
    (h : NamesOf ([Token.connective c].intercalate (parts.map Prod.fst)))
    (hparts : ∀ q ∈ parts, NamesOf q.1 → Writable q.2) :
    ∀ g ∈ parts.map Prod.snd, Writable g := by
  intro g hg
  rcases List.mem_map.mp hg with ⟨q, hq, rfl⟩
  exact hparts q hq (h.of_subset fun _ hx => mem_intercalate_of_mem (List.mem_map_of_mem hq) hx)

theorem writable_of_derives {ph : Phrase} {ts : List Token} {g : Guard} (h : Derives ph ts g)
    (hnames : NamesOf ts) : Writable g := by
  induction h with
  | iffOne _ ih | impliesOne _ ih | xorOne _ ih | orOne _ ih | andOne _ ih | unaryAtom _ ih =>
      exact ih hnames
  | iffMore _ _ ihg ihh =>
      exact Writable.iff (ihg hnames.of_append_cons.1) (ihh hnames.of_append_cons.2)
  | impliesMore _ _ ihg ihh =>
      exact Writable.implies (ihg hnames.of_append_cons.1) (ihh hnames.of_append_cons.2)
  | xorMore _ _ ihg ihh =>
      exact Writable.xor (ihg hnames.of_append_cons.1) (ihh hnames.of_append_cons.2)
  | orMany hlength _ ih =>
      exact Writable.or (by simpa using hlength) (writable_parts hnames ih)
  | andMany hlength _ ih =>
      exact Writable.and (by simpa using hlength) (writable_parts hnames ih)
  | unaryNot _ ih =>
      exact Writable.not (ih (hnames.of_subset (List.subset_cons_self _ _)))
  | atomConst value =>
      exact Writable.const value
  | atomName name =>
      exact Writable.var (hnames name List.mem_cons_self)
  | atomParen _ ih =>
      exact ih (hnames.of_subset
        (List.subset_cons_of_subset _ (List.subset_append_left _ _)))

theorem writable_of_parse {text : String} {g : Guard} (h : parse text = .ok g) : Writable g := by
  rcases parse_eq_ok_iff.mp h with ⟨ts, hlexemes, hderives⟩
  rw [map_lexeme_lex] at hlexemes
  refine writable_of_derives hderives fun name hname => ?_
  have hmem : Lexeme.token (Token.name name) ∈ lexemes text.toList := by
    rw [hlexemes]
    exact List.mem_map_of_mem hname
  exact isName_of_mem_lexemes hmem

/-- A guard that can be written is parsed back, with parentheses around every operand and with the
needed ones only.  The parser makes no other guards. -/
theorem parse_write_and_writable_of_parse :
    (∀ g, Writable g →
      parse (write Parentheses.everywhere g) = .ok g ∧
        parse (write Parentheses.needed g) = .ok g) ∧
    ∀ text g, parse text = .ok g → Writable g := by
  constructor
  · intro g hg
    constructor
    · exact parse_write_of_suffices everywhere_suffices hg
    · exact parse_write_of_suffices needed_suffices hg
  · intro text g h
    exact writable_of_parse h

/-- A guard with each of the operands that need parentheses, and one that does not. -/
def nested : Guard :=
  iff (implies (implies (var "a") (var "b")) (var "c"))
    (iff (xor (var "d") (xor (var "e") (not (and [var "f", and [const true, var "g"]]))))
      (or [var "h", or [var "i", var "j"]]))

theorem parse_write_nested :
    Writable nested ∧
      parse "(a -> b) -> c <-> (d ^ (e ^ !(f & (true & g))) <-> h | (i | j))" = .ok nested ∧
      parse ("(((a) -> (b)) -> (c)) <-> (((d) ^ ((e) ^ (!((f) & ((true) & (g)))))) <-> " ++
        "((h) | ((i) | (j))))") = .ok nested := by
  have hpair : ∀ {g h : Guard}, Writable g → Writable h → ∀ k ∈ [g, h], Writable k := by
    intro g h hg hh k hk
    rw [List.mem_cons, List.mem_singleton] at hk
    rcases hk with rfl | rfl
    · exact hg
    · exact hh
  have hand : Writable (and [var "f", and [const true, var "g"]]) :=
    Writable.and (by decide) <| hpair (Writable.var rfl) <|
      Writable.and (by decide) <| hpair (Writable.const true) (Writable.var rfl)
  have hor : Writable (or [var "h", or [var "i", var "j"]]) :=
    Writable.or (by decide) <| hpair (Writable.var rfl) <|
      Writable.or (by decide) <| hpair (Writable.var rfl) (Writable.var rfl)
  have hnested : Writable nested :=
    Writable.iff
      (Writable.implies (Writable.implies (Writable.var rfl) (Writable.var rfl)) (Writable.var rfl))
      (Writable.iff
        (Writable.xor (Writable.var rfl) (Writable.xor (Writable.var rfl) (Writable.not hand))) hor)
  rcases parse_write_and_writable_of_parse.1 nested hnested with ⟨hfull, hleast⟩
  exact ⟨hnested, hleast, hfull⟩

end Guard
end GossipGames

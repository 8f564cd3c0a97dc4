import GossipGames.Proofs.Guard.Joined

/-!
# Writing guards

A guard is written with a blank on each side of a connective.  At the place of each operand the
grammar expects a phrase; an operand that is a looser phrase has to stand in parentheses, and any
other may.  However the parentheses are chosen, the text is parsed as the guard that was written.
-/

namespace GossipGames
namespace Guard

/-!
# Guards that can be written

A conjunction or disjunction has two or more operands, and every name is one that the lexer reads as
a name.
-/

/-- Whether a text is a word of letters, digits and underscores without a digit at its front, and
neither of the two constants. -/
def isName (text : String) : Bool :=
  match text.toList with
  | [] => false
  | c :: cs =>
      Lexer.isNameStart c && cs.all Lexer.isNameChar && text != "true" && text != "false"

inductive Writable : Guard → Prop where
  | const (value : Bool) : Writable (const value)
  | var {name : String} : isName name = true → Writable (var name)
  | not {g : Guard} : Writable g → Writable (not g)
  | and {gs : List Guard} : 2 ≤ gs.length → (∀ g ∈ gs, Writable g) → Writable (and gs)
  | or {gs : List Guard} : 2 ≤ gs.length → (∀ g ∈ gs, Writable g) → Writable (or gs)
  | xor {g h : Guard} : Writable g → Writable h → Writable (xor g h)
  | implies {g h : Guard} : Writable g → Writable h → Writable (implies g h)
  | iff {g h : Guard} : Writable g → Writable h → Writable (iff g h)

/-!
# Texts

Whether an operand stands in parentheses depends on the phrase that is expected at its place and on
the operand.
-/

/-- The tightest phrase that a guard is without parentheses around it. -/
def phrase : Guard → Phrase
  | const _ => Phrase.atom
  | var _ => Phrase.atom
  | not _ => Phrase.unary
  | and _ => Phrase.and
  | or _ => Phrase.or
  | xor _ _ => Phrase.xor
  | implies _ _ => Phrase.implies
  | iff _ _ => Phrase.iff

abbrev Parentheses :=
  Phrase → Guard → Bool

namespace Parentheses

def everywhere : Parentheses :=
  fun _ _ => true

def needed : Parentheses :=
  fun ph g => decide (g.phrase.rank < ph.rank)

/-- No operand that is too loose for its place is without parentheses. -/
def Suffices (p : Parentheses) : Prop :=
  ∀ ph g, g.phrase.rank < ph.rank → p ph g = true

end Parentheses

def enclosed (inside : Bool) (text : String) : String :=
  if inside then "(" ++ text ++ ")" else text

mutual

def write (p : Parentheses) : Guard → String
  | const value => (Token.const value).spelling
  | var name => name
  | not g => "!" ++ enclosed (p Phrase.unary g) (write p g)
  | and gs => Connective.and.sign.intercalate (writeEach p Phrase.unary gs)
  | or gs => Connective.or.sign.intercalate (writeEach p Phrase.and gs)
  | xor g h =>
      enclosed (p Phrase.xor g) (write p g) ++ Connective.xor.sign ++
        enclosed (p Phrase.or h) (write p h)
  | implies g h =>
      enclosed (p Phrase.xor g) (write p g) ++ Connective.implies.sign ++
        enclosed (p Phrase.implies h) (write p h)
  | iff g h =>
      enclosed (p Phrase.iff g) (write p g) ++ Connective.iff.sign ++
        enclosed (p Phrase.implies h) (write p h)

def writeEach (p : Parentheses) (ph : Phrase) : List Guard → List String
  | [] => []
  | g :: gs => enclosed (p ph g) (write p g) :: writeEach p ph gs

end

theorem writeEach_eq_map (p : Parentheses) (ph : Phrase) (gs : List Guard) :
    writeEach p ph gs = gs.map fun g => enclosed (p ph g) (write p g) := by
  induction gs with
  | nil =>
      rfl
  | cons g gs ih =>
      rw [writeEach, ih, List.map_cons]

theorem writtenAs_const (value : Bool) :
    WrittenAs (Token.const value).spelling Phrase.atom (const value) := by
  have hspells : Spells (Token.const value).spelling.toList [Token.const value] := by
    cases value with
    | true =>
        exact spells_word (c := 't') (w := ['r', 'u', 'e']) rfl (List.all_eq_true.mp rfl)
    | false =>
        exact spells_word (c := 'f') (w := ['a', 'l', 's', 'e']) rfl (List.all_eq_true.mp rfl)
  exact ⟨_, hspells, Derives.atomConst value⟩

theorem writtenAs_var {name : String} (h : isName name = true) :
    WrittenAs name Phrase.atom (var name) := by
  refine ⟨[Token.name name], ?_, Derives.atomName name⟩
  unfold isName at h
  cases hname : name.toList with
  | nil =>
      simp [hname] at h
  | cons c cs =>
      simp only [hname, Bool.and_eq_true, List.all_eq_true, bne_iff_ne, ne_eq] at h
      rcases h with ⟨⟨⟨hc, hcs⟩, htrue⟩, hfalse⟩
      have hof : String.ofList (c :: cs) = name := by
        rw [← hname, String.ofList_toList]
      have hword : Lexer.word (c :: cs) = Token.name name := by
        rw [Lexer.word, if_neg, if_neg, hof]
        · intro heq
          exact hfalse (by rw [← hof, heq])
        · intro heq
          exact htrue (by rw [← hof, heq])
      rw [← hword]
      exact spells_word hc hcs

theorem writtenAs_not {w : String} {g : Guard} (h : WrittenAs w Phrase.unary g) :
    WrittenAs ("!" ++ w) Phrase.unary (not g) := by
  rcases h with ⟨ts, hspells, hderives⟩
  refine ⟨Token.negation :: ts, ?_, Derives.unaryNot hderives⟩
  rw [String.toList_append]
  exact spells_negation hspells

theorem writtenAs_paren {w : String} {ph : Phrase} {g : Guard} (h : WrittenAs w ph g) :
    WrittenAs ("(" ++ w ++ ")") Phrase.atom g := by
  rcases h with ⟨ts, hspells, hderives⟩
  refine ⟨_, ?_, Derives.atomParen (derives_iff hderives)⟩
  intro s _
  have hinside := hspells (')' :: s) (endsWord_cons rfl s)
  rw [String.toList_append, String.toList_append, List.append_assoc, List.append_assoc]
  show lexemes ('(' :: (w.toList ++ ')' :: s)) = _
  rw [lexemes_openParen, hinside, lexemes_closeParen]
  simp

theorem writtenAs_pair {v w : String} {upper left right : Phrase} {c : Connective} {g h k : Guard}
    (hmore : ∀ ts us, Derives left ts g → Derives right us h →
      Derives upper (ts ++ Token.connective c :: us) k)
    (hg : WrittenAs v left g) (hh : WrittenAs w right h) :
    WrittenAs (v ++ c.sign ++ w) upper k := by
  rcases hg with ⟨ts, hts, hg⟩
  rcases hh with ⟨us, hus, hh⟩
  have hspells := spells_separated (separates_sign c) hts hus
  exact ⟨_, by simpa using hspells, hmore ts us hg hh⟩

theorem writtenAs_many {text : Guard → String} {upper below : Phrase} {c : Connective}
    {f : List Guard → Guard} {gs : List Guard} (hchain : upper.chain? = some (c, below))
    (hjoin : ∀ g h hs, c.join g (h :: hs) = f (g :: h :: hs)) (hlength : 2 ≤ gs.length)
    (h : ∀ g ∈ gs, WrittenAs (text g) below g) :
    WrittenAs (c.sign.intercalate (gs.map text)) upper (f gs) := by
  match gs with
  | first :: second :: gs =>
      have hmany := writtenAs_chain (g := id) hchain (separates_sign c) h
      rwa [List.map_id, id, hjoin] at hmany

variable {p : Parentheses}

theorem writtenAs_enclosed (hp : p.Suffices) {g : Guard} (h : WrittenAs (write p g) g.phrase g)
    (ph : Phrase) : WrittenAs (enclosed (p ph g) (write p g)) ph g := by
  cases hinside : p ph g with
  | true =>
      have htightest : ph.rank ≤ Phrase.atom.rank := by
        cases ph <;> decide
      exact (writtenAs_paren h).looser htightest
  | false =>
      have hloose : ph.rank ≤ g.phrase.rank := by
        rw [← Nat.not_lt]
        intro hlt
        rw [hp ph g hlt] at hinside
        cases hinside
      exact h.looser hloose

theorem writtenAs_write (hp : p.Suffices) {g : Guard} (h : Writable g) :
    WrittenAs (write p g) g.phrase g := by
  induction h with
  | const value =>
      rw [write]
      exact writtenAs_const value
  | var hname =>
      rw [write]
      exact writtenAs_var hname
  | not _ ih =>
      rw [write]
      exact writtenAs_not (writtenAs_enclosed hp ih _)
  | and hlength _ ih =>
      rw [write, writeEach_eq_map]
      exact writtenAs_many rfl (fun _ _ _ => rfl) hlength
        fun g hg => writtenAs_enclosed hp (ih g hg) _
  | or hlength _ ih =>
      rw [write, writeEach_eq_map]
      exact writtenAs_many rfl (fun _ _ _ => rfl) hlength
        fun g hg => writtenAs_enclosed hp (ih g hg) _
  | xor _ _ ihg ihh =>
      rw [write]
      exact writtenAs_pair (fun _ _ => Derives.xorMore) (writtenAs_enclosed hp ihg _)
        (writtenAs_enclosed hp ihh _)
  | implies _ _ ihg ihh =>
      rw [write]
      exact writtenAs_pair (fun _ _ => Derives.impliesMore) (writtenAs_enclosed hp ihg _)
        (writtenAs_enclosed hp ihh _)
  | iff _ _ ihg ihh =>
      rw [write]
      exact writtenAs_pair (fun _ _ => Derives.iffMore) (writtenAs_enclosed hp ihg _)
        (writtenAs_enclosed hp ihh _)

theorem parse_write_of_suffices (hp : p.Suffices) {g : Guard} (h : Writable g) :
    parse (write p g) = .ok g :=
  parse_of_writtenAs (writtenAs_write hp h)

theorem everywhere_suffices : Parentheses.everywhere.Suffices := by
  intro ph g _
  rfl

theorem needed_suffices : Parentheses.needed.Suffices := by
  intro ph g hlt
  exact decide_eq_true hlt

end Guard
end GossipGames

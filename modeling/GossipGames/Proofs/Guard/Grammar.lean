import GossipGames.Guard.Parser
import GossipGames.Proofs.Scanner

/-!
# The grammar of guards

The grammar says which rows of tokens are guards, and which guard each of them is.  Its phrases are
the five connectives, from the loosest to the tightest, then negations and atoms.  Equivalence and
exclusive disjunction group to the left and implication to the right; a conjunction or disjunction
of two or more operands is one flat node.
-/

namespace GossipGames
namespace Guard

inductive Phrase where
  | iff
  | implies
  | xor
  | or
  | and
  | unary
  | atom

inductive Derives : Phrase → List Token → Guard → Prop where
  | iffOne : Derives Phrase.implies ts g → Derives Phrase.iff ts g
  | iffMore : Derives Phrase.iff ts g → Derives Phrase.implies us h →
      Derives Phrase.iff (ts ++ Token.connective Connective.iff :: us) (Guard.iff g h)
  | impliesOne : Derives Phrase.xor ts g → Derives Phrase.implies ts g
  | impliesMore : Derives Phrase.xor ts g → Derives Phrase.implies us h →
      Derives Phrase.implies (ts ++ Token.connective Connective.implies :: us) (Guard.implies g h)
  | xorOne : Derives Phrase.or ts g → Derives Phrase.xor ts g
  | xorMore : Derives Phrase.xor ts g → Derives Phrase.or us h →
      Derives Phrase.xor (ts ++ Token.connective Connective.xor :: us) (Guard.xor g h)
  | orOne : Derives Phrase.and ts g → Derives Phrase.or ts g
  | orMany {parts : List (List Token × Guard)} : 2 ≤ parts.length →
      (∀ q ∈ parts, Derives Phrase.and q.1 q.2) →
      Derives Phrase.or ([Token.connective Connective.or].intercalate (parts.map Prod.fst))
        (Guard.or (parts.map Prod.snd))
  | andOne : Derives Phrase.unary ts g → Derives Phrase.and ts g
  | andMany {parts : List (List Token × Guard)} : 2 ≤ parts.length →
      (∀ q ∈ parts, Derives Phrase.unary q.1 q.2) →
      Derives Phrase.and ([Token.connective Connective.and].intercalate (parts.map Prod.fst))
        (Guard.and (parts.map Prod.snd))
  | unaryNot : Derives Phrase.unary ts g → Derives Phrase.unary (Token.negation :: ts) (Guard.not g)
  | unaryAtom : Derives Phrase.atom ts g → Derives Phrase.unary ts g
  | atomConst (value : Bool) : Derives Phrase.atom [Token.const value] (Guard.const value)
  | atomName (name : String) : Derives Phrase.atom [Token.name name] (Guard.var name)
  | atomParen : Derives Phrase.iff ts g →
      Derives Phrase.atom (Token.openParen :: (ts ++ [Token.closeParen])) g

theorem derives_ne_nil {ph : Phrase} {ts : List Token} {g : Guard} (h : Derives ph ts g) :
    ts ≠ [] := by
  induction h with
  | iffOne _ ih | impliesOne _ ih | xorOne _ ih | orOne _ ih | andOne _ ih | unaryAtom _ ih =>
      exact ih
  | iffMore | impliesMore | xorMore =>
      simp
  | orMany hlength | andMany hlength =>
      rename_i parts _ _
      match parts with
      | first :: second :: parts =>
          simp [List.intercalate]
  | unaryNot | atomConst | atomName | atomParen =>
      exact List.cons_ne_nil _ _

/-!
# Looser phrases

The loosest phrase has the least rank.  What is a phrase is also each of the looser phrases.
-/

def Phrase.rank : Phrase → Nat
  | iff => 0
  | implies => 1
  | xor => 2
  | or => 3
  | and => 4
  | unary => 5
  | atom => 6

theorem Phrase.rank_injective {ph other : Phrase} (h : ph.rank = other.rank) : ph = other := by
  cases ph <;> cases other <;> first | rfl | cases h

theorem exists_looser {ph : Phrase} {ts : List Token} {g : Guard} {n : Nat}
    (hrank : ph.rank = n + 1) (h : Derives ph ts g) :
    ∃ looser : Phrase, looser.rank = n ∧ Derives looser ts g := by
  cases ph with
  | iff =>
      cases hrank
  | implies =>
      exact ⟨Phrase.iff, Nat.succ.inj hrank, Derives.iffOne h⟩
  | xor =>
      exact ⟨Phrase.implies, Nat.succ.inj hrank, Derives.impliesOne h⟩
  | or =>
      exact ⟨Phrase.xor, Nat.succ.inj hrank, Derives.xorOne h⟩
  | and =>
      exact ⟨Phrase.or, Nat.succ.inj hrank, Derives.orOne h⟩
  | unary =>
      exact ⟨Phrase.and, Nat.succ.inj hrank, Derives.andOne h⟩
  | atom =>
      exact ⟨Phrase.unary, Nat.succ.inj hrank, Derives.unaryAtom h⟩

theorem derives_of_rank_le {ph looser : Phrase} {ts : List Token} {g : Guard}
    (h : Derives ph ts g) (hle : looser.rank ≤ ph.rank) : Derives looser ts g := by
  obtain ⟨steps, hsteps⟩ := Nat.exists_eq_add_of_le hle
  induction steps generalizing ph with
  | zero =>
      rwa [Phrase.rank_injective hsteps] at h
  | succ steps ih =>
      rcases exists_looser hsteps h with ⟨next, hnext, hderives⟩
      exact ih hderives (Nat.le.intro hnext.symm) hnext

/-!
# Chains

A phrase above the negations is a chain: a row of phrases of the next level between the signs of
one connective.
-/

def Phrase.chain? : Phrase → Option (Connective × Phrase)
  | iff => some (Connective.iff, implies)
  | implies => some (Connective.implies, xor)
  | xor => some (Connective.xor, or)
  | or => some (Connective.or, and)
  | and => some (Connective.and, unary)
  | unary => none
  | atom => none

/-- A phrase whose chains, from the loosest to the tightest, have these connectives. -/
inductive Nests : Phrase → List Connective → Prop where
  | unary : Nests Phrase.unary []
  | chain {ph below : Phrase} {c : Connective} {cs : List Connective} :
      ph.chain? = some (c, below) → Nests below cs → Nests ph (c :: cs)

theorem nests_looseToTight : Nests Phrase.iff Connective.looseToTight :=
  Nests.chain rfl <| Nests.chain rfl <| Nests.chain rfl <| Nests.chain rfl <|
    Nests.chain rfl Nests.unary

open Scanner (Row)

theorem exists_row_of_derives {ph below : Phrase} {c : Connective} {ts : List Token} {g : Guard}
    (h : Derives ph ts g) (hchain : ph.chain? = some (c, below)) :
    ∃ q, Row (Token.connective c) (Derives below) ts q ∧ c.join q.1 q.2 = g := by
  induction h with
  | iffOne h | impliesOne h | xorOne h | orOne h | andOne h =>
      cases hchain
      exact ⟨_, Row.one h, rfl⟩
  | iffMore _ h ih _ | xorMore _ h ih _ =>
      cases hchain
      rcases ih rfl with ⟨q, hrow, rfl⟩
      exact ⟨_, hrow.snoc h, by simp [Connective.join]⟩
  | impliesMore h _ _ ih =>
      cases hchain
      rcases ih rfl with ⟨q, hrow, rfl⟩
      exact ⟨_, Row.more h hrow, by simp [Connective.join]⟩
  | orMany hlength hparts | andMany hlength hparts =>
      cases hchain
      rename_i parts _
      match parts with
      | first :: second :: parts =>
          exact ⟨_, Row.of_parts hparts, rfl⟩
  | unaryNot | unaryAtom | atomConst | atomName | atomParen =>
      cases hchain

theorem derives_foldl {upper below : Phrase} {c : Connective} {f : Guard → Guard → Guard}
    (hmore : ∀ ts us g h, Derives upper ts g → Derives below us h →
      Derives upper (ts ++ Token.connective c :: us) (f g h))
    {us : List Token} {q : Guard × List Guard}
    (hrow : Row (Token.connective c) (Derives below) us q) :
    ∀ ts g, Derives upper ts g →
      Derives upper (ts ++ Token.connective c :: us) (q.2.foldl f (f g q.1)) := by
  induction hrow with
  | one h =>
      intro ts g hg
      exact hmore _ _ _ _ hg h
  | more h _ ih =>
      intro ts g hg
      simpa using ih _ _ (hmore _ _ _ _ hg h)

theorem derives_left {upper below : Phrase} {c : Connective} {f : Guard → Guard → Guard}
    (hone : ∀ ts g, Derives below ts g → Derives upper ts g)
    (hmore : ∀ ts us g h, Derives upper ts g → Derives below us h →
      Derives upper (ts ++ Token.connective c :: us) (f g h))
    {ts : List Token} {q : Guard × List Guard}
    (hrow : Row (Token.connective c) (Derives below) ts q) :
    Derives upper ts (q.2.foldl f q.1) := by
  cases hrow with
  | one h =>
      exact hone _ _ h
  | more h hrest =>
      exact derives_foldl hmore hrest _ _ (hone _ _ h)

theorem derives_flat {upper below : Phrase} {c : Connective} {f : List Guard → Guard}
    (hmany : ∀ parts : List (List Token × Guard), 2 ≤ parts.length →
      (∀ p ∈ parts, Derives below p.1 p.2) →
      Derives upper ([Token.connective c].intercalate (parts.map Prod.fst))
        (f (parts.map Prod.snd)))
    {ts : List Token} {g h : Guard} {gs : List Guard}
    (hrow : Row (Token.connective c) (Derives below) ts (g, h :: gs)) :
    Derives upper ts (f (g :: h :: gs)) := by
  rcases hrow.exists_parts with ⟨parts, hts, hvalues, hparts⟩
  have hlength : 2 ≤ parts.length := by
    rw [← List.length_map (f := Prod.snd), hvalues]
    simp
  rw [hts, ← hvalues]
  exact hmany parts hlength hparts

theorem derives_implies_of_row {ts : List Token} {q : Guard × List Guard}
    (hrow : Row (Token.connective Connective.implies) (Derives Phrase.xor) ts q) :
    Derives Phrase.implies ts (Connective.implies.join q.1 q.2) := by
  induction hrow with
  | one h =>
      exact Derives.impliesOne h
  | more h _ ih =>
      exact Derives.impliesMore h ih

theorem derives_of_row {ph below : Phrase} {c : Connective} {ts : List Token}
    {q : Guard × List Guard} (hchain : ph.chain? = some (c, below))
    (hrow : Row (Token.connective c) (Derives below) ts q) :
    Derives ph ts (c.join q.1 q.2) := by
  cases ph with
  | iff =>
      cases hchain
      rw [Connective.join]
      exact derives_left (fun _ _ => Derives.iffOne) (fun _ _ _ _ => Derives.iffMore) hrow
  | implies =>
      cases hchain
      exact derives_implies_of_row hrow
  | xor =>
      cases hchain
      rw [Connective.join]
      exact derives_left (fun _ _ => Derives.xorOne) (fun _ _ _ _ => Derives.xorMore) hrow
  | or =>
      cases hchain
      cases hrow with
      | one h =>
          exact Derives.orOne h
      | more h hrest =>
          exact derives_flat (fun _ => Derives.orMany) (Row.more h hrest)
  | and =>
      cases hchain
      cases hrow with
      | one h =>
          exact Derives.andOne h
      | more h hrest =>
          exact derives_flat (fun _ => Derives.andMany) (Row.more h hrest)
  | unary =>
      cases hchain
  | atom =>
      cases hchain

end Guard
end GossipGames

import GossipGames.Proofs.Guard.Grammar

/-!
# Prefixes of guards

Tokens are the start of some guard exactly when each of them may come after those before it, and
they are a guard when nothing is awaited after them but a continuation outside all parentheses.
-/

namespace GossipGames
namespace Guard

def Viable (ts : List Token) : Prop :=
  ∃ rest g, Derives Phrase.iff (ts ++ rest) g

theorem Viable.mono {ts us : List Token} (h : Viable us) (hstart : ts <+: us) :
    Viable ts := by
  rcases h with ⟨rest, g, hderives⟩
  rcases hstart with ⟨more, rfl⟩
  exact ⟨more ++ rest, g, by rwa [← List.append_assoc]⟩

theorem Nests.rank_le {ph : Phrase} {cs : List Connective} (h : Nests ph cs) :
    ph.rank ≤ Phrase.unary.rank := by
  induction h with
  | unary =>
      exact Nat.le_refl _
  | @chain ph below c cs hchain _ ih =>
      cases ph <;> simp_all [Phrase.chain?, Phrase.rank]

theorem exists_derives_cons {ph : Phrase} {cs : List Connective} {c : Connective}
    {ts us : List Token} {g h : Guard} (hnests : Nests ph cs) (hc : c ∈ cs)
    (hfirst : Derives Phrase.unary ts g) (hrest : Derives ph us h) :
    ∃ g', Derives ph (ts ++ Token.connective c :: us) g' := by
  induction hnests generalizing us h with
  | unary =>
      cases hc
  | @chain ph below d cs hchain hbelow ih =>
      rcases exists_row_of_derives hrest hchain with ⟨q, hrow, _⟩
      cases hc with
      | head =>
          have hoperand : Derives below ts g := derives_of_rank_le hfirst hbelow.rank_le
          exact ⟨_, derives_of_row hchain (Scanner.Row.more hoperand hrow)⟩
      | tail _ hc =>
          cases hrow with
          | one ha =>
              rcases ih hc ha with ⟨g', hg'⟩
              exact ⟨_, derives_of_row hchain (Scanner.Row.one hg')⟩
          | more ha hrow =>
              rcases ih hc ha with ⟨g', hg'⟩
              have hjoined := derives_of_row hchain (Scanner.Row.more hg' hrow)
              rw [List.append_assoc, List.cons_append] at hjoined
              exact ⟨_, hjoined⟩

/-!
# What may come next

Whether tokens can still grow into a guard depends on two things only: how many parentheses are
open, and whether an operand has to come next or has just ended.
-/

/-- The situation after some tokens; `depth` parentheses are open. -/
inductive Awaiting where
  | operand (depth : Nat)
  | continuation (depth : Nat)
deriving DecidableEq

namespace Awaiting

def start : Awaiting :=
  operand 0

def advance : Awaiting → Token → Option Awaiting
  | operand depth, Token.negation => some (operand depth)
  | operand depth, Token.const _ => some (continuation depth)
  | operand depth, Token.name _ => some (continuation depth)
  | operand depth, Token.openParen => some (operand (depth + 1))
  | continuation depth, Token.connective _ => some (operand depth)
  | continuation (depth + 1), Token.closeParen => some (continuation depth)
  | _, _ => none

def expected : Awaiting → List Expectation
  | operand _ =>
      [Expectation.token Token.negation, Expectation.proposition]
  | continuation depth =>
      (Connective.looseToTight.reverse.map fun c => Expectation.token (Token.connective c)) ++
        [if depth = 0 then Expectation.ending else Expectation.token Token.closeParen]

def after (here : Awaiting) (ts : List Token) : Option Awaiting :=
  ts.foldlM advance here

@[simp]
theorem after_nil (here : Awaiting) : here.after [] = some here :=
  rfl

@[simp]
theorem after_cons (here : Awaiting) (t : Token) (ts : List Token) :
    here.after (t :: ts) = (here.advance t).bind fun next => next.after ts :=
  rfl

theorem after_append (here : Awaiting) (ts us : List Token) :
    here.after (ts ++ us) = (here.after ts).bind fun next => next.after us :=
  List.foldlM_append

@[simp]
theorem advance_connective (depth : Nat) (c : Connective) :
    (continuation depth).advance (Token.connective c) = some (operand depth) := by
  simp [advance]

@[simp]
theorem advance_closeParen (depth : Nat) :
    (continuation (depth + 1)).advance Token.closeParen = some (continuation depth) := by
  simp [advance]

theorem advance_continuation_cases {depth : Nat} {t : Token} {next : Awaiting}
    (h : (continuation depth).advance t = some next) :
    (∃ c, t = Token.connective c ∧ next = operand depth) ∨ t = Token.closeParen := by
  cases t with
  | connective c =>
      rw [advance_connective] at h
      cases h
      exact Or.inl ⟨c, rfl, rfl⟩
  | closeParen =>
      exact Or.inr rfl
  | const _ | name _ | negation | openParen =>
      cases depth <;> cases h

/-!
# From guards to situations

Whatever the number of open parentheses is, a phrase leads from an operand that is awaited to the
continuation after it.
-/

/-- The tokens are taken as one operand at any depth. -/
def TakesOperand (ts : List Token) : Prop :=
  ∀ depth, (operand depth).after ts = some (continuation depth)

theorem TakesOperand.append {ts us : List Token} (hts : TakesOperand ts) (hus : TakesOperand us)
    (c : Connective) : TakesOperand (ts ++ Token.connective c :: us) := by
  intro depth
  simp [after_append, hts depth, hus depth]

theorem TakesOperand.intercalate {c : Connective} {parts : List (List Token)} (hne : parts ≠ [])
    (h : ∀ ts ∈ parts, TakesOperand ts) :
    TakesOperand ([Token.connective c].intercalate parts) := by
  induction parts with
  | nil =>
      exact absurd rfl hne
  | cons ts parts ih =>
      have hfirst : TakesOperand ts := h ts List.mem_cons_self
      cases parts with
      | nil =>
          simpa [List.intercalate] using hfirst
      | cons us parts =>
          have hrest := ih (List.cons_ne_nil us parts)
            fun vs hvs => h vs (List.mem_cons_of_mem ts hvs)
          simpa [List.intercalate] using hfirst.append hrest c

theorem takesOperand_of_derives {ph : Phrase} {ts : List Token} {g : Guard}
    (h : Derives ph ts g) : TakesOperand ts := by
  induction h with
  | iffOne _ ih | impliesOne _ ih | xorOne _ ih | orOne _ ih | andOne _ ih | unaryAtom _ ih =>
      exact ih
  | iffMore _ _ ihg ihh | impliesMore _ _ ihg ihh | xorMore _ _ ihg ihh =>
      exact ihg.append ihh _
  | orMany hlength _ ih | andMany hlength _ ih =>
      rename_i parts _
      refine TakesOperand.intercalate ?_ ?_
      · intro hnil
        simp [List.map_eq_nil_iff.mp hnil] at hlength
      · intro ts hts
        rcases List.mem_map.mp hts with ⟨q, hq, rfl⟩
        exact ih q hq
  | unaryNot _ ih =>
      intro depth
      simp [advance, ih depth]
  | atomConst | atomName =>
      intro depth
      simp [advance]
  | atomParen _ ih =>
      intro depth
      simp [advance, after_append, ih (depth + 1)]

/-!
# From situations to guards

A row of tokens that leads from an operand to the end of a guard starts with a phrase.  The phrase
goes on to the end of the tokens or to the parenthesis that closes what is open.
-/

def StartsWith (ph : Phrase) (depth : Nat) (ts rest : List Token) : Prop :=
  ∃ us g, ts = us ++ rest ∧ Derives ph us g ∧
    (continuation depth).after rest = some (continuation 0)

/-- The tokens are a formula and a rest that is empty or starts with a closing parenthesis. -/
def StartsWithFormula (depth : Nat) (ts : List Token) : Prop :=
  ∃ rest, StartsWith Phrase.iff depth ts rest ∧
    (rest = [] ∨ ∃ more, rest = Token.closeParen :: more)

theorem exists_startsWith_unary {depth : Nat} {ts : List Token}
    (hinside : ∀ us depth, us.length < ts.length →
      (operand depth).after us = some (continuation 0) → StartsWithFormula depth us)
    (h : (operand depth).after ts = some (continuation 0)) :
    ∃ rest, StartsWith Phrase.unary depth ts rest := by
  induction ts with
  | nil =>
      simp at h
  | cons t ts ih =>
      cases t with
      | const value =>
          exact ⟨ts, _, _, rfl, Derives.unaryAtom (Derives.atomConst value), h⟩
      | name text =>
          exact ⟨ts, _, _, rfl, Derives.unaryAtom (Derives.atomName text), h⟩
      | negation =>
          have hbody := ih (fun us depth hlt => hinside us depth (Nat.lt_succ_of_lt hlt)) h
          rcases hbody with ⟨rest, us, g, rfl, hderives, hrest⟩
          exact ⟨rest, _, _, rfl, Derives.unaryNot hderives, hrest⟩
      | openParen =>
          rcases hinside ts (depth + 1) (Nat.lt_succ_self _) h with
            ⟨_, ⟨us, g, rfl, hderives, hrest⟩, rfl | ⟨more, rfl⟩⟩
          · simp at hrest
          · rw [after_cons, advance_closeParen] at hrest
            exact ⟨more, Token.openParen :: (us ++ [Token.closeParen]), g, by simp,
              Derives.unaryAtom (Derives.atomParen hderives), hrest⟩
      | connective c =>
          cases h
      | closeParen =>
          cases h

theorem StartsWithFormula.connective {depth : Nat} {us ts : List Token} {g : Guard}
    (hfirst : Derives Phrase.unary us g) (h : StartsWithFormula depth ts) (c : Connective) :
    StartsWithFormula depth (us ++ Token.connective c :: ts) := by
  rcases h with ⟨rest, ⟨vs, h', rfl, hderives, hend⟩, hclosed⟩
  have hc : c ∈ Connective.looseToTight := by
    cases c <;> decide
  rcases exists_derives_cons nests_looseToTight hc hfirst hderives with ⟨g', hg'⟩
  have htokens : us ++ Token.connective c :: (vs ++ rest) =
      us ++ Token.connective c :: vs ++ rest := by
    simp
  exact ⟨rest, ⟨_, g', htokens, hg', hend⟩, hclosed⟩

theorem startsWithFormula_of_after {depth : Nat} {ts : List Token}
    (h : (operand depth).after ts = some (continuation 0)) : StartsWithFormula depth ts := by
  -- What stands in parentheses and what follows a connective is shorter than the whole.
  induction hn : ts.length using Nat.strongRecOn generalizing ts depth with
  | ind n ih =>
      have hinside : ∀ us depth, us.length < ts.length →
          (operand depth).after us = some (continuation 0) → StartsWithFormula depth us :=
        fun us depth hlt hus => ih us.length (hn ▸ hlt) hus rfl
      rcases exists_startsWith_unary hinside h with ⟨rest, us, g, rfl, hfirst, hrest⟩
      have hformula : Derives Phrase.iff us g := derives_of_rank_le hfirst (Nat.zero_le _)
      cases rest with
      | nil =>
          exact ⟨[], ⟨us, g, rfl, hformula, hrest⟩, Or.inl rfl⟩
      | cons t rest =>
          rcases Option.bind_eq_some_iff.mp hrest with ⟨next, hnext, hafter⟩
          rcases advance_continuation_cases hnext with ⟨c, rfl, rfl⟩ | rfl
          · have hshorter : rest.length < (us ++ Token.connective c :: rest).length := by
              simp
              omega
            exact (hinside rest depth hshorter hafter).connective hfirst c
          · exact ⟨_, ⟨us, g, rfl, hformula, hrest⟩, Or.inr ⟨rest, rfl⟩⟩

def closing : Awaiting → List Token
  | operand depth => Token.const true :: List.replicate depth Token.closeParen
  | continuation depth => List.replicate depth Token.closeParen

theorem after_closing (here : Awaiting) :
    here.after here.closing = some (continuation 0) := by
  have hclose : ∀ depth,
      (continuation depth).after (List.replicate depth Token.closeParen) =
        some (continuation 0) := by
    intro depth
    induction depth with
    | zero =>
        rfl
    | succ depth ih =>
        simp [List.replicate_succ, ih]
  cases here with
  | operand depth =>
      exact hclose depth
  | continuation depth =>
      exact hclose depth

end Awaiting

theorem exists_derives_iff_after {ts : List Token} :
    (∃ g, Derives Phrase.iff ts g) ↔
      Awaiting.start.after ts = some (Awaiting.continuation 0) := by
  constructor
  · intro h
    rcases h with ⟨g, hderives⟩
    exact Awaiting.takesOperand_of_derives hderives 0
  · intro h
    rcases Awaiting.startsWithFormula_of_after h with
      ⟨_, ⟨us, g, rfl, hderives, hend⟩, rfl | ⟨more, rfl⟩⟩
    · exact ⟨g, by rwa [List.append_nil]⟩
    · cases hend

theorem viable_iff_after {ts : List Token} :
    Viable ts ↔ ∃ here, Awaiting.start.after ts = some here := by
  constructor
  · intro h
    rcases h with ⟨rest, g, hderives⟩
    have hall := exists_derives_iff_after.mp ⟨g, hderives⟩
    rw [Awaiting.after_append] at hall
    rcases Option.bind_eq_some_iff.mp hall with ⟨here, hhere, _⟩
    exact ⟨here, hhere⟩
  · intro h
    rcases h with ⟨here, hhere⟩
    have hall : Awaiting.start.after (ts ++ here.closing) = some (Awaiting.continuation 0) := by
      rw [Awaiting.after_append, hhere]
      exact here.after_closing
    rcases exists_derives_iff_after.mpr hall with ⟨g, hderives⟩
    exact ⟨here.closing, g, hderives⟩

end Guard
end GossipGames

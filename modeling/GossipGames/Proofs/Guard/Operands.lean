import GossipGames.Proofs.Attempt
import GossipGames.Proofs.Guard.Viable

/-!
# Reading operands

What the parser reads of a phrase, and which failure it remembers, is compared with where the tokens
can go on no more.
-/

namespace GossipGames
namespace Guard

open Attempt
open Failure (Names)

/-!
# Where tokens can go on no more
-/

namespace Awaiting

/-- The first token that may not come, or the end of the tokens, and what could have come there. -/
def failure (here : Awaiting) : List Token → Failure Expectation
  | [] => ⟨0, here.expected⟩
  | t :: ts =>
      match here.advance t with
      | some next => next.failure ts
      | none => ⟨ts.length + 1, here.expected⟩

theorem failure_cons {here next : Awaiting} {t : Token} (h : here.advance t = some next)
    (ts : List Token) : here.failure (t :: ts) = next.failure ts := by
  simp [failure, h]

theorem failure_append {here next : Awaiting} {ts : List Token} (h : here.after ts = some next)
    (us : List Token) : here.failure (ts ++ us) = next.failure us := by
  induction ts generalizing here with
  | nil =>
      cases h
      rfl
  | cons t ts ih =>
      rcases Option.bind_eq_some_iff.mp h with ⟨there, hadvance, hafter⟩
      exact (failure_cons hadvance _).trans (ih hafter)

theorem failure_of_after {here next : Awaiting} {ts : List Token} (h : here.after ts = some next) :
    here.failure ts = ⟨0, next.expected⟩ := by
  simpa [failure] using failure_append h []

theorem failure_of_stuck {here : Awaiting} {ts : List Token}
    (h : ∀ t ∈ ts.head?, here.advance t = none) : here.failure ts = ⟨ts.length, here.expected⟩ := by
  cases ts with
  | nil =>
      rfl
  | cons t ts =>
      simp [failure, h t rfl]

theorem failure_cases (here : Awaiting) (ts : List Token) :
    (∃ pre t post next, ts = pre ++ t :: post ∧ here.after pre = some next ∧
        next.advance t = none ∧ here.failure ts = ⟨post.length + 1, next.expected⟩) ∨
      ∃ next, here.after ts = some next ∧ here.failure ts = ⟨0, next.expected⟩ := by
  induction ts generalizing here with
  | nil =>
      exact Or.inr ⟨here, rfl, rfl⟩
  | cons t ts ih =>
      cases hadvance : here.advance t with
      | none =>
          exact Or.inl ⟨[], t, ts, here, rfl, rfl, hadvance, by simp [failure, hadvance]⟩
      | some next =>
          have hsame := failure_cons hadvance ts
          rcases ih next with ⟨pre, t', post, there, rfl, hafter, hnone, hrest⟩ |
            ⟨there, hafter, hrest⟩
          · exact Or.inl ⟨t :: pre, t', post, there, rfl, by simp [hadvance, hafter], hnone,
              hsame.trans hrest⟩
          · exact Or.inr ⟨there, by simp [hadvance, hafter], hsame.trans hrest⟩

theorem left_failure_le (here : Awaiting) (ts : List Token) :
    (here.failure ts).left ≤ ts.length := by
  induction ts generalizing here with
  | nil =>
      exact Nat.le_refl 0
  | cons t ts ih =>
      cases hadvance : here.advance t with
      | none =>
          simp [failure, hadvance]
      | some next =>
          rw [failure_cons hadvance]
          exact Nat.le_succ_of_le (ih next)

end Awaiting

/-- No operand can be read here, however many parentheses are open. -/
def Blocked (ts : List Token) (f : Failure Expectation) : Prop :=
  ∀ depth, (Awaiting.operand depth).failure ts = f

theorem Blocked.left_le {ts : List Token} {f : Failure Expectation} (h : Blocked ts f) :
    f.left ≤ ts.length := by
  rw [← h 0]
  exact Awaiting.left_failure_le _ ts

theorem Blocked.negation {ts : List Token} {f : Failure Expectation} (h : Blocked ts f) :
    Blocked (Token.negation :: ts) f :=
  fun depth => h depth

theorem Blocked.openParen {ts : List Token} {f : Failure Expectation} (h : Blocked ts f) :
    Blocked (Token.openParen :: ts) f :=
  fun depth => h (depth + 1)

theorem Blocked.connective {us more : List Token} {f : Failure Expectation} (h : Blocked more f)
    (hus : Awaiting.TakesOperand us) (c : Connective) :
    Blocked (us ++ Token.connective c :: more) f := by
  intro depth
  rw [Awaiting.failure_append (hus depth), Awaiting.failure_cons (Awaiting.advance_connective _ c)]
  exact h depth

theorem blocked_of_stuck {ts : List Token}
    (h : ∀ depth, ∀ t ∈ ts.head?, (Awaiting.operand depth).advance t = none) :
    Blocked ts ⟨ts.length, [Expectation.token Token.negation, Expectation.proposition]⟩ :=
  fun depth => Awaiting.failure_of_stuck (h depth)

/-- A guard takes one situation to different ends, by the number of open parentheses. -/
theorem Blocked.not_derives {ts : List Token} {f : Failure Expectation} {g : Guard}
    (h : Blocked ts f) : ¬ Derives Phrase.iff ts g := by
  intro hderives
  have hend : ∀ depth, f = ⟨0, (Awaiting.continuation depth).expected⟩ := fun depth =>
    (h depth).symm.trans
      (Awaiting.failure_of_after (Awaiting.takesOperand_of_derives hderives depth))
  have hsame := (hend 0).symm.trans (hend 1)
  exact absurd hsame (by decide)

/-!
# What reading a phrase comes to
-/

def Stops (cs : List Connective) (rest : List Token) : Prop :=
  ∀ c ∈ cs, rest.head? ≠ some (Token.connective c)

theorem stuck_of_stops (depth : Nat) {rest : List Token}
    (hstops : Stops Connective.looseToTight rest)
    (hclose : depth ≠ 0 → rest.head? ≠ some Token.closeParen) :
    ∀ t ∈ rest.head?, (Awaiting.continuation depth).advance t = none := by
  intro t ht
  cases t with
  | connective c =>
      exact absurd ht (hstops c (by cases c <;> decide))
  | closeParen =>
      cases depth with
      | zero =>
          rfl
      | succ depth =>
          exact absurd ht (hclose (Nat.succ_ne_zero depth))
  | const | name | negation | openParen =>
      cases depth <;> rfl

def signs (cs : List Connective) : List Expectation :=
  cs.reverse.map fun c => Expectation.token (Token.connective c)

/-- A phrase is read as far as it goes, or up to the sign of a connective that no operand follows,
or not at all. -/
inductive Reading (R : List Token → α → Prop) (cs : List Connective)
    (p : Attempt Token Expectation α) : List Token → Prop where
  | whole {us rest : List Token} {g : α} {f : Option (Failure Expectation)} :
      R us g → Stops cs rest → p.Reads (us ++ rest) g rest f →
      Names rest.length (signs cs) f → Reading R cs p (us ++ rest)
  | dangling {us more : List Token} {g : α} {c : Connective} {f : Failure Expectation} :
      R us g → c ∈ cs → p.Reads (us ++ Token.connective c :: more) g
        (Token.connective c :: more) (some f) →
      Blocked more f → Reading R cs p (us ++ Token.connective c :: more)
  | refused {ts : List Token} {f : Failure Expectation} :
      p.Refuses ts f → Blocked ts f → Reading R cs p ts

theorem Reading.of_passes {R : List Token → α → Prop} {p : Attempt Token Expectation α}
    {us rest : List Token} {a : α} (hus : R us a) (hp : p.Passes (us ++ rest) a rest) :
    Reading R [] p (us ++ rest) := by
  rcases hp with ⟨f, hreads, hnames⟩
  exact Reading.whole hus (fun _ hc => nomatch hc) hreads hnames

theorem Reading.map {R : List Token → α → Prop} {R' : List Token → β → Prop}
    {cs : List Connective} {p : Attempt Token Expectation α} {h : α → β} {ts : List Token}
    (hread : Reading R cs p ts) (hR : ∀ us a, R us a → R' us (h a)) :
    Reading R' cs (p.map h) ts := by
  cases hread with
  | whole hus hstops hreads hnames =>
      exact Reading.whole (hR _ _ hus) hstops hreads.map hnames
  | dangling hus hc hreads hblocked =>
      exact Reading.dangling (hR _ _ hus) hc hreads.map hblocked
  | refused hrefuses hblocked =>
      exact Reading.refused hrefuses.map hblocked

/-!
# Atoms and operands
-/

theorem reads_sign (t : Token) (ts : List Token) : (sign t).Reads (t :: ts) () ts none :=
  reads_symbol t ts _

theorem refuses_sign {t : Token} {ts : List Token} (h : ts.head? ≠ some t) :
    (sign t).Refuses ts ⟨ts.length, [Expectation.token t]⟩ :=
  refuses_symbol h

section Operand

variable {inner : Attempt Token Expectation Guard} {s ts mid rest : List Token} {g : Guard}
  {e : Failure Expectation}

theorem refusesHere_constant {value : Bool} (h : ts.head? ≠ some (Token.const value)) :
    (constant value).RefusesHere ts :=
  ⟨_, (refuses_sign h).map⟩

theorem refusesHere_named (h : ∀ text, ts.head? ≠ some (Token.name text)) :
    named.RefusesHere ts := by
  refine ⟨[], refuses_take ?_⟩
  intro t ht
  cases t with
  | name text =>
      exact absurd ht (h text)
  | const | negation | connective | openParen | closeParen =>
      rfl

theorem refusesHere_parenthesised (h : ts.head? ≠ some Token.openParen) :
    (parenthesised inner).RefusesHere ts :=
  ⟨_, (refuses_sign h).andThen.followedBy⟩

theorem passes_parenthesised {f : Option (Failure Expectation)} {es : List Expectation}
    (hinner : inner.Reads s g (Token.closeParen :: rest) f)
    (hf : Names (rest.length + 1) es f) :
    (parenthesised inner).Passes (Token.openParen :: s) g rest := by
  refine ⟨_, (hinner.precededBy (reads_sign _ s)).followedBy (reads_sign _ rest), ?_⟩
  rw [Failure.furthest_none_right]
  exact hf.further (Nat.lt_succ_self _)

theorem refuses_parenthesised (hinner : inner.Refuses s e) :
    (parenthesised inner).Refuses (Token.openParen :: s) e :=
  (hinner.precededBy (reads_sign _ s)).followedBy

theorem refuses_parenthesised_of_reads {f : Option (Failure Expectation)}
    (hinner : inner.Reads s g mid f) (hclose : mid.head? ≠ some Token.closeParen) :
    (parenthesised inner).Refuses (Token.openParen :: s)
      (Failure.after ⟨mid.length, [Expectation.token Token.closeParen]⟩ f) :=
  (hinner.precededBy (reads_sign _ s)).followedBy_refuses (refuses_sign hclose)

theorem passes_atom_const (value : Bool) (s : List Token) :
    (atom inner).Passes (Token.const value :: s) (Guard.const value) s := by
  have hread : (constant value).Passes (Token.const value :: s) (Guard.const value) s :=
    ⟨none, (reads_sign _ s).map, Names.nothing⟩
  cases value with
  | false =>
      exact ((refusesHere_constant (by simp)).orElse_passes hread.orElse).labelled
  | true =>
      exact hread.orElse.labelled

theorem passes_atom_name (text : String) (s : List Token) :
    (atom inner).Passes (Token.name text :: s) (Guard.var text) s := by
  have hread : named.Passes (Token.name text :: s) (Guard.var text) s :=
    ⟨none, reads_take rfl, Names.nothing⟩
  exact ((refusesHere_constant (by simp)).orElse_passes
    ((refusesHere_constant (by simp)).orElse_passes hread.orElse)).labelled

theorem passes_atom_openParen
    (hparen : (parenthesised inner).Passes (Token.openParen :: s) g rest) :
    (atom inner).Passes (Token.openParen :: s) g rest :=
  ((refusesHere_constant (by simp)).orElse_passes
    ((refusesHere_constant (by simp)).orElse_passes
      ((refusesHere_named (by simp)).orElse_passes hparen))).labelled

theorem refuses_atom_openParen
    (hparen : (parenthesised inner).Refuses (Token.openParen :: s) e) (hleft : e.left ≤ s.length) :
    (atom inner).Refuses (Token.openParen :: s) e := by
  have hlt : e.left < (Token.openParen :: s).length := Nat.lt_succ_of_le hleft
  exact ((refusesHere_constant (by simp)).orElse_refuses
    ((refusesHere_constant (by simp)).orElse_refuses
      ((refusesHere_named (by simp)).orElse_refuses hparen hlt) hlt) hlt).labelled hlt

theorem refuses_atom_of_stuck (h : ∀ t ∈ ts.head?, (Awaiting.operand 0).advance t = none) :
    (atom inner).Refuses ts ⟨ts.length, [Expectation.proposition]⟩ := by
  have hhead : ∀ t, (Awaiting.operand 0).advance t ≠ none → ts.head? ≠ some t :=
    fun t hadvance ht => hadvance (h t ht)
  apply RefusesHere.labelled
  apply (refusesHere_constant (hhead _ (by simp [Awaiting.advance]))).orElse
  apply (refusesHere_constant (hhead _ (by simp [Awaiting.advance]))).orElse
  apply (refusesHere_named fun text => hhead _ (by simp [Awaiting.advance])).orElse
  exact refusesHere_parenthesised (hhead _ (by simp [Awaiting.advance]))

theorem passes_operand_of_atom (hne : ts.head? ≠ some Token.negation)
    (hatom : (atom inner).Passes ts g rest) : (operand inner).Passes ts g rest :=
  RefusesHere.prefixed_passes ⟨_, refuses_sign hne⟩ hatom

theorem refuses_operand_of_atom (hne : ts.head? ≠ some Token.negation)
    (hatom : (atom inner).Refuses ts e) :
    (operand inner).Refuses ts (Failure.join ⟨ts.length, [Expectation.token Token.negation]⟩ e) :=
  (refuses_sign hne).prefixed_refuses hatom

theorem reading_operand_of_atom {t : Token} (hne : t ≠ Token.negation)
    (hderives : Derives Phrase.atom [t] g) (hatom : (atom inner).Passes (t :: s) g s) :
    Reading (Derives Phrase.unary) [] (operand inner) (t :: s) := by
  have hpasses : (operand inner).Passes ([t] ++ s) g s :=
    passes_operand_of_atom (by simpa using hne) hatom
  exact Reading.of_passes (Derives.unaryAtom hderives) hpasses

theorem reading_operand_of_stuck
    (h : ∀ depth, ∀ t ∈ ts.head?, (Awaiting.operand depth).advance t = none) :
    Reading (Derives Phrase.unary) [] (operand inner) ts := by
  have hne : ts.head? ≠ some Token.negation := fun ht => Option.some_ne_none _ (h 0 _ ht)
  have hatom : (atom inner).Refuses ts ⟨ts.length, [Expectation.proposition]⟩ :=
    refuses_atom_of_stuck (h 0)
  have hrefuses := refuses_operand_of_atom hne hatom
  rw [Failure.join_of_left_eq (by simp)] at hrefuses
  exact Reading.refused hrefuses (blocked_of_stuck h)

theorem reading_operand_of_refused_parenthesis
    (hparen : (parenthesised inner).Refuses (Token.openParen :: s) e) (hleft : e.left ≤ s.length)
    (hblocked : Blocked (Token.openParen :: s) e) :
    Reading (Derives Phrase.unary) [] (operand inner) (Token.openParen :: s) := by
  have hrefuses := refuses_operand_of_atom (by simp) (refuses_atom_openParen hparen hleft)
  rw [Failure.join_of_gt (Nat.lt_succ_of_le hleft)] at hrefuses
  exact Reading.refused hrefuses hblocked

theorem blocked_of_unclosed {us : List Token} (hus : Awaiting.TakesOperand us)
    (hstops : Stops Connective.looseToTight rest) (hclose : rest.head? ≠ some Token.closeParen) :
    Blocked (Token.openParen :: (us ++ rest))
      ⟨rest.length, signs Connective.looseToTight ++ [Expectation.token Token.closeParen]⟩ := by
  intro depth
  have hstuck := stuck_of_stops (depth + 1) hstops fun _ => hclose
  exact (Awaiting.failure_append (hus (depth + 1)) rest).trans (Awaiting.failure_of_stuck hstuck)

theorem reading_operand_openParen
    (hinner : Reading (Derives Phrase.iff) Connective.looseToTight inner s) :
    Reading (Derives Phrase.unary) [] (operand inner) (Token.openParen :: s) := by
  cases hinner with
  | @whole us rest g f hus hstops hreads hnames =>
      by_cases hclose : rest.head? = some Token.closeParen
      · rcases List.head?_eq_some_iff.mp hclose with ⟨more, rfl⟩
        have hpasses := passes_operand_of_atom (by simp)
          (passes_atom_openParen (passes_parenthesised hreads hnames))
        have htokens : Token.openParen :: (us ++ Token.closeParen :: more) =
            Token.openParen :: (us ++ [Token.closeParen]) ++ more := by
          simp
        rw [htokens] at hpasses ⊢
        exact Reading.of_passes (Derives.unaryAtom (Derives.atomParen hus)) hpasses
      · have hrefuses := refuses_parenthesised_of_reads hreads hclose
        rw [hnames.after_here (by decide)] at hrefuses
        exact reading_operand_of_refused_parenthesis hrefuses (by simp)
          (blocked_of_unclosed (Awaiting.takesOperand_of_derives hus) hstops hclose)
  | @dangling _ _ _ c _ hus _ hreads hblocked =>
      have hrefuses := refuses_parenthesised_of_reads hreads (by simp)
      have hleft := hblocked.left_le
      rw [Failure.after_some, Failure.join_of_lt (Nat.lt_succ_of_le hleft)] at hrefuses
      have hall := hblocked.connective (Awaiting.takesOperand_of_derives hus) c
      exact reading_operand_of_refused_parenthesis hrefuses hall.left_le hall.openParen
  | refused hrefuses hblocked =>
      exact reading_operand_of_refused_parenthesis (refuses_parenthesised hrefuses)
        hblocked.left_le hblocked.openParen

theorem reading_operand {depth : Nat}
    (hinner : ∀ us : List Token, us.count Token.openParen < depth →
      Reading (Derives Phrase.iff) Connective.looseToTight inner us)
    (hcount : ts.count Token.openParen ≤ depth) :
    Reading (Derives Phrase.unary) [] (operand inner) ts := by
  induction ts with
  | nil =>
      exact reading_operand_of_stuck (by simp)
  | cons t ts ih =>
      cases t with
      | const value =>
          exact reading_operand_of_atom (by simp) (Derives.atomConst value)
            (passes_atom_const value ts)
      | name text =>
          exact reading_operand_of_atom (by simp) (Derives.atomName text)
            (passes_atom_name text ts)
      | openParen =>
          rw [List.count_cons_self] at hcount
          exact reading_operand_openParen (hinner ts hcount)
      | negation =>
          have hread := ih (by simpa using hcount)
          clear ih
          cases hread with
          | whole hus _ hreads hnames =>
              exact Reading.of_passes (Derives.unaryNot hus)
                (Passes.prefixed (reads_sign _ _) ⟨_, hreads, hnames⟩)
          | dangling _ hc =>
              cases hc
          | refused hrefuses hblocked =>
              exact Reading.refused (hrefuses.prefixed (reads_sign _ ts)) hblocked.negation
      | connective c =>
          exact reading_operand_of_stuck (by simp [Awaiting.advance])
      | closeParen =>
          exact reading_operand_of_stuck (by simp [Awaiting.advance])

end Operand

end Guard
end GossipGames

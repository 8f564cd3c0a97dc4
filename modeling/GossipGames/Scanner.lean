/-!
# Scanners

A scanner reads something from the front of a list of symbols and hands back what is left.  What is
left is always shorter than what was given, so a loop over a scanner ends without a counter.
Documents and configuration files are both read with the few combinators of this module.
-/

namespace GossipGames

/-- A list that is shorter than `s`: what is left after something was read from the front of `s`. -/
abbrev Shorter (s : List σ) :=
  { r : List σ // r.length < s.length }

namespace Shorter

def trans {s : List σ} (r : Shorter s) (t : Shorter r.val) : Shorter s :=
  ⟨t.val, Nat.lt_trans t.property r.property⟩

def tail {c : σ} {s : List σ} (r : Shorter s) : Shorter (c :: s) :=
  ⟨r.val, Nat.lt_succ_of_lt r.property⟩

def one (c : σ) (s : List σ) : Shorter (c :: s) :=
  ⟨s, Nat.lt_succ_self s.length⟩

end Shorter

/-- A function that reads an `α` from the front of a list of symbols, or refuses. -/
abbrev Scanner (σ α : Type) :=
  (s : List σ) → Option (α × Shorter s)

namespace Scanner

def take (read : σ → Option α) : Scanner σ α
  | [] => none
  | c :: s => (read c).map fun a => (a, Shorter.one c s)

def symbol [DecidableEq σ] (c : σ) : Scanner σ Unit :=
  take fun d => if d = c then some () else none

/-!
# Sequences and alternatives

`skipping` drops what a trimming function drops before or after the scanner proper.
-/

def map (f : α → β) (p : Scanner σ α) : Scanner σ β :=
  fun s => (p s).map fun q => (f q.1, q.2)

def mapSome (f : α → Option β) (p : Scanner σ α) : Scanner σ β :=
  fun s => (p s).bind fun q => (f q.1).map fun b => (b, q.2)

def andThen (p : Scanner σ α) (next : α → Scanner σ β) : Scanner σ β :=
  fun s => (p s).bind fun q => (next q.1 q.2.val).map fun t => (t.1, q.2.trans t.2)

def followedBy (p : Scanner σ α) (closing : Scanner σ β) : Scanner σ α :=
  p.andThen fun a => closing.map fun _ => a

def precededBy (opening : Scanner σ β) (p : Scanner σ α) : Scanner σ α :=
  opening.andThen fun _ => p

def orElse (p q : Scanner σ α) : Scanner σ α :=
  fun s =>
    match p s with
    | some r => some r
    | none => q s

/-- A function that drops some symbols from the front of a list. -/
structure Trim (σ : Type) where
  apply : List σ → List σ
  length_apply_le : ∀ s, (apply s).length ≤ s.length

def skippingBefore (t : Trim σ) (p : Scanner σ α) : Scanner σ α :=
  fun s => (p (t.apply s)).map fun q =>
    (q.1, ⟨q.2.val, Nat.lt_of_lt_of_le q.2.property (t.length_apply_le s)⟩)

def skippingAfter (t : Trim σ) (p : Scanner σ α) : Scanner σ α :=
  fun s => (p s).map fun q =>
    (q.1, ⟨t.apply q.2.val, Nat.lt_of_le_of_lt (t.length_apply_le q.2.val) q.2.property⟩)

def surroundedBy (t : Trim σ) (p : Scanner σ α) : Scanner σ α :=
  (p.skippingBefore t).skippingAfter t

namespace Trim

def dropWhile (p : σ → Bool) : Trim σ where
  apply := List.dropWhile p
  length_apply_le _ := (List.dropWhile_sublist p).length_le

end Trim

/-!
# Chains

One or more operands with a separator between two neighbours: the first operand and the others.  A
separator that no operand follows makes a plain chain fail; a trailing chain takes it as its end.
-/

def chain (separator : Scanner σ Unit) (operand : Scanner σ α) (s : List σ) :
    Option ((α × List α) × Shorter s) :=
  match operand s with
  | none => none
  | some (a, r) =>
      match separator r.val with
      | none => some ((a, []), r)
      | some (_, t) =>
          (chain separator operand t.val).map fun q =>
            ((a, q.1.1 :: q.1.2), (r.trans t).trans q.2)
termination_by s.length
decreasing_by exact (r.trans t).property

def chainTrailing (separator : Scanner σ Unit) (operand : Scanner σ α) (s : List σ) :
    Option ((α × List α) × Shorter s) :=
  match operand s with
  | none => none
  | some (a, r) =>
      match separator r.val with
      | none => some ((a, []), r)
      | some (_, t) =>
          match chainTrailing separator operand t.val with
          | none => some ((a, []), r.trans t)
          | some (q, u) => some ((a, q.1 :: q.2), (r.trans t).trans u)
termination_by s.length
decreasing_by exact (r.trans t).property

end Scanner
end GossipGames

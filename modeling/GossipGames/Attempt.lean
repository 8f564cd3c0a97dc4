/-!
# Attempts

An attempt is a scanner that also remembers its furthest failure.  Wherever a symbol is not the one
that could be read, the place and what was expected there are recorded, even if something else is
read there in the end.  Of two failures the further one is kept, and two at one place are joined.
-/

namespace GossipGames

/-- Symbols and their number.  A place is known by the number of symbols that are left from there
on, which need not be counted at every failure. -/
structure Input (σ : Type) where
  symbols : List σ
  left : Nat
  left_eq : left = symbols.length

namespace Input

def ofList (s : List σ) : Input σ :=
  ⟨s, s.length, rfl⟩

abbrev Rest (s : Input σ) :=
  { r : Input σ // r.left < s.left }

def Rest.trans {s : Input σ} (r : Rest s) (t : Rest r.val) : Rest s :=
  ⟨t.val, Nat.lt_trans t.property r.property⟩

end Input

structure Failure (ε : Type) where
  left : Nat
  expected : List ε
deriving DecidableEq

namespace Failure

def relabel (f : Failure ε) (left : Nat) (label : ε) : Failure ε :=
  if f.left = left then ⟨left, [label]⟩ else f

variable [DecidableEq ε]

def join (f g : Failure ε) : Failure ε :=
  if f.left < g.left then f
  else if g.left < f.left then g
  else ⟨f.left, f.expected ++ g.expected.filter fun e => e ∉ f.expected⟩

/-- What is remembered once `f` comes after an earlier failure. -/
def after (f : Failure ε) (earlier : Option (Failure ε)) : Failure ε :=
  earlier.elim f fun e => e.join f

def furthest (f g : Option (Failure ε)) : Option (Failure ε) :=
  f.merge join g

end Failure

open Input (Rest)
open Failure (furthest)

/-- What comes of an attempt.  A refusal always has a failure; where something was read, there may
have been none on the way. -/
inductive Outcome (ε : Type) (s : Input σ) (α : Type) where
  | read (a : α) (rest : Rest s) (failure : Option (Failure ε))
  | refused (failure : Failure ε)

namespace Outcome

variable [DecidableEq ε] {s : Input σ}

def map (f : α → β) : Outcome ε s α → Outcome ε s β
  | read a r g => read (f a) r g
  | refused g => refused g

def after (earlier : Option (Failure ε)) : Outcome ε s α → Outcome ε s α
  | read a r f => read a r (furthest earlier f)
  | refused f => refused (f.after earlier)

def beyond (r : Rest s) : Outcome ε r.val α → Outcome ε s α
  | read a t f => read a (r.trans t) f
  | refused f => refused f

end Outcome

abbrev Attempt (σ ε α : Type) :=
  (s : Input σ) → Outcome ε s α

namespace Attempt

variable [DecidableEq ε]

def take (read : σ → Option α) (expected : List ε) : Attempt σ ε α
  | ⟨[], left, _⟩ => .refused ⟨left, expected⟩
  | ⟨c :: s, left, h⟩ =>
      match read c with
      | some a => .read a ⟨⟨s, left - 1, by simp [h]⟩, by simp [h]⟩ none
      | none => .refused ⟨left, expected⟩

def symbol [DecidableEq σ] (c : σ) (e : ε) : Attempt σ ε Unit :=
  take (fun d => if d = c then some () else none) [e]

/-!
# Sequences and alternatives

The first of two alternatives that reads something is taken.  A label stands for everything that was
expected where the phrase begins.
-/

def map (f : α → β) (p : Attempt σ ε α) : Attempt σ ε β :=
  fun s => (p s).map f

def andThen (p : Attempt σ ε α) (next : α → Attempt σ ε β) : Attempt σ ε β :=
  fun s =>
    match p s with
    | .refused f => .refused f
    | .read a r f => ((next a r.val).beyond r).after f

def followedBy (p : Attempt σ ε α) (closing : Attempt σ ε β) : Attempt σ ε α :=
  p.andThen fun a => closing.map fun _ => a

def precededBy (opening : Attempt σ ε β) (p : Attempt σ ε α) : Attempt σ ε α :=
  opening.andThen fun _ => p

def orElse (p q : Attempt σ ε α) : Attempt σ ε α :=
  fun s =>
    match p s with
    | .read a r f => .read a r f
    | .refused f => (q s).after (some f)

def labelled (label : ε) (p : Attempt σ ε α) : Attempt σ ε α :=
  fun s =>
    match p s with
    | .read a r f => .read a r (f.map fun f => f.relabel s.left label)
    | .refused f => .refused (f.relabel s.left label)

/-!
# Repetitions

Any number of openings may stand before what `prefixed` reads.  A chain is one or more operands with
a separator between two neighbours; a separator that no operand follows is left where it is.
-/

def prefixed (opening : Attempt σ ε Unit) (wrap : α → α) (p : Attempt σ ε α) (s : Input σ) :
    Outcome ε s α :=
  match opening s with
  | .read _ r f => (((prefixed opening wrap p r.val).map wrap).beyond r).after f
  | .refused f => (p s).after (some f)
termination_by s.left
decreasing_by exact r.property

def chain (separator : Attempt σ ε Unit) (operand : Attempt σ ε α) (s : Input σ) :
    Outcome ε s (α × List α) :=
  match operand s with
  | .refused f => .refused f
  | .read a r f =>
      match separator r.val with
      | .refused g => .read (a, []) r (some (g.after f))
      | .read _ t g =>
          match chain separator operand t.val with
          | .refused h => .read (a, []) r (some (h.after (furthest f g)))
          | .read q u h =>
              .read (a, q.1 :: q.2) ((r.trans t).trans u) (furthest (furthest f g) h)
termination_by s.left
decreasing_by exact (r.trans t).property

def run (ending : ε) (p : Attempt σ ε α) (s : List σ) : Except (Failure ε) α :=
  match p (Input.ofList s) with
  | .refused f => .error f
  | .read a r f =>
      match r.val.left with
      | 0 => .ok a
      | left + 1 => .error (Failure.after ⟨left + 1, [ending]⟩ f)

end Attempt
end GossipGames

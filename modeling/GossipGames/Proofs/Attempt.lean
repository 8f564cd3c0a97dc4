import GossipGames.Attempt

/-!
# What attempts read and remember

An attempt either reads something from the front of a list, leaves a rest and may remember a
failure, or it refuses the list with a failure.
-/

namespace GossipGames
namespace Failure

/-!
# The furthest failure
-/

/-- What is remembered goes no further than the place, and names these there. -/
inductive Names (left : Nat) : List ε → Option (Failure ε) → Prop where
  | nothing : Names left [] none
  | nearer {f : Failure ε} : left < f.left → Names left [] (some f)
  | here (es : List ε) : Names left es (some ⟨left, es⟩)

theorem Names.further {left left' : Nat} {es : List ε} {f : Option (Failure ε)}
    (hf : Names left es f) (hlt : left' < left) : Names left' [] f := by
  cases hf with
  | nothing =>
      exact Names.nothing
  | nearer hleft =>
      exact Names.nearer (Nat.lt_trans hlt hleft)
  | here es =>
      exact Names.nearer hlt

theorem relabel_of_lt {left : Nat} {label : ε} {f : Failure ε} (h : f.left < left) :
    f.relabel left label = f := by
  rw [relabel, if_neg (Nat.ne_of_lt h)]

theorem left_relabel (f : Failure ε) (left : Nat) (label : ε) :
    (f.relabel left label).left = f.left := by
  unfold relabel
  split
  · symm
    assumption
  · rfl

theorem Names.relabel {left start : Nat} {f : Option (Failure ε)} (hf : Names left [] f)
    (hlt : left < start) (label : ε) :
    Names left [] (f.map fun f => f.relabel start label) := by
  cases hf with
  | nothing =>
      exact Names.nothing
  | nearer hleft =>
      exact Names.nearer (by rwa [left_relabel])
  | here =>
      rw [Option.map_some, relabel_of_lt hlt]
      exact Names.here []

variable [DecidableEq ε]

theorem join_of_lt {f g : Failure ε} (h : f.left < g.left) : f.join g = f := by
  rw [join, if_pos h]

theorem join_of_gt {f g : Failure ε} (h : g.left < f.left) : f.join g = g := by
  rw [join, if_neg (Nat.lt_asymm h), if_pos h]

theorem join_of_left_eq {left : Nat} {es es' : List ε} (h : ∀ e ∈ es', e ∉ es) :
    join ⟨left, es⟩ ⟨left, es'⟩ = ⟨left, es ++ es'⟩ := by
  have hfilter : es'.filter (fun e => e ∉ es) = es' :=
    List.filter_eq_self.mpr fun e he => decide_eq_true (h e he)
  simp only [join, Nat.lt_irrefl, if_false, hfilter]

@[simp]
theorem furthest_none_left (f : Option (Failure ε)) : furthest none f = f := by
  cases f <;> rfl

@[simp]
theorem furthest_none_right (f : Option (Failure ε)) : furthest f none = f := by
  cases f <;> rfl

@[simp]
theorem after_none (f : Failure ε) : f.after none = f :=
  rfl

@[simp]
theorem after_some (f g : Failure ε) : f.after (some g) = g.join f :=
  rfl

theorem lt_left_join {left : Nat} {f g : Failure ε} (hf : left < f.left) (hg : left < g.left) :
    left < (f.join g).left := by
  unfold join
  split
  · exact hf
  · split
    · exact hg
    · exact hf

theorem furthest_some (f : Option (Failure ε)) (g : Failure ε) :
    furthest f (some g) = some (g.after f) := by
  cases f <;> rfl

section Names

variable {left : Nat} {es es' : List ε} {f : Option (Failure ε)} {g : Failure ε}

theorem Names.after_here (hf : Names left es f) (h : ∀ e ∈ es', e ∉ es) :
    after ⟨left, es'⟩ f = ⟨left, es ++ es'⟩ := by
  cases hf with
  | nothing =>
      rfl
  | nearer hleft =>
      exact join_of_gt hleft
  | here es =>
      exact join_of_left_eq h

theorem Names.after_further (hf : Names left es f) (hg : g.left < left) : g.after f = g := by
  cases hf with
  | nothing =>
      rfl
  | nearer hleft =>
      exact join_of_gt (Nat.lt_trans hg hleft)
  | here es =>
      exact join_of_gt hg

theorem Names.furthest {f' : Option (Failure ε)} (hf : Names left [] f) (hf' : Names left es f') :
    Names left es (furthest f f') := by
  cases hf' with
  | nothing =>
      rwa [furthest_none_right]
  | nearer hleft' =>
      rw [furthest_some]
      cases hf with
      | nothing =>
          exact Names.nearer hleft'
      | nearer hleft =>
          exact Names.nearer (lt_left_join hleft hleft')
      | here =>
          rw [after_some, join_of_lt hleft']
          exact Names.here []
  | here es =>
      rw [furthest_some, hf.after_here (by simp)]
      exact Names.here es

end Names
end Failure

namespace Attempt

open Failure (Names furthest)

@[simp]
theorem left_ofList (s : List σ) : (Input.ofList s).left = s.length :=
  rfl

def Reads (p : Attempt σ ε α) (s : List σ) (a : α) (rest : List σ) (f : Option (Failure ε)) :
    Prop :=
  ∃ h, p (Input.ofList s) = Outcome.read a ⟨Input.ofList rest, h⟩ f

/-- The attempt makes `a` of the front of `s` and has not failed as far on as `rest`. -/
def Passes (p : Attempt σ ε α) (s : List σ) (a : α) (rest : List σ) : Prop :=
  ∃ f, p.Reads s a rest f ∧ Names rest.length [] f

def Refuses (p : Attempt σ ε α) (s : List σ) (f : Failure ε) : Prop :=
  p (Input.ofList s) = Outcome.refused f

def RefusesHere (p : Attempt σ ε α) (s : List σ) : Prop :=
  ∃ es, p.Refuses s ⟨s.length, es⟩

variable {p q : Attempt σ ε α} {s mid rest : List σ} {a : α} {f g : Option (Failure ε)}
  {e e' : Failure ε}

theorem Reads.length_lt (hp : p.Reads s a rest f) : rest.length < s.length :=
  hp.1

/-!
# The combinators
-/

theorem reads_take {read : σ → Option α} {c : σ} {es : List ε} (h : read c = some a) :
    (take read es).Reads (c :: s) a s none :=
  ⟨Nat.lt_succ_self _, by simp [take, Input.ofList, h]⟩

theorem refuses_take {read : σ → Option α} {es : List ε} (h : ∀ c ∈ s.head?, read c = none) :
    (take read es).Refuses s ⟨s.length, es⟩ := by
  cases s with
  | nil =>
      rfl
  | cons c s =>
      have hc : read c = none := h c rfl
      simp [Refuses, take, Input.ofList, hc]

theorem reads_symbol [DecidableEq σ] (c : σ) (s : List σ) (label : ε) :
    (symbol c label).Reads (c :: s) () s none :=
  reads_take (if_pos rfl)

theorem refuses_symbol [DecidableEq σ] {c : σ} {label : ε} (h : s.head? ≠ some c) :
    (symbol c label).Refuses s ⟨s.length, [label]⟩ := by
  apply refuses_take
  intro d hd
  have hne : d ≠ c := fun heq => h (heq ▸ hd)
  exact if_neg hne

theorem RefusesHere.labelled {label : ε} (hp : p.RefusesHere s) :
    (p.labelled label).Refuses s ⟨s.length, [label]⟩ := by
  rcases hp with ⟨es, hp⟩
  rw [Refuses] at hp
  simp [Refuses, Attempt.labelled, hp, Failure.relabel]

theorem Refuses.labelled {label : ε} (hp : p.Refuses s e) (hlt : e.left < s.length) :
    (p.labelled label).Refuses s e := by
  rw [Refuses] at hp
  simp [Refuses, Attempt.labelled, hp, Failure.relabel_of_lt hlt]

theorem Passes.labelled {label : ε} (hp : p.Passes s a rest) :
    (p.labelled label).Passes s a rest := by
  rcases hp with ⟨f, ⟨hlt, hp⟩, hf⟩
  exact ⟨_, ⟨hlt, by simp only [Attempt.labelled, hp]⟩, hf.relabel hlt label⟩

theorem Reads.map {h : α → β} (hp : p.Reads s a rest f) : (p.map h).Reads s (h a) rest f := by
  rcases hp with ⟨hlt, hp⟩
  exact ⟨hlt, by simp [Attempt.map, hp, Outcome.map]⟩

theorem Refuses.map {h : α → β} (hp : p.Refuses s e) : (p.map h).Refuses s e := by
  rw [Refuses] at hp
  simp [Refuses, Attempt.map, hp, Outcome.map]

variable [DecidableEq ε]

theorem Reads.andThen {next : α → Attempt σ ε β} {b : β} (hp : p.Reads s a mid f)
    (hnext : (next a).Reads mid b rest g) : (p.andThen next).Reads s b rest (furthest f g) := by
  rcases hp with ⟨hmid, hp⟩
  rcases hnext with ⟨hrest, hnext⟩
  refine ⟨Nat.lt_trans hrest hmid, ?_⟩
  simp [Attempt.andThen, hp, hnext, Outcome.beyond, Outcome.after, Input.Rest.trans]

theorem Refuses.andThen {next : α → Attempt σ ε β} (hp : p.Refuses s e) :
    (p.andThen next).Refuses s e := by
  rw [Refuses] at hp
  simp [Refuses, Attempt.andThen, hp]

theorem Reads.andThen_refuses {next : α → Attempt σ ε β} (hp : p.Reads s a mid f)
    (hnext : (next a).Refuses mid e) : (p.andThen next).Refuses s (e.after f) := by
  rcases hp with ⟨hmid, hp⟩
  rw [Refuses] at hnext
  simp [Refuses, Attempt.andThen, hp, hnext, Outcome.beyond, Outcome.after]

theorem Reads.followedBy {closing : Attempt σ ε β} {b : β} (hp : p.Reads s a mid f)
    (hclosing : closing.Reads mid b rest g) :
    (p.followedBy closing).Reads s a rest (furthest f g) :=
  hp.andThen hclosing.map

theorem Refuses.followedBy {closing : Attempt σ ε β} (hp : p.Refuses s e) :
    (p.followedBy closing).Refuses s e :=
  hp.andThen

theorem Reads.followedBy_refuses {closing : Attempt σ ε β} (hp : p.Reads s a mid f)
    (hclosing : closing.Refuses mid e) : (p.followedBy closing).Refuses s (e.after f) :=
  hp.andThen_refuses hclosing.map

theorem Reads.precededBy {opening : Attempt σ ε β} {b : β} (hp : p.Reads mid a rest f)
    (hopening : opening.Reads s b mid none) : (opening.precededBy p).Reads s a rest f := by
  have hboth : (opening.precededBy p).Reads s a rest (furthest none f) :=
    hopening.andThen hp
  rwa [Failure.furthest_none_left] at hboth

theorem Refuses.precededBy {opening : Attempt σ ε β} {b : β} (hp : p.Refuses mid e)
    (hopening : opening.Reads s b mid none) : (opening.precededBy p).Refuses s e :=
  hopening.andThen_refuses hp

theorem Reads.orElse (hp : p.Reads s a rest f) :
    (p.orElse q).Reads s a rest f := by
  rcases hp with ⟨hlt, hp⟩
  exact ⟨hlt, by simp [Attempt.orElse, hp]⟩

theorem Refuses.orElse_reads (hp : p.Refuses s e) (hq : q.Reads s a rest f) :
    (p.orElse q).Reads s a rest (furthest (some e) f) := by
  rw [Refuses] at hp
  rcases hq with ⟨hlt, hq⟩
  exact ⟨hlt, by simp [Attempt.orElse, hp, hq, Outcome.after]⟩

theorem Refuses.orElse (hp : p.Refuses s e) (hq : q.Refuses s e') :
    (p.orElse q).Refuses s (e.join e') := by
  rw [Refuses] at hp hq
  simp [Refuses, Attempt.orElse, hp, hq, Outcome.after]

theorem RefusesHere.orElse (hp : p.RefusesHere s) (hq : q.RefusesHere s) :
    (p.orElse q).RefusesHere s := by
  rcases hp with ⟨es, hp⟩
  rcases hq with ⟨es', hq⟩
  exact ⟨_, by simpa [Failure.join] using hp.orElse hq⟩

theorem RefusesHere.orElse_refuses (hp : p.RefusesHere s) (hq : q.Refuses s e)
    (hlt : e.left < s.length) : (p.orElse q).Refuses s e := by
  rcases hp with ⟨es, hp⟩
  have hjoined := hp.orElse hq
  rwa [Failure.join_of_gt hlt] at hjoined

theorem Passes.orElse (hp : p.Passes s a rest) : (p.orElse q).Passes s a rest := by
  rcases hp with ⟨f, hp, hf⟩
  exact ⟨f, hp.orElse, hf⟩

theorem RefusesHere.orElse_passes (hp : p.RefusesHere s) (hq : q.Passes s a rest) :
    (p.orElse q).Passes s a rest := by
  rcases hp with ⟨es, hp⟩
  rcases hq with ⟨f, hq, hf⟩
  exact ⟨_, hp.orElse_reads hq, (Names.nearer hq.length_lt).furthest hf⟩

/-!
# Repetitions
-/

theorem Passes.prefixed {opening : Attempt σ ε Unit} {wrap : α → α}
    (hopening : opening.Reads s () mid none)
    (hrest : Passes (Attempt.prefixed opening wrap p) mid a rest) :
    Passes (Attempt.prefixed opening wrap p) s (wrap a) rest := by
  rcases hopening with ⟨hmid, hopening⟩
  rcases hrest with ⟨f, ⟨hlt, hrest⟩, hf⟩
  refine ⟨f, ⟨Nat.lt_trans hlt hmid, ?_⟩, hf⟩
  rw [Attempt.prefixed, hopening]
  simp [hrest, Outcome.map, Outcome.beyond, Outcome.after, Input.Rest.trans]

theorem Refuses.prefixed {opening : Attempt σ ε Unit} {wrap : α → α}
    (hopening : opening.Reads s () mid none)
    (hrest : Refuses (Attempt.prefixed opening wrap p) mid e) :
    Refuses (Attempt.prefixed opening wrap p) s e := by
  rcases hopening with ⟨hmid, hopening⟩
  rw [Refuses] at hrest
  rw [Refuses, Attempt.prefixed, hopening]
  simp [hrest, Outcome.map, Outcome.beyond, Outcome.after]

theorem RefusesHere.prefixed_passes {opening : Attempt σ ε Unit} {wrap : α → α}
    (hopening : opening.RefusesHere s) (hp : p.Passes s a rest) :
    Passes (Attempt.prefixed opening wrap p) s a rest := by
  rcases hopening with ⟨es, hopening⟩
  rcases hp with ⟨f, hp, hf⟩
  have hbefore : Names rest.length [] (some ⟨s.length, es⟩) := Names.nearer hp.length_lt
  refine ⟨_, ?_, hbefore.furthest hf⟩
  rcases hp with ⟨hlt, hp⟩
  rw [Refuses] at hopening
  refine ⟨hlt, ?_⟩
  rw [Attempt.prefixed, hopening]
  simp [hp, Outcome.after]

theorem Refuses.prefixed_refuses {opening : Attempt σ ε Unit} {wrap : α → α}
    (hopening : opening.Refuses s e) (hp : p.Refuses s e') :
    Refuses (Attempt.prefixed opening wrap p) s (e.join e') := by
  rw [Refuses] at hopening hp
  rw [Refuses, Attempt.prefixed, hopening]
  simp [hp, Outcome.after]

section Chain

variable {separator : Attempt σ ε Unit}

theorem Refuses.chain (hp : p.Refuses s e) : Refuses (Attempt.chain separator p) s e := by
  rw [Refuses] at hp
  rw [Refuses, Attempt.chain, hp]

theorem Reads.chain_one (hp : p.Reads s a rest f) (hsep : separator.Refuses rest e) :
    Reads (Attempt.chain separator p) s (a, []) rest (some (e.after f)) := by
  rcases hp with ⟨hlt, hp⟩
  rw [Refuses] at hsep
  refine ⟨hlt, ?_⟩
  rw [Attempt.chain, hp]
  simp [hsep]

theorem Reads.chain_dangling (hp : p.Reads s a rest f) (hsep : separator.Reads rest () mid none)
    (hchain : Refuses (Attempt.chain separator p) mid e) :
    Reads (Attempt.chain separator p) s (a, []) rest (some (e.after f)) := by
  rcases hp with ⟨hlt, hp⟩
  rcases hsep with ⟨hmid, hsep⟩
  rw [Refuses] at hchain
  refine ⟨hlt, ?_⟩
  rw [Attempt.chain, hp]
  simp [hsep, hchain]

theorem Reads.chain_more {t : List σ} {q : α × List α} (hp : p.Reads s a t f)
    (hsep : separator.Reads t () mid none)
    (hchain : Reads (Attempt.chain separator p) mid q rest g) :
    Reads (Attempt.chain separator p) s (a, q.1 :: q.2) rest (furthest f g) := by
  rcases hp with ⟨hlt, hp⟩
  rcases hsep with ⟨hmid, hsep⟩
  rcases hchain with ⟨hrest, hchain⟩
  refine ⟨Nat.lt_trans hrest (Nat.lt_trans hmid hlt), ?_⟩
  rw [Attempt.chain, hp]
  simp [hsep, hchain, Input.Rest.trans]

end Chain

theorem Refuses.run {ending : ε} (hp : p.Refuses s e) : p.run ending s = .error e := by
  rw [Refuses] at hp
  simp [Attempt.run, hp]

theorem Reads.run_nil {ending : ε} (hp : p.Reads s a [] f) : p.run ending s = .ok a := by
  rcases hp with ⟨_, hp⟩
  simp [Attempt.run, hp]

theorem Reads.run_cons {ending : ε} {c : σ} (hp : p.Reads s a (c :: rest) f) :
    p.run ending s = .error (Failure.after ⟨rest.length + 1, [ending]⟩ f) := by
  rcases hp with ⟨_, hp⟩
  simp [Attempt.run, hp]

end Attempt
end GossipGames

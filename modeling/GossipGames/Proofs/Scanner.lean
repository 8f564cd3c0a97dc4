import GossipGames.Scanner

/-!
# What scanners read

A scanner is compared with a relation between the symbols that it takes and the value that it makes
of them.  It is sound when everything that it takes is related, and complete when it takes
everything that is related, provided that what follows does not lead it further.
-/

namespace GossipGames
namespace Scanner

/-- The scanner makes `a` of the front of `s` and leaves `rest`. -/
def Reads (p : Scanner σ α) (s : List σ) (a : α) (rest : List σ) : Prop :=
  ∃ h, p s = some (a, ⟨rest, h⟩)

def Sound (p : Scanner σ α) (R : List σ → α → Prop) : Prop :=
  ∀ s a rest, p.Reads s a rest → ∃ ts, s = ts ++ rest ∧ R ts a

def Complete (p : Scanner σ α) (R : List σ → α → Prop) (stop : List σ → Prop) : Prop :=
  ∀ ts a rest, R ts a → stop rest → p.Reads (ts ++ rest) a rest

/-!
# The combinators

Each combinator reads what its parts read one after the other.
-/

theorem reads_of_eq_some {p : Scanner σ α} {s : List σ} {a : α} {r : Shorter s}
    (h : p s = some (a, r)) : p.Reads s a r.val :=
  ⟨r.property, h⟩

theorem reads_symbol_iff [DecidableEq σ] {c : σ} {s rest : List σ} {u : Unit} :
    (symbol c).Reads s u rest ↔ s = c :: rest := by
  cases s with
  | nil =>
      constructor
      · intro h
        rcases h with ⟨_, h⟩
        simp [symbol, take] at h
      · intro h
        cases h
  | cons d s =>
      by_cases hd : d = c
      · simp [Reads, symbol, take, Shorter.one, hd]
        intro h
        simp [h]
      · simp [Reads, symbol, take, hd]

theorem symbol_eq_none_iff [DecidableEq σ] {c : σ} {s : List σ} :
    symbol c s = none ↔ s.head? ≠ some c := by
  cases s with
  | nil =>
      simp [symbol, take]
  | cons d s =>
      by_cases hd : d = c <;> simp [symbol, take, hd]

theorem reads_map_iff {f : α → β} {p : Scanner σ α} {s rest : List σ} {b : β} :
    (p.map f).Reads s b rest ↔ ∃ a, p.Reads s a rest ∧ f a = b := by
  constructor
  · intro h
    rcases h with ⟨hlt, h⟩
    rcases Option.map_eq_some_iff.mp h with ⟨q, hq, heq⟩
    rcases q with ⟨a, r⟩
    cases heq
    exact ⟨a, reads_of_eq_some hq, rfl⟩
  · intro h
    rcases h with ⟨a, ⟨hlt, h⟩, rfl⟩
    exact ⟨hlt, by simp [map, h]⟩

theorem reads_take_iff {read : σ → Option α} {s rest : List σ} {a : α} :
    (take read).Reads s a rest ↔ ∃ c, s = c :: rest ∧ read c = some a := by
  cases s with
  | nil =>
      constructor
      · intro h
        rcases h with ⟨_, h⟩
        cases h
      · intro h
        rcases h with ⟨_, h, _⟩
        cases h
  | cons c s =>
      constructor
      · intro h
        rcases h with ⟨_, h⟩
        rcases Option.map_eq_some_iff.mp h with ⟨b, hread, heq⟩
        cases heq
        exact ⟨c, rfl, hread⟩
      · intro h
        rcases h with ⟨_, heq, hread⟩
        cases heq
        exact ⟨Nat.lt_succ_self _, by simp [take, hread, Shorter.one]⟩

theorem reads_mapSome_iff {f : α → Option β} {p : Scanner σ α} {s rest : List σ} {b : β} :
    (p.mapSome f).Reads s b rest ↔ ∃ a, p.Reads s a rest ∧ f a = some b := by
  constructor
  · intro h
    rcases h with ⟨hlt, h⟩
    rcases Option.bind_eq_some_iff.mp h with ⟨⟨a, r⟩, hp, hmapped⟩
    rcases Option.map_eq_some_iff.mp hmapped with ⟨c, hf, heq⟩
    cases heq
    exact ⟨a, reads_of_eq_some hp, hf⟩
  · intro h
    rcases h with ⟨a, ⟨hlt, h⟩, hf⟩
    exact ⟨hlt, by simp [mapSome, h, hf]⟩

theorem reads_andThen_iff {p : Scanner σ α} {next : α → Scanner σ β} {s rest : List σ} {b : β} :
    (p.andThen next).Reads s b rest ↔ ∃ a mid, p.Reads s a mid ∧ (next a).Reads mid b rest := by
  constructor
  · intro h
    rcases h with ⟨hlt, h⟩
    rcases Option.bind_eq_some_iff.mp h with ⟨⟨a, r⟩, hp, hmapped⟩
    rcases Option.map_eq_some_iff.mp hmapped with ⟨⟨c, t⟩, hnext, heq⟩
    cases heq
    exact ⟨a, r.val, reads_of_eq_some hp, t.property, hnext⟩
  · intro h
    rcases h with ⟨a, mid, ⟨hmid, hp⟩, ⟨hrest, hnext⟩⟩
    exact ⟨Nat.lt_trans hrest hmid, by simp [andThen, hp, hnext, Shorter.trans]⟩

theorem reads_followedBy_iff {p : Scanner σ α} {q : Scanner σ β} {s rest : List σ} {a : α} :
    (p.followedBy q).Reads s a rest ↔ ∃ mid b, p.Reads s a mid ∧ q.Reads mid b rest := by
  rw [followedBy, reads_andThen_iff]
  constructor
  · intro h
    rcases h with ⟨a', mid, hp, hmapped⟩
    rcases reads_map_iff.mp hmapped with ⟨b, hq, heq⟩
    exact ⟨mid, b, heq ▸ hp, hq⟩
  · intro h
    rcases h with ⟨mid, b, hp, hq⟩
    exact ⟨a, mid, hp, reads_map_iff.mpr ⟨b, hq, rfl⟩⟩

theorem reads_precededBy_symbol_iff [DecidableEq σ] {c : σ} {p : Scanner σ α} {s rest : List σ}
    {a : α} : (precededBy (symbol c) p).Reads s a rest ↔ ∃ t, s = c :: t ∧ p.Reads t a rest := by
  rw [precededBy, reads_andThen_iff]
  constructor
  · intro h
    rcases h with ⟨_, t, hopen, hp⟩
    exact ⟨t, reads_symbol_iff.mp hopen, hp⟩
  · intro h
    rcases h with ⟨t, hs, hp⟩
    exact ⟨(), t, reads_symbol_iff.mpr hs, hp⟩

theorem reads_orElse_cases {p q : Scanner σ α} {s rest : List σ} {a : α}
    (h : (p.orElse q).Reads s a rest) : p.Reads s a rest ∨ q.Reads s a rest := by
  rcases h with ⟨hlt, h⟩
  unfold orElse at h
  split at h
  · next hp =>
    cases h
    exact Or.inl ⟨hlt, hp⟩
  · exact Or.inr ⟨hlt, h⟩

theorem reads_orElse_left {p q : Scanner σ α} {s rest : List σ} {a : α}
    (h : p.Reads s a rest) : (p.orElse q).Reads s a rest := by
  rcases h with ⟨hlt, h⟩
  exact ⟨hlt, by simp [orElse, h]⟩

theorem reads_orElse_right {p q : Scanner σ α} {s rest : List σ} {a : α} (hp : p s = none)
    (h : q.Reads s a rest) : (p.orElse q).Reads s a rest := by
  rcases h with ⟨hlt, h⟩
  exact ⟨hlt, by simp [orElse, hp, h]⟩

theorem reads_skippingBefore_iff {t : Trim σ} {p : Scanner σ α} {s rest : List σ} {a : α} :
    (p.skippingBefore t).Reads s a rest ↔ p.Reads (t.apply s) a rest := by
  constructor
  · intro h
    rcases h with ⟨hlt, h⟩
    rcases Option.map_eq_some_iff.mp h with ⟨⟨b, r⟩, hp, heq⟩
    cases heq
    exact reads_of_eq_some hp
  · intro h
    rcases h with ⟨hlt, h⟩
    exact ⟨Nat.lt_of_lt_of_le hlt (t.length_apply_le s), by simp [skippingBefore, h]⟩

theorem reads_skippingAfter (t : Trim σ) {p : Scanner σ α} {s mid : List σ} {a : α}
    (h : p.Reads s a mid) : (p.skippingAfter t).Reads s a (t.apply mid) := by
  rcases h with ⟨hlt, h⟩
  exact ⟨Nat.lt_of_le_of_lt (t.length_apply_le mid) hlt, by simp [skippingAfter, h]⟩

theorem reads_surroundedBy_iff {t : Trim σ} {p : Scanner σ α} {s rest : List σ} {a : α} :
    (p.surroundedBy t).Reads s a rest ↔ ∃ mid, p.Reads (t.apply s) a mid ∧ t.apply mid = rest := by
  constructor
  · intro h
    rcases h with ⟨hlt, h⟩
    rcases Option.map_eq_some_iff.mp h with ⟨⟨b, r⟩, hp, heq⟩
    cases heq
    exact ⟨r.val, reads_skippingBefore_iff.mp (reads_of_eq_some hp), rfl⟩
  · intro h
    rcases h with ⟨mid, hp, rfl⟩
    rcases reads_skippingBefore_iff.mpr hp with ⟨hlt, hp⟩
    exact ⟨Nat.lt_of_le_of_lt (t.length_apply_le mid) hlt, by
      simp [surroundedBy, skippingAfter, hp]⟩

theorem Sound.imp {p : Scanner σ α} {R R' : List σ → α → Prop} (hp : p.Sound R)
    (h : ∀ ts a, R ts a → R' ts a) : p.Sound R' := by
  intro s a rest hread
  rcases hp s a rest hread with ⟨ts, hs, hts⟩
  exact ⟨ts, hs, h ts a hts⟩

theorem sound_orElse {p q : Scanner σ α} {R : List σ → α → Prop} (hp : p.Sound R)
    (hq : q.Sound R) : (p.orElse q).Sound R := by
  intro s a rest h
  rcases reads_orElse_cases h with h | h
  · exact hp s a rest h
  · exact hq s a rest h

theorem sound_map {f : α → β} {p : Scanner σ α} {R : List σ → β → Prop}
    (hp : p.Sound fun ts a => R ts (f a)) : (p.map f).Sound R := by
  intro s b rest h
  rcases reads_map_iff.mp h with ⟨a, hread, rfl⟩
  exact hp s a rest hread

theorem sound_precededBy_symbol [DecidableEq σ] {c : σ} {p : Scanner σ α} {R : List σ → α → Prop}
    (hp : p.Sound fun ts a => R (c :: ts) a) : (precededBy (symbol c) p).Sound R := by
  intro s a rest h
  rcases reads_precededBy_symbol_iff.mp h with ⟨t, rfl, hread⟩
  rcases hp t a rest hread with ⟨ts, rfl, hts⟩
  exact ⟨c :: ts, rfl, hts⟩

/-!
# Longest prefixes

What follows the longest prefix of symbols of a class does not start with such a symbol.
-/

def Avoids (p : σ → Bool) (s : List σ) : Prop :=
  ∀ c ∈ s.head?, p c = false

theorem avoids_cons {p : σ → Bool} {c : σ} (h : p c = false) (s : List σ) : Avoids p (c :: s) := by
  intro d hd
  cases hd
  exact h

theorem avoids_dropWhile (p : σ → Bool) (s : List σ) : Avoids p (s.dropWhile p) := by
  intro c hc
  have hnot := List.head?_dropWhile_not p s
  rw [Option.mem_def.mp hc] at hnot
  exact hnot

theorem takeWhile_append_of_avoids {p : σ → Bool} {w s : List σ} (hw : ∀ c ∈ w, p c = true)
    (hs : Avoids p s) : (w ++ s).takeWhile p = w ∧ (w ++ s).dropWhile p = s := by
  have hnone : s.takeWhile p = [] ∧ s.dropWhile p = s := by
    cases s with
    | nil =>
        exact ⟨rfl, rfl⟩
    | cons c s =>
        have hc : p c = false := hs c rfl
        simp [hc]
  rw [List.takeWhile_append_of_pos hw, List.dropWhile_append_of_pos hw, hnone.1, hnone.2]
  exact ⟨List.append_nil w, rfl⟩

theorem exists_cons_of_avoids {p : σ → Bool} {w s : List σ} (hne : w ≠ [])
    (hw : ∀ c ∈ w, p c = true) (hs : Avoids p s) :
    ∃ c v, w = c :: v ∧ p c = true ∧ (v ++ s).takeWhile p = v ∧ (v ++ s).dropWhile p = s ∧
      s.length < (w ++ s).length := by
  rcases List.exists_cons_of_ne_nil hne with ⟨c, v, rfl⟩
  rw [List.forall_mem_cons] at hw
  have hsplit := takeWhile_append_of_avoids hw.2 hs
  refine ⟨c, v, rfl, hw.1, hsplit.1, hsplit.2, ?_⟩
  rw [List.cons_append, List.length_cons, List.length_append]
  omega

theorem avoids_append {p : σ → Bool} {us s : List σ} (hus : ∀ c ∈ us, p c = false)
    (hs : Avoids p s) : Avoids p (us ++ s) := by
  cases us with
  | nil =>
      exact hs
  | cons c us =>
      exact avoids_cons (hus c List.mem_cons_self) (us ++ s)

/-!
# Rows

A row is what a chain reads: operands with a separator between two neighbours.
-/

inductive Row (sep : σ) (R : List σ → α → Prop) : List σ → α × List α → Prop where
  | one : R ts a → Row sep R ts (a, [])
  | more : R ts a → Row sep R us (b, bs) → Row sep R (ts ++ sep :: us) (a, b :: bs)

namespace Row

theorem snoc {sep : σ} {R : List σ → α → Prop} {ts us : List σ} {q : α × List α} {b : α}
    (hrow : Row sep R ts q) (hb : R us b) : Row sep R (ts ++ sep :: us) (q.1, q.2 ++ [b]) := by
  induction hrow with
  | one ha =>
      exact Row.more ha (Row.one hb)
  | more ha _ ih =>
      rw [List.append_assoc, List.cons_append]
      exact Row.more ha ih

theorem of_parts {sep : σ} {R : List σ → α → Prop} {first : List σ × α}
    {parts : List (List σ × α)} (h : ∀ q ∈ first :: parts, R q.1 q.2) :
    Row sep R ([sep].intercalate ((first :: parts).map Prod.fst))
      (first.2, parts.map Prod.snd) := by
  induction parts generalizing first with
  | nil =>
      have hone : Row sep R first.1 (first.2, []) :=
        Row.one (h first List.mem_cons_self)
      simpa [List.intercalate] using hone
  | cons second parts ih =>
      have hrest := @ih second fun q hq => h q (List.mem_cons_of_mem first hq)
      simpa [List.intercalate] using Row.more (h first List.mem_cons_self) hrest

theorem exists_parts {sep : σ} {R : List σ → α → Prop} {ts : List σ} {q : α × List α}
    (hrow : Row sep R ts q) :
    ∃ parts : List (List σ × α), ts = [sep].intercalate (parts.map Prod.fst) ∧
      parts.map Prod.snd = q.1 :: q.2 ∧ ∀ p ∈ parts, R p.1 p.2 := by
  induction hrow with
  | @one ts a ha =>
      exact ⟨[(ts, a)], by simp [List.intercalate], rfl, by simpa using ha⟩
  | @more ts a us b bs ha _ ih =>
      rcases ih with ⟨parts, hts, hvalues, hparts⟩
      cases parts with
      | nil =>
          cases hvalues
      | cons second parts =>
          refine ⟨(ts, a) :: second :: parts, ?_, ?_, ?_⟩
          · simp [List.intercalate, hts]
          · rw [List.map_cons, hvalues]
          · intro p hp
            cases hp with
            | head =>
                exact ha
            | tail _ hp =>
                exact hparts p hp

theorem imp {sep : σ} {R R' : List σ → α → Prop} {ts : List σ} {q : α × List α}
    (h : ∀ us a, R us a → R' us a) (hrow : Row sep R ts q) : Row sep R' ts q := by
  induction hrow with
  | one ha =>
      exact Row.one (h _ _ ha)
  | more ha _ ih =>
      exact Row.more (h _ _ ha) ih

theorem and_sublist {sep : σ} {R : List σ → α → Prop} {ts : List σ} {q : α × List α}
    (hrow : Row sep R ts q) : Row sep (fun us a => R us a ∧ us.Sublist ts) ts q := by
  induction hrow with
  | one ha =>
      exact Row.one ⟨ha, List.Sublist.refl _⟩
  | @more ts a us b bs ha _ ih =>
      have hrest : us.Sublist (ts ++ sep :: us) :=
        (List.sublist_cons_self sep us).trans (List.sublist_append_right ts (sep :: us))
      exact Row.more ⟨ha, List.sublist_append_left ts (sep :: us)⟩
        (ih.imp fun vs c hvs => ⟨hvs.1, hvs.2.trans hrest⟩)

theorem of_length_le {sep : σ} {R : List σ → α → Prop} {ts : List σ} {q : α × List α} {n : Nat}
    (hrow : Row sep R ts q) (hlength : ts.length ≤ n) :
    Row sep (fun us a => R us a ∧ us.length ≤ n) ts q :=
  hrow.and_sublist.imp fun _ _ h => ⟨h.1, Nat.le_trans h.2.length_le hlength⟩

end Row

/-- Of the front of a list, up to a place where it may stop, only one thing can be made. -/
def Unambiguous (R : List σ → α → Prop) (stop : List σ → Prop) : Prop :=
  ∀ ⦃us us' a a' rest rest'⦄, R us a → R us' a' → us ++ rest = us' ++ rest' →
    stop rest → stop rest' → us = us' ∧ a = a'

theorem Row.unambiguous {sep : σ} {R : List σ → α → Prop} {stop : List σ → Prop}
    (hR : Unambiguous R stop) (hsep : ∀ s, stop (sep :: s)) :
    Unambiguous (Row sep R) fun s => stop s ∧ s.head? ≠ some sep := by
  intro us us' q q' rest rest' hrow
  induction hrow generalizing us' q' with
  | one ha =>
      intro hrow' heq hstop hstop'
      cases hrow' with
      | one ha' =>
          rcases hR ha ha' heq hstop.1 hstop'.1 with ⟨rfl, rfl⟩
          exact ⟨rfl, rfl⟩
      | more ha' _ =>
          rw [List.append_assoc] at heq
          rcases hR ha ha' heq hstop.1 (hsep _) with ⟨rfl, _⟩
          rw [List.append_cancel_left heq] at hstop
          exact absurd rfl hstop.2
  | more ha _ ih =>
      intro hrow' heq hstop hstop'
      cases hrow' with
      | one ha' =>
          rw [List.append_assoc] at heq
          rcases hR ha ha' heq (hsep _) hstop'.1 with ⟨rfl, _⟩
          rw [← List.append_cancel_left heq] at hstop'
          exact absurd rfl hstop'.2
      | more ha' hrow' =>
          rw [List.append_assoc, List.append_assoc] at heq
          rcases hR ha ha' heq (hsep _) (hsep _) with ⟨rfl, rfl⟩
          have hrest := List.tail_eq_of_cons_eq (List.append_cancel_left heq)
          rcases ih hrow' hrest hstop hstop' with ⟨rfl, hvalues⟩
          cases hvalues
          exact ⟨rfl, rfl⟩

/-!
# Chains

A chain reads the rows of what its operand reads.
-/

theorem reads_chain_nil {separator : Scanner σ Unit} {p : Scanner σ α} {s mid : List σ} {a : α}
    (hp : p.Reads s a mid) (hsep : separator mid = none) :
    Reads (chain separator p) s (a, []) mid := by
  rcases hp with ⟨hlt, hp⟩
  refine ⟨hlt, ?_⟩
  rw [chain, hp]
  simp [hsep]

theorem reads_chain_cons {separator : Scanner σ Unit} {p : Scanner σ α} {s mid t rest : List σ}
    {a : α} {q : α × List α} (hp : p.Reads s a mid) (hsep : separator.Reads mid () t)
    (hchain : Reads (chain separator p) t q rest) :
    Reads (chain separator p) s (a, q.1 :: q.2) rest := by
  rcases hp with ⟨hlt, hp⟩
  rcases hsep with ⟨hlt', hsep⟩
  rcases hchain with ⟨hlt'', hchain⟩
  refine ⟨Nat.lt_trans hlt'' (Nat.lt_trans hlt' hlt), ?_⟩
  rw [chain, hp]
  simp [hsep, hchain, Shorter.trans]

theorem reads_chain_cases {separator : Scanner σ Unit} {p : Scanner σ α} {s rest : List σ}
    {q : α × List α} (h : Reads (chain separator p) s q rest) :
    (p.Reads s q.1 rest ∧ q.2 = []) ∨
      ∃ mid t b bs, p.Reads s q.1 mid ∧ separator.Reads mid () t ∧
        Reads (chain separator p) t (b, bs) rest ∧ q.2 = b :: bs := by
  rcases h with ⟨hlt, h⟩
  rw [chain] at h
  cases hp : p s with
  | none =>
      simp [hp] at h
  | some x =>
      rcases x with ⟨a, r⟩
      cases hsep : separator r.val with
      | none =>
          simp [hp, hsep] at h
          rcases h with ⟨rfl, rfl⟩
          exact Or.inl ⟨⟨hlt, hp⟩, rfl⟩
      | some y =>
          rcases y with ⟨u, t⟩
          simp only [hp, hsep] at h
          rcases Option.map_eq_some_iff.mp h with ⟨⟨⟨b, bs⟩, w⟩, hchain, heq⟩
          cases heq
          exact Or.inr ⟨r.val, t.val, b, bs, reads_of_eq_some hp, reads_of_eq_some hsep,
            reads_of_eq_some hchain, rfl⟩

theorem sound_chain [DecidableEq σ] {sep : σ} {p : Scanner σ α} {R : List σ → α → Prop}
    (hp : p.Sound R) : Sound (chain (symbol sep) p) (Row sep R) := by
  -- What follows the first separator is shorter than the whole.
  intro s
  induction hn : s.length using Nat.strongRecOn generalizing s with
  | ind n ih =>
      intro q rest h
      rcases q with ⟨a, as⟩
      rcases reads_chain_cases h with ⟨hread, has⟩ | ⟨mid, t, b, bs, hread, hsep, hchain, has⟩
      · cases has
        rcases hp s a rest hread with ⟨ts, hs, hts⟩
        exact ⟨ts, hs, Row.one hts⟩
      · cases has
        rcases hp s a mid hread with ⟨ts, hs, hts⟩
        rw [reads_symbol_iff.mp hsep] at hs
        have hshorter : t.length < n := by
          rw [← hn, hs, List.length_append, List.length_cons]
          omega
        rcases ih t.length hshorter t rfl (b, bs) rest hchain with ⟨us, ht, hus⟩
        refine ⟨ts ++ sep :: us, ?_, Row.more hts hus⟩
        rw [hs, ht, List.append_assoc, List.cons_append]

theorem complete_chain [DecidableEq σ] {sep : σ} {p : Scanner σ α} {R : List σ → α → Prop}
    {stop : List σ → Prop} (hp : p.Complete R stop) (hsep : ∀ rest, stop (sep :: rest)) :
    Complete (chain (symbol sep) p) (Row sep R)
      (fun rest => stop rest ∧ rest.head? ≠ some sep) := by
  intro ts q rest hrow hstop
  induction hrow with
  | one hts =>
      exact reads_chain_nil (hp _ _ rest hts hstop.1) (symbol_eq_none_iff.mpr hstop.2)
  | more hts _ ih =>
      rw [List.append_assoc, List.cons_append]
      exact reads_chain_cons (hp _ _ _ hts (hsep _)) (reads_symbol_iff.mpr rfl) ih

/-!
# What scanners make

Everything that a scanner makes has a property when the parts of the scanner see to it.
-/

def Yields (p : Scanner σ α) (P : α → Prop) : Prop :=
  ∀ s a rest, p.Reads s a rest → P a

theorem yields_map {f : α → β} {p : Scanner σ α} {P : β → Prop}
    (hp : p.Yields fun a => P (f a)) : (p.map f).Yields P := by
  intro s b rest h
  rcases reads_map_iff.mp h with ⟨a, hread, rfl⟩
  exact hp s a rest hread

theorem yields_mapSome {f : α → Option β} {p : Scanner σ α} {P : β → Prop}
    (hp : p.Yields fun a => ∀ b, f a = some b → P b) : (p.mapSome f).Yields P := by
  intro s b rest h
  rcases reads_mapSome_iff.mp h with ⟨a, hread, hb⟩
  exact hp s a rest hread b hb

theorem yields_andThen {p : Scanner σ α} {next : α → Scanner σ β} {P : β → Prop}
    (hnext : ∀ a, (next a).Yields P) : (p.andThen next).Yields P := by
  intro s b rest h
  rcases reads_andThen_iff.mp h with ⟨a, mid, _, hread⟩
  exact hnext a mid b rest hread

theorem yields_followedBy {p : Scanner σ α} {q : Scanner σ β} {P : α → Prop} (hp : p.Yields P) :
    (p.followedBy q).Yields P := by
  intro s a rest h
  rcases reads_followedBy_iff.mp h with ⟨mid, _, hread, _⟩
  exact hp s a mid hread

theorem yields_precededBy {p : Scanner σ α} {q : Scanner σ β} {P : α → Prop} (hp : p.Yields P) :
    (precededBy q p).Yields P :=
  yields_andThen fun _ => hp

theorem yields_orElse {p q : Scanner σ α} {P : α → Prop} (hp : p.Yields P) (hq : q.Yields P) :
    (p.orElse q).Yields P := by
  intro s a rest h
  rcases reads_orElse_cases h with hread | hread
  · exact hp s a rest hread
  · exact hq s a rest hread

theorem yields_skippingBefore {t : Trim σ} {p : Scanner σ α} {P : α → Prop} (hp : p.Yields P) :
    (p.skippingBefore t).Yields P := by
  intro s a rest h
  exact hp _ a rest (reads_skippingBefore_iff.mp h)

theorem yields_skippingAfter {t : Trim σ} {p : Scanner σ α} {P : α → Prop} (hp : p.Yields P) :
    (p.skippingAfter t).Yields P := by
  intro s a rest h
  rcases h with ⟨hlt, h⟩
  rcases Option.map_eq_some_iff.mp h with ⟨q, hread, heq⟩
  cases heq
  exact hp s q.1 q.2.val (reads_of_eq_some hread)

theorem yields_chain {separator : Scanner σ Unit} {p : Scanner σ α} {P : α → Prop}
    (hp : p.Yields P) : Yields (chain separator p) fun q => ∀ a ∈ q.1 :: q.2, P a := by
  intro s
  induction hn : s.length using Nat.strongRecOn generalizing s with
  | ind n ih =>
      intro q rest h
      rcases q with ⟨a, as⟩
      rcases reads_chain_cases h with ⟨hread, has⟩ | ⟨mid, t, b, bs, hread, hsep, hchain, has⟩
      · cases has
        simpa using hp s a rest hread
      · cases has
        have hshorter : t.length < n := hn ▸ Nat.lt_trans hsep.1 hread.1
        exact List.forall_mem_cons.mpr
          ⟨hp s a mid hread, ih t.length hshorter t rfl (b, bs) rest hchain⟩

theorem yields_chainTrailing {separator : Scanner σ Unit} {p : Scanner σ α} {P : α → Prop}
    (hp : p.Yields P) : Yields (chainTrailing separator p) fun q => ∀ a ∈ q.1 :: q.2, P a := by
  intro s
  induction hn : s.length using Nat.strongRecOn generalizing s with
  | ind n ih =>
      intro q rest h
      rcases h with ⟨hlt, h⟩
      rw [chainTrailing] at h
      split at h
      · cases h
      · next a r hread =>
        have ha : P a := hp s a r.val (reads_of_eq_some hread)
        split at h
        · cases h
          simpa using ha
        · next t hsep =>
          split at h
          · cases h
            simpa using ha
          · next q u hchain =>
            cases h
            have hshorter : t.val.length < n := hn ▸ (r.trans t).property
            exact List.forall_mem_cons.mpr
              ⟨ha, ih t.val.length hshorter t.val rfl q u.val (reads_of_eq_some hchain)⟩

/-!
# What scanners make of given symbols

A value may remember how much was left when it was read, so what is read from given symbols is known
by a property only.
-/

/-- Before anything that may follow, the scanner takes exactly `ts` and makes something with the
property of it. -/
def Makes (p : Scanner σ α) (ts : List σ) (P : α → Prop) (stop : List σ → Prop) : Prop :=
  ∀ rest, stop rest → ∃ a, p.Reads (ts ++ rest) a rest ∧ P a

section Makes

variable {p : Scanner σ α} {ts us : List σ} {P : α → Prop} {stop stop' : List σ → Prop}

theorem Makes.imp {P' : α → Prop} (hp : p.Makes ts P stop) (hP : ∀ a, P a → P' a)
    (hstop : ∀ rest, stop' rest → stop rest) : p.Makes ts P' stop' := by
  intro rest hrest
  rcases hp rest (hstop rest hrest) with ⟨a, hread, ha⟩
  exact ⟨a, hread, hP a ha⟩

theorem makes_symbol [DecidableEq σ] (c : σ) :
    (symbol c).Makes [c] (fun _ => True) fun _ => True := by
  intro rest _
  exact ⟨(), reads_symbol_iff.mpr rfl, trivial⟩

theorem makes_map {f : α → β} {P : β → Prop} (hp : p.Makes ts (fun a => P (f a)) stop) :
    (p.map f).Makes ts P stop := by
  intro rest hrest
  rcases hp rest hrest with ⟨a, hread, ha⟩
  exact ⟨f a, reads_map_iff.mpr ⟨a, hread, rfl⟩, ha⟩

theorem makes_mapSome {f : α → Option β} {P : β → Prop}
    (hp : p.Makes ts (fun a => ∃ b, f a = some b ∧ P b) stop) : (p.mapSome f).Makes ts P stop := by
  intro rest hrest
  rcases hp rest hrest with ⟨a, hread, b, hb, hP⟩
  exact ⟨b, reads_mapSome_iff.mpr ⟨a, hread, hb⟩, hP⟩

theorem makes_andThen {next : α → Scanner σ β} {Q : β → Prop} (hp : p.Makes ts P stop)
    (hnext : ∀ a, P a → (next a).Makes us Q stop') (hstop : ∀ rest, stop (us ++ rest)) :
    (p.andThen next).Makes (ts ++ us) Q stop' := by
  intro rest hrest
  rcases hp (us ++ rest) (hstop rest) with ⟨a, hread, ha⟩
  rcases hnext a ha rest hrest with ⟨b, hread', hb⟩
  rw [← List.append_assoc] at hread
  exact ⟨b, reads_andThen_iff.mpr ⟨a, us ++ rest, hread, hread'⟩, hb⟩

theorem makes_followedBy_symbol [DecidableEq σ] {c : σ} (hp : p.Makes ts P stop)
    (hstop : ∀ rest, stop (c :: rest)) :
    (p.followedBy (symbol c)).Makes (ts ++ [c]) P fun _ => True := by
  intro rest _
  rcases hp (c :: rest) (hstop rest) with ⟨a, hread, ha⟩
  rw [List.append_assoc]
  exact ⟨a, reads_followedBy_iff.mpr ⟨c :: rest, (), hread, reads_symbol_iff.mpr rfl⟩, ha⟩

theorem makes_precededBy_symbol [DecidableEq σ] {c : σ} (hp : p.Makes ts P stop) :
    (precededBy (symbol c) p).Makes (c :: ts) P stop := by
  intro rest hrest
  rcases hp rest hrest with ⟨a, hread, ha⟩
  exact ⟨a, reads_precededBy_symbol_iff.mpr ⟨ts ++ rest, rfl, hread⟩, ha⟩

theorem makes_orElse_left {q : Scanner σ α} (hp : p.Makes ts P stop) :
    (p.orElse q).Makes ts P stop := by
  intro rest hrest
  rcases hp rest hrest with ⟨a, hread, ha⟩
  exact ⟨a, reads_orElse_left hread, ha⟩

theorem makes_orElse_right {q : Scanner σ α} (hq : q.Makes ts P stop)
    (hp : ∀ rest, stop rest → p (ts ++ rest) = none) : (p.orElse q).Makes ts P stop := by
  intro rest hrest
  rcases hq rest hrest with ⟨a, hread, ha⟩
  exact ⟨a, reads_orElse_right (hp rest hrest) hread, ha⟩

theorem makes_skippingBefore {t : Trim σ} (hp : p.Makes ts P stop)
    (hskip : ∀ rest, stop rest → t.apply (us ++ (ts ++ rest)) = ts ++ rest) :
    (p.skippingBefore t).Makes (us ++ ts) P stop := by
  intro rest hrest
  rcases hp rest hrest with ⟨a, hread, ha⟩
  refine ⟨a, reads_skippingBefore_iff.mpr ?_, ha⟩
  rw [List.append_assoc, hskip rest hrest]
  exact hread

theorem makes_skippingAfter {t : Trim σ} (hp : p.Makes ts P stop)
    (hstop : ∀ rest, stop' rest → stop (us ++ rest))
    (hskip : ∀ rest, stop' rest → t.apply (us ++ rest) = rest) :
    (p.skippingAfter t).Makes (ts ++ us) P stop' := by
  intro rest hrest
  rcases hp (us ++ rest) (hstop rest hrest) with ⟨a, hread, ha⟩
  have hskipped := reads_skippingAfter t hread
  rw [hskip rest hrest, ← List.append_assoc] at hskipped
  exact ⟨a, hskipped, ha⟩

theorem makes_chain_one [DecidableEq σ] {sep : σ} (hp : p.Makes ts P stop)
    (hstop : ∀ rest, stop' rest → stop rest ∧ rest.head? ≠ some sep) :
    Makes (chain (symbol sep) p) ts (fun q => P q.1 ∧ q.2 = []) stop' := by
  intro rest hrest
  rcases hstop rest hrest with ⟨hone, hsep⟩
  rcases hp rest hone with ⟨a, hread, ha⟩
  exact ⟨(a, []), reads_chain_nil hread (symbol_eq_none_iff.mpr hsep), ha, rfl⟩

theorem makes_chain_cons [DecidableEq σ] {sep : σ} {Q : α × List α → Prop}
    (hp : p.Makes ts P stop) (hstop : ∀ rest, stop (sep :: rest))
    (hchain : Makes (chain (symbol sep) p) us Q stop') :
    Makes (chain (symbol sep) p) (ts ++ sep :: us)
      (fun q => ∃ b bs, P q.1 ∧ q.2 = b :: bs ∧ Q (b, bs)) stop' := by
  intro rest hrest
  rcases hp (sep :: (us ++ rest)) (hstop _) with ⟨a, hread, ha⟩
  rcases hchain rest hrest with ⟨q, hread', hq⟩
  rw [List.append_assoc]
  exact ⟨(a, q.1 :: q.2), reads_chain_cons hread (reads_symbol_iff.mpr rfl) hread', q.1, q.2, ha,
    rfl, hq⟩

end Makes

section Nothing

variable {p q : Scanner σ α} {s : List σ}

theorem map_eq_none {f : α → β} (h : p s = none) : p.map f s = none := by
  rw [map, h, Option.map_none]

theorem mapSome_eq_none {f : α → Option β} (h : p s = none) : p.mapSome f s = none := by
  rw [mapSome, h, Option.bind_none]

theorem andThen_eq_none {next : α → Scanner σ β} (h : p s = none) : p.andThen next s = none := by
  rw [andThen, h, Option.bind_none]

theorem orElse_eq_none (hp : p s = none) (hq : q s = none) : p.orElse q s = none := by
  rw [orElse, hp, hq]

theorem skippingBefore_eq_none {t : Trim σ} (h : p (t.apply s) = none) :
    p.skippingBefore t s = none := by
  rw [skippingBefore, h, Option.map_none]

theorem precededBy_symbol_eq_none [DecidableEq σ] {c : σ} (h : s.head? ≠ some c) :
    precededBy (symbol c) p s = none :=
  andThen_eq_none (symbol_eq_none_iff.mpr h)

theorem precededBy_symbol_cons_eq_none [DecidableEq σ] {c : σ} (h : p s = none) :
    precededBy (symbol c) p (c :: s) = none := by
  simp [precededBy, andThen, symbol, take, Shorter.one, h]

end Nothing

end Scanner
end GossipGames

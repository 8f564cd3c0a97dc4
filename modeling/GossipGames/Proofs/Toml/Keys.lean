import GossipGames.Proofs.Scanner
import GossipGames.Toml.Reader
import Mathlib.Data.List.Nodup

/-!
# No key twice

A table that is read from a file has no key twice, and neither has any table inside it.
-/

namespace GossipGames
namespace Toml

inductive Value.Distinct : Value → Prop where
  | text (e : Extent) (s : String) : Distinct (text e s)
  | boolean (e : Extent) (b : Bool) : Distinct (boolean e b)
  | integer (e : Extent) (n : Int) : Distinct (integer e n)
  | float (e : Extent) (x : Binary64) : Distinct (float e x)
  | moment (e : Extent) : Distinct (moment e)
  | array (e : Extent) {vs : List Value} : (∀ v ∈ vs, Distinct v) → Distinct (array e vs)
  | table {t : Table Value} : (t.entries.map fun e => e.1.name).Nodup →
      (∀ e ∈ t.entries, Distinct e.2) → Distinct (table t)
  | tables {ts : List (Table Value)} : (∀ t ∈ ts, Distinct (table t)) → Distinct (tables ts)

namespace Table

def keyNames (t : Table Value) : List String :=
  t.entries.map fun e => e.1.name

/-- Neither a table nor any table inside it has a key twice. -/
structure Distinct (t : Table Value) : Prop where
  names : t.keyNames.Nodup
  values : ∀ e ∈ t.entries, e.2.Distinct

theorem distinct_iff {t : Table Value} : t.Distinct ↔ (Value.table t).Distinct := by
  constructor
  · intro h
    exact Value.Distinct.table h.names h.values
  · intro h
    cases h with
    | table hnames hvalues =>
        exact ⟨hnames, hvalues⟩

variable {t t' : Table Value} {k : Key} {v : Value} {name : String}

theorem distinct_empty (extent : Option Extent) (origin : Origin) :
    (empty extent origin : Table Value).Distinct :=
  ⟨List.nodup_nil, fun _ he => absurd he List.not_mem_nil⟩

theorem keyNames_append (t : Table Value) (k : Key) (v : Value) :
    (t.append k v).keyNames = t.keyNames ++ [k.name] := by
  simp [keyNames, Table.append]

theorem keyNames_replace (t : Table Value) (name : String) (v : Value) :
    (t.replace name v).keyNames = t.keyNames := by
  rw [keyNames, keyNames, Table.replace, List.map_map]
  refine List.map_congr_left fun e _ => ?_
  simp only [Function.comp_apply]
  split <;> rfl

theorem not_mem_keyNames_of_get? (h : t.get? name = none) : name ∉ t.keyNames := by
  intro hname
  rcases List.mem_map.mp hname with ⟨e, he, rfl⟩
  rw [get?, Option.map_eq_none_iff, List.find?_eq_none] at h
  exact h e he (beq_self_eq_true _)

theorem Distinct.of_get? (ht : t.Distinct) (h : t.get? name = some v) : v.Distinct := by
  rcases Option.map_eq_some_iff.mp h with ⟨e, hfind, rfl⟩
  exact ht.values e (List.mem_of_find?_eq_some hfind)

theorem Distinct.append (ht : t.Distinct) (h : t.get? k.name = none) (hv : v.Distinct) :
    (t.append k v).Distinct := by
  constructor
  · rw [keyNames_append, List.nodup_append]
    refine ⟨ht.names, List.nodup_singleton _, ?_⟩
    intro a ha b hb heq
    rw [heq, List.mem_singleton.mp hb] at ha
    exact not_mem_keyNames_of_get? h ha
  · intro e he
    rcases List.mem_append.mp he with he | he
    · exact ht.values e he
    · rw [List.mem_singleton.mp he]
      exact hv

theorem Distinct.replace (ht : t.Distinct) (name : String) (hv : v.Distinct) :
    (t.replace name v).Distinct := by
  constructor
  · rw [keyNames_replace]
    exact ht.names
  · intro e he
    rcases List.mem_map.mp he with ⟨old, hold, rfl⟩
    split
    · exact hv
    · exact ht.values old hold

theorem Distinct.remove (ht : t.Distinct) (name : String) : (t.remove name).Distinct where
  names := ht.names.sublist (List.filter_sublist.map _)
  values e he := ht.values e (List.mem_filter.mp he).1

theorem get?_remove (t : Table Value) (name : String) : (t.remove name).get? name = none := by
  simp [get?, Table.remove]

theorem Distinct.extendTo (ht : t.Distinct) (v : Value) : (t.extendTo v).Distinct := by
  unfold Table.extendTo
  split
  · exact ⟨ht.names, ht.values⟩
  · exact ht

/-!
# Changes at the end of a path
-/

/-- A change of tables that brings in no key twice. -/
def Keeps (f : Table Value → Option (Table Value)) : Prop :=
  ∀ u u', u.Distinct → f u = some u' → u'.Distinct

theorem keeps_alter (dotted : Bool) {f : Table Value → Option (Table Value)} (hf : Keeps f)
    (path : List Key) : Keeps (alter dotted f path) := by
  induction path with
  | nil =>
      exact hf
  | cons k path ih =>
      intro t t' ht h
      unfold alter at h
      split at h
      · next hnone =>
        rcases Option.map_eq_some_iff.mp h with ⟨u, hu, rfl⟩
        exact ht.append hnone (distinct_iff.mp (ih _ u (distinct_empty _ _) hu))
      · next u hsome =>
        split at h
        · cases h
        · rcases Option.map_eq_some_iff.mp h with ⟨u', hu', rfl⟩
          have hu : u.Distinct := distinct_iff.mpr (ht.of_get? hsome)
          exact ht.replace _ (distinct_iff.mp (ih u u' hu hu'))
      · next us hsome =>
        split at h
        · cases h
        · next u hlast =>
          rcases Option.map_eq_some_iff.mp h with ⟨u', hu', rfl⟩
          cases ht.of_get? hsome with
          | tables hus =>
              have hu : u.Distinct := distinct_iff.mpr (hus u (List.mem_of_getLast? hlast))
              refine ht.replace _ (Value.Distinct.tables ?_)
              intro w hw
              rcases List.mem_append.mp hw with hw | hw
              · exact hus w (List.dropLast_subset us hw)
              · rw [List.mem_singleton.mp hw]
                exact distinct_iff.mp (ih u u' hu hu')
      · cases h

theorem keeps_assign (path : List Key) (k : Key) (hv : v.Distinct) :
    Keeps (fun t => t.assign path k v) := by
  refine keeps_alter true ?_ path
  intro u u' hu h
  dsimp only at h
  split at h
  · next hfree =>
    cases h
    exact hu.append (Option.isNone_iff_eq_none.mp hfree.2) hv
  · cases h

theorem keeps_openTable (extent : Extent) (path : List Key) (k : Key) :
    Keeps (openTable extent path k) := by
  refine keeps_alter false ?_ path
  intro u u' hu h
  dsimp only at h
  split at h
  · next hnone =>
    cases h
    exact hu.append hnone (distinct_iff.mp (distinct_empty _ _))
  · next w hsome =>
    split at h
    · cases h
      have hw : w.Distinct := distinct_iff.mpr (hu.of_get? hsome)
      exact (hu.remove _).append (get?_remove u k.name) (Value.Distinct.table hw.names hw.values)
    · cases h
  · cases h

theorem keeps_openItem (extent : Extent) (path : List Key) (k : Key) :
    Keeps (openItem extent path k) := by
  have hitem := distinct_iff.mp (distinct_empty (some extent) Origin.header)
  refine keeps_alter false ?_ path
  intro u u' hu h
  dsimp only at h
  split at h
  · next hnone =>
    cases h
    refine hu.append hnone (Value.Distinct.tables ?_)
    intro w hw
    rw [List.mem_singleton.mp hw]
    exact hitem
  · next ws hsome =>
    cases h
    cases hu.of_get? hsome with
    | tables hws =>
        refine hu.replace _ (Value.Distinct.tables ?_)
        intro w hw
        rcases List.mem_append.mp hw with hw | hw
        · exact hws w hw
        · rw [List.mem_singleton.mp hw]
          exact hitem
  · cases h

end Table

/-!
# Values

Only the tables in braces have entries, and these are added one after the other.
-/

theorem foldlM_keeps {step : σ → β → Option σ} {P : σ → Prop} {xs : List β}
    (hstep : ∀ x ∈ xs, ∀ s s', P s → step s x = some s' → P s') {s s' : σ} (hs : P s)
    (h : xs.foldlM step s = some s') : P s' := by
  induction xs generalizing s with
  | nil =>
      cases h
      exact hs
  | cons x xs ih =>
      rcases Option.bind_eq_some_iff.mp h with ⟨next, hnext, hrest⟩
      exact ih (fun y hy => hstep y (List.mem_cons_of_mem x hy))
        (hstep x List.mem_cons_self s next hs hnext) hrest

theorem distinct_ofPairs? {extent : Extent} {pairs : List ((List Key × Key) × Value)}
    {t : Table Value} (hpairs : ∀ p ∈ pairs, p.2.Distinct)
    (h : Table.ofPairs? extent pairs = some t) : t.Distinct := by
  refine foldlM_keeps ?_ (Table.distinct_empty _ _) h
  intro p hp u u' hu hassign
  exact Table.keeps_assign p.1.1 p.1.2 (hpairs p hp) u u' hu hassign

theorem yields_measured {make : Extent → α → β} {p : Scanner Char α} {P : β → Prop}
    (hp : p.Yields fun a => ∀ e, P (make e a)) : (measured make p).Yields P := by
  intro s b rest h
  rcases h with ⟨hlt, h⟩
  rcases Option.map_eq_some_iff.mp h with ⟨⟨a, r⟩, hread, heq⟩
  cases heq
  exact hp s a rest (Scanner.reads_of_eq_some hread) _

theorem yields_flat : flat.Yields Value.Distinct := by
  refine Scanner.yields_orElse (yields_measured ?_) (yields_measured ?_)
  · intro _ s _ _ e
    exact Value.Distinct.text e s
  · intro _ x _ _ e
    cases x with
    | boolean b =>
        exact Value.Distinct.boolean e b
    | integer n =>
        exact Value.Distinct.integer e n
    | float x =>
        exact Value.Distinct.float e x
    | moment =>
        exact Value.Distinct.moment e

section Nested

variable {item : Scanner Char Value} (hitem : item.Yields Value.Distinct)

include hitem

theorem yields_brackets : (brackets item).Yields Value.Distinct := by
  have hitems : (items item).Yields fun vs => ∀ v ∈ vs, v.Distinct := by
    refine Scanner.yields_orElse (Scanner.yields_map ?_)
      (Scanner.yields_followedBy (Scanner.yields_map ?_))
    · intro _ _ _ _ v hv
      cases hv
    · exact Scanner.yields_chainTrailing
        (Scanner.yields_skippingAfter (Scanner.yields_skippingBefore hitem))
  refine yields_measured (Scanner.yields_precededBy ?_)
  intro s vs rest h e
  exact Value.Distinct.array e (hitems s vs rest h)

theorem yields_pair : (pair item).Yields fun p => p.2.Distinct :=
  Scanner.yields_andThen fun _ => Scanner.yields_map (Scanner.yields_skippingBefore hitem)

theorem yields_braces : (braces item).Yields Value.Distinct := by
  have hpairs : (pairs item).Yields fun ps => ∀ p ∈ ps, p.2.Distinct := by
    refine Scanner.yields_orElse (Scanner.yields_map ?_)
      (Scanner.yields_followedBy (Scanner.yields_map ?_))
    · intro _ _ _ _ p hp
      cases hp
    · exact Scanner.yields_chain (Scanner.yields_skippingAfter (yields_pair hitem))
  refine Scanner.yields_mapSome (yields_measured (Scanner.yields_precededBy ?_))
  intro s ps rest h e v hv
  rcases Option.map_eq_some_iff.mp hv with ⟨t, ht, rfl⟩
  exact Table.distinct_iff.mp (distinct_ofPairs? (hpairs s ps rest h) ht)

end Nested

theorem yields_value (depth : Nat) : (value depth).Yields Value.Distinct := by
  induction depth with
  | zero =>
      exact yields_flat
  | succ depth ih =>
      exact Scanner.yields_orElse (yields_brackets ih)
        (Scanner.yields_orElse (yields_braces ih) yields_flat)

def Statement.Distinct : Statement → Prop
  | assignment _ _ v => v.Distinct
  | header _ _ _ => True
  | itemHeader _ _ _ => True

theorem yields_statement : statement.Yields Statement.Distinct := by
  have hany : (Scanner.orElse itemHeader (Scanner.orElse header assignment)).Yields
      Statement.Distinct := by
    refine Scanner.yields_orElse (yields_measured ?_)
      (Scanner.yields_orElse (yields_measured ?_) (Scanner.yields_map ?_))
    · intro _ _ _ _ _
      trivial
    · intro _ _ _ _ _
      trivial
    · exact yields_pair (yields_value _)
  intro s st rest h
  rcases h with ⟨hlt, h⟩
  exact hany s st rest ⟨hlt, Option.eq_some_of_filter_eq_some h⟩

theorem distinct_of_mem_statements {s : List Char} {sts : List Statement}
    (h : statements s = some sts) : ∀ st ∈ sts, st.Distinct := by
  induction hn : s.length using Nat.strongRecOn generalizing s sts with
  | ind n ih =>
      rw [statements] at h
      split at h
      · cases h
        intro st hst
        cases hst
      · split at h
        · cases h
        · next st t hread =>
          rcases Option.map_eq_some_iff.mp h with ⟨rest, hrest, rfl⟩
          have hshorter : t.val.length < n :=
            hn ▸ Nat.lt_of_lt_of_le t.property (length_skipFiller_le s)
          exact List.forall_mem_cons.mpr
            ⟨yields_statement _ _ _ (Scanner.reads_of_eq_some hread),
              ih t.val.length hshorter hrest rfl⟩

theorem distinct_step {p p' : Progress} {st : Statement} (hst : st.Distinct)
    (hp : p.root.Distinct) (h : p.step st = some p') : p'.root.Distinct := by
  cases st with
  | assignment path k v =>
      rcases Option.map_eq_some_iff.mp h with ⟨root, hroot, rfl⟩
      refine Table.keeps_alter false ?_ p.current p.root root hp hroot
      intro u u' hu hassign
      rcases Option.map_eq_some_iff.mp hassign with ⟨w, hw, rfl⟩
      exact (Table.keeps_assign path k hst u w hu hw).extendTo v
  | header extent path k =>
      rcases Option.map_eq_some_iff.mp h with ⟨root, hroot, rfl⟩
      exact Table.keeps_openTable extent path k p.root root hp hroot
  | itemHeader extent path k =>
      rcases Option.map_eq_some_iff.mp h with ⟨root, hroot, rfl⟩
      exact Table.keeps_openItem extent path k p.root root hp hroot

theorem distinct_read {file : String} {t : Table Value} (h : read file = some t) :
    t.Distinct := by
  rcases Option.bind_eq_some_iff.mp h with ⟨sts, hsts, hassemble⟩
  rcases Option.map_eq_some_iff.mp hassemble with ⟨p, hp, rfl⟩
  have hall := distinct_of_mem_statements hsts
  exact foldlM_keeps (fun st hst q q' hq hstep => distinct_step (hall st hst) hq hstep)
    (Table.distinct_empty none Origin.header) hp

end Toml
end GossipGames

import GossipGames.Proofs.Scanner
import GossipGames.Text.Blank
import Mathlib.Data.List.DropRight

/-!
# Texts without blanks around them

Trimming takes all blanks off the two ends of a text, and nothing else.
-/

namespace GossipGames

structure Trims (s t : List Char) : Prop where
  surrounded : ∃ before after, s = before ++ t ++ after ∧ (∀ c ∈ before, isBlank c = true) ∧
    ∀ c ∈ after, isBlank c = true
  head : ∀ c ∈ t.head?, isBlank c = false
  last : ∀ c ∈ t.getLast?, isBlank c = false

theorem trimEnd_eq_rdropWhile (s : List Char) : trimEnd s = s.rdropWhile isBlank :=
  rfl

theorem trims_trim (s : List Char) : Trims s (trim s) where
  surrounded := by
    exists s.takeWhile isBlank
    exists (s.dropWhile isBlank).rtakeWhile isBlank
    constructor
    · rw [trim, trimEnd_eq_rdropWhile, List.append_assoc, List.rdropWhile_append_rtakeWhile,
        List.takeWhile_append_dropWhile]
    · constructor
      · intro c hc
        exact List.mem_takeWhile_imp hc
      · intro c hc
        exact List.mem_rtakeWhile_imp hc
  head := by
    intro c hc
    have hprefix : trim s <+: s.dropWhile isBlank := List.rdropWhile_prefix isBlank _
    have hfirst := (List.singleton_prefix_iff_head?_eq_some.mpr hc).trans hprefix
    exact Scanner.avoids_dropWhile isBlank s c (List.singleton_prefix_iff_head?_eq_some.mp hfirst)
  last := by
    intro c hc
    rw [trim, trimEnd, List.getLast?_reverse] at hc
    exact Scanner.avoids_dropWhile isBlank _ c hc

theorem dropWhile_blanks_append {before t : List Char} (hbefore : ∀ c ∈ before, isBlank c = true)
    (ht : ∀ c ∈ t.head?, isBlank c = false) : (before ++ t).dropWhile isBlank = t :=
  (Scanner.takeWhile_append_of_avoids hbefore ht).2

theorem trimEnd_append_blanks {t after : List Char} (hafter : ∀ c ∈ after, isBlank c = true)
    (ht : ∀ c ∈ t.getLast?, isBlank c = false) : trimEnd (t ++ after) = t := by
  have hreverse : (after.reverse ++ t.reverse).dropWhile isBlank = t.reverse := by
    apply dropWhile_blanks_append
    · intro c hc
      exact hafter c (List.mem_reverse.mp hc)
    · rw [List.head?_reverse]
      exact ht
  rw [trimEnd, List.reverse_append, hreverse, List.reverse_reverse]

theorem trim_eq_iff {s t : List Char} : trim s = t ↔ Trims s t := by
  constructor
  · intro h
    rw [← h]
    exact trims_trim s
  · intro h
    rcases h with ⟨⟨before, after, rfl, hbefore, hafter⟩, hhead, hlast⟩
    cases t with
    | nil =>
        have hall : ∀ c ∈ before ++ after, isBlank c = true :=
          List.forall_mem_append.mpr ⟨hbefore, hafter⟩
        rw [List.append_nil, trim, List.dropWhile_eq_nil_iff.mpr hall]
        rfl
    | cons c t =>
        have hfront : (before ++ (c :: t ++ after)).dropWhile isBlank = c :: t ++ after :=
          dropWhile_blanks_append hbefore hhead
        rw [trim, List.append_assoc, hfront, trimEnd_append_blanks hafter hlast]

theorem trim_eq_nil_iff {s : List Char} : trim s = [] ↔ ∀ c ∈ s, isBlank c = true := by
  rw [trim_eq_iff]
  constructor
  · intro h
    rcases h.surrounded with ⟨before, after, rfl, hbefore, hafter⟩
    rw [List.append_nil]
    exact List.forall_mem_append.mpr ⟨hbefore, hafter⟩
  · intro h
    exact ⟨⟨s, [], by simp, h, by simp⟩, by simp, by simp⟩

theorem trims_of_no_blank {before t after : List Char} (hbefore : ∀ c ∈ before, isBlank c = true)
    (ht : ∀ c ∈ t, isBlank c = false) (hafter : ∀ c ∈ after, isBlank c = true) :
    Trims (before ++ t ++ after) t where
  surrounded := ⟨before, after, rfl, hbefore, hafter⟩
  head c hc := ht c (List.mem_of_mem_head? hc)
  last c hc := ht c (List.mem_of_getLast? hc)

end GossipGames

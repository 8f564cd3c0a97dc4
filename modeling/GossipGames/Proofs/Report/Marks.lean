import GossipGames.Report.Basic

/-!
# The marks of a report

A report of which the span starts at a character marks that character alone when the span is one
character long.  Then the line of the character is shown and the mark stands below it.
-/

namespace GossipGames
namespace Report

def Stroke.only (marked column : Nat) : Stroke :=
  if column = marked then ⟨Ink.alarm, "┬", "─"⟩ else Stroke.blank

def markedRows (r : Report) (digits : Nat) (line : Line) (place : Nat) : String :=
  let marked := place - line.offset
  lineMargin digits line ++ r.textRow line ++ "\n" ++
    blankMargin digits "│" ++ strokes line (marked + 3) (Stroke.only marked) ++ "\n"

/-- The report marks the character at this place and nothing else, and shows it with the mark. -/
structure Marks (r : Report) (place : Nat) : Prop where
  only : ∀ k, r.isMarked k = true ↔ k = place
  inside : r.span.stop ≤ r.source.toList.length
  shown : ∃ line ∈ Line.ofText r.source.toList, line.holds place = true ∧
    ∃ digits above below, r.excerpt = above ++ r.markedRows digits line place ++ below

namespace Line

theorem le_offset_of_mem_number {index offset : Nat} {ls : List (List Char)} {l : Line}
    (h : l ∈ number index offset ls) : offset ≤ l.offset := by
  induction ls generalizing index offset with
  | nil =>
      cases h
  | cons chars ls ih =>
      cases h with
      | head =>
          exact Nat.le_refl offset
      | tail _ h =>
          exact Nat.le_trans (Nat.le_add_right offset chars.length) (ih h)

theorem exists_getLast?_number {place index offset : Nat} {ls : List (List Char)}
    (hoffset : offset ≤ place) (hplace : place < offset + ls.flatten.length) :
    ∃ l ∈ number index offset ls, l.holds place = true ∧
      ((number index offset ls).filter fun l => decide (l.offset ≤ place)).getLast? = some l := by
  induction ls generalizing index offset with
  | nil =>
      exact absurd hplace (Nat.not_lt_of_le hoffset)
  | cons chars ls ih =>
      rw [number, List.filter_cons_of_pos (by simpa using hoffset)]
      rcases Nat.lt_or_ge place (offset + chars.length) with hfirst | hlater
      · have hrest : (number (index + 1) (offset + chars.length) ls).filter
            (fun l => decide (l.offset ≤ place)) = [] := by
          apply List.filter_eq_nil_iff.mpr
          intro l hl hle
          have hafter := le_offset_of_mem_number hl
          have hbefore := of_decide_eq_true hle
          omega
        rw [hrest]
        exact ⟨_, List.mem_cons_self, decide_eq_true ⟨hoffset, hfirst⟩, rfl⟩
      · have hlength : place < offset + chars.length + ls.flatten.length := by
          simpa [Nat.add_assoc] using hplace
        rcases @ih (index + 1) _ hlater hlength with ⟨l, hl, hholds, hlast⟩
        refine ⟨l, List.mem_cons_of_mem _ hl, hholds, ?_⟩
        rw [List.getLast?_cons, hlast]
        rfl

theorem exists_containing {s : List Char} {place : Nat} (h : place < s.length) :
    ∃ l ∈ ofText s, l.holds place = true ∧ containing s place = some l := by
  have hplace : place < 0 + (split s).flatten.length := by
    rwa [flatten_split, Nat.zero_add]
  rw [containing, if_pos (Nat.le_of_lt h)]
  exact exists_getLast?_number (Nat.zero_le place) hplace

end Line

variable {r : Report} {place : Nat}

theorem isMarked_iff_of_width {width : Nat} (h : r.span = ⟨place, place + width⟩) (k : Nat) :
    r.isMarked k = true ↔ place ≤ k ∧ k < place + width := by
  simp [isMarked, h]

theorem isMarked_iff_of_one (h : r.span = ⟨place, place + 1⟩) (k : Nat) :
    r.isMarked k = true ↔ k = place := by
  rw [isMarked_iff_of_width h]
  omega

theorem underline_of_one (h : r.span = ⟨place, place + 1⟩) {line : Line}
    (hline : line.offset ≤ place) : r.underline line = Stroke.only (place - line.offset) := by
  have hmiddle : r.middle line = place - line.offset := by
    rw [middle, h]
    show (place + (place + 1)) / 2 - line.offset = place - line.offset
    omega
  funext column
  have hmarked : r.isMarked (line.offset + column) = true ↔ column = place - line.offset := by
    rw [isMarked_iff_of_one h]
    omega
  simp only [underline, hmiddle, hmarked, Stroke.only]
  split <;> rfl

theorem single_of_one (h : r.span = ⟨place, place + 1⟩) {line : Line}
    (hholds : line.holds place = true) (digits : Nat) :
    ∃ below, r.single digits line = r.markedRows digits line place ++ below := by
  have hline := of_decide_eq_true hholds
  have hstop : r.span.stop ≤ line.stop := by
    rw [h]
    exact hline.2
  have hlength : r.span.stop - line.offset + 2 = place - line.offset + 3 := by
    rw [h]
    show place + 1 - line.offset + 2 = place - line.offset + 3
    omega
  refine ⟨blankMargin digits "│" ++
    strokes line (place - line.offset + 3) (r.arrow line) ++ " " ++ r.note ++ "\n", ?_⟩
  rw [single, if_pos hstop, hlength, underline_of_one h hline.1]
  simp only [markedRows, String.append_assoc]

theorem excerpt_of_one (h : r.span = ⟨place, place + 1⟩)
    (hplace : place < r.source.toList.length) :
    ∃ line ∈ Line.ofText r.source.toList, line.holds place = true ∧
      ∃ digits above below, r.excerpt = above ++ r.markedRows digits line place ++ below := by
  rcases Line.exists_containing hplace with ⟨line, hmem, hholds, hcontaining⟩
  have hlast : r.last = place := by
    rw [last, h]
    simp
  let digits := (toString (line.index + 1)).length
  have hexcerpt : r.excerpt =
      r.opening digits line ++ r.single digits line ++ closing digits := by
    simp only [excerpt, hlast, h, hcontaining, if_pos]
    rfl
  rcases single_of_one h hholds digits with ⟨below, hsingle⟩
  refine ⟨line, hmem, hholds, digits, r.opening digits line, below ++ closing digits, ?_⟩
  rw [hexcerpt, hsingle]
  simp only [String.append_assoc]

/-- A report on a stretch that starts at a character of its source marks that character exactly when
the stretch is one character long. -/
theorem marks_iff {width : Nat} (h : r.span = ⟨place, place + width⟩)
    (hplace : place < r.source.toList.length) : r.Marks place ↔ width = 1 := by
  constructor
  · intro hmarks
    have hself := (isMarked_iff_of_width h place).mp ((hmarks.only place).mpr rfl)
    have hnext : ¬ (place ≤ place + 1 ∧ place + 1 < place + width) := by
      rw [← isMarked_iff_of_width h, hmarks.only]
      exact Nat.succ_ne_self place
    omega
  · rintro rfl
    refine ⟨isMarked_iff_of_one h, ?_, excerpt_of_one h hplace⟩
    rw [h]
    exact hplace

end Report
end GossipGames

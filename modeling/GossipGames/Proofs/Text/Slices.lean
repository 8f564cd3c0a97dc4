import GossipGames.Text.Span
import Mathlib.Data.String.Basic

/-!
# Spans as parts of a text

The ends of a span count bytes.  A span covers a row of characters of a text when it starts after
the bytes of the characters before them and is as long as their bytes are many.
-/

namespace GossipGames

open String (utf8Len)

theorem isValid_utf8Len {text : String} {before after : List Char}
    (h : text.toList = before ++ after) : String.Pos.Raw.IsValid text ⟨utf8Len before⟩ := by
  rw [String.Pos.Raw.isValid_iff_exists_append]
  refine ⟨String.ofList before, String.ofList after, ?_, ?_⟩
  · rw [← String.ofList_append, ← h, String.ofList_toList]
  · rw [String.rawEndPos, String.utf8ByteSize_ofList]

theorem utf8Len_eq_length {cs : List Char} (h : ∀ c ∈ cs, c.utf8Size = 1) :
    utf8Len cs = cs.length := by
  induction cs with
  | nil =>
      rfl
  | cons c cs ih =>
      rw [List.forall_mem_cons] at h
      rw [String.utf8Len_cons, List.length_cons, ih h.2, h.1, Nat.add_comm]

namespace Span

def Contains (span : Span) (place : Nat) : Prop :=
  span.start ≤ place ∧ place < span.stop

/-- The span covers `within` in a text of which `before` is the front and `after` the rest. -/
structure Cuts (span : Span) (text : String) (before within after : List Char) : Prop where
  chars : text.toList = before ++ within ++ after
  start : span.start = utf8Len before
  stop : span.stop = utf8Len before + utf8Len within

namespace Cuts

variable {span : Span} {text : String} {before within after : List Char}

theorem isValid_start (h : span.Cuts text before within after) :
    String.Pos.Raw.IsValid text ⟨span.start⟩ := by
  rw [h.start]
  exact isValid_utf8Len (h.chars.trans (List.append_assoc _ _ _))

theorem isValid_stop (h : span.Cuts text before within after) :
    String.Pos.Raw.IsValid text ⟨span.stop⟩ := by
  rw [h.stop, ← String.utf8Len_append]
  exact isValid_utf8Len h.chars

theorem start_le_stop (h : span.Cuts text before within after) : span.start ≤ span.stop := by
  rw [h.start, h.stop]
  exact Nat.le_add_right _ _

theorem size_eq (h : span.Cuts text before within after) :
    text.utf8ByteSize = span.stop + utf8Len after := by
  rw [h.stop, ← String.utf8Len_append, ← String.utf8Len_append, ← h.chars,
    ← String.utf8ByteSize_ofList, String.ofList_toList]

theorem stop_le (h : span.Cuts text before within after) : span.stop ≤ text.utf8ByteSize :=
  h.isValid_stop.le_utf8ByteSize

end Cuts
end Span
end GossipGames

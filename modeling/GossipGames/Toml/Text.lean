import GossipGames.Scanner

/-!
# Texts of a configuration file

A text stands between quotation marks, in which a backslash starts an escape, or between
apostrophes, in which it does not.  Three marks in a row start a text that may run over several
lines.
-/

namespace GossipGames
namespace Toml

def isSpace (c : Char) : Bool :=
  c == ' ' || c == '\t'

def isPlain (c : Char) : Bool :=
  c == '\t' || (decide (0x20 ≤ c.toNat) && c.toNat != 0x7F)

def newline : Scanner Char Unit
  | '\n' :: s => some ((), Shorter.one _ s)
  | '\r' :: '\n' :: s => some ((), (Shorter.one _ s).tail)
  | _ => none

def skipLines : List Char → List Char
  | ' ' :: s => skipLines s
  | '\t' :: s => skipLines s
  | '\n' :: s => skipLines s
  | '\r' :: '\n' :: s => skipLines s
  | s => s

theorem length_skipLines_le (s : List Char) :
    (skipLines s).length ≤ s.length := by
  fun_induction skipLines s with
  | case1 s ih => exact Nat.le_succ_of_le ih
  | case2 s ih => exact Nat.le_succ_of_le ih
  | case3 s ih => exact Nat.le_succ_of_le ih
  | case4 s ih => exact Nat.le_succ_of_le (Nat.le_succ_of_le ih)
  | case5 s => exact Nat.le_refl _

def hexValue? (c : Char) : Option Nat :=
  if c.isDigit then some (c.toNat - '0'.toNat)
  else if 'a' ≤ c ∧ c ≤ 'f' then some (c.toNat - 'a'.toNat + 10)
  else if 'A' ≤ c ∧ c ≤ 'F' then some (c.toNat - 'A'.toNat + 10)
  else none

def numberIn (base : Nat) (digits : List Nat) : Nat :=
  digits.foldl (fun n d => n * base + d) 0

def codePoint? (digits : List Char) : Option Char :=
  (digits.mapM hexValue?).bind fun ds =>
    let n := numberIn 16 ds
    if n.isValidChar then some (Char.ofNat n) else none

def escape : Scanner Char Char
  | 'b' :: s => some ('\x08', Shorter.one _ s)
  | 't' :: s => some ('\t', Shorter.one _ s)
  | 'n' :: s => some ('\n', Shorter.one _ s)
  | 'f' :: s => some ('\x0c', Shorter.one _ s)
  | 'r' :: s => some ('\r', Shorter.one _ s)
  | '"' :: s => some ('"', Shorter.one _ s)
  | '\\' :: s => some ('\\', Shorter.one _ s)
  | 'u' :: c₁ :: c₂ :: c₃ :: c₄ :: s =>
      (codePoint? [c₁, c₂, c₃, c₄]).map fun c => (c, (Shorter.one c₄ s).tail.tail.tail.tail)
  | 'U' :: c₁ :: c₂ :: c₃ :: c₄ :: c₅ :: c₆ :: c₇ :: c₈ :: s =>
      (codePoint? [c₁, c₂, c₃, c₄, c₅, c₆, c₇, c₈]).map fun c =>
        (c, (Shorter.one c₈ s).tail.tail.tail.tail.tail.tail.tail.tail)
  | _ => none

def continuation : Scanner Char Unit :=
  Scanner.skippingAfter ⟨skipLines, length_skipLines_le⟩
    (Scanner.skippingBefore (Scanner.Trim.dropWhile isSpace) newline)

def line (mark : Char) (escapes : Bool) (s : List Char) : Option (List Char × Shorter s) :=
  match s with
  | [] => none
  | c :: r =>
      if c = mark then some ([], Shorter.one c r)
      else if escapes && c == '\\' then
        match escape r with
        | none => none
        | some (d, t) => (line mark escapes t.val).map fun q => (d :: q.1, (t.trans q.2).tail)
      else if isPlain c then (line mark escapes r).map fun q => (c :: q.1, q.2.tail)
      else none
termination_by s.length
decreasing_by
  · exact Nat.lt_succ_of_lt t.property
  · exact Nat.lt_succ_self _

/-- A text on several lines.  Three to five marks close it, of which all but three belong to it.
Every line end in it counts as a line feed. -/
def block (mark : Char) (escapes : Bool) (s : List Char) : Option (List Char × Shorter s) :=
  match s with
  | [] => none
  | c :: r =>
      if c = mark then
        let more := (r.takeWhile (· == mark)).length
        let after : Shorter (c :: r) :=
          ⟨r.dropWhile (· == mark), Nat.lt_succ_of_le (List.dropWhile_sublist _).length_le⟩
        if more < 2 then
          (block mark escapes after.val).map fun q =>
            (List.replicate (more + 1) mark ++ q.1, after.trans q.2)
        else if more < 5 then some (List.replicate (more - 2) mark, after)
        else none
      else if escapes && c == '\\' then
        match continuation r with
        | some (_, t) => (block mark escapes t.val).map fun q => (q.1, (t.trans q.2).tail)
        | none =>
            match escape r with
            | none => none
            | some (d, t) =>
                (block mark escapes t.val).map fun q => (d :: q.1, (t.trans q.2).tail)
      else
        match newline (c :: r) with
        | some (_, t) => (block mark escapes t.val).map fun q => ('\n' :: q.1, t.trans q.2)
        | none =>
            if isPlain c then (block mark escapes r).map fun q => (c :: q.1, q.2.tail)
            else none
termination_by s.length
decreasing_by
  · exact after.property
  · exact Nat.lt_succ_of_lt t.property
  · exact Nat.lt_succ_of_lt t.property
  · exact t.property
  · exact Nat.lt_succ_self _

/-- A line end right after the opening marks is no part of the text. -/
def dropNewline (s : List Char) : List Char :=
  match newline s with
  | some (_, r) => r.val
  | none => s

theorem length_dropNewline_le (s : List Char) :
    (dropNewline s).length ≤ s.length := by
  unfold dropNewline
  split
  · next r _ => exact Nat.le_of_lt r.property
  · exact Nat.le_refl _

def lineText : Scanner Char String
  | '"' :: s => (line '"' true s).map fun q => (String.ofList q.1, q.2.tail)
  | '\'' :: s => (line '\'' false s).map fun q => (String.ofList q.1, q.2.tail)
  | _ => none

def markedBlock (mark : Char) (escapes : Bool) : Scanner Char String :=
  let marks := Scanner.symbol mark
  let body : Scanner Char (List Char) :=
    Scanner.skippingBefore ⟨dropNewline, length_dropNewline_le⟩ (block mark escapes)
  Scanner.map String.ofList
    (Scanner.precededBy marks (Scanner.precededBy marks (Scanner.precededBy marks body)))

def blockText : Scanner Char String :=
  Scanner.orElse (markedBlock '"' true) (markedBlock '\'' false)

def text : Scanner Char String :=
  Scanner.orElse blockText lineText

end Toml
end GossipGames

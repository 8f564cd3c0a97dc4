/-!
# Lines of a source text

A line ends with a line feed, a carriage return, both together, or one of the other characters that
separate lines, and keeps what ends it.  Offsets count characters.
-/

namespace GossipGames
namespace Report

structure Line where
  index : Nat
  /-- The number of characters of the text before this line. -/
  offset : Nat
  chars : List Char

namespace Line

def stop (l : Line) : Nat :=
  l.offset + l.chars.length

def holds (l : Line) (place : Nat) : Bool :=
  decide (l.offset ≤ place ∧ place < l.stop)

def isBreak (c : Char) : Bool :=
  c == '\r' || c == '\n' || c == '\x0b' || c == '\x0c' || c == '\u0085' || c == '\u2028' ||
    c == '\u2029'

/-- The lines of a text; an empty text has none. -/
def split : List Char → List (List Char)
  | [] => []
  | '\r' :: '\n' :: s => ['\r', '\n'] :: split s
  | c :: s =>
      if isBreak c then [c] :: split s
      else
        match split s with
        | [] => [[c]]
        | l :: ls => (c :: l) :: ls

theorem flatten_split (s : List Char) :
    (split s).flatten = s := by
  fun_induction split s with
  | case1 => rfl
  | case2 s ih => simp [ih]
  | case3 c s _ _ ih => simp [ih]
  | case4 c s _ _ h ih => simp_all
  | case5 c s _ _ l ls h ih => simp_all

def number (index offset : Nat) : List (List Char) → List Line
  | [] => []
  | chars :: ls => ⟨index, offset, chars⟩ :: number (index + 1) (offset + chars.length) ls

def ofText (s : List Char) : List Line :=
  number 0 0 (split s)

/-- The line on which a place lies, if the text has lines.  The place after the last character is on
the last line. -/
def containing (s : List Char) (place : Nat) : Option Line :=
  if place ≤ s.length then
    ((ofText s).filter fun l => decide (l.offset ≤ place)).getLast?
  else none

end Line
end Report
end GossipGames

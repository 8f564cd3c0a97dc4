import GossipGames.Report.Ink
import GossipGames.Report.Line
import GossipGames.Text.Spaces
import GossipGames.Text.Span
import GossipGames.Text.Width

/-!
# Reports

A report shows a message together with the place in a text that it speaks of: the lines of the text
with their numbers, the marked characters in colour, and an arrow from them to a note.

The span counts characters.  A span that ends before it starts has no report.  Of a span that lies
beyond the text, or in an empty text, only the message is shown.
-/

namespace GossipGames

structure Report where
  message : String
  note : String
  name : String
  source : String
  span : Span

namespace Report

def isMarked (r : Report) (place : Nat) : Bool :=
  decide (r.span.start ≤ place ∧ place < r.span.stop)

/-- The last marked place; of an empty span, its start. -/
def last (r : Report) : Nat :=
  max (r.span.stop - 1) r.span.start

def lineMargin (digits : Nat) (line : Line) : String :=
  let number := toString (line.index + 1)
  " " ++ Ink.margin.paint (spaces (digits - number.length) ++ number ++ " │") ++ " "

def blankMargin (digits : Nat) (bar : String) : String :=
  " " ++ Ink.faintMargin.paint (spaces (digits + 1) ++ bar) ++ " "

/-!
# Rows

A row below a line of text has one stroke for each character of the line.  A stroke is a glyph for
the first column of the character and one for its other columns.
-/

structure Stroke where
  ink : Ink
  head : String
  tail : String

def Stroke.blank : Stroke :=
  ⟨Ink.plain, " ", " "⟩

def Stroke.bar : Stroke :=
  ⟨Ink.alarm, "─", "─"⟩

def Stroke.draw (s : Stroke) : Nat → String
  | 0 => ""
  | columns + 1 =>
      s.ink.paint s.head ++ String.join (List.replicate columns (s.ink.paint s.tail))

def visible (line : Line) : List Char :=
  trimEnd line.chars

/-- The numbers of columns that the first characters of a line take.  What is missing takes one. -/
def columns (line : Line) (length : Nat) : List Nat :=
  let shown := (visible line).mapIdx fun column c => (Width.shown column c).2
  shown.take length ++ List.replicate (length - shown.length) 1

def strokes (line : Line) (length : Nat) (stroke : Nat → Stroke) : String :=
  String.join ((columns line length).mapIdx fun column n => (stroke column).draw n)

def drawChar (ink : Ink) (column : Nat) (c : Char) : String :=
  let (d, columns) := Width.shown column c
  let glyph := ink.paint (String.singleton d)
  if isBlank d then String.join (List.replicate columns glyph) else glyph

def textRow (r : Report) (line : Line) : String :=
  String.join ((visible line).mapIdx fun column c =>
    drawChar (if r.isMarked (line.offset + column) then Ink.alarm else Ink.source) column c)

/-!
# A span within one line

The marked characters are underlined, and the arrow starts below the middle one.  Where the span
reaches beyond the line, the line is left out.
-/

def middle (r : Report) (line : Line) : Nat :=
  (r.span.start + r.span.stop) / 2 - line.offset

def underline (r : Report) (line : Line) (column : Nat) : Stroke :=
  if column = r.middle line then
    if r.isMarked (line.offset + column) then ⟨Ink.alarm, "┬", "─"⟩ else ⟨Ink.alarm, "│", " "⟩
  else if r.isMarked (line.offset + column) then Stroke.bar
  else Stroke.blank

def arrow (r : Report) (line : Line) (column : Nat) : Stroke :=
  if column = r.middle line then ⟨Ink.alarm, "╰", "─"⟩
  else if r.middle line < column then Stroke.bar
  else Stroke.blank

def single (r : Report) (digits : Nat) (line : Line) : String :=
  if r.span.stop ≤ line.stop then
    let length := r.span.stop - line.offset + 2
    lineMargin digits line ++ r.textRow line ++ "\n" ++
      blankMargin digits "│" ++ strokes line length (r.underline line) ++ "\n" ++
      blankMargin digits "│" ++ strokes line length (r.arrow line) ++ " " ++ r.note ++ "\n"
  else
    blankMargin digits "│" ++ "\n"

/-!
# A span over several lines

A bar at the left joins the first line to the last one, below which the arrow leads to the note.
Lines between them are left out; the first line that is left out leaves a dotted bar.
-/

def joint (glyphs : List String) : String :=
  String.join (glyphs.map Ink.alarm.paint)

def firstLine (r : Report) (digits : Nat) (line : Line) : String :=
  lineMargin digits line ++ joint ["╭", "─", "▶", " "] ++ r.textRow line ++ "\n"

def lastLine (r : Report) (digits : Nat) (line : Line) : String :=
  let length := line.chars.length + 2
  lineMargin digits line ++ joint ["├", "─", "▶", " "] ++ r.textRow line ++ "\n" ++
    blankMargin digits "│" ++ Ink.alarm.paint "│" ++ "   " ++
      strokes line length (fun _ => Stroke.blank) ++ "\n" ++
    blankMargin digits "│" ++ joint ["╰", "─", "─", "─"] ++
      strokes line length (fun _ => Stroke.bar) ++ " " ++ r.note ++ "\n"

def leftOut (digits : Nat) : String :=
  blankMargin digits "┆" ++ Ink.alarm.paint "┆" ++ "   " ++ "\n"

def several (r : Report) (digits : Nat) (lines : List Line) : String :=
  let shown := lines.filter fun l => l.holds r.span.start || l.holds r.last
  let rows := lines.map fun l =>
    if l.holds r.span.start then r.firstLine digits l
    else if l.holds r.last then r.lastLine digits l
    else if shown.any fun k => k.index + 1 == l.index then leftOut digits
    else ""
  String.join rows

def heading (r : Report) : String :=
  Ink.alarm.paint "Error:" ++ " " ++ r.message ++ "\n"

def opening (r : Report) (digits : Nat) (line : Line) : String :=
  spaces (digits + 2) ++ Ink.margin.paint "╭" ++ Ink.margin.paint "─" ++ Ink.margin.paint "[" ++
    r.name ++ ":" ++ toString (line.index + 1) ++ ":" ++
    toString (r.span.start - line.offset + 1) ++ Ink.margin.paint "]" ++ "\n" ++
    spaces (digits + 2) ++ Ink.margin.paint "│" ++ "\n"

def closing (digits : Nat) : String :=
  Ink.margin.paint (String.join (List.replicate (digits + 2) "─") ++ "╯") ++ "\n"

def excerpt (r : Report) : String :=
  let text := r.source.toList
  match Line.containing text r.span.start, Line.containing text r.last with
  | some first, some final =>
      let digits := (toString (final.index + 1)).length
      let body :=
        if first.index = final.index then r.single digits first
        else r.several digits ((Line.ofText text).filter fun l =>
          decide (first.index ≤ l.index ∧ l.index ≤ final.index))
      r.opening digits first ++ body ++ closing digits
  | _, _ => ""

def render (r : Report) : Option String :=
  if r.span.start ≤ r.span.stop then some (r.heading ++ r.excerpt) else none

end Report
end GossipGames

import GossipGames.Json.Basic

/-!
# Layouts of a document

The compact style writes one line with a space after each comma and colon, the pretty style one line
for each item or member, two spaces deeper than what holds it, and the minified style no blanks.
The three differ only in what stands between the parts of a value.
-/

namespace GossipGames
namespace Json

inductive Style where
  | compact
  | pretty
  | minified
deriving DecidableEq, Inhabited

namespace Style

def all : List Style :=
  [compact, pretty, minified]

def name : Style → String
  | compact => "compact"
  | pretty => "pretty"
  | minified => "minified"

def ofName? (name : String) : Option Style :=
  all.find? fun s => s.name == name

def lineStart : Style → Nat → List Char
  | pretty, depth => '\n' :: List.replicate (2 * depth) ' '
  | _, _ => []

def comma : Style → List Char
  | compact => [',', ' ']
  | _ => [',']

def colon : Style → List Char
  | minified => [':']
  | _ => [':', ' ']

end Style

/-!
# Texts

A quotation mark, a backslash and the control characters below the space are escaped, five of them
by a letter and the others by their number.
-/

def hexDigit (n : Nat) : Char :=
  if n < 10 then Char.ofNat ('0'.toNat + n) else Char.ofNat ('a'.toNat + (n - 10))

def escape (c : Char) : List Char :=
  if c = '"' then ['\\', '"']
  else if c = '\\' then ['\\', '\\']
  else if c = '\x08' then ['\\', 'b']
  else if c = '\x0c' then ['\\', 'f']
  else if c = '\n' then ['\\', 'n']
  else if c = '\r' then ['\\', 'r']
  else if c = '\t' then ['\\', 't']
  else if c.toNat < 0x20 then
    ['\\', 'u', '0', '0', hexDigit (c.toNat / 16), hexDigit (c.toNat % 16)]
  else [c]

def quote (s : String) : List Char :=
  '"' :: (s.toList.flatMap escape ++ ['"'])

/-!
# Values

`depth` counts the lists and objects that hold the value.  The functions for the rest of a list or
an object write what follows its first part, the closing bracket left out.
-/

mutual

def layout (s : Style) (depth : Nat) : Json → List Char
  | null => ['n', 'u', 'l', 'l']
  | bool true => ['t', 'r', 'u', 'e']
  | bool false => ['f', 'a', 'l', 's', 'e']
  | integer n => (toString n).toList
  | text t => quote t
  | list [] => ['[', ']']
  | list (v :: vs) =>
      '[' :: (s.lineStart (depth + 1) ++ layout s (depth + 1) v ++
        layoutItems s (depth + 1) vs ++ s.lineStart depth ++ [']'])
  | object [] => ['\x7b', '\x7d']
  | object ((k, v) :: ms) =>
      '\x7b' :: (s.lineStart (depth + 1) ++ quote k ++ s.colon ++ layout s (depth + 1) v ++
        layoutMembers s (depth + 1) ms ++ s.lineStart depth ++ ['\x7d'])

def layoutItems (s : Style) (depth : Nat) : List Json → List Char
  | [] => []
  | v :: vs =>
      s.comma ++ s.lineStart depth ++ layout s depth v ++ layoutItems s depth vs

def layoutMembers (s : Style) (depth : Nat) : List (String × Json) → List Char
  | [] => []
  | (k, v) :: ms =>
      s.comma ++ s.lineStart depth ++ quote k ++ s.colon ++ layout s depth v ++
        layoutMembers s depth ms

end

structure Output where
  style : Style := Style.compact
  trailingNewline : Bool := false
deriving DecidableEq, Inhabited

def document (o : Output) (v : Json) : String :=
  String.ofList (layout o.style 0 v ++ if o.trailingNewline then ['\n'] else [])

end Json
end GossipGames

import GossipGames.Json.Basic
import GossipGames.Scanner
import GossipGames.Toml.Text

/-!
# Reading a document

A document is read into its value.  The members of an object are kept in their order, also when two
of them have one name.  Numbers are integers, written without a fraction and without an exponent.
-/

namespace GossipGames
namespace Json

def isSpace (c : Char) : Bool :=
  c == ' ' || c == '\t' || c == '\n' || c == '\r'

def blanks : Scanner.Trim Char :=
  Scanner.Trim.dropWhile isSpace

/-!
# Texts

A character stands for itself or is written as an escape: by a letter, by the four hexadecimal
digits of its number or, beyond the range of these, by those of two surrogates.
-/

def letter? : Char → Option Char
  | '"' => some '"'
  | '\\' => some '\\'
  | '/' => some '/'
  | 'b' => some '\x08'
  | 'f' => some '\x0c'
  | 'n' => some '\n'
  | 'r' => some '\r'
  | 't' => some '\t'
  | _ => none

def hexNumber? (digits : List Char) : Option Nat :=
  (digits.mapM Toml.hexValue?).map (Toml.numberIn 16)

def character? (n : Nat) : Option Char :=
  if n.isValidChar then some (Char.ofNat n) else none

def surrogates? (high low : Nat) : Option Char :=
  if 0xD800 ≤ high ∧ high < 0xDC00 ∧ 0xDC00 ≤ low ∧ low < 0xE000 then
    some (Char.ofNat (0x10000 + (high - 0xD800) * 0x400 + (low - 0xDC00)))
  else none

def numbered : Scanner Char Nat
  | '\\' :: 'u' :: c₁ :: c₂ :: c₃ :: c₄ :: s =>
      (hexNumber? [c₁, c₂, c₃, c₄]).map fun n =>
        (n, (Shorter.one c₄ s).tail.tail.tail.tail.tail)
  | _ => none

def plain : Scanner Char Char :=
  Scanner.take fun c => if c = '"' ∨ c = '\\' ∨ c.toNat < 0x20 then none else some c

def lettered : Scanner Char Char :=
  Scanner.precededBy (Scanner.symbol '\\') (Scanner.take letter?)

def paired : Scanner Char Char :=
  Scanner.mapSome (fun q => surrogates? q.1 q.2)
    (numbered.andThen fun high => numbered.map fun low => (high, low))

def character : Scanner Char Char :=
  Scanner.orElse plain
    (Scanner.orElse lettered (Scanner.orElse (numbered.mapSome character?) paired))

def characters (s : List Char) : Option (List Char × Shorter s) :=
  match Scanner.symbol '"' s with
  | some (_, r) => some ([], r)
  | none =>
      match character s with
      | none => none
      | some (c, r) => (characters r.val).map fun q => (c :: q.1, r.trans q.2)
termination_by s.length
decreasing_by exact r.property

def string : Scanner Char String :=
  Scanner.map String.ofList (Scanner.precededBy (Scanner.symbol '"') characters)

def natural : Scanner Char Nat
  | [] => none
  | c :: s =>
      if c.isDigit ∧ (c = '0' → s.takeWhile Char.isDigit = []) then
        some (Nat.ofDigitChars 10 (c :: s.takeWhile Char.isDigit) 0,
          ⟨s.dropWhile Char.isDigit, Nat.lt_succ_of_le (List.dropWhile_sublist _).length_le⟩)
      else none

def number : Scanner Char Int :=
  Scanner.orElse (Scanner.map Int.ofNat natural)
    (Scanner.map (fun n => -Int.ofNat n) (Scanner.precededBy (Scanner.symbol '-') natural))

def word : Scanner Char Json
  | 'n' :: 'u' :: 'l' :: 'l' :: s => some (null, (Shorter.one _ s).tail.tail.tail)
  | 't' :: 'r' :: 'u' :: 'e' :: s => some (bool true, (Shorter.one _ s).tail.tail.tail)
  | 'f' :: 'a' :: 'l' :: 's' :: 'e' :: s => some (bool false, (Shorter.one _ s).tail.tail.tail.tail)
  | _ => none

/-- Parts with commas between them, up to a closing bracket; there may be none. -/
def parts (closing : Char) (part : Scanner Char α) : Scanner Char (List α) :=
  Scanner.orElse
    (Scanner.map (fun _ => []) (Scanner.skippingBefore blanks (Scanner.symbol closing)))
    (Scanner.followedBy
      (Scanner.map (fun q => q.1 :: q.2) (Scanner.chain (Scanner.symbol ',') part))
      (Scanner.symbol closing))

def member (inner : Scanner Char Json) : Scanner Char (String × Json) :=
  Scanner.andThen (Scanner.followedBy (Scanner.surroundedBy blanks string) (Scanner.symbol ':'))
    fun name => inner.map fun v => (name, v)

def nonnumeric (inner : Scanner Char Json) : Scanner Char Json :=
  Scanner.orElse word <|
    Scanner.orElse (string.map text) <|
      Scanner.orElse
        (Scanner.map list (Scanner.precededBy (Scanner.symbol '[') (parts ']' inner)))
        (Scanner.map object
          (Scanner.precededBy (Scanner.symbol '\x7b') (parts '\x7d' (member inner))))

def value (inner : Scanner Char Json) : Scanner Char Json :=
  Scanner.orElse (number.map integer) (nonnumeric inner)

/-- Reads a value with the blanks around it, of which at most `depth - 1` lists and objects lie
around another one. -/
def element : Nat → Scanner Char Json
  | 0 => fun _ => none
  | depth + 1 => Scanner.surroundedBy blanks (value (element depth))

/-- The value of a whole document.  No document is deeper than it is long. -/
def read? (document : String) : Option Json :=
  match element document.toList.length document.toList with
  | some (v, ⟨[], _⟩) => some v
  | _ => none

end Json
end GossipGames

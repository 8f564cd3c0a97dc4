import GossipGames.Json.Reader
import GossipGames.Proofs.Scanner

/-!
# The grammar of documents

The grammar says which texts are documents, and which value each of them has.  It is that of JSON
with two restrictions: numbers have no fraction and no exponent, and surrogates stand in pairs.
-/

namespace GossipGames
namespace Json

open Scanner (Row)

def Blank (w : List Char) : Prop :=
  ∀ c ∈ w, isSpace c = true

inductive Character : List Char → Char → Prop where
  | plain : c ≠ '"' → c ≠ '\\' → 0x20 ≤ c.toNat → Character [c] c
  | letter : letter? l = some c → Character ['\\', l] c
  | number : hexNumber? [d₁, d₂, d₃, d₄] = some n → character? n = some c →
      Character ['\\', 'u', d₁, d₂, d₃, d₄] c
  | surrogates : hexNumber? [d₁, d₂, d₃, d₄] = some high →
      hexNumber? [e₁, e₂, e₃, e₄] = some low → surrogates? high low = some c →
      Character ['\\', 'u', d₁, d₂, d₃, d₄, '\\', 'u', e₁, e₂, e₃, e₄] c

/-- Characters with the quotation mark that ends them. -/
inductive Characters : List Char → List Char → Prop where
  | nil : Characters ['"'] []
  | cons : Character u c → Characters w cs → Characters (u ++ w) (c :: cs)

inductive Literal : List Char → String → Prop where
  | marks : Characters w cs → Literal ('"' :: w) (String.ofList cs)

inductive Natural : List Char → Nat → Prop where
  | digits : (∀ d ∈ c :: w, d.isDigit = true) → (c = '0' → w = []) →
      Natural (c :: w) (Nat.ofDigitChars 10 (c :: w) 0)

inductive Number : List Char → Int → Prop where
  | plain : Natural w n → Number w (Int.ofNat n)
  | negative : Natural w n → Number ('-' :: w) (-Int.ofNat n)

inductive Word : List Char → Json → Prop where
  | null : Word ['n', 'u', 'l', 'l'] null
  | true : Word ['t', 'r', 'u', 'e'] (bool Bool.true)
  | false : Word ['f', 'a', 'l', 's', 'e'] (bool Bool.false)

inductive Phrase where
  | value
  | element
  | member (name : String)

inductive Surrounded (R : List Char → α → Prop) : List Char → α → Prop where
  | blanks : Blank before → R w a → Blank after → Surrounded R (before ++ (w ++ after)) a

/-- Parts with commas between them and the bracket that closes them. -/
inductive Parts (closing : Char) (R : List Char → α → Prop) : List Char → List α → Prop where
  | none : Blank w → Parts closing R (w ++ [closing]) []
  | some : Row ',' R w (a, as) → Parts closing R (w ++ [closing]) (a :: as)

inductive Denotes : Phrase → List Char → Json → Prop where
  | word : Word w v → Denotes Phrase.value w v
  | integer : Number w n → Denotes Phrase.value w (integer n)
  | text : Literal w s → Denotes Phrase.value w (text s)
  | list : Parts ']' (Denotes Phrase.element) w vs → Denotes Phrase.value ('[' :: w) (list vs)
  | object : Parts '\x7d' (fun u (m : String × Json) => Denotes (Phrase.member m.1) u m.2) w ms →
      Denotes Phrase.value ('\x7b' :: w) (object ms)
  | element : Surrounded (Denotes Phrase.value) w v → Denotes Phrase.element w v
  | member : Surrounded Literal u name → Denotes Phrase.element w v →
      Denotes (Phrase.member name) (u ++ ':' :: w) v

def Member (u : List Char) (m : String × Json) : Prop :=
  Denotes (Phrase.member m.1) u m.2

end Json
end GossipGames

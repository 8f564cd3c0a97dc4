import GossipGames.Decimal.Binary64
import GossipGames.Toml.Text

/-!
# Words of a configuration file

A word is a longest run of letters, digits and the signs that occur in numbers and dates.  As a
value it is a truth value, an integer, a floating-point number or a date, a time or both.
-/

namespace GossipGames
namespace Toml

inductive Scalar where
  | boolean (value : Bool)
  | integer (value : Int)
  | float (value : Binary64)
  | moment

/-- The values of a row of digits in which single underscores may separate digits. -/
def digits? (digit? : Char → Option Nat) : List Char → Option (List Nat)
  | [] => none
  | [c] => (digit? c).map fun d => [d]
  | c :: '_' :: s => (digit? c).bind fun d => (digits? digit? s).map (d :: ·)
  | c :: s => (digit? c).bind fun d => (digits? digit? s).map (d :: ·)

def digitIn? (base : Nat) (c : Char) : Option Nat :=
  (hexValue? c).filter fun d => decide (d < base)

/-- A number of another base has a marked start, no sign, and perhaps zeros in front. -/
def based? : List Char → Option Nat
  | '0' :: 'x' :: s => (digits? (digitIn? 16) s).map (numberIn 16)
  | '0' :: 'o' :: s => (digits? (digitIn? 8) s).map (numberIn 8)
  | '0' :: 'b' :: s => (digits? (digitIn? 2) s).map (numberIn 2)
  | _ => none

/-- The digits of a decimal number, which has no zero in front of other digits. -/
def wholeDigits? (s : List Char) : Option (List Nat) :=
  (digits? (digitIn? 10) s).filter fun ds => decide (ds.length = 1 ∨ ds.head? ≠ some 0)

/-- A sign, if there is one, and the rest; the sign is true for minus. -/
def signed : List Char → Bool × List Char
  | '+' :: s => (false, s)
  | '-' :: s => (true, s)
  | s => (false, s)

def withSign (negative : Bool) (n : Nat) : Int :=
  if negative then -Int.ofNat n else Int.ofNat n

/-- Two to the 63rd: an integer is less than this and at least its negative. -/
def integerBound : Int :=
  9223372036854775808

def integer? (s : List Char) : Option Int :=
  let (negative, body) := signed s
  let n := ((based? s).map Int.ofNat).or
    ((wholeDigits? body).map fun ds => withSign negative (numberIn 10 ds))
  n.filter fun n => decide (-integerBound ≤ n ∧ n < integerBound)

def splitAtFirst (p : Char → Bool) (s : List Char) : List Char × Option (List Char) :=
  match s.dropWhile fun c => !p c with
  | [] => (s, none)
  | _ :: t => (s.takeWhile fun c => !p c, some t)

def decimal? (negative : Bool) (body : List Char) : Option Binary64 :=
  let (number, power) := splitAtFirst (fun c => c == 'e' || c == 'E') body
  let (whole, fraction) := splitAtFirst (· == '.') number
  let power? := match power with
    | none => some 0
    | some t =>
        let (minus, t) := signed t
        (digits? (digitIn? 10) t).map fun ds => withSign minus (numberIn 10 ds)
  let fraction? := match fraction with
    | none => some []
    | some t => digits? (digitIn? 10) t
  if power.isNone ∧ fraction.isNone then none
  else
    (wholeDigits? whole).bind fun ws => fraction?.bind fun fs => power?.map fun p =>
      Binary64.ofDecimal negative (numberIn 10 (ws ++ fs)) (p - Int.ofNat fs.length)

/-- A floating-point number.  One beyond the greatest is refused, but not one below the least. -/
def float? (s : List Char) : Option Binary64 :=
  let (negative, body) := signed s
  if body = ['i', 'n', 'f'] then some (Binary64.infinite negative)
  else if body = ['n', 'a', 'n'] then some Binary64.nan
  else (decimal? negative body).filter fun x => decide (x ≠ Binary64.infinite false)

def within? (low high : Nat) (s : List Char) : Option Nat :=
  ((s.mapM (digitIn? 10)).map (numberIn 10)).filter fun n => decide (low ≤ n ∧ n ≤ high)

def daysIn (year month : Nat) : Nat :=
  if month = 2 then
    if year % 4 = 0 ∧ (year % 100 ≠ 0 ∨ year % 400 = 0) then 29 else 28
  else if month = 4 ∨ month = 6 ∨ month = 9 ∨ month = 11 then 30
  else 31

def afterDate? : List Char → Option (List Char)
  | y₁ :: y₂ :: y₃ :: y₄ :: '-' :: m₁ :: m₂ :: '-' :: d₁ :: d₂ :: s =>
      (within? 0 9999 [y₁, y₂, y₃, y₄]).bind fun year =>
        (within? 1 12 [m₁, m₂]).bind fun month =>
          (within? 1 (daysIn year month) [d₁, d₂]).map fun _ => s
  | _ => none

def afterFraction : List Char → List Char
  | '.' :: c :: s => if c.isDigit then s.dropWhile Char.isDigit else '.' :: c :: s
  | s => s

/-- What follows a time of day, which may name a leap second. -/
def afterTime? : List Char → Option (List Char)
  | h₁ :: h₂ :: ':' :: m₁ :: m₂ :: ':' :: s₁ :: s₂ :: s =>
      (within? 0 23 [h₁, h₂]).bind fun _ =>
        (within? 0 59 [m₁, m₂]).bind fun _ =>
          (within? 0 60 [s₁, s₂]).map fun _ => afterFraction s
  | _ => none

def isOffset : List Char → Bool
  | [] => true
  | ['Z'] => true
  | ['z'] => true
  | [sign, h₁, h₂, ':', m₁, m₂] =>
      (sign == '+' || sign == '-') && (within? 0 23 [h₁, h₂]).isSome &&
        (within? 0 59 [m₁, m₂]).isSome
  | _ => false

def isDate (s : List Char) : Bool :=
  afterDate? s == some []

def isZonedTime (s : List Char) : Bool :=
  (afterTime? s).any isOffset

def isMoment (s : List Char) : Bool :=
  match afterDate? s with
  | some [] => true
  | some (c :: t) => (c == 'T' || c == 't') && isZonedTime t
  | none => afterTime? s == some []

def isWordChar (c : Char) : Bool :=
  c.isAlphanum || c == '+' || c == '-' || c == '_' || c == '.' || c == ':'

def scalar? (word : List Char) : Option Scalar :=
  if word = ['t', 'r', 'u', 'e'] then some (Scalar.boolean true)
  else if word = ['f', 'a', 'l', 's', 'e'] then some (Scalar.boolean false)
  else if isMoment word then some Scalar.moment
  else ((integer? word).map Scalar.integer).or ((float? word).map Scalar.float)

def word : Scanner Char (List Char)
  | [] => none
  | c :: s =>
      if isWordChar c then
        some (c :: s.takeWhile isWordChar,
          ⟨s.dropWhile isWordChar, Nat.lt_succ_of_le (List.dropWhile_sublist _).length_le⟩)
      else none

def spacedMoment : Scanner Char Scalar :=
  Scanner.andThen (Scanner.mapSome (fun w => if isDate w then some () else none) word) fun _ =>
    Scanner.precededBy (Scanner.symbol ' ')
      (Scanner.mapSome (fun w => if isZonedTime w then some Scalar.moment else none) word)

def scalar : Scanner Char Scalar :=
  Scanner.orElse spacedMoment (Scanner.mapSome scalar? word)

end Toml
end GossipGames

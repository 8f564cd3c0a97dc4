import GossipGames.Toml.Scalar
import GossipGames.Toml.Table

/-!
# Reading a configuration file

A file is a row of statements.  A statement gives a value to a key, or is a header that names the
table to which the statements after it belong.
-/

namespace GossipGames
namespace Toml

def measured (make : Extent → α → β) (p : Scanner Char α) : Scanner Char β :=
  fun s => (p s).map fun q => (make ⟨s.length, q.2.val.length⟩ q.1, q.2)

def skipSpaces : Scanner.Trim Char :=
  Scanner.Trim.dropWhile isSpace

/-!
# Keys

A key is a row of names with points between them.  The last name is kept apart from the others.
-/

def isBareChar (c : Char) : Bool :=
  c.isAlphanum || c == '_' || c == '-'

def bareName : Scanner Char String
  | [] => none
  | c :: s =>
      if isBareChar c then
        some (String.ofList (c :: s.takeWhile isBareChar),
          ⟨s.dropWhile isBareChar, Nat.lt_succ_of_le (List.dropWhile_sublist _).length_le⟩)
      else none

def name : Scanner Char Key :=
  measured (fun e n => ⟨n, e⟩) (Scanner.orElse lineText bareName)

/-- The greatest depth of a file, in names of a key or in lists and tables around a value, and one
more. -/
def depthLimit : Nat :=
  80

def separateLast : Key → List Key → List Key × Key
  | k, [] => ([], k)
  | k, l :: ls => let (path, last) := separateLast l ls; (k :: path, last)

def key : Scanner Char (List Key × Key) :=
  Scanner.mapSome
    (fun q => if q.2.length + 1 < depthLimit then some (separateLast q.1 q.2) else none)
    (Scanner.chain (Scanner.symbol '.') (Scanner.surroundedBy skipSpaces name))

mutual

def skipFiller : List Char → List Char
  | ' ' :: s => skipFiller s
  | '\t' :: s => skipFiller s
  | '\n' :: s => skipFiller s
  | '\r' :: '\n' :: s => skipFiller s
  | '#' :: s => skipComment s
  | s => s

def skipComment : List Char → List Char
  | [] => []
  | '\n' :: s => skipFiller s
  | '\r' :: '\n' :: s => skipFiller s
  | c :: s => if isPlain c then skipComment s else c :: s

end

mutual

theorem length_skipFiller_le (s : List Char) :
    (skipFiller s).length ≤ s.length := by
  unfold skipFiller
  split
  · next s => exact Nat.le_succ_of_le (length_skipFiller_le s)
  · next s => exact Nat.le_succ_of_le (length_skipFiller_le s)
  · next s => exact Nat.le_succ_of_le (length_skipFiller_le s)
  · next s => exact Nat.le_succ_of_le (Nat.le_succ_of_le (length_skipFiller_le s))
  · next s => exact Nat.le_succ_of_le (length_skipComment_le s)
  · exact Nat.le_refl _
termination_by s.length

theorem length_skipComment_le (s : List Char) :
    (skipComment s).length ≤ s.length := by
  unfold skipComment
  split
  · exact Nat.le_refl _
  · next s => exact Nat.le_succ_of_le (length_skipFiller_le s)
  · next s => exact Nat.le_succ_of_le (Nat.le_succ_of_le (length_skipFiller_le s))
  · next c s _ _ =>
    split
    · exact Nat.le_succ_of_le (length_skipComment_le s)
    · exact Nat.le_refl _
termination_by s.length

end

def filler : Scanner.Trim Char :=
  ⟨skipFiller, length_skipFiller_le⟩

/-!
# Values

The number is the depth that a value may still have.  A list may run over several lines and may end
with a comma; a table in braces may not.
-/

def ofScalar (e : Extent) : Scalar → Value
  | Scalar.boolean b => Value.boolean e b
  | Scalar.integer n => Value.integer e n
  | Scalar.float x => Value.float e x
  | Scalar.moment => Value.moment e

def flat : Scanner Char Value :=
  Scanner.orElse (measured Value.text text) (measured ofScalar scalar)

def items (item : Scanner Char Value) : Scanner Char (List Value) :=
  Scanner.orElse
    (Scanner.map (fun _ => []) (Scanner.skippingBefore filler (Scanner.symbol ']')))
    (Scanner.followedBy
      (Scanner.map (fun q => q.1 :: q.2)
        (Scanner.chainTrailing (Scanner.symbol ',') (Scanner.surroundedBy filler item)))
      (Scanner.skippingBefore filler (Scanner.symbol ']')))

def pair (item : Scanner Char Value) : Scanner Char ((List Key × Key) × Value) :=
  Scanner.andThen (Scanner.followedBy key (Scanner.symbol '=')) fun k =>
    Scanner.map (fun v => (k, v)) (Scanner.skippingBefore skipSpaces item)

def pairs (item : Scanner Char Value) : Scanner Char (List ((List Key × Key) × Value)) :=
  Scanner.orElse
    (Scanner.map (fun _ => []) (Scanner.skippingBefore skipSpaces (Scanner.symbol '\x7d')))
    (Scanner.followedBy
      (Scanner.map (fun q => q.1 :: q.2)
        (Scanner.chain (Scanner.symbol ',') (Scanner.skippingAfter skipSpaces (pair item))))
      (Scanner.symbol '\x7d'))

/-- A table in braces, unless two of its keys are at odds. -/
def braces (item : Scanner Char Value) : Scanner Char Value :=
  Scanner.mapSome id
    (measured (fun e ps => (Table.ofPairs? e ps).map Value.table)
      (Scanner.precededBy (Scanner.symbol '\x7b') (pairs item)))

def brackets (item : Scanner Char Value) : Scanner Char Value :=
  measured Value.array (Scanner.precededBy (Scanner.symbol '[') (items item))

def value : Nat → Scanner Char Value
  | 0 => flat
  | depth + 1 =>
      Scanner.orElse (brackets (value depth)) (Scanner.orElse (braces (value depth)) flat)

inductive Statement where
  | assignment (path : List Key) (key : Key) (value : Value)
  | header (extent : Extent) (path : List Key) (key : Key)
  | itemHeader (extent : Extent) (path : List Key) (key : Key)

def endsLine (s : List Char) : Bool :=
  match s.dropWhile isSpace with
  | [] => true
  | '#' :: _ => true
  | r => (newline r).isSome

def header : Scanner Char Statement :=
  measured (fun e k => Statement.header e k.1 k.2)
    (Scanner.precededBy (Scanner.symbol '[') (Scanner.followedBy key (Scanner.symbol ']')))

def itemHeader : Scanner Char Statement :=
  measured (fun e k => Statement.itemHeader e k.1 k.2)
    (Scanner.precededBy (Scanner.symbol '[') (Scanner.precededBy (Scanner.symbol '[')
      (Scanner.followedBy key
        (Scanner.precededBy (Scanner.symbol ']') (Scanner.symbol ']')))))

def assignment : Scanner Char Statement :=
  Scanner.map (fun p => Statement.assignment p.1.1 p.1.2 p.2) (pair (value (depthLimit - 1)))

def statement : Scanner Char Statement :=
  fun s =>
    (Scanner.orElse itemHeader (Scanner.orElse header assignment) s).filter fun q =>
      endsLine q.2.val

def statements (s : List Char) : Option (List Statement) :=
  if skipFiller s = [] then some []
  else
    match statement (skipFiller s) with
    | none => none
    | some (st, t) => (statements t.val).map (st :: ·)
termination_by s.length
decreasing_by
  exact Nat.lt_of_lt_of_le t.property (length_skipFiller_le s)

structure Progress where
  root : Table Value
  current : List Key

def Progress.step (p : Progress) : Statement → Option Progress
  | Statement.assignment path k v =>
      (p.root.alter false (fun t => (t.assign path k v).map (Table.extendTo v)) p.current).map
        fun root => { p with root := root }
  | Statement.header extent path k =>
      (p.root.openTable extent path k).map fun root => ⟨root, path ++ [k]⟩
  | Statement.itemHeader extent path k =>
      (p.root.openItem extent path k).map fun root => ⟨root, path ++ [k]⟩

def assemble (sts : List Statement) : Option (Table Value) :=
  (sts.foldlM Progress.step ⟨Table.empty none Origin.header, []⟩).map Progress.root

/-- A mark of the byte order may stand first. -/
def dropMark : List Char → List Char
  | '\ufeff' :: s => s
  | s => s

def read (file : String) : Option (Table Value) :=
  (statements (dropMark file.toList)).bind assemble

end Toml
end GossipGames

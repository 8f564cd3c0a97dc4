import GossipGames.Text.Blank
import GossipGames.Text.Numeral

/-!
# Agent counts

The number of agents is positive and fits into 64 bits.  Agents are numbered from one.
-/

namespace GossipGames

structure InvalidArgument where
  value : String
  reason : String
deriving DecidableEq

def InvalidArgument.message (e : InvalidArgument) : String :=
  "invalid argument '" ++ e.value ++ "': " ++ e.reason

namespace AgentCount

def bound : Nat :=
  18446744073709551616

/-- Two to the 127th: an integer that is read is less than this and at least its negative. -/
def readable : Int :=
  170141183460469231731687303715884105728

end AgentCount

structure AgentCount where
  size : Nat
  pos : 0 < size
  fits : size < AgentCount.bound

namespace AgentCount

inductive Refusal where
  | missing
  | notInteger
  | notPositive
  | tooLarge
deriving DecidableEq

def Refusal.reason : Refusal → String
  | missing => "missing agent count"
  | notInteger => "expected a positive integer"
  | notPositive => "agent count must be positive"
  | tooLarge => "agent count is too large"

def ofInt (n : Int) : Except Refusal AgentCount :=
  if hpos : n ≤ 0 then .error .notPositive
  else if hfits : n.toNat < bound then .ok ⟨n.toNat, by omega, hfits⟩
  else .error .tooLarge

/-- Reads a count.  Blanks around it do not matter; an integer that does not fit into 128 bits with
a sign is no integer here. -/
def parse (text : String) : Except Refusal AgentCount :=
  match trim text.toList with
  | [] => .error .missing
  | s =>
      match Numeral.integer? s with
      | none => .error .notInteger
      | some n =>
          if n < -readable ∨ readable ≤ n then .error .notInteger
          else ofInt n

def invalid (value : String) (r : Refusal) : InvalidArgument :=
  ⟨value, r.reason⟩

def ofNat (n : Nat) : Except InvalidArgument AgentCount :=
  (ofInt n).mapError (invalid (toString n))

def read (text : String) : Except InvalidArgument AgentCount :=
  (parse text).mapError (invalid text)

def text (n : AgentCount) : String :=
  toString n.size

def indices (n : AgentCount) : List Nat :=
  List.range' 1 n.size

def others (n : AgentCount) (i : Nat) : List Nat :=
  n.indices.filter fun j => j != i

end AgentCount
end GossipGames

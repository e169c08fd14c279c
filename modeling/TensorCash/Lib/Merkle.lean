import Mathlib.Data.List.Basic

/-! Merkle roots where an odd level repeats its last element; a list is *mutated* when a level pairs
equals. -/

namespace Merkle

variable {α : Type} (combine : α → α → α)

def nextLevel : List α → List α
  | [] => []
  | [a] => [combine a a]
  | a :: b :: rest => combine a b :: nextLevel rest

def hasEqualPair [DecidableEq α] : List α → Bool
  | a :: b :: rest => a = b || hasEqualPair rest
  | _ => false

def rootFrom (zero : α) : Nat → List α → α
  | _, [] => zero
  | _, [a] => a
  | 0, _ :: _ :: _ => zero
  | fuel + 1, a :: b :: rest => rootFrom zero fuel (nextLevel combine (a :: b :: rest))

def root (zero : α) (l : List α) : α := rootFrom combine zero l.length l

/-- Whether some level repeats a neighbour. -/
def mutatedFrom [DecidableEq α] : Nat → List α → Bool
  | fuel + 1, a :: b :: rest => hasEqualPair (a :: b :: rest) || mutatedFrom fuel (nextLevel combine (a :: b :: rest))
  | _, _ => false

def mutated [DecidableEq α] (l : List α) : Bool := mutatedFrom combine l.length l

end Merkle

import RuleNet.Engine.Token
import RuleNet.Rule.Operator

/-!
# Joins

A join node combines the activations of its operands, and keeps no more than a
given number of them. `and` pairs every left activation with every right one;
`or` passes the activations of the only active side on, and pairs them when
both sides are active; `not` has one empty activation when its operand has none.
-/

namespace RuleNet.Engine

open Rule (Operator)

/-- Every left activation paired with every right one, up to a limit. The
pairs are made row by row and no further than the limit. -/
def cross : Nat → List Token → List Token → List Token
  | _, [], _ => []
  | limit, left :: rest, right =>
      let row := (right.take limit).map left.merge
      row ++ cross (limit - row.length) rest right

/-- The limit cuts a prefix off all the pairs. -/
theorem cross_eq_take (limit : Nat) (left right : List Token) :
    cross limit left right = (left.flatMap fun l => right.map l.merge).take limit := by
  induction left generalizing limit with
  | nil => simp [cross]
  | cons token rest ih =>
    simp only [cross, List.flatMap_cons, List.take_append, List.length_map, List.length_take, ih,
      List.map_take]
    congr 2
    omega

/-- The activations of a join with the given inputs, one list for each operand. -/
def combine (operator : Operator) (inputs : List (List Token)) (limit : Nat) : List Token :=
  let left := inputs[0]?.getD []
  let right := inputs[1]?.getD []
  match operator with
  | .and => cross limit left right
  | .or =>
      if left.isEmpty then right.take limit
      else if right.isEmpty then left.take limit
      else cross limit left right
  | .not => if left.isEmpty && decide (0 < limit) then [Token.empty] else []

end RuleNet.Engine

import RuleNet.Proofs.Engine.Truth
import RuleNet.Proofs.Rule.Satisfaction

/-!
# The order of facts

Facts in another order are matched in another order, and inside a group another
child may be the first to match, so tokens and bindings change. Their number does
not: how many facts match a condition does not depend on the order, and how many
tokens an operator makes depends only on how many its operands have
(`joinedCount`). The limit cuts both runs to the same length.

* `length_matching`, `length_joined`: the number of tokens of a pattern and of an
  operator.
* `length_tokensOf_rearranged`: what a plan stands for has as many tokens.
* `reachable_rearranged`: the same for every network that a builder can reach, so
  the same nodes are active and the same rules apply.
-/

namespace RuleNet.Engine

open Markup (Element)
open Memory (Fact Rearranged)
open Network (Builder Plan Reachable WellFormed exists_unfolds)
open Rule (Condition Operator)
open Settings (Config)

/-! ## Numbers of tokens -/

/-- How many tokens an operator makes of so many tokens of its operands. -/
def joinedCount (left right : Nat) : Operator → Nat
  | .and => left * right
  | .or => if left = 0 then right else if right = 0 then left else left * right
  | .not => if left = 0 then 1 else 0

theorem length_pairs (left right : List Token) :
    (pairs left right).length = left.length * right.length := by
  simp [pairs, List.length_flatMap]

theorem length_joined (left right : List Token) (operator : Operator) :
    (joined left right operator).length = joinedCount left.length right.length operator := by
  cases operator with
  | and => exact length_pairs left right
  | or =>
    simp only [joined, joinedCount, List.isEmpty_iff_length_eq_zero]
    split
    · rfl
    split
    · rfl
    · exact length_pairs left right
  | not =>
    simp only [joined, joinedCount, List.isEmpty_iff_length_eq_zero]
    split <;> rfl

/-- Inputs of the same lengths give as many tokens. -/
theorem length_combine_congr {inputs others : List (List Token)}
    (same : ∀ i : Nat, (inputs[i]?.getD []).length = (others[i]?.getD []).length)
    (operator : Operator) (limit : Nat) :
    (combine operator inputs limit).length = (combine operator others limit).length := by
  rw [combine_eq_take, combine_eq_take, List.length_take, List.length_take, length_joined,
    length_joined, same, same]

/-- A pattern has a token for every fact that matches. -/
theorem length_matching (config : Config) (condition : Condition) (facts : List Fact) :
    (matching config condition (place facts)).length =
      condition.matchCount config.isWildcard facts := by
  rw [matching, List.length_filterMap_eq_countP]
  calc (place facts).countP _
      = (place facts).countP
          ((fun fact => (condition.match? config.isWildcard fact).isSome) ∘ Placed.fact) :=
        List.countP_congr fun placed _ => by simp
    _ = ((place facts).map Placed.fact).countP _ := List.countP_map.symm
    _ = condition.matchCount config.isWildcard facts := by rw [map_fact_place]; rfl

theorem Report.isActive_iff_length_pos {report : Report} {id : Network.NodeId} :
    report.isActive id = true ↔ 0 < (report.activationsOf id).length := by
  rw [isActive, Bool.not_eq_true', List.isEmpty_eq_false_iff, List.length_pos_iff]

/-! ## Another order -/

section Rearranged

variable {facts others : List Fact} (rearranged : Rearranged facts others)
include rearranged

/-- Facts in another order give a plan as many tokens. -/
theorem length_tokensOf_rearranged (config : Config) (plan : Plan) :
    (tokensOf config (place facts) plan).length =
      (tokensOf config (place others) plan).length := by
  induction plan using Plan.induction with
  | onPattern key condition =>
    rw [tokensOf, tokensOf, activate_eq_take, activate_eq_take, List.length_take,
      List.length_take, length_matching, length_matching,
      Condition.matchCount_rearranged rearranged]
  | onJoin key operator operands ih =>
    rw [tokensOf, tokensOf, tokensOfAll_eq_map, tokensOfAll_eq_map]
    refine length_combine_congr (fun i => ?_) operator _
    rw [List.getElem?_map, List.getElem?_map]
    cases listed : operands[i]? with
    | none => rfl
    | some operand => exact ih operand (List.mem_of_getElem? listed)

theorem length_activationsOf_rearranged {network : Network} (wf : WellFormed network) (id : Nat) :
    ((Report.ofRun network facts).activationsOf id).length =
      ((Report.ofRun network others).activationsOf id).length := by
  by_cases inner : network.IsInner id
  · obtain ⟨plan, unfolds⟩ := exists_unfolds wf inner
    rw [activationsOf_unfolds wf facts unfolds, activationsOf_unfolds wf others unfolds,
      length_tokensOf_rearranged rearranged]
  · have idle : ∀ facts, ((Report.ofRun network facts).activationsOf id).length = 0 := by
      intro facts
      refine Nat.eq_zero_of_not_pos fun filled => ?_
      have active := Report.isActive_iff_length_pos.mpr filled
      rw [isActive_of_not_isInner wf facts inner] at active
      cases active
    rw [idle, idle]

end Rearranged

/-- Whatever calls a builder has seen, and whatever the limit: when the facts of a
memory are put into another order, at the top level or inside groups at any
depth, every node has as many activations as before. So the same nodes are
active, and the same rules apply in the same order. -/
theorem reachable_rearranged {config : Config} {builder : Builder}
    (reachable : Reachable config builder) {facts others : List Fact}
    (rearranged : Rearranged facts others) :
    let before := Report.ofRun builder.network facts
    let after := Report.ofRun builder.network others
    (∀ id, (after.activationsOf id).length = (before.activationsOf id).length) ∧
      (∀ id, after.isActive id = before.isActive id) ∧
      after.matchedNames = before.matchedNames := by
  intro before after
  have lengths : ∀ id, (after.activationsOf id).length = (before.activationsOf id).length :=
    fun id => (length_activationsOf_rearranged rearranged reachable.wellFormed id).symm
  have active : ∀ id, after.isActive id = before.isActive id := by
    intro id
    rw [Bool.eq_iff_iff, Report.isActive_iff_length_pos, Report.isActive_iff_length_pos, lengths]
  refine ⟨lengths, active, ?_⟩
  show (builder.network.rules.filter fun rule => after.isActive rule.terminal).map _ =
    (builder.network.rules.filter fun rule => before.isActive rule.terminal).map _
  simp only [active]

/-- The bow moves before the room, and the axes in the room change places: the
first of them binds another identifier, and there are as many activations. -/
theorem reachable_rearranged_room :
    let axe : Element := { name := "weapon", attributes := [("type", "string")], text := "axe" }
    let both : Element :=
      { name := "and", children := [{ name := "room", children := [axe] }, { name := "bow" }] }
    let builder := (Builder.ofConfig {}).offer (.ofCondition "armed" both)
    let first := Fact.leaf 1 "weapon" (.string "axe")
    let second := Fact.leaf 2 "weapon" (.string "axe")
    let facts : List Fact := [.group "room" [first, second], .group "bow" [], .group "bow" []]
    let others : List Fact := [.group "bow" [], .group "room" [second, first], .group "bow" []]
    let before := Report.ofRun builder.network facts
    let after := Report.ofRun builder.network others
    Rearranged facts others ∧
      (before.activationsOf 3).map Token.bindings = [[1], [1]] ∧
      (after.activationsOf 3).map Token.bindings = [[2], [2]] ∧
      (after.activationsOf 3).length = (before.activationsOf 3).length ∧
      before.matchedNames = ["armed"] ∧ after.matchedNames = before.matchedNames := by
  intro axe both builder first second facts others before after
  have reachable : Reachable {} builder := .offer _ .start
  have inside :
      Rearranged facts [.group "room" [second, first], .group "bow" [], .group "bow" []] :=
    .single (.inside [] _ "room" (.here (.swap second first [])))
  have rearranged : Rearranged facts others := inside.tail (.here (.swap _ _ _))
  obtain ⟨lengths, -, names⟩ := reachable_rearranged reachable rearranged
  exact ⟨rearranged, by decide, by decide, lengths 3, by decide, names⟩

end RuleNet.Engine

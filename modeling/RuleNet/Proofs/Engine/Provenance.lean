import RuleNet.Proofs.Engine.Reference

/-!
# Where an activation comes from

Activations are merged, copied and passed on, and their two lists, the facts and
the bound identifiers, are nowhere kept together. Still every activation is made
of contributions (`Token.ofContributions`): of a fact each, that matched the
condition of a pattern, and of what this match bound. The patterns are those
that feed the node (`Feeds`): they are reached through operands of conjunctions
and disjunctions. What is under a negation contributes nothing.

* `mem_joined`: what an operator makes is empty, or an operand's, or two merged.
* `exists_contributions`: every activation is made of contributions.
* `reachable_provenance`: the same for every network that a builder can reach,
  and that bound identifiers belong to leaves of the activation's facts.
-/

namespace RuleNet.Rule.Condition

open Memory (Fact FactId)

/-! ## What a match binds -/

section Binding

variable {isWildcard : String → Bool} {id : FactId}

/-- If the facts of a list bind only leaves of their own, several conditions bind
only leaves of the list. -/
theorem mem_idsIn_of_matchAll? {facts : List Fact}
    (each : ∀ fact ∈ facts, ∀ (condition : Condition) (bound : Bindings),
      condition.match? isWildcard fact = some bound → id ∈ bound → id ∈ fact.ids)
    {conditions : List Condition} {bound : Bindings}
    (found : matchAll? isWildcard conditions facts = some bound) (member : id ∈ bound) :
    id ∈ Fact.idsIn facts := by
  induction conditions generalizing bound with
  | nil =>
    cases found
    cases member
  | cons condition rest ih =>
    rw [matchAll?] at found
    split at found
    · next first others chosen later =>
      cases found
      obtain ⟨fact, inside, matched⟩ := List.exists_of_findSome?_eq_some chosen
      rcases List.mem_append.mp member with here | there
      · exact Fact.mem_idsIn.mpr ⟨fact, inside, each fact inside condition first matched here⟩
      · exact ih later there
    · cases found

/-- A match binds leaves of the fact. -/
theorem mem_ids_of_match? {condition : Condition} {fact : Fact} {bound : Bindings}
    (found : condition.match? isWildcard fact = some bound) (member : id ∈ bound) :
    id ∈ fact.ids := by
  induction fact using Fact.induction generalizing condition bound with
  | onLeaf own name value =>
    unfold match? at found
    split at found
    case h_1 other => cases other
    case h_5 => cases found
    -- A leaf condition binds the leaf, whatever it says about the value.
    all_goals
      rename_i same
      cases same
      split at found
      · cases found
        exact member
      · cases found
  | onGroup name children ih =>
    unfold match? at found
    split at found
    case h_1 same =>
      cases same
      split at found
      · exact mem_idsIn_of_matchAll? (fun child inside _ _ => ih child inside) found member
      · cases found
    case h_5 => cases found
    all_goals
      rename_i other
      cases other

end Binding

end RuleNet.Rule.Condition

namespace RuleNet.Network

open Rule (Condition Key Operator)

/-! ## Patterns that feed a node -/

/-- The first node is a pattern, and it is the second one or reaches it through
operands of conjunctions and disjunctions. -/
inductive Feeds (network : Network) (pattern : NodeId) : NodeId → Prop
  | self {node : Node} {key : Key} {condition : Condition} :
      network.node? pattern = some node → node.kind = .pattern key condition →
      Feeds network pattern pattern
  | operand {id operand : Nat} {node : Node} {key : Key} {operator : Operator}
      {operands : List NodeId} :
      network.node? id = some node → node.kind = .join key operator operands →
      operator ≠ .not → operand ∈ operands → Feeds network pattern operand →
      Feeds network pattern id

end RuleNet.Network

namespace RuleNet.Engine

open Markup (Element)
open Memory (Fact)
open Network (Builder Node NodeId Reachable WellFormed)
open Rule (Bindings Condition Definition Key Operator)
open Settings (Config)

/-! ## Contributions -/

/-- What one match of a pattern contributes to an activation. -/
structure Contribution where
  pattern : NodeId
  fact : Placed
  /-- What the match binds. -/
  bindings : Bindings
deriving Inhabited, Repr

/-- The activation made of the given contributions. -/
def Token.ofContributions (contributions : List Contribution) : Token :=
  ⟨contributions.map Contribution.fact, contributions.flatMap Contribution.bindings⟩

@[simp] theorem Token.ofContributions_append (left right : List Contribution) :
    Token.ofContributions (left ++ right) =
      (Token.ofContributions left).merge (Token.ofContributions right) := by
  simp [ofContributions, merge]

/-- The pattern feeds the node, and its condition matches a fact of the memory
and binds what is said. -/
structure Contributes (network : Network) (facts : List Placed) (id : NodeId)
    (contribution : Contribution) : Prop where
  feeds : network.Feeds contribution.pattern id
  fact_mem : contribution.fact ∈ facts
  binds : ∃ node key condition, network.node? contribution.pattern = some node ∧
    node.kind = .pattern key condition ∧
    condition.match? network.config.isWildcard contribution.fact.fact = some contribution.bindings

/-- The activation is made of contributions to the node. -/
def Explained (network : Network) (facts : List Placed) (id : NodeId) (token : Token) : Prop :=
  ∃ contributions, (∀ contribution ∈ contributions, Contributes network facts id contribution) ∧
    token = .ofContributions contributions

section Explained

variable {network : Network} {facts : List Placed} {id : NodeId}

theorem explained_empty : Explained network facts id Token.empty :=
  ⟨[], by simp, rfl⟩

theorem Explained.merge {left right : Token} (explained : Explained network facts id left)
    (explained' : Explained network facts id right) :
    Explained network facts id (left.merge right) := by
  obtain ⟨first, each, rfl⟩ := explained
  obtain ⟨second, each', rfl⟩ := explained'
  refine ⟨first ++ second, fun contribution member => ?_, (Token.ofContributions_append _ _).symm⟩
  rcases List.mem_append.mp member with inFirst | inSecond
  · exact each contribution inFirst
  · exact each' contribution inSecond

/-- An operand's activations are explained in the same way at the join. -/
theorem Explained.operand {node : Node} {key : Key} {operator : Operator}
    {operands : List NodeId} (found : network.node? id = some node)
    (kind : node.kind = .join key operator operands) (positive : operator ≠ .not)
    {operand : NodeId} (member : operand ∈ operands) {token : Token}
    (explained : Explained network facts operand token) : Explained network facts id token := by
  obtain ⟨contributions, each, rfl⟩ := explained
  refine ⟨contributions, fun contribution inside => ?_, rfl⟩
  have ⟨feeds, here, binds⟩ := each contribution inside
  exact ⟨.operand found kind positive member feeds, here, binds⟩

/-- A pattern's own activations. -/
theorem explained_of_mem_activate {node : Node} {key : Key} {condition : Condition}
    (found : network.node? id = some node) (kind : node.kind = .pattern key condition)
    {token : Token} (member : token ∈ activate network.config condition facts) :
    Explained network facts id token := by
  rw [activate_eq_take] at member
  obtain ⟨placed, inside, made⟩ := List.mem_filterMap.mp (List.mem_of_mem_take member)
  obtain ⟨bound, matched, rfl⟩ := Option.map_eq_some_iff.mp made
  refine ⟨[⟨id, placed, bound⟩], fun contribution only => ?_, ?_⟩
  · cases List.mem_singleton.mp only
    exact ⟨.self found kind, inside, node, key, condition, found, kind, matched⟩
  · simp [Token.ofContributions, Token.single]

end Explained

/-! ## Joins -/

theorem mem_pairs {left right : List Token} {token : Token} :
    token ∈ pairs left right ↔ ∃ first ∈ left, ∃ second ∈ right, first.merge second = token := by
  simp [pairs]

/-- What an operator makes is empty, or an activation of an operand, or two of
them merged. A negation makes nothing else than the empty activation. -/
theorem mem_joined {left right : List Token} {operator : Operator} {token : Token}
    (member : token ∈ joined left right operator) :
    token = .empty ∨ operator ≠ .not ∧
      (token ∈ left ∨ token ∈ right ∨
        ∃ first ∈ left, ∃ second ∈ right, first.merge second = token) := by
  cases operator with
  | and => exact .inr ⟨nofun, .inr (.inr (mem_pairs.mp member))⟩
  | or =>
    refine .inr ⟨nofun, ?_⟩
    simp only [joined] at member
    split at member
    · exact .inr (.inl member)
    split at member
    · exact .inl member
    · exact .inr (.inr (mem_pairs.mp member))
  | not =>
    simp only [joined] at member
    split at member
    · exact .inl (List.mem_singleton.mp member)
    · cases member

theorem exists_mem_of_mem_getD {α : Type} {f : α → List Token} {xs : List α} {i : Nat}
    {token : Token} (member : token ∈ (xs.map f)[i]?.getD []) : ∃ x ∈ xs, token ∈ f x := by
  rw [List.getElem?_map] at member
  cases there : xs[i]? with
  | none => rw [there] at member; cases member
  | some x =>
    rw [there] at member
    exact ⟨x, List.mem_of_getElem? there, member⟩

/-! ## Whole runs -/

theorem activationsOf_of_node? {network : Network} (wf : WellFormed network) (facts : List Fact)
    {id : Nat} {node : Node} (found : network.node? id = some node) :
    (Report.ofRun network facts).activationsOf id =
      pulled network (place facts) (run network facts) node := by
  rw [Report.activationsOf, Report.ofRun, run_equation wf facts found, Option.getD_some]

/-- Every activation of a run is made of contributions to its node. -/
theorem exists_contributions {network : Network} (wf : WellFormed network) (facts : List Fact)
    {id : Nat} {token : Token} (member : token ∈ (Report.ofRun network facts).activationsOf id) :
    Explained network (place facts) id token := by
  -- Induction on the position: the operands of a join stand before it.
  induction id using Nat.strongRecOn generalizing token with
  | ind id ih =>
    cases found : network.node? id with
    | none =>
      have outside : (run network facts).length ≤ id := by
        rw [length_run wf facts]
        exact List.getElem?_eq_none_iff.mp found
      rw [Report.activationsOf, Report.ofRun, List.getElem?_eq_none outside] at member
      cases member
    | some node =>
      rw [activationsOf_of_node? wf facts found, pulled] at member
      have reads := wf.reads found
      cases kind : node.kind with
      | root =>
        rw [kind] at member
        cases member
      | pattern key condition =>
        rw [kind] at member
        exact explained_of_mem_activate found kind member
      | join key operator operands =>
        rw [kind] at member reads
        simp only [combine_eq_take] at member
        have explained : ∀ {i : Nat} {token : Token}, operator ≠ .not →
            token ∈ (operands.map ((Report.ofRun network facts).activationsOf ·))[i]?.getD [] →
              Explained network (place facts) id token := by
          intro i token positive inside
          obtain ⟨operand, here, made⟩ := exists_mem_of_mem_getD inside
          exact (ih operand (reads.2.2 operand here).2 made).operand found kind positive here
        rcases mem_joined (List.mem_of_mem_take member) with
          rfl | ⟨positive, left | right | ⟨first, left, second, right, rfl⟩⟩
        · exact explained_empty
        · exact explained positive left
        · exact explained positive right
        · exact (explained positive left).merge (explained positive right)

/-- Whatever calls a builder has seen, every activation of a run of its network is
made of contributions to its node: its facts are those that matched, in order,
and it binds what these matches bound, in the same order. So it binds only
leaves of its facts, and nothing if it has none. -/
theorem reachable_provenance {config : Config} {builder : Builder}
    (reachable : Reachable config builder) (facts : List Fact) (id : NodeId) (token : Token)
    (member : token ∈ (Report.ofRun builder.network facts).activationsOf id) :
    (∃ contributions : List Contribution,
      (∀ contribution ∈ contributions,
        Contributes builder.network (place facts) id contribution) ∧
      token.facts = contributions.map Contribution.fact ∧
      token.bindings = contributions.flatMap Contribution.bindings) ∧
    (∀ bound ∈ token.bindings, ∃ placed ∈ token.facts, bound ∈ placed.fact.ids) ∧
    (token.facts = [] → token.bindings = []) := by
  obtain ⟨contributions, each, rfl⟩ := exists_contributions reachable.wellFormed facts member
  refine ⟨⟨contributions, each, rfl, rfl⟩, fun bound inside => ?_, fun none => ?_⟩
  · obtain ⟨contribution, here, binds⟩ := List.mem_flatMap.mp inside
    obtain ⟨_, _, condition, -, -, matched⟩ := (each contribution here).binds
    exact ⟨contribution.fact, List.mem_map_of_mem here, Condition.mem_ids_of_match? matched binds⟩
  · have empty : contributions = [] := List.map_eq_nil_iff.mp none
    rw [empty]
    rfl

/-- One pattern is an operand of a conjunction and of a disjunction under it,
whose other operand is a negation that contributes nothing. -/
theorem reachable_provenance_shared :
    let pattern text : Element :=
      { name := "weapon", attributes := [("type", "string")], text := text }
    let either : Element :=
      { name := "or", children := [pattern "axe", { name := "not", children := [pattern "bow"] }] }
    let both : Element := { name := "and", children := [either, pattern "axe"] }
    let rule := Definition.ofCondition "armed" both
    let facts : List Fact := [.leaf 7 "weapon" (.string "axe"), .leaf 8 "weapon" (.string "axe")]
    let network := ((Builder.ofConfig {}).offer rule).network
    let tokens := (Report.ofRun network facts).activationsOf 5
    let seen := fun token : Token => (token.facts.map Placed.position, token.bindings)
    tokens.map seen = [([0, 0], [7, 7]), ([0, 1], [7, 8]), ([1, 0], [8, 7]), ([1, 1], [8, 8])] ∧
      ∃ token ∈ tokens, seen token = ([0, 1], [7, 8]) ∧ ∃ contributions : List Contribution,
        (∀ contribution ∈ contributions, Contributes network (place facts) 5 contribution) ∧
        token.facts = contributions.map Contribution.fact ∧
        token.bindings = contributions.flatMap Contribution.bindings := by
  intro pattern either both rule facts network tokens seen
  have reachable : Reachable {} ((Builder.ofConfig {}).offer rule) := .offer rule .start
  have listed : tokens.map seen =
      [([0, 0], [7, 7]), ([0, 1], [7, 8]), ([1, 0], [8, 7]), ([1, 1], [8, 8])] := by
    decide +kernel
  have inside : ([0, 1], [7, 8]) ∈ tokens.map seen := by
    rw [listed]
    decide
  obtain ⟨token, member, same⟩ := List.mem_map.mp inside
  exact ⟨listed, token, member, same, (reachable_provenance reachable facts 5 token member).1⟩

end RuleNet.Engine

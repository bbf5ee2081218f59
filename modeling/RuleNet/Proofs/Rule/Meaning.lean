import Mathlib.Data.List.Forall2
import RuleNet.Proofs.Rule.Satisfaction

/-!
# What a condition means

`Satisfies` says when a fact meets a condition, and `Binds` which leaf facts are
bound then; neither mentions a search. The matcher decides the first and
computes the second (`test_decides`), whatever has been collected before.

* `isSome_match?_iff`: a condition matches the facts that satisfy it.
* `match?_eq_some_iff`: a match binds what the meaning says, and nothing else.
* `test_eq`: collecting bindings is matching and appending.
-/

namespace RuleNet.Memory.Fact

/-- The fact is the other one, or stands below it at some depth. -/
inductive Inside : Fact → Fact → Prop
  | self {fact : Fact} : Inside fact fact
  | child {fact child : Fact} {name : String} {children : List Fact} :
      child ∈ children → Inside fact child → Inside fact (.group name children)

end RuleNet.Memory.Fact

namespace RuleNet.Rule.Condition

open Memory (Fact FactId)

variable {isWildcard : String → Bool} {condition : Condition} {conditions : List Condition}
  {fact : Fact} {facts : List Fact} {bound : Bindings}

/-! ## The meaning -/

mutual
/-- The fact satisfies the condition: a group has the name that is asked for, and
each child condition is satisfied by some child; a leaf has that name, unless it
is a wildcard, and a value of the type that lies in the range or is the string. -/
inductive Satisfies (isWildcard : String → Bool) : Condition → Fact → Prop
  | group {name : String} {conditions : List Condition} {children : List Fact} :
      (∀ condition ∈ conditions, SatisfiedBySome isWildcard condition children) →
      Satisfies isWildcard (.group name conditions) (.group name children)
  | int {name found : String} {min max n : Int64} {id : FactId} :
      isWildcard name = true ∨ found = name → min ≤ n → n ≤ max →
      Satisfies isWildcard (.int name min max) (.leaf id found (.int n))
  | float {name found : String} {min max x : Number.Binary64} {id : FactId} :
      isWildcard name = true ∨ found = name → min.le x = true → x.le max = true →
      Satisfies isWildcard (.float name min max) (.leaf id found (.float x))
  | string {name found literal : String} {id : FactId} :
      isWildcard name = true ∨ found = name →
      Satisfies isWildcard (.string name literal) (.leaf id found (.string literal))

/-- Some fact of the list satisfies the condition. -/
inductive SatisfiedBySome (isWildcard : String → Bool) : Condition → List Fact → Prop
  | intro {condition : Condition} {fact : Fact} {facts : List Fact} :
      fact ∈ facts → Satisfies isWildcard condition fact →
      SatisfiedBySome isWildcard condition facts
end

mutual
/-- What a fact binds that satisfies the condition: a leaf itself, and a group
what its children bind for the child conditions in their order. -/
inductive Binds (isWildcard : String → Bool) : Condition → Fact → Bindings → Prop
  | leaf {condition : Condition} {id : FactId} {name : String} {value : Memory.Value} :
      Satisfies isWildcard condition (.leaf id name value) →
      Binds isWildcard condition (.leaf id name value) [id]
  | group {name : String} {conditions : List Condition} {children : List Fact} {bound : Bindings} :
      BindsAll isWildcard conditions children bound →
      Binds isWildcard (.group name conditions) (.group name children) bound

/-- What a list of facts binds for several conditions: for each of them it is the
first fact that satisfies it which binds. -/
inductive BindsAll (isWildcard : String → Bool) : List Condition → List Fact → Bindings → Prop
  | nil {facts : List Fact} : BindsAll isWildcard [] facts []
  | cons {condition : Condition} {conditions : List Condition} {facts before after : List Fact}
      {fact : Fact} {first others : Bindings} :
      facts = before ++ fact :: after →
      (∀ earlier ∈ before, ¬ Satisfies isWildcard condition earlier) →
      Binds isWildcard condition fact first → BindsAll isWildcard conditions facts others →
      BindsAll isWildcard (condition :: conditions) facts (first ++ others)
end

mutual
/-- The leaves of a condition in document order. -/
def leaves : Condition → List Condition
  | group _ conditions => leavesAll conditions
  | condition => [condition]

/-- The leaves of several conditions, one after the other. -/
def leavesAll : List Condition → List Condition
  | [] => []
  | condition :: rest => leaves condition ++ leavesAll rest
end

theorem leaves_of_not_isGroup (leaf : condition.isGroup = false) :
    condition.leaves = [condition] := by
  cases condition with
  | group => cases leaf
  | int | float | string => rfl

/-! ## Matching decides it -/

theorem satisfies_group_iff {name found : String} {children : List Fact} :
    Satisfies isWildcard (.group name conditions) (.group found children) ↔
      found = name ∧ ∀ condition ∈ conditions, SatisfiedBySome isWildcard condition children := by
  constructor
  · intro satisfied
    cases satisfied with
    | group each => exact ⟨rfl, each⟩
  · rintro ⟨rfl, each⟩
    exact .group each

/-- A leaf condition looks at the name and at the value of a leaf. -/
theorem match?_leaf (leaf : condition.isGroup = false) (id : FactId) (found : String)
    (value : Memory.Value) :
    condition.match? isWildcard (.leaf id found value) =
      if acceptsName isWildcard condition.name found && condition.acceptsValue value then some [id]
      else none := by
  cases condition with
  | group => cases leaf
  | int | float | string => cases value <;> simp [match?, acceptsValue, name]

/-- A leaf condition matches a leaf as its meaning says. -/
theorem isSome_match?_leaf_iff (leaf : condition.isGroup = false) :
    (condition.match? isWildcard fact).isSome = true ↔ Satisfies isWildcard condition fact := by
  constructor
  · intro matched
    unfold match? at matched
    split at matched
    · cases leaf
    · next accepted =>
      rw [Option.isSome_ite, Bool.and_eq_true, acceptsName_eq_true, Bool.and_eq_true,
        decide_eq_true_eq, decide_eq_true_eq] at matched
      exact .int matched.1 matched.2.1 matched.2.2
    · rw [Option.isSome_ite, Bool.and_eq_true, acceptsName_eq_true, Bool.and_eq_true] at matched
      exact .float matched.1 matched.2.1 matched.2.2
    · rw [Option.isSome_ite, Bool.and_eq_true, acceptsName_eq_true, beq_iff_eq] at matched
      obtain ⟨named, rfl⟩ := matched
      exact .string named
    · cases matched
  · intro satisfied
    cases satisfied with
    | group => cases leaf
    | int named lower upper => simp [match?, acceptsName_eq_true.mpr named, lower, upper]
    | float named lower upper => simp [match?, acceptsName_eq_true.mpr named, lower, upper]
    | string named => simp [match?, acceptsName_eq_true.mpr named]

/-- A condition matches exactly the facts that satisfy it. -/
theorem isSome_match?_iff :
    (condition.match? isWildcard fact).isSome = true ↔ Satisfies isWildcard condition fact := by
  induction condition using Condition.induction generalizing fact with
  | onLeaf condition leaf => exact isSome_match?_leaf_iff leaf
  | onGroup name conditions ih =>
    have met : ∀ condition ∈ conditions, ∀ facts,
        Met isWildcard condition facts ↔ SatisfiedBySome isWildcard condition facts := by
      intro condition member facts
      constructor
      · rintro ⟨fact, listed, matched⟩
        exact .intro listed ((ih condition member).mp matched)
      · rintro ⟨listed, satisfied⟩
        exact ⟨_, listed, (ih condition member).mpr satisfied⟩
    cases fact with
    | leaf id found value =>
      constructor
      · intro matched
        simp [match?] at matched
      · intro satisfied
        cases satisfied
    | group found children =>
      rw [match?, satisfies_group_iff]
      by_cases same : found = name
      · rw [if_pos same, isSome_matchAll?]
        simp only [same, true_and]
        exact forall₂_congr fun condition member => met condition member children
      · simp [same]

/-! ## What it binds -/

theorem not_satisfies_iff :
    ¬ Satisfies isWildcard condition fact ↔ condition.match? isWildcard fact = none := by
  rw [← isSome_match?_iff, Option.not_isSome_iff_eq_none]

/-- A leaf that matches binds itself. -/
theorem eq_of_match?_leaf {id : FactId} {name : String} {value : Memory.Value}
    (matched : condition.match? isWildcard (.leaf id name value) = some bound) : bound = [id] := by
  cases leaf : condition.isGroup with
  | true =>
    cases condition with
    | group => cases matched
    | int | float | string => cases leaf
  | false =>
    rw [match?_leaf leaf, Option.ite_none_right_eq_some] at matched
    exact (Option.some.inj matched.2).symm

/-- The first fact that matches is the first one that satisfies the condition. -/
theorem findSome?_eq_some_iff
    (each : ∀ fact bound, condition.match? isWildcard fact = some bound ↔
      Binds isWildcard condition fact bound) :
    facts.findSome? (condition.match? isWildcard) = some bound ↔
      ∃ before fact after, facts = before ++ fact :: after ∧
        (∀ earlier ∈ before, ¬ Satisfies isWildcard condition earlier) ∧
        Binds isWildcard condition fact bound := by
  rw [List.findSome?_eq_some_iff]
  constructor
  · rintro ⟨before, fact, after, split, found, none⟩
    exact ⟨before, fact, after, split,
      fun earlier member => not_satisfies_iff.mpr (none earlier member), (each fact bound).mp found⟩
  · rintro ⟨before, fact, after, split, none, binds⟩
    exact ⟨before, fact, after, split, (each fact bound).mpr binds,
      fun earlier member => not_satisfies_iff.mp (none earlier member)⟩

theorem matchAll?_eq_some_iff
    (each : ∀ condition ∈ conditions, ∀ fact bound, condition.match? isWildcard fact = some bound ↔
      Binds isWildcard condition fact bound) :
    matchAll? isWildcard conditions facts = some bound ↔
      BindsAll isWildcard conditions facts bound := by
  induction conditions generalizing bound with
  | nil =>
    constructor
    · intro found
      cases found
      exact .nil
    · intro binds
      cases binds
      rfl
  | cons condition rest ih =>
    have later : ∀ bound, matchAll? isWildcard rest facts = some bound ↔
        BindsAll isWildcard rest facts bound := fun bound =>
      ih fun condition member => each condition (List.mem_cons_of_mem _ member)
    rw [matchAll?]
    constructor
    · intro found
      split at found
      · next here others foundHere foundOthers =>
        cases found
        obtain ⟨before, fact, after, split, none, binds⟩ :=
          (findSome?_eq_some_iff (each condition List.mem_cons_self)).mp foundHere
        exact .cons split none binds ((later others).mp foundOthers)
      · cases found
    · intro binds
      cases binds with
      | @cons _ _ _ before after fact here others split none bindsHere bindsOthers =>
        have first : facts.findSome? (condition.match? isWildcard) = some here :=
          (findSome?_eq_some_iff (each condition List.mem_cons_self)).mpr
            ⟨before, fact, after, split, none, bindsHere⟩
        rw [first, (later others).mpr bindsOthers]

/-- A match binds what the meaning of the condition says, and nothing else. -/
theorem match?_eq_some_iff :
    condition.match? isWildcard fact = some bound ↔ Binds isWildcard condition fact bound := by
  induction condition using Condition.induction generalizing fact bound with
  | onLeaf condition leaf =>
    constructor
    · intro found
      have satisfied := isSome_match?_iff.mp (Option.isSome_of_mem found)
      cases fact with
      | leaf id name value =>
        rw [eq_of_match?_leaf found]
        exact .leaf satisfied
      | group name children =>
        cases satisfied
        cases leaf
    · intro binds
      cases binds with
      | leaf satisfied =>
        obtain ⟨bound, found⟩ := Option.isSome_iff_exists.mp (isSome_match?_iff.mpr satisfied)
        rw [found, eq_of_match?_leaf found]
      | group => cases leaf
  | onGroup name conditions ih =>
    have all : ∀ children bound, matchAll? isWildcard conditions children = some bound ↔
        BindsAll isWildcard conditions children bound := fun children bound =>
      matchAll?_eq_some_iff fun condition member _ _ => ih condition member
    constructor
    · intro found
      cases fact with
      | leaf id name value => cases found
      | group found' children =>
        rw [match?, Option.ite_none_right_eq_some] at found
        obtain ⟨rfl, found⟩ := found
        exact .group ((all children bound).mp found)
    · intro binds
      cases binds with
      | leaf satisfied => cases satisfied
      | group binds =>
        rw [match?, if_pos rfl]
        exact (all _ bound).mpr binds

/-! ## Where the bound facts come from -/

/-- The identifiers are those of leaves inside the fact, and each leaf satisfies
the condition at the same place of the list. -/
def FoundInside (isWildcard : String → Bool) (fact : Fact) (leaves : List Condition)
    (bound : Bindings) : Prop :=
  List.Forall₂ (fun condition id => ∃ leaf : Fact, leaf.Inside fact ∧ leaf.id? = some id ∧
    Satisfies isWildcard condition leaf) leaves bound

theorem FoundInside.group {name : String} {child : Fact} {children : List Fact}
    {leaves : List Condition} (member : child ∈ children)
    (found : FoundInside isWildcard child leaves bound) :
    FoundInside isWildcard (.group name children) leaves bound :=
  found.imp fun _ _ ⟨leaf, inside, named, satisfied⟩ =>
    ⟨leaf, .child member inside, named, satisfied⟩

theorem foundInside_all {name : String} {children : List Fact}
    (each : ∀ condition ∈ conditions, ∀ fact bound, Binds isWildcard condition fact bound →
      FoundInside isWildcard fact condition.leaves bound)
    (binds : BindsAll isWildcard conditions children bound) :
    FoundInside isWildcard (.group name children) (leavesAll conditions) bound := by
  induction conditions generalizing bound with
  | nil =>
    cases binds
    exact .nil
  | cons condition rest ih =>
    cases binds with
    | @cons _ _ _ before after fact first others split none binds later =>
      have member : fact ∈ children := split ▸ List.mem_append_right _ List.mem_cons_self
      exact List.rel_append ((each condition List.mem_cons_self _ _ binds).group member)
        (ih (fun condition member => each condition (List.mem_cons_of_mem _ member)) later)

/-- Every leaf of the condition is bound to a leaf inside the fact. -/
theorem foundInside_of_binds (binds : Binds isWildcard condition fact bound) :
    FoundInside isWildcard fact condition.leaves bound := by
  induction condition using Condition.induction generalizing fact bound with
  | onLeaf condition leaf =>
    rw [leaves_of_not_isGroup leaf]
    cases binds with
    | leaf satisfied => exact .cons ⟨_, .self, rfl, satisfied⟩ .nil
    | group => cases leaf
  | onGroup name conditions ih =>
    cases binds with
    | leaf satisfied => cases satisfied
    | group binds =>
      exact foundInside_all (fun condition member fact bound => ih condition member) binds

/-! ## Collecting is matching and appending -/

/-- The outcome of a test: what was found is appended, and nothing changes when
nothing was. -/
def appendFound (bindings : Bindings) : Option Bindings → Bool × Bindings
  | some found => (true, bindings ++ found)
  | none => (false, bindings)

theorem appendFound_ite (p : Prop) [Decidable p] (found bindings : Bindings) :
    appendFound bindings (if p then some found else none) =
      if p then (true, bindings ++ found) else (false, bindings) := by
  split <;> rfl

theorem testAny_eq {attempt : Fact → Bindings → Bool × Bindings} {find : Fact → Option Bindings}
    (each : ∀ fact bindings, attempt fact bindings = appendFound bindings (find fact))
    (facts : List Fact) (bindings : Bindings) :
    testAny attempt facts bindings = appendFound bindings (facts.findSome? find) := by
  induction facts with
  | nil => rfl
  | cons fact rest ih =>
    rw [testAny, each, List.findSome?_cons]
    cases find fact with
    | none => exact ih
    | some found => rfl

/-- The children of a group: what is collected when one of them fails does not count. -/
theorem testAll_eq
    (each : ∀ condition ∈ conditions, ∀ fact bindings, condition.test isWildcard fact bindings =
      appendFound bindings (condition.match? isWildcard fact)) (facts : List Fact)
    (collected : Bindings) :
    (∀ found, matchAll? isWildcard conditions facts = some found →
      testAll isWildcard conditions facts collected = (true, collected ++ found)) ∧
    (matchAll? isWildcard conditions facts = none →
      (testAll isWildcard conditions facts collected).1 = false) := by
  induction conditions generalizing collected with
  | nil =>
    constructor
    · intro found same
      cases same
      rw [testAll, List.append_nil]
    · intro none
      cases none
  | cons condition rest ih =>
    have first := testAny_eq (each condition List.mem_cons_self) facts collected
    have later := ih fun condition member => each condition (List.mem_cons_of_mem _ member)
    rw [matchAll?, testAll, first]
    cases facts.findSome? (condition.match? isWildcard) with
    | none =>
      refine ⟨?_, fun _ => rfl⟩
      rintro _ ⟨⟩
    | some here =>
      obtain ⟨passes, fails⟩ := later (collected ++ here)
      cases others : matchAll? isWildcard rest facts with
      | none =>
        refine ⟨?_, fun _ => fails others⟩
        rintro _ ⟨⟩
      | some found =>
        constructor
        · rintro _ ⟨⟩
          rw [← List.append_assoc]
          exact passes found others
        · rintro ⟨⟩

theorem testLeaf_eq (leaf : condition.isGroup = false) (fact : Fact) (bindings : Bindings) :
    testLeaf isWildcard condition fact bindings =
      appendFound bindings (condition.match? isWildcard fact) := by
  cases fact with
  | leaf id found value =>
    rw [match?_leaf leaf]
    exact (appendFound_ite _ _ _).symm
  | group name children =>
    cases condition with
    | group => cases leaf
    | int | float | string => rfl

/-- Collecting bindings is matching and appending what the match binds. -/
theorem test_eq (fact : Fact) (bindings : Bindings) :
    condition.test isWildcard fact bindings =
      appendFound bindings (condition.match? isWildcard fact) := by
  induction condition using Condition.induction generalizing fact bindings with
  | onLeaf condition leaf =>
    rw [← testLeaf_eq leaf]
    cases condition with
    | group => cases leaf
    | int | float | string => cases fact <;> rfl
  | onGroup name conditions ih =>
    cases fact with
    | leaf id found value => rfl
    | group found children =>
      rw [test, match?]
      by_cases same : found = name
      · rw [if_pos same, if_pos same]
        obtain ⟨passes, fails⟩ := testAll_eq ih children []
        cases all : matchAll? isWildcard conditions children with
        | some bound =>
          rw [passes bound all]
          rfl
        | none =>
          have failed := fails all
          split
          · next collected passed =>
            rw [passed] at failed
            cases failed
          · rfl
      · rw [if_neg same, if_neg same]
        rfl

/-- A condition is tested as its meaning says, whatever was collected before: a
fact that satisfies it adds what it binds, one leaf inside the fact for every
leaf of the condition in document order, and any other fact adds nothing. -/
theorem test_decides (isWildcard : String → Bool) (condition : Condition) (fact : Fact) :
    (Satisfies isWildcard condition fact ∧
      ∃ bound, Binds isWildcard condition fact bound ∧
        (∀ other, Binds isWildcard condition fact other → other = bound) ∧
        FoundInside isWildcard fact condition.leaves bound ∧
        ∀ bindings, condition.test isWildcard fact bindings = (true, bindings ++ bound)) ∨
    (¬ Satisfies isWildcard condition fact ∧
      ∀ bindings, condition.test isWildcard fact bindings = (false, bindings)) := by
  cases found : condition.match? isWildcard fact with
  | none =>
    refine .inr ⟨not_satisfies_iff.mpr found, fun bindings => ?_⟩
    rw [test_eq, found]
    rfl
  | some bound =>
    have binds := match?_eq_some_iff.mp found
    refine .inl ⟨isSome_match?_iff.mp (Option.isSome_of_mem found), bound, binds, ?_,
      foundInside_of_binds binds, fun bindings => ?_⟩
    · intro other binds'
      have found' := match?_eq_some_iff.mpr binds'
      exact Option.some.inj (found'.symm.trans found)
    · rw [test_eq, found]
      rfl

end RuleNet.Rule.Condition

import Mathlib.Logic.Relation
import RuleNet.Rule.Matching

/-!
# Conditions and changed facts

Whether a group matches a condition depends only on which child conditions are
met by its children, not on which child meets them first. So a change among the
children of a group (`Anywhere`) shows at the group as far as it shows in what
the children meet.

* `isSome_match?_group`: when a condition matches a group.
* `Met.enlarged`: inserting facts leaves every condition met.
* `matchCount_rearranged`: the order of the facts does not change how many of
  them match.
-/

namespace RuleNet.Memory

/-! ## Changes -/

/-- One change of the given kind, at the top level or among the children of a
group at any depth. -/
inductive Anywhere (Change : List Fact → List Fact → Prop) : List Fact → List Fact → Prop
  | here {facts changed : List Fact} : Change facts changed → Anywhere Change facts changed
  | inside {children changed : List Fact} (before after : List Fact) (name : String) :
      Anywhere Change children changed →
      Anywhere Change (before ++ .group name children :: after)
        (before ++ .group name changed :: after)

/-- The second list is the first one with facts inserted, at the top level and
among the children of groups at any depth. -/
abbrev Enlarged : List Fact → List Fact → Prop :=
  Relation.ReflTransGen (Anywhere List.Sublist)

/-- The second list is the first one with the facts in another order, at the top
level and among the children of groups at any depth. -/
abbrev Rearranged : List Fact → List Fact → Prop :=
  Relation.ReflTransGen (Anywhere List.Perm)

end RuleNet.Memory

namespace RuleNet.Rule.Condition

open Memory (Anywhere Enlarged Fact Rearranged)

variable {isWildcard : String → Bool} {condition : Condition}

/-! ## Groups -/

/-- Some fact of the list matches the condition. -/
def Met (isWildcard : String → Bool) (condition : Condition) (facts : List Fact) : Prop :=
  ∃ fact ∈ facts, (condition.match? isWildcard fact).isSome = true

/-- Conditions are matched together when each of them is met. -/
theorem isSome_matchAll? {conditions : List Condition} {facts : List Fact} :
    (matchAll? isWildcard conditions facts).isSome = true ↔
      ∀ condition ∈ conditions, Met isWildcard condition facts := by
  induction conditions with
  | nil => simp [matchAll?]
  | cons first rest ih =>
    have met : (facts.findSome? (first.match? isWildcard)).isSome = true ↔
        Met isWildcard first facts := List.findSome?_isSome_iff
    rw [List.forall_mem_cons, ← ih, ← met, matchAll?]
    cases facts.findSome? (first.match? isWildcard) with
    | none => simp
    | some bound => cases matchAll? isWildcard rest facts <;> simp

/-- A group is matched by a group condition of its name whose children are all met. -/
theorem isSome_match?_group {name : String} {children : List Fact} :
    (condition.match? isWildcard (.group name children)).isSome = true ↔
      ∃ conditions, condition = .group name conditions ∧
        ∀ child ∈ conditions, Met isWildcard child children := by
  cases condition with
  | group wanted conditions =>
    rw [match?]
    by_cases same : name = wanted
    · rw [if_pos same, isSome_matchAll?]
      simp [same]
    · rw [if_neg same]
      simp [Ne.symm same]
  | int => simp [match?]
  | float => simp [match?]
  | string => simp [match?]

/-- If the other children meet whatever these meet, the group with the other
children is matched by whatever the group with these is. -/
theorem isSome_match?_group_of_met {name : String} {children others : List Fact}
    (each : ∀ child, Met isWildcard child children → Met isWildcard child others)
    (matched : (condition.match? isWildcard (.group name children)).isSome = true) :
    (condition.match? isWildcard (.group name others)).isSome = true := by
  obtain ⟨conditions, same, met⟩ := isSome_match?_group.mp matched
  exact isSome_match?_group.mpr
    ⟨conditions, same, fun child member => each child (met child member)⟩

/-! ## Inserted facts -/

/-- Facts inserted anywhere leave every condition met. -/
theorem Met.anywhere {facts more : List Fact} (inserted : Anywhere List.Sublist facts more)
    (met : Met isWildcard condition facts) : Met isWildcard condition more := by
  -- Induction on how deep the change is; it serves all conditions at once.
  induction inserted generalizing condition with
  | here kept =>
    obtain ⟨fact, member, matched⟩ := met
    exact ⟨fact, kept.subset member, matched⟩
  | inside before after name _ ih =>
    obtain ⟨fact, member, matched⟩ := met
    rcases List.mem_append.mp member with front | back
    · exact ⟨fact, List.mem_append_left _ front, matched⟩
    rcases List.mem_cons.mp back with rfl | behind
    · exact ⟨_, List.mem_append_right _ List.mem_cons_self,
        isSome_match?_group_of_met (fun _ => ih) matched⟩
    · exact ⟨fact, List.mem_append_right _ (List.mem_cons_of_mem _ behind), matched⟩

theorem Met.enlarged {facts more : List Fact} (enlarged : Enlarged facts more)
    (met : Met isWildcard condition facts) : Met isWildcard condition more := by
  induction enlarged with
  | refl => exact met
  | tail _ inserted ih => exact ih.anywhere inserted

/-! ## Rearranged facts -/

/-- How many facts of the list match the condition. -/
def matchCount (isWildcard : String → Bool) (condition : Condition) (facts : List Fact) : Nat :=
  facts.countP fun fact => (condition.match? isWildcard fact).isSome

theorem met_iff_matchCount {facts : List Fact} :
    Met isWildcard condition facts ↔ 0 < matchCount isWildcard condition facts :=
  List.countP_pos_iff.symm

/-- Facts put into another order anywhere match as often. -/
theorem matchCount_anywhere {facts others : List Fact}
    (permuted : Anywhere List.Perm facts others) :
    matchCount isWildcard condition facts = matchCount isWildcard condition others := by
  induction permuted generalizing condition with
  | here same => exact same.countP_eq _
  | @inside children others before after name _ ih =>
    have met : ∀ child, Met isWildcard child children ↔ Met isWildcard child others := by
      intro child
      rw [met_iff_matchCount, met_iff_matchCount, ih]
    have group : (condition.match? isWildcard (.group name children)).isSome =
        (condition.match? isWildcard (.group name others)).isSome :=
      Bool.eq_iff_iff.mpr ⟨isSome_match?_group_of_met fun child => (met child).mp,
        isSome_match?_group_of_met fun child => (met child).mpr⟩
    rw [matchCount, matchCount, List.countP_append, List.countP_append, List.countP_cons,
      List.countP_cons, group]

theorem matchCount_rearranged {facts others : List Fact} (rearranged : Rearranged facts others) :
    matchCount isWildcard condition facts = matchCount isWildcard condition others := by
  induction rearranged with
  | refl => rfl
  | tail _ permuted ih => rw [ih, matchCount_anywhere permuted]

end RuleNet.Rule.Condition

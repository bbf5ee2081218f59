import RuleNet.Memory.Load

/-!
# The identifiers that come into use

An identifier comes into use in two ways: the allocator hands it out, or it
comes from outside and is adopted. `Attempt.uses` lists what an attempt brings
into use, in order, whether it succeeds or fails, and `Steps` is the run of the
allocator that goes with it.

The counter of the allocator stands past every identifier in use as long as it
has *room*: adopting the last identifier leaves it where it is, and after the
last one it starts again at zero.

* `Attempt.steps_uses`: an attempt moves the allocator by its uses, one by one.
* `Step.behind`, `Steps.unused`: with room, one use keeps the counter past all
  identifiers in use, so a run hands out unused ones only.
* `calls_allocate_unused`: the same for any calls from the start.
* `last_adopted_allocated`: without room an adopted identifier is handed out.
-/

namespace RuleNet.Memory

/-! ## Uses -/

/-- How an identifier comes into use. -/
inductive Use where
  /-- The allocator hands it out. -/
  | allocated (id : FactId)
  /-- It comes from outside. -/
  | adopted (id : FactId)
deriving DecidableEq, Repr

namespace Use

def id : Use → FactId
  | allocated id => id
  | adopted id => id

def isAllocation : Use → Bool
  | allocated _ => true
  | adopted _ => false

def adopted? : Use → Option FactId
  | allocated _ => none
  | adopted id => some id

end Use

/-- How many identifiers are handed out. -/
def allocations (uses : List Use) : Nat := uses.countP Use.isAllocation

/-- The identifiers that come from outside, in order. -/
def adoptions (uses : List Use) : List FactId := uses.filterMap Use.adopted?

@[simp] theorem allocations_allocated (id : FactId) (uses : List Use) :
    allocations (.allocated id :: uses) = allocations uses + 1 :=
  List.countP_cons_of_pos rfl

@[simp] theorem allocations_adopted (id : FactId) (uses : List Use) :
    allocations (.adopted id :: uses) = allocations uses :=
  List.countP_cons_of_neg Bool.false_ne_true

theorem adoptions_append (uses more : List Use) :
    adoptions (uses ++ more) = adoptions uses ++ adoptions more :=
  List.filterMap_append

/-- What an attempt brings into use when it is carried out on an allocator. -/
def Attempt.uses : {α : Type} → Attempt α → Allocator → List Use
  | _, succeed _, _ => []
  | _, fail, _ => []
  | _, fresh, allocator => [.allocated allocator.fresh.1]
  | _, reserve id, _ => [.adopted id]
  | _, andThen first next, allocator =>
      match first.run allocator with
      | (some a, allocator') => first.uses allocator ++ (next a).uses allocator'
      | (none, _) => first.uses allocator
  | _, orElse first second, allocator =>
      match first.run allocator with
      | (some _, _) => first.uses allocator
      | (none, allocator') => first.uses allocator ++ second.uses allocator'

/-! ## Runs of the allocator -/

namespace Allocator

/-- One use and the allocator before and after it. -/
inductive Step : Allocator → Use → Allocator → Prop
  | allocate (allocator : Allocator) :
      Step allocator (.allocated allocator.fresh.1) allocator.fresh.2
  | adopt (allocator : Allocator) (id : FactId) :
      Step allocator (.adopted id) (allocator.reserve id)

/-- Several uses, one after the other. -/
inductive Steps : Allocator → List Use → Allocator → Prop
  | nil {a : Allocator} : Steps a [] a
  | cons {a b c : Allocator} {use : Use} {uses : List Use} :
      Step a use b → Steps b uses c → Steps a (use :: uses) c

theorem Step.single {a b : Allocator} {use : Use} (step : Step a use b) : Steps a [use] b :=
  .cons step .nil

theorem Steps.append {a b c : Allocator} {uses more : List Use} (first : Steps a uses b)
    (second : Steps b more c) : Steps a (uses ++ more) c := by
  induction first with
  | nil => exact second
  | cons step _ ih => exact .cons step (ih second)

end Allocator

open Allocator (Step Steps)

/-- An attempt moves the allocator by its uses. -/
theorem Attempt.steps_uses {α : Type} (attempt : Attempt α) (allocator : Allocator) :
    Steps allocator (attempt.uses allocator) (attempt.run allocator).2 := by
  induction attempt generalizing allocator with
  | succeed a => exact .nil
  | fail => exact .nil
  | fresh => exact (Step.allocate allocator).single
  | reserve id => exact (Step.adopt allocator id).single
  | andThen first next ihFirst ihNext =>
    have begun := ihFirst allocator
    rcases made : first.run allocator with ⟨_ | a, after⟩ <;>
      simp only [uses, run, made] at begun ⊢
    · exact begun
    · exact begun.append (ihNext a after)
  | orElse first second ihFirst ihSecond =>
    have begun := ihFirst allocator
    rcases made : first.run allocator with ⟨_ | a, after⟩ <;>
      simp only [uses, run, made] at begun ⊢
    · exact begun.append (ihSecond after)
    · exact begun

/-! ## The counter -/

namespace Allocator

theorem toNat_next_fresh {allocator : Allocator}
    (room : allocator.next.toNat + 1 < UInt64.size) :
    allocator.fresh.2.next.toNat = allocator.next.toNat + 1 := by
  show (allocator.next + 1).toNat = _
  rw [UInt64.toNat_add]
  exact Nat.mod_eq_of_lt room

/-- Reserving moves the counter past an identifier that is not the last one. -/
theorem toNat_next_reserve (allocator : Allocator) {id : FactId}
    (room : id.toNat + 1 < UInt64.size) :
    (allocator.reserve id).next.toNat = max allocator.next.toNat (id.toNat + 1) := by
  have inner : id ≠ 0xFFFFFFFFFFFFFFFF := by
    rintro rfl
    exact absurd room (by decide)
  have past : (id + 1).toNat = id.toNat + 1 := by
    rw [UInt64.toNat_add]
    exact Nat.mod_eq_of_lt room
  simp only [reserve, if_neg inner]
  split
  · next before =>
    rw [UInt64.lt_iff_toNat_lt, past] at before
    rw [past, Nat.max_eq_right (Nat.le_of_lt before)]
  · next before =>
    rw [UInt64.lt_iff_toNat_lt, past, Nat.not_lt] at before
    rw [Nat.max_eq_left before]

theorem le_next_reserve (allocator : Allocator) (id : FactId) :
    allocator.next.toNat ≤ (allocator.reserve id).next.toNat := by
  unfold reserve
  dsimp only
  generalize (if id = 0xFFFFFFFFFFFFFFFF then id else id + 1) = past
  split
  · next before => exact Nat.le_of_lt (UInt64.lt_iff_toNat_lt.mp before)
  · exact Nat.le_refl _

/-- The identifiers that are handed out after an adopted one all fit in between
it and the last one. -/
def Clear : List Use → Prop
  | [] => True
  | .allocated _ :: rest => Clear rest
  | .adopted id :: rest => id.toNat + allocations rest < UInt64.size ∧ Clear rest

/-- The identifiers do not run out. -/
structure Room (allocator : Allocator) (uses : List Use) : Prop where
  counter : allocator.next.toNat + allocations uses ≤ UInt64.size
  clear : Clear uses

/-- The counter stands past the identifiers in use, if any more are handed out. -/
def Behind (used : List FactId) (allocator : Allocator) (uses : List Use) : Prop :=
  0 < allocations uses → ∀ id ∈ used, id.toNat < allocator.next.toNat

variable {a b : Allocator} {use : Use} {uses : List Use}

theorem Step.room (step : Step a use b) (room : Room a (use :: uses)) : Room b uses := by
  obtain ⟨counter, clear⟩ := room
  cases step with
  | allocate =>
    rw [allocations_allocated] at counter
    refine ⟨?_, clear⟩
    rcases Nat.lt_or_ge (a.next.toNat + 1) UInt64.size with inside | last
    · rw [toNat_next_fresh inside]
      omega
    · -- The last identifier was handed out, and the counter starts again: none may follow.
      have bound := a.fresh.2.next.toNat_lt_size
      omega
  | adopt id =>
    rw [allocations_adopted] at counter
    obtain ⟨fits, clear⟩ := clear
    refine ⟨?_, clear⟩
    rcases Nat.eq_zero_or_pos (allocations uses) with none | some
    · have bound := (a.reserve id).next.toNat_lt_size
      omega
    · rw [toNat_next_reserve a (by omega)]
      omega

/-- One use keeps the counter past all identifiers in use. -/
theorem Step.behind {used : List FactId} (step : Step a use b) (room : Room a (use :: uses))
    (behind : Behind used a (use :: uses)) : Behind (use.id :: used) b uses := by
  intro more id member
  obtain ⟨counter, clear⟩ := room
  cases step with
  | allocate =>
    rw [allocations_allocated] at counter
    rw [toNat_next_fresh (by omega)]
    rcases List.mem_cons.mp member with rfl | earlier
    · exact Nat.lt_succ_self _
    · have before := behind (by rw [allocations_allocated]; omega) id earlier
      exact Nat.lt_succ_of_lt before
  | adopt =>
    have fits := clear.1
    rcases List.mem_cons.mp member with rfl | earlier
    · rw [toNat_next_reserve a (by omega)]
      exact Nat.lt_of_lt_of_le (Nat.lt_succ_self _) (Nat.le_max_right _ _)
    · have before := behind (by rw [allocations_adopted]; exact more) id earlier
      exact Nat.lt_of_lt_of_le before (le_next_reserve a _)

/-- With room, a run hands out identifiers that were not in use. -/
theorem Steps.unused {used : List FactId} (steps : Steps a uses b) (room : Room a uses)
    (behind : Behind used a uses) :
    (∀ id, .allocated id ∈ uses → id ∉ used) ∧
      uses.Pairwise fun early late => late.isAllocation → early.id ≠ late.id := by
  induction steps generalizing used with
  | nil => exact ⟨fun _ inside => absurd inside List.not_mem_nil, .nil⟩
  | @cons a b c use uses step _ ih =>
    obtain ⟨unused, apart⟩ := ih (step.room room) (step.behind room behind)
    constructor
    · intro id member inside
      rcases List.mem_cons.mp member with rfl | later
      · cases step
        have past := behind (by rw [allocations_allocated]; omega)
        exact Nat.lt_irrefl _ (past _ inside)
      · exact unused id later (List.mem_cons_of_mem _ inside)
    · refine List.pairwise_cons.mpr ⟨fun late later allocation same => ?_, apart⟩
      cases late with
      | allocated id => exact unused id later (List.mem_cons.mpr (.inl same.symm))
      | adopted id => exact Bool.false_ne_true allocation

end Allocator

/-! ## Calls -/

/-- A call that can bring identifiers into use. -/
inductive Call where
  /-- A fresh identifier is asked for. -/
  | next
  /-- An identifier is reserved. -/
  | reserve (id : FactId)
  /-- A leaf is made. -/
  | leaf (name : String) (value : Value)
  /-- A working memory is loaded, or fails to load. -/
  | load (text : String)

/-- What a call attempts. -/
def Call.attempt : Call → (α : Type) × Attempt α
  | next => ⟨_, .fresh⟩
  | reserve id => ⟨_, .reserve id⟩
  | leaf name value => ⟨_, Fact.newLeaf name value⟩
  | load text => ⟨_, WorkingMemory.load text⟩

/-- What calls bring into use, one call after the other. -/
def usesOf : Allocator → List Call → List Use
  | _, [] => []
  | allocator, call :: rest =>
      call.attempt.2.uses allocator ++ usesOf (call.attempt.2.run allocator).2 rest

theorem exists_steps_usesOf (calls : List Call) (allocator : Allocator) :
    ∃ after, Steps allocator (usesOf allocator calls) after := by
  induction calls generalizing allocator with
  | nil => exact ⟨allocator, .nil⟩
  | cons call rest ih =>
    obtain ⟨after, steps⟩ := ih (call.attempt.2.run allocator).2
    exact ⟨after, (call.attempt.2.steps_uses allocator).append steps⟩

/-- From the start on, an identifier that is handed out was neither handed out
nor adopted before, provided that fewer than `2 ^ 64` are handed out, and that
those handed out after an adopted one fit in between it and the last one. -/
theorem calls_allocate_unused {calls : List Call}
    (few : allocations (usesOf {} calls) < UInt64.size)
    (clear : Allocator.Clear (usesOf {} calls)) {before after : List Use} {id : FactId}
    (split : usesOf {} calls = before ++ .allocated id :: after) : id ∉ before.map Use.id := by
  obtain ⟨last, steps⟩ := exists_steps_usesOf calls {}
  have room : Allocator.Room {} (usesOf {} calls) := by
    refine ⟨?_, clear⟩
    show 1 + allocations (usesOf {} calls) ≤ UInt64.size
    omega
  have behind : Allocator.Behind [] {} (usesOf {} calls) := fun _ _ inside => nomatch inside
  have apart := (steps.unused room behind).2
  rw [split, List.pairwise_append] at apart
  intro inside
  obtain ⟨early, member, same⟩ := List.mem_map.mp inside
  exact apart.2.2 early member (.allocated id) List.mem_cons_self rfl same

/-- An identifier that was read is not handed out, although the fact with it had no value. -/
theorem calls_allocate_unused_after_failure :
    let calls : List Call := [.next, .load "[[[7, \"axe\"]]]", .next]
    let before : List Use := [.allocated 1, .adopted 7]
    usesOf {} calls = before ++ .allocated 8 :: [] ∧ 8 ∉ before.map Use.id := by
  intro calls before
  have split : usesOf {} calls = before ++ .allocated 8 :: [] := by decide +kernel
  refine ⟨split, calls_allocate_unused ?_ ?_ split⟩
  · rw [split]
    decide
  · rw [split]
    exact ⟨by decide, trivial⟩

/-- Without room there is no such promise: the last identifier is adopted, and
the next one that is handed out is the same. -/
theorem last_adopted_allocated :
    let calls : List Call := [.reserve 0xFFFFFFFFFFFFFFFF, .next]
    allocations (usesOf {} calls) ≤ UInt32.size ∧ ∃ before id after,
      usesOf {} calls = before ++ .allocated id :: after ∧ id ∈ before.map Use.id := by
  intro calls
  refine ⟨by decide, [.adopted 0xFFFFFFFFFFFFFFFF], 0xFFFFFFFFFFFFFFFF, [], by decide, ?_⟩
  exact List.mem_singleton.mpr rfl

end RuleNet.Memory

import Mathlib.Data.List.Nodup
import RuleNet.Proofs.Memory.Allocation

/-!
# The identifiers of a loaded memory

A leaf has the identifier that is written with it, or one that is handed out
while the text is read. So the identifiers of the leaves, in document order, are
those that came into use on the way; missing are only identifiers that were
handed out for something that turned out to be a group.

Written identifiers that differ from each other do not make all of them differ:
a written one can be the same as one that was handed out to an earlier leaf.

* `Attempt.Names`: what is made has the identifiers that came into use.
* `names_decode`, `names_load`: this holds of a fact and of a memory.
* `loaded_ids_nodup_iff`: when all leaves have different identifiers.
* `handed_out_then_written`: two leaves with the same identifier.
-/

namespace RuleNet.Memory

open Allocator (Room Behind)

namespace Attempt

variable {α β : Type}

/-- What is made has the identifiers that were held before, and behind them
those that came into use on the way, but for some that were handed out. -/
def Names (held : List FactId) (attempt : Attempt α) (ids : α → List FactId) : Prop :=
  ∀ (allocator : Allocator) (a : α), (attempt.run allocator).1 = some a →
    ∃ kept, kept.Sublist (attempt.uses allocator) ∧
      adoptions kept = adoptions (attempt.uses allocator) ∧ ids a = held ++ kept.map Use.id

/-- Nothing is adopted. -/
def Quiet (attempt : Attempt α) : Prop :=
  ∀ allocator : Allocator, adoptions (attempt.uses allocator) = []

/-! ## Steps of an attempt -/

theorem run_andThen_eq_some {first : Attempt α} {next : α → Attempt β} {allocator : Allocator}
    {b : β} (made : ((first.andThen next).run allocator).1 = some b) :
    ∃ a after, first.run allocator = (some a, after) ∧ ((next a).run after).1 = some b := by
  rcases begun : first.run allocator with ⟨_ | a, after⟩ <;> simp only [run, begun] at made
  · cases made
  · exact ⟨a, after, rfl, made⟩

variable {held : List FactId} {ids : α → List FactId}

theorem Names.succeed {a : α} (same : ids a = held) : (succeed a).Names held ids := by
  intro allocator b made
  cases made
  exact ⟨[], List.Sublist.slnil, rfl, by rw [same, List.map_nil, List.append_nil]⟩

theorem Names.fail : (fail : Attempt α).Names held ids := by
  intro allocator b made
  cases made

theorem Names.fresh : Attempt.fresh.Names held fun id => held ++ [id] := by
  intro allocator id made
  cases made
  exact ⟨_, List.Sublist.refl _, rfl, rfl⟩

theorem Names.reserve (id : FactId) : (Attempt.reserve id).Names held fun id => held ++ [id] := by
  intro allocator id made
  cases made
  exact ⟨_, List.Sublist.refl _, rfl, rfl⟩

theorem Names.ofOption (value : Option α) : (ofOption value).Names held fun _ => held := by
  cases value with
  | none => exact Names.fail
  | some a => exact Names.succeed rfl

theorem Names.andThen {first : Attempt α} {next : α → Attempt β} {ids' : β → List FactId}
    (begun : first.Names held ids) (rest : ∀ a, (next a).Names (ids a) ids') :
    (first.andThen next).Names held ids' := by
  intro allocator b made
  obtain ⟨a, after, run, made⟩ := run_andThen_eq_some made
  obtain ⟨kept, part, adopted, same⟩ := begun allocator a (congrArg Prod.fst run)
  obtain ⟨kept', part', adopted', same'⟩ := rest a after b made
  simp only [uses, run]
  refine ⟨kept ++ kept', part.append part', ?_, ?_⟩
  · rw [adoptions_append, adoptions_append, adopted, adopted']
  · rw [same', same, List.map_append, List.append_assoc]

/-- The alternative counts where the first attempt fails, which then must not
have adopted an identifier. -/
theorem Names.orElse {first second : Attempt α} (one : first.Names held ids)
    (other : second.Names held ids)
    (quiet : ∀ allocator a, (second.run allocator).1 = some a → first.Quiet) :
    (first.orElse second).Names held ids := by
  intro allocator a made
  rcases begun : first.run allocator with ⟨_ | a', after⟩ <;>
    simp only [Attempt.run, uses, begun] at made ⊢
  · obtain ⟨kept, part, adopted, same⟩ := other after a made
    refine ⟨kept, part.trans (List.sublist_append_right _ _), ?_, same⟩
    rw [adoptions_append, quiet after a made allocator, adopted, List.nil_append]
  · cases made
    exact one allocator a (congrArg Prod.fst begun)

theorem Names.frame {attempt : Attempt α} (names : attempt.Names [] ids) :
    attempt.Names held fun a => held ++ ids a := by
  intro allocator a made
  obtain ⟨kept, part, adopted, same⟩ := names allocator a made
  exact ⟨kept, part, adopted, congrArg (held ++ ·) same⟩

theorem Quiet.andThen {first : Attempt α} {next : α → Attempt β} (begun : first.Quiet)
    (rest : ∀ a, (next a).Quiet) : (first.andThen next).Quiet := by
  intro allocator
  have nothing := begun allocator
  rcases run : first.run allocator with ⟨_ | a, after⟩ <;> simp only [uses, run]
  · exact nothing
  · rw [adoptions_append, nothing, rest a after, List.nil_append]

theorem Quiet.ofOption (value : Option α) : (ofOption value).Quiet := by
  intro allocator
  cases value <;> rfl

end Attempt

open Attempt (Names Quiet)

/-! ## Leaves -/

theorem names_decodeId (value : Json.Value) : (decodeId value).Names [] fun id => [id] := by
  unfold decodeId
  split
  · split
    · exact Names.reserve _
    · exact Names.fail
  · exact Names.fail

theorem names_finish (parts : LeafParts) : parts.finish.Names parts.id.toList Fact.ids := by
  have named (id : FactId) : Names [id] (do
      let name ← Attempt.ofOption parts.name
      let value ← Attempt.ofOption parts.value
      return Fact.leaf id name value) Fact.ids :=
    Names.andThen (Names.ofOption _) fun _ =>
      Names.andThen (Names.ofOption _) fun _ => Names.succeed rfl
  rcases parts with ⟨_ | id, name, value⟩
  · exact Names.andThen Names.fresh named
  · have held : (Attempt.succeed id).Names [id] fun id => [id] := Names.succeed rfl
    exact held.andThen named

theorem names_read (parts : LeafParts) (key : String) (member : Json.Value) :
    (parts.read key member).Names parts.id.toList fun parts => parts.id.toList := by
  unfold LeafParts.read
  split
  · cases none : parts.id with
    | some id => exact Names.fail
    | none => exact Names.andThen (names_decodeId member) fun id => Names.succeed rfl
  split
  · split
    · exact Names.fail
    · exact Names.andThen (Names.ofOption _) fun name => Names.succeed rfl
  split
  · split
    · exact Names.fail
    · exact Names.andThen (Names.ofOption _) fun value => Names.succeed rfl
  · exact Names.fail

theorem names_decodeLeafMembers (members : List (String × Json.Value)) (parts : LeafParts) :
    (decodeLeafMembers parts members).Names parts.id.toList Fact.ids := by
  induction members generalizing parts with
  | nil => exact names_finish parts
  | cons member rest ih => exact Names.andThen (names_read parts _ _) ih

theorem names_decodeLeafItems (items : List Json.Value) :
    (decodeLeafItems items).Names [] Fact.ids := by
  unfold decodeLeafItems
  split
  · exact Names.andThen Names.fresh fun _ => Names.fail
  · refine Names.andThen (names_decodeId _) fun id => ?_
    split
    · exact Names.andThen (Names.ofOption _) fun name =>
        Names.andThen (Names.ofOption _) fun value => Names.succeed rfl
    · exact Names.fail

theorem names_decodeLeaf (value : Json.Value) : (decodeLeaf value).Names [] Fact.ids := by
  unfold decodeLeaf
  split
  · exact names_decodeLeafMembers _ {}
  · exact names_decodeLeafItems _
  · exact Names.fail

/-! ## What is no group -/

theorem quiet_read {key : String} (other : key ≠ "id") (parts : LeafParts) (member : Json.Value) :
    (parts.read key member).Quiet := by
  unfold LeafParts.read
  rw [if_neg other]
  split
  · split
    · exact fun _ => rfl
    · exact Quiet.andThen (Quiet.ofOption _) fun _ _ => rfl
  split
  · split
    · exact fun _ => rfl
    · exact Quiet.andThen (Quiet.ofOption _) fun _ _ => rfl
  · exact fun _ => rfl

theorem quiet_decodeLeafMembers {members : List (String × Json.Value)}
    (others : ∀ member ∈ members, member.1 ≠ "id") (parts : LeafParts) :
    (decodeLeafMembers parts members).Quiet := by
  induction members generalizing parts with
  | nil =>
    have named (id : FactId) : Quiet (do
        let name ← Attempt.ofOption parts.name
        let value ← Attempt.ofOption parts.value
        return Fact.leaf id name value) :=
      Quiet.andThen (Quiet.ofOption _) fun _ => Quiet.andThen (Quiet.ofOption _) fun _ _ => rfl
    rcases parts with ⟨_ | id, name, value⟩
    · exact Quiet.andThen (fun _ => rfl) named
    · exact Quiet.andThen (fun _ => rfl) named
  | cons member rest ih =>
    have first := others member List.mem_cons_self
    exact Quiet.andThen (quiet_read first parts _)
      (ih fun member later => others member (List.mem_cons_of_mem _ later))

/-- A group has no member with an identifier. -/
theorem ne_id_of_decodeGroupMembers {members : List (String × Json.Value)} {name : Option String}
    {children : Option (List Fact)} {allocator : Allocator} {fact : Fact}
    (made : ((decodeGroupMembers name children members).run allocator).1 = some fact) :
    ∀ member ∈ members, member.1 ≠ "id" := by
  induction members generalizing name children allocator with
  | nil => exact fun _ inside => absurd inside List.not_mem_nil
  | cons member rest ih =>
    obtain ⟨key, value⟩ := member
    unfold decodeGroupMembers at made
    have later : key ≠ "id" → (∀ member ∈ rest, member.1 ≠ "id") →
        ∀ member ∈ (key, value) :: rest, member.1 ≠ "id" := by
      intro here there member inside
      rcases List.mem_cons.mp inside with rfl | inside
      · exact here
      · exact there member inside
    split at made
    · next named =>
      split at made
      · exact later (by rw [named]; decide) (ih made)
      · cases made
    split at made
    · next named =>
      split at made
      · obtain ⟨facts, after, -, made⟩ := Attempt.run_andThen_eq_some made
        exact later (by rw [named]; decide) (ih made)
      · cases made
    · cases made

/-! ## One step of reading a fact -/

/-- An object is a leaf or else a group, and then no leaf has read an identifier. -/
theorem names_object {members : List (String × Json.Value)}
    (group : (decodeGroupMembers none none members).Names [] Fact.ids) :
    (decodeFact (.object members)).Names [] Fact.ids := by
  rw [decodeFact]
  refine Names.orElse (names_decodeLeaf _) group fun _ _ made => ?_
  exact quiet_decodeLeafMembers (ne_id_of_decodeGroupMembers made) {}

/-- An array with a name alone is a group without children. -/
theorem names_nameAlone (name : String) :
    (decodeFact (.array [.string name])).Names [] Fact.ids := by
  rw [decodeFact]
  exact Names.orElse (names_decodeLeaf _) (Names.succeed rfl) fun _ _ _ _ => rfl

/-- An array with a name and a list is a group with these children, if it ends there. -/
theorem names_nameAndChildren {name : String} {children rest : List Json.Value}
    (facts : (decodeFacts children).Names [] Fact.idsIn) :
    (decodeFact (.array (.string name :: .array children :: rest))).Names [] Fact.ids := by
  rw [decodeFact]
  refine Names.orElse (names_decodeLeaf _) ?_ fun _ _ _ _ => rfl
  refine Names.andThen facts fun facts => ?_
  split
  · exact Names.succeed rfl
  · exact Names.fail

theorem names_item {item : Json.Value} {rest : List Json.Value}
    (fact : (decodeFact item).Names [] Fact.ids) (facts : (decodeFacts rest).Names [] Fact.idsIn) :
    (decodeFacts (item :: rest)).Names [] Fact.idsIn := by
  rw [decodeFacts]
  refine Names.andThen fact fun first => ?_
  have others : (decodeFacts rest).Names first.ids fun facts => first.ids ++ Fact.idsIn facts :=
    facts.frame
  exact others.andThen fun _ => Names.succeed rfl

section Members

variable {name : Option String} {children : Option (List Fact)} {member : Json.Value}
  {rest : List (String × Json.Value)}

/-- The member `name` of a group holds no identifier; a second one, or one that is no
string, is refused. -/
theorem names_nameMember
    (others : ∀ own, name = none → member = .string own →
      (decodeGroupMembers (some own) children rest).Names
        (Fact.idsIn (children.getD [])) Fact.ids) :
    (decodeGroupMembers name children (("name", member) :: rest)).Names
      (Fact.idsIn (children.getD [])) Fact.ids := by
  unfold decodeGroupMembers
  rw [if_pos rfl]
  split
  · exact others _ rfl rfl
  · exact Names.fail

/-- The member `children` of a group holds the identifiers of its facts; a second one, or
one that is no array, is refused. -/
theorem names_childrenMember
    (others : ∀ items, children = none → member = .array items →
      (decodeFacts items).Names [] Fact.idsIn ∧
        ∀ facts, (decodeGroupMembers name (some facts) rest).Names (Fact.idsIn facts) Fact.ids) :
    (decodeGroupMembers name children (("children", member) :: rest)).Names
      (Fact.idsIn (children.getD [])) Fact.ids := by
  unfold decodeGroupMembers
  rw [if_neg (by decide), if_pos rfl]
  split
  · obtain ⟨facts, behind⟩ := others _ rfl rfl
    exact Names.andThen facts behind
  · exact Names.fail

/-- No other member is accepted. -/
theorem names_otherMember {key : String} (noName : key ≠ "name") (noChildren : key ≠ "children") :
    (decodeGroupMembers name children ((key, member) :: rest)).Names
      (Fact.idsIn (children.getD [])) Fact.ids := by
  unfold decodeGroupMembers
  rw [if_neg noName, if_neg noChildren]
  exact Names.fail

end Members

/-! ## Facts -/

/-- A fact, several facts, and a group from where some members are read: by induction on
how they are read, with one case for every way to go on. -/
theorem names_decode :
    (∀ value, (decodeFact value).Names [] Fact.ids) ∧
    (∀ items, (decodeFacts items).Names [] Fact.idsIn) ∧
    ∀ name children members, (decodeGroupMembers name children members).Names
      (Fact.idsIn (children.getD [])) Fact.ids := by
  refine decodeFact.mutual_induct _ _ _ ?object ?nameAlone ?nameAndChildren ?leaf ?noItem ?item
    ?named ?nameless ?name ?nameRefused ?children ?childrenRefused ?otherMember
  -- A fact: what is no object and no array of these two shapes can only be a leaf.
  case object => exact fun members group => names_object group
  case nameAlone => exact names_nameAlone
  case nameAndChildren => exact fun name children rest facts => names_nameAndChildren facts
  case leaf =>
    intro other noObject noName noGroup
    rw [decodeFact.eq_4 other noObject noName noGroup]
    exact names_decodeLeaf other
  -- Several facts.
  case noItem => exact Names.succeed rfl
  case item => exact fun item rest fact facts => names_item fact facts
  -- A group whose members have all been read.
  case named => exact fun children name => Names.succeed rfl
  case nameless => exact fun children => Names.fail
  -- A group with a further member.
  case name =>
    intro children rest own others
    refine names_nameMember fun _ _ same => ?_
    cases same
    exact others
  case nameRefused =>
    intro name children member rest refused
    exact names_nameMember fun own none same => (refused own none same).elim
  case children =>
    intro name rest items _ facts others
    refine names_childrenMember fun _ _ same => ?_
    cases same
    exact ⟨facts, others⟩
  case childrenRefused =>
    intro name children member rest refused _
    exact names_childrenMember fun items none same => (refused items none same).elim
  case otherMember =>
    exact fun name children key member rest noName noChildren =>
      names_otherMember noName noChildren

/-! ## Documents -/

/-- The identifiers of the facts that were read, whatever text follows. -/
def readIds (read : List Fact × List Char) : List FactId := Fact.idsIn read.1

theorem names_readFacts (fuel : Nat) (text : List Char) :
    (readFacts fuel text).Names [] readIds := by
  induction fuel generalizing text with
  | zero => exact Names.fail
  | succ fuel ih =>
    refine Names.andThen (Names.ofOption _) fun (item, rest) => ?_
    refine Names.andThen (names_decode.1 item) fun fact => ?_
    split
    · next rest _ =>
      have others : (readFacts fuel rest).Names fact.ids fun read => fact.ids ++ readIds read :=
        (ih rest).frame
      exact others.andThen fun _ => Names.succeed rfl
    · refine Names.andThen (Names.ofOption _) fun rest => Names.succeed ?_
      exact List.append_nil _

theorem names_readFactList (text : List Char) : (readFactList text).Names [] readIds := by
  refine Names.andThen (Names.ofOption _) fun rest => ?_
  split
  · exact Names.succeed rfl
  · exact names_readFacts _ _

theorem names_readDocumentMember (facts : Option (List Fact)) (key : String) (text : List Char) :
    (readDocumentMember facts key text).Names (Fact.idsIn (facts.getD []))
      fun read => Fact.idsIn (read.1.getD []) := by
  unfold readDocumentMember
  split
  · cases facts with
    | some facts => exact Names.fail
    | none => exact Names.andThen (names_readFactList text) fun _ => Names.succeed rfl
  · exact Names.andThen (Names.ofOption _) fun _ => Names.succeed rfl

theorem names_readDocumentMembers (fuel : Nat) (facts : Option (List Fact)) (text : List Char) :
    (readDocumentMembers fuel facts text).Names (Fact.idsIn (facts.getD [])) readIds := by
  induction fuel generalizing facts text with
  | zero => exact Names.fail
  | succ fuel ih =>
    refine Names.andThen (Names.ofOption _) fun (key, rest) => ?_
    refine Names.andThen (names_readDocumentMember facts key rest) fun read => ?_
    obtain ⟨facts, rest⟩ := read
    dsimp only
    split
    · exact ih facts _
    · refine Names.andThen (Names.ofOption _) fun rest => ?_
      have known : (Attempt.ofOption facts).Names (Fact.idsIn (facts.getD [])) Fact.idsIn := by
        cases facts with
        | none => exact Names.fail
        | some facts => exact Names.succeed rfl
      exact known.andThen fun _ => Names.succeed rfl

/-- The leaves of a loaded memory have the identifiers that came into use while
it was loaded; those that were written are all there. -/
theorem names_load (text : String) :
    (WorkingMemory.load text).Names [] fun memory => Fact.idsIn memory.facts := by
  have document : (readDocument text.toList).Names [] readIds := by
    unfold readDocument
    split
    · exact names_readDocumentMembers _ none _
    · exact Names.andThen (names_readFactList _) fun _ =>
        Names.andThen (Names.ofOption _) fun _ => Names.succeed rfl
    · exact Names.fail
  refine Names.andThen document fun read => ?_
  obtain ⟨facts, rest⟩ := read
  dsimp only
  split
  · exact Names.succeed rfl
  · exact Names.fail

/-! ## When all identifiers differ -/

/-- With room, and if the adopted identifiers differ, two uses have the same
identifier only if it was handed out first and adopted later. -/
theorem nodup_ids_iff {kept : List Use}
    (apart : kept.Pairwise fun early late => late.isAllocation → early.id ≠ late.id)
    (distinct : (adoptions kept).Nodup) :
    (kept.map Use.id).Nodup ↔ ∀ id, ¬ [Use.allocated id, Use.adopted id].Sublist kept := by
  constructor
  · intro nodup id both
    exact List.nodup_iff_sublist.mp nodup id (both.map Use.id)
  · intro never
    refine List.pairwise_map.mpr (List.pairwise_iff_forall_sublist.mpr ?_)
    intro early late both same
    cases late with
    | allocated id => exact List.pairwise_iff_forall_sublist.mp apart both rfl same
    | adopted id =>
      cases early with
      | allocated other =>
        cases same
        exact never id both
      | adopted other =>
        cases same
        exact List.nodup_iff_sublist.mp distinct id (both.filterMap Use.adopted?)

/-- Let a text load, with room for the identifiers that are handed out and with
written identifiers that differ from each other. Then the leaves have different
identifiers exactly if none was first handed out to a leaf and is then written
with a later one. `kept` are the uses that the leaves stand for: all that came
from the text, and the identifiers handed out that were not in vain. -/
theorem loaded_ids_nodup_iff {text : String} {allocator : Allocator} {memory : WorkingMemory}
    (loaded : ((WorkingMemory.load text).run allocator).1 = some memory)
    (room : Room allocator ((WorkingMemory.load text).uses allocator))
    (distinct : (adoptions ((WorkingMemory.load text).uses allocator)).Nodup) :
    ∃ kept, kept.Sublist ((WorkingMemory.load text).uses allocator) ∧
      adoptions kept = adoptions ((WorkingMemory.load text).uses allocator) ∧
      Fact.idsIn memory.facts = kept.map Use.id ∧
      ((Fact.idsIn memory.facts).Nodup ↔
        ∀ id, ¬ [Use.allocated id, Use.adopted id].Sublist kept) := by
  obtain ⟨kept, part, adopted, same⟩ := names_load text allocator memory loaded
  have steps := (WorkingMemory.load text).steps_uses allocator
  have behind : Behind [] allocator ((WorkingMemory.load text).uses allocator) :=
    fun _ _ inside => absurd inside List.not_mem_nil
  have apart := (steps.unused room behind).2.sublist part
  replace same : Fact.idsIn memory.facts = kept.map Use.id := same
  refine ⟨kept, part, adopted, same, ?_⟩
  rw [same]
  exact nodup_ids_iff apart (adopted ▸ distinct)

/-- One identifier is written, one is handed out in vain for a group, and one
is handed out to a leaf. -/
theorem loaded_ids_nodup_iff_group :
    let text :=
      "[[[7, \"axe\", 1], \x7b\"name\": \"box\"\x7d, \x7b\"name\": \"bow\", \"value\": 2\x7d]]"
    ∃ memory, ((WorkingMemory.load text).run {}).1 = some memory ∧
      Fact.idsIn memory.facts = [7, 9] ∧ (Fact.idsIn memory.facts).Nodup := by
  intro text
  have uses : (WorkingMemory.load text).uses {} =
      [.adopted 7, .allocated 8, .allocated 9] := by decide +kernel
  have loaded : (((WorkingMemory.load text).run {}).1.map fun memory =>
      Fact.idsIn memory.facts) = some [7, 9] := by decide +kernel
  obtain ⟨memory, loaded, ids⟩ := Option.map_eq_some_iff.mp loaded
  have room : Room {} ((WorkingMemory.load text).uses {}) := by
    rw [uses]
    exact ⟨by decide, by decide, trivial⟩
  have distinct : (adoptions ((WorkingMemory.load text).uses {})).Nodup := by
    rw [uses]
    decide
  obtain ⟨kept, part, -, -, exactly⟩ := loaded_ids_nodup_iff loaded room distinct
  refine ⟨memory, loaded, ids, exactly.mpr fun id both => ?_⟩
  have late : [Use.adopted 7, .allocated 8, .allocated 9].Pairwise
      fun _ late => late.adopted? = none := by decide
  rw [uses] at part
  exact Option.some_ne_none id (List.pairwise_iff_forall_sublist.mp late (both.trans part))

/-- An identifier is handed out to the first leaf and is written with the
second one. It is the only written identifier, and both leaves have it. -/
theorem handed_out_then_written :
    let text := "\x7b\"facts\": [\x7b\"name\": \"axe\", \"value\": 1\x7d, " ++
      "\x7b\"id\": 1, \"name\": \"bow\", \"value\": 2\x7d]\x7d"
    (adoptions ((WorkingMemory.load text).uses {})).Nodup ∧
      ∃ memory, ((WorkingMemory.load text).run {}).1 = some memory ∧
        ¬ (Fact.idsIn memory.facts).Nodup := by
  intro text
  have loaded : (((WorkingMemory.load text).run {}).1.map fun memory =>
      Fact.idsIn memory.facts) = some [1, 1] := by decide +kernel
  obtain ⟨memory, loaded, ids⟩ := Option.map_eq_some_iff.mp loaded
  refine ⟨by decide +kernel, memory, loaded, ?_⟩
  rw [ids]
  decide

end RuleNet.Memory

import RuleNet.Proofs.Rule.Grammar

/-!
# Which elements are accepted as schemas of facts

An element with a declared type has to be a leaf of that type, and what is below
it does not matter; any other element is a group, and everything below it has
to be accepted too (`IsSchema`). What is refused is refused for the first element
in document order that something is wrong with.

The first fault of a list of parts (`FirstFault`) and the outcome of a check in
terms of it (`Verdict`) do not depend on what the parts are.

* `Verdict.all`: the verdict on several things that are checked one after the other.
* `verdict_schema`: a condition is defined by a schema, or refused for the first fault.
-/

namespace RuleNet.Rule

open Markup (Element)
open Condition (Declares LeafFault)

/-! ## The first fault -/

section Faults

variable {ρ ε : Type} {Fault : ρ → ε → Prop} {front back : List ρ} {why why' : ε}

/-- Nothing is wrong with any of the parts. -/
def Faultless (Fault : ρ → ε → Prop) (parts : List ρ) : Prop :=
  ∀ part ∈ parts, ∀ why, ¬ Fault part why

/-- No part has two faults. -/
def Single (Fault : ρ → ε → Prop) : Prop :=
  ∀ ⦃part why why'⦄, Fault part why → Fault part why' → why = why'

/-- What is wrong with the first part that anything is wrong with. -/
inductive FirstFault (Fault : ρ → ε → Prop) : List ρ → ε → Prop
  | here {part : ρ} {rest : List ρ} {why : ε} :
      Fault part why → FirstFault Fault (part :: rest) why
  | later {part : ρ} {rest : List ρ} {why : ε} :
      (∀ why, ¬ Fault part why) → FirstFault Fault rest why → FirstFault Fault (part :: rest) why

theorem Faultless.append (first : Faultless Fault front) (second : Faultless Fault back) :
    Faultless Fault (front ++ back) :=
  List.forall_mem_append.mpr ⟨first, second⟩

theorem FirstFault.append (first : FirstFault Fault front why) (back : List ρ) :
    FirstFault Fault (front ++ back) why := by
  induction first with
  | here fault => exact .here fault
  | later fine _ ih => exact .later fine ih

theorem FirstFault.behind (fine : Faultless Fault front) (second : FirstFault Fault back why) :
    FirstFault Fault (front ++ back) why := by
  induction front with
  | nil => exact second
  | cons part front ih =>
    exact .later (fine part List.mem_cons_self)
      (ih fun other member => fine other (List.mem_cons_of_mem _ member))

theorem firstFault_singleton {part : ρ} : FirstFault Fault [part] why ↔ Fault part why := by
  constructor
  · intro first
    cases first with
    | here fault => exact fault
    | later _ first => cases first
  · exact .here

theorem FirstFault.not_faultless {parts : List ρ} (first : FirstFault Fault parts why) :
    ¬ Faultless Fault parts := by
  intro fine
  induction first with
  | here fault => exact fine _ List.mem_cons_self _ fault
  | later _ _ ih => exact ih fun part member => fine part (List.mem_cons_of_mem _ member)

/-- If no part has two faults, there is one first fault. -/
theorem FirstFault.unique (single : Single Fault) {parts : List ρ}
    (first : FirstFault Fault parts why) (first' : FirstFault Fault parts why') : why = why' := by
  induction first with
  | here fault =>
    cases first' with
    | here fault' => exact single fault fault'
    | later fine => exact absurd fault (fine _)
  | later fine _ ih =>
    cases first' with
    | here fault' => exact absurd fault' (fine _)
    | later _ first' => exact ih first'

end Faults

/-! ## Verdicts -/

/-- The outcome of a check: either everything is fine and there is a result, or
the result is the first fault. -/
inductive Verdict {ρ ε α : Type} (Fault : ρ → ε → Prop) (parts : List ρ) (Accepted : Prop)
    (result : Except ε α) : Prop
  | accepted (value : α) :
      Accepted → Faultless Fault parts → result = .ok value → Verdict Fault parts Accepted result
  | refused (why : ε) :
      ¬ Accepted → FirstFault Fault parts why → result = .error why →
      Verdict Fault parts Accepted result

namespace Verdict

variable {ρ ε α β : Type} {Fault : ρ → ε → Prop} {parts : List ρ} {Accepted : Prop}
  {result : Except ε α}

theorem ok_iff (verdict : Verdict Fault parts Accepted result) :
    (∃ value, result = .ok value) ↔ Accepted := by
  cases verdict with
  | accepted value yes _ same => exact ⟨fun _ => yes, fun _ => ⟨value, same⟩⟩
  | refused why no _ same =>
    rw [same]
    refine ⟨?_, fun yes => absurd yes no⟩
    rintro ⟨_, ⟨⟩⟩

theorem error_iff (verdict : Verdict Fault parts Accepted result) (single : Single Fault)
    {why : ε} : result = .error why ↔ FirstFault Fault parts why := by
  cases verdict with
  | accepted value _ fine same =>
    rw [same]
    refine ⟨?_, fun first => absurd fine first.not_faultless⟩
    rintro ⟨⟩
  | refused why' _ first same =>
    rw [same, Except.error.injEq]
    constructor
    · rintro rfl
      exact first
    · exact first.unique single

/-- What is made of the result does not matter. -/
theorem map (verdict : Verdict Fault parts Accepted result) (f : α → β) :
    Verdict Fault parts Accepted (result.map f) := by
  cases verdict with
  | accepted value yes fine same => exact .accepted (f value) yes fine (by rw [same]; rfl)
  | refused why no first same => exact .refused why no first (by rw [same]; rfl)

/-- Several things are checked one after the other. -/
theorem all {γ : Type} {f : γ → Except ε α} {g : List γ → Except ε (List α)}
    (nil : g [] = .ok [])
    (cons : ∀ c cs, g (c :: cs) = do let a ← f c; let as ← g cs; return a :: as)
    {partsOf : γ → List ρ} {AcceptedOf : γ → Prop} {cs : List γ}
    (each : ∀ c ∈ cs, Verdict Fault (partsOf c) (AcceptedOf c) (f c)) :
    Verdict Fault (cs.flatMap partsOf) (∀ c ∈ cs, AcceptedOf c) (g cs) := by
  induction cs with
  | nil =>
    exact .accepted [] (fun _ none => absurd none List.not_mem_nil)
      (fun _ none => absurd none List.not_mem_nil) nil
  | cons c cs ih =>
    rw [List.flatMap_cons]
    cases each c List.mem_cons_self with
    | refused why no first same =>
      refine .refused why (fun yes => no (yes c List.mem_cons_self)) (first.append _) ?_
      rw [cons, same]
      rfl
    | accepted value yes fine same =>
      cases ih fun other later => each other (List.mem_cons_of_mem _ later) with
      | refused why no first same' =>
        refine .refused why
          (fun yes => no fun other later => yes other (List.mem_cons_of_mem _ later))
          (first.behind fine) ?_
        rw [cons, same, same']
        rfl
      | accepted values yes' fine' same' =>
        refine .accepted (value :: values) (List.forall_mem_cons.mpr ⟨yes, yes'⟩)
          (fine.append fine') ?_
        rw [cons, same, same']
        rfl

end Verdict

/-! ## Schemas -/

/-- The element is a leaf of a known type, or a group of such elements. -/
inductive IsSchema : Element → Prop
  | leaf {element : Element} {typeName : String} {condition : Condition} :
      element.attribute? "type" = some typeName →
      Declares element.name typeName element.text condition → IsSchema element
  | group {element : Element} :
      element.attribute? "type" = none → (∀ child ∈ element.children, IsSchema child) →
      IsSchema element

mutual
/-- The elements of a schema in document order. What is below a leaf is no part of it. -/
def schemaParts : Element → List Element
  | ⟨name, attributes, text, children⟩ =>
      ⟨name, attributes, text, children⟩ ::
        match attributes.lookup "type" with
        | some _ => []
        | none => schemaPartsAll children

/-- The elements of several schemas. -/
def schemaPartsAll : List Element → List Element
  | [] => []
  | element :: rest => schemaParts element ++ schemaPartsAll rest
end

/-- What is wrong with an element itself: it declares a type, and it is no leaf of it. -/
inductive SchemaFault (element : Element) (why : RuleError) : Prop
  | leaf {typeName : String} :
      element.attribute? "type" = some typeName →
      LeafFault element.name typeName element.text why → SchemaFault element why

section Schemas

variable {element : Element}

theorem schemaPartsAll_eq (elements : List Element) :
    schemaPartsAll elements = elements.flatMap schemaParts := by
  induction elements with
  | nil => rfl
  | cons element rest ih => rw [schemaPartsAll, ih, List.flatMap_cons]

theorem schemaParts_of_typed {typeName : String}
    (declared : element.attribute? "type" = some typeName) : schemaParts element = [element] := by
  obtain ⟨name, attributes, text, children⟩ := element
  rw [schemaParts, show attributes.lookup "type" = some typeName from declared]

theorem schemaParts_of_untyped (undeclared : element.attribute? "type" = none) :
    schemaParts element = element :: element.children.flatMap schemaParts := by
  obtain ⟨name, attributes, text, children⟩ := element
  rw [schemaParts, show attributes.lookup "type" = none from undeclared]
  exact congrArg _ (schemaPartsAll_eq children)

theorem ofElement_of_typed {typeName : String}
    (declared : element.attribute? "type" = some typeName) :
    Condition.ofElement element = Condition.ofLeaf element.name typeName element.text := by
  obtain ⟨name, attributes, text, children⟩ := element
  rw [Condition.ofElement, show attributes.lookup "type" = some typeName from declared]

theorem ofElement_of_untyped (undeclared : element.attribute? "type" = none) :
    Condition.ofElement element =
      (Condition.ofElements element.children).map (Condition.group element.name) := by
  obtain ⟨name, attributes, text, children⟩ := element
  rw [Condition.ofElement, show attributes.lookup "type" = none from undeclared]

theorem single_schemaFault : Single SchemaFault := by
  rintro element why why' ⟨declared, fault⟩ ⟨declared', fault'⟩
  cases declared.symm.trans declared'
  exact Except.error.inj ((Condition.ofLeaf_of_fault fault).symm.trans
    (Condition.ofLeaf_of_fault fault'))

/-- A leaf that is declared has no fault. -/
theorem not_leafFault {name typeName : String} {text : Option String} {condition : Condition}
    {why : RuleError} (declares : Declares name typeName text condition) :
    ¬ LeafFault name typeName text why := fun fault =>
  nomatch (Condition.ofLeaf_of_declares declares).symm.trans (Condition.ofLeaf_of_fault fault)

/-- Leaves are checked as they are declared. -/
theorem verdict_leaf {typeName : String} (declared : element.attribute? "type" = some typeName) :
    Verdict SchemaFault [element] (IsSchema element)
      (Condition.ofLeaf element.name typeName element.text) := by
  rcases Condition.declares_or_fault element.name typeName element.text with
    ⟨condition, declares⟩ | ⟨why, fault⟩
  · refine .accepted condition (.leaf declared declares) ?_ (Condition.ofLeaf_of_declares declares)
    intro part member why ⟨declared', fault⟩
    cases List.mem_singleton.mp member
    cases declared.symm.trans declared'
    exact not_leafFault declares fault
  · refine .refused why ?_ (.here ⟨declared, fault⟩) (Condition.ofLeaf_of_fault fault)
    intro schema
    cases schema with
    | leaf declared' declares =>
      cases declared.symm.trans declared'
      exact not_leafFault declares fault
    | group undeclared => exact nomatch declared.symm.trans undeclared

/-- A condition is defined by a schema, or refused for the first fault. -/
theorem verdict_schema (element : Element) :
    Verdict SchemaFault (schemaParts element) (IsSchema element)
      (Condition.ofElement element) := by
  induction element using Element.induction with
  | step element ih =>
    cases declared : element.attribute? "type" with
    | some typeName =>
      rw [schemaParts_of_typed declared, ofElement_of_typed declared]
      exact verdict_leaf declared
    | none =>
      rw [schemaParts_of_untyped declared, ofElement_of_untyped declared]
      have own : ∀ why, ¬ SchemaFault element why := fun _ ⟨declared', _⟩ =>
        nomatch declared.symm.trans declared'
      have below : Verdict SchemaFault (element.children.flatMap schemaParts)
          (∀ child ∈ element.children, IsSchema child) (Condition.ofElements element.children) :=
        Verdict.all (g := Condition.ofElements) rfl (fun _ _ => rfl) ih
      cases below with
      | accepted children yes fine same =>
        refine .accepted (.group element.name children) (.group declared yes)
          (List.forall_mem_cons.mpr ⟨own, fine⟩) ?_
        rw [same]
        rfl
      | refused why no first same =>
        refine .refused why ?_ (.later own first) ?_
        · intro schema
          cases schema with
          | leaf declared' => exact nomatch declared.symm.trans declared'
          | group _ yes => exact no yes
        · rw [same]
          rfl

end Schemas

end RuleNet.Rule

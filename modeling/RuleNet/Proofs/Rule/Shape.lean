import RuleNet.Proofs.Markup.Reprinting
import RuleNet.Proofs.Rule.CanonicalTags
import RuleNet.Proofs.Rule.Grammar

/-!
# What keys tell about the shape of conditions

Conditions from elements with equal keys have the same shape: the same number of
children everywhere, and in the same place the same constructor and the same
name. There is one exception (`Confusable`). Within a tag the canonical text does
not tell where the name ends, so an element without text and children, whose
name is not repeated in an end tag, can be taken for one with a shorter or longer
name.

* `agree_of_canonical`: the shapes agree but for this exception, and without it when
  attributes start with the type.
* `confusable_canonical`: the exception occurs.
-/

namespace RuleNet.Rule

open Markup (Element escape)
open Markup.Element (renderAttributes Throughout)

/-! ## Shapes -/

namespace Condition

/-- The conditions for the children of a group. -/
def children : Condition → List Condition
  | group _ children => children
  | _ => []

/-- The type that the element of a leaf declares. -/
def typeName? : Condition → Option String
  | group _ _ => none
  | int _ _ _ => some "int"
  | float _ _ _ => some "float"
  | string _ _ => some "string"

/-- Both conditions have the same constructor and the same name. -/
structure SameKind (condition condition' : Condition) : Prop where
  named : condition.name = condition'.name
  typed : condition.typeName? = condition'.typeName?

/-- A group without children, or the empty string. -/
def IsVacant (condition : Condition) : Prop :=
  condition = .group condition.name [] ∨ condition = .string condition.name ""

theorem IsVacant.children {condition : Condition} (vacant : condition.IsVacant) :
    condition.children = [] := by
  rcases vacant with same | same <;> rw [same] <;> rfl

/-- Conditions in the same place: they are of one kind, or both are vacant and one
name goes on where the other one ends. -/
inductive Confusable (condition condition' : Condition) : Prop
  | same : SameKind condition condition' → Confusable condition condition'
  | cut :
      condition.IsVacant → condition'.IsVacant → condition.name ≠ condition'.name →
      condition.name.toList <+: condition'.name.toList ∨
        condition'.name.toList <+: condition.name.toList →
      Confusable condition condition'

end Condition

open Condition (SameKind IsVacant Confusable Declares)

/-! ## Accepted elements -/

section Accepted

variable {element element' : Element} {condition condition' : Condition}

/-- The name, the type and the children of the condition are those of the element. -/
theorem shape_of_accepted (accepted : Condition.ofElement element = .ok condition) :
    condition.name = element.name ∧ condition.typeName? = element.attribute? "type" ∧
      (condition.typeName? = none →
        List.Forall₂ (fun element condition => Condition.ofElement element = .ok condition)
          element.children condition.children) ∧
      (condition.typeName? ≠ none → condition.children = []) := by
  rcases Condition.ofElement_inv accepted with ⟨typeName, declared, declares⟩ |
    ⟨children, undeclared, all, rfl⟩
  · rw [declared]
    cases declares with
    | int isInt =>
      exact ⟨rfl, congrArg some isInt.symm, (fun untyped => nomatch untyped), fun _ => rfl⟩
    | float isFloat =>
      exact ⟨rfl, congrArg some isFloat.symm, (fun untyped => nomatch untyped), fun _ => rfl⟩
    | string isString =>
      exact ⟨rfl, congrArg some isString.symm, (fun untyped => nomatch untyped), fun _ => rfl⟩
  · exact ⟨rfl, undeclared.symm, fun _ => all, fun typed => absurd rfl typed⟩

/-- Nothing is dropped from the types that are accepted. -/
theorem canonicalize_typeName {typeName : String} (typed : condition.typeName? = some typeName) :
    canonicalize (escape typeName.toList) = typeName.toList := by
  cases condition with
  | group => cases typed
  | int | float | string =>
    cases typed
    decide

theorem lookup_of_forall₂ {attributes attributes' : List (String × String)}
    (same : List.Forall₂ SameAttribute attributes attributes') (key : String) :
    Option.Rel (fun value value' =>
      canonicalize (escape value.toList) = canonicalize (escape value'.toList))
      (attributes.lookup key) (attributes'.lookup key) := by
  induction same with
  | nil => exact .none
  | @cons pair pair' _ _ here _ ih =>
    obtain ⟨key', value⟩ := pair
    obtain ⟨_, value'⟩ := pair'
    obtain ⟨rfl, values⟩ := here
    rw [List.lookup_cons, List.lookup_cons]
    cases key == key' with
    | true => exact .some values
    | false => exact ih

/-- Tags that are the same with their names belong to conditions of one kind. -/
theorem sameKind_of_name (clear : Clear element) (clear' : Clear element')
    (accepted : Condition.ofElement element = .ok condition)
    (accepted' : Condition.ofElement element' = .ok condition')
    (named : element.name = element'.name) (same : tagText element = tagText element') :
    SameKind condition condition' := by
  obtain ⟨name, type, -⟩ := shape_of_accepted accepted
  obtain ⟨name', type', -⟩ := shape_of_accepted accepted'
  rw [tagText_eq clear, tagText_eq clear', named, List.append_cancel_left_eq] at same
  have paired := attributes_of_canonicalize_eq clear.readable.keys clear'.readable.keys same
  have related := lookup_of_forall₂ paired "type"
  change Option.Rel _ (element.attribute? "type") (element'.attribute? "type") at related
  rw [← type, ← type'] at related
  refine ⟨name.trans (named.trans name'.symm), ?_⟩
  cases typed : condition.typeName? with
  | none =>
    rw [typed] at related
    cases typed' : condition'.typeName? with
    | none => rfl
    | some => rw [typed'] at related; cases related
  | some typeName =>
    rw [typed] at related
    cases typed' : condition'.typeName? with
    | none => rw [typed'] at related; cases related
    | some typeName' =>
      rw [typed'] at related
      cases related with
      | some values =>
        rw [canonicalize_typeName typed, canonicalize_typeName typed'] at values
        rw [String.toList_inj.mp values]

/-- An element without text and children defines a vacant condition. -/
theorem isVacant_of_isBare (accepted : Condition.ofElement element = .ok condition)
    (bare : element.isBare = true) : condition.IsVacant := by
  have nothing := children_of_isBare bare
  rw [Element.isBare, Bool.and_eq_true, Option.isNone_iff_eq_none] at bare
  rcases Condition.ofElement_inv accepted with ⟨typeName, -, declares⟩ | ⟨children, -, all, rfl⟩
  · rw [bare.1] at declares
    cases declares with
    | int _ bounded =>
      obtain ⟨_, written⟩ := exists_text_of_bounded bounded
      cases written
    | float _ bounded =>
      obtain ⟨_, written⟩ := exists_text_of_bounded bounded
      cases written
    | string => exact .inr rfl
  · rw [nothing] at all
    cases all
    exact .inl rfl

/-- Tags that are the same belong to conditions of one kind, or to vacant ones. -/
theorem confusable_of_sameTag (clear : Clear element) (clear' : Clear element')
    (same : SameTag element element') (accepted : Condition.ofElement element = .ok condition)
    (accepted' : Condition.ofElement element' = .ok condition') :
    Confusable condition condition' := by
  by_cases named : element.name = element'.name
  · exact .same (sameKind_of_name clear clear' accepted accepted' named same.inside)
  · have bare : element.isBare = true := by
      cases bare : element.isBare with
      | true => rfl
      | false => exact absurd (same.named bare) named
    have tags := same.inside
    rw [tagText_eq clear, tagText_eq clear'] at tags
    refine .cut (isVacant_of_isBare accepted bare)
      (isVacant_of_isBare accepted' (same.bare ▸ bare)) ?_ ?_
    all_goals rw [(shape_of_accepted accepted).1, (shape_of_accepted accepted').1]
    · exact named
    · exact List.prefix_or_prefix_of_prefix ⟨_, rfl⟩ ⟨_, tags.symm⟩

end Accepted

/-! ## Where names end -/

/-- The name in a tag that is closed in itself can be told: it holds no quote, and
the first attribute, if there is one, is the type. -/
structure Telling (element : Element) : Prop where
  name : element.isBare = true → '"' ∉ element.name.toList
  first : element.isBare = true → ∀ pair ∈ element.attributes.head?, pair.1 = "type"

instance (element : Element) : Decidable (Telling element) :=
  decidable_of_iff
    ((element.isBare = true → '"' ∉ element.name.toList) ∧
      (element.isBare = true → ∀ pair ∈ element.attributes.head?, pair.1 = "type"))
    ⟨fun ⟨name, first⟩ => ⟨name, first⟩, fun ⟨name, first⟩ => ⟨name, first⟩⟩

section Names

variable {element element' : Element}

/-- The inside of a tag up to the first quote. -/
theorem tagText_cases (clear : Clear element) (telling : Telling element)
    (bare : element.isBare = true) :
    tagText element = element.name.toList ∧ '"' ∉ tagText element ∨
      ∃ rest, tagText element = (element.name.toList ++ "type=".toList) ++ '"' :: rest ∧
        '"' ∉ element.name.toList ++ "type=".toList := by
  have noQuote := telling.name bare
  have first := telling.first bare
  rw [tagText_eq clear]
  cases attributes : element.attributes with
  | nil =>
    rw [renderAttributes, canonicalize_nil, List.append_nil]
    exact .inl ⟨rfl, noQuote⟩
  | cons pair others =>
    obtain ⟨key, value⟩ := pair
    rw [attributes] at first
    obtain rfl : key = "type" := first (key, value) rfl
    rw [canonicalize_renderAttributes (by decide)]
    refine .inr ⟨_, by rw [List.append_assoc]; rfl, ?_⟩
    rw [List.mem_append]
    exact fun member => member.elim noQuote (by decide)

/-- Tags that can be told and are the same have one name. -/
theorem name_of_sameTag (clear : Clear element) (clear' : Clear element')
    (telling : Telling element) (telling' : Telling element') (same : SameTag element element') :
    element.name = element'.name := by
  cases bare : element.isBare with
  | false => exact same.named bare
  | true =>
    have inside := same.inside
    have quoted : ∀ (front rest : List Char), '"' ∈ front ++ '"' :: rest := fun front rest =>
      List.mem_append_right front List.mem_cons_self
    rcases tagText_cases clear telling bare with ⟨whole, noQuote⟩ | ⟨rest, whole, noQuote⟩ <;>
      rcases tagText_cases clear' telling' (same.bare ▸ bare) with
        ⟨whole', noQuote'⟩ | ⟨rest', whole', noQuote'⟩
    · rw [whole, whole'] at inside
      exact String.toList_inj.mp inside
    · rw [inside, whole'] at noQuote
      exact absurd (quoted _ _) noQuote
    · rw [← inside, whole] at noQuote'
      exact absurd (quoted _ _) noQuote'
    · rw [whole, whole'] at inside
      exact String.toList_inj.mp (List.append_cancel_right (eq_of_cut noQuote noQuote' inside).1)

end Names

/-! ## Equal keys -/

section Keys

variable {p : Element → Prop} {own : Condition → Condition → Prop} {element element' : Element}
  {condition condition' : Condition}

/-- What is related to the members of two paired lists is paired. -/
theorem forall₂_of_square {α β : Type} {T : α → α → Prop} {A : α → β → Prop} {R : β → β → Prop}
    {as as' : List α} {bs bs' : List β}
    (each : ∀ a ∈ as, ∀ {a' : α} {b b' : β}, T a a' → A a b → A a' b' → R b b')
    (paired : List.Forall₂ T as as') (first : List.Forall₂ A as bs)
    (second : List.Forall₂ A as' bs') : List.Forall₂ R bs bs' := by
  induction paired generalizing bs bs' with
  | nil =>
    cases first
    cases second
    exact .nil
  | cons tied _ ih =>
    cases first with
    | cons here first =>
      cases second with
      | cons here' second =>
        exact .cons (each _ List.mem_cons_self tied here here')
          (ih (fun a later => each a (List.mem_cons_of_mem _ later)) first second)

/-- Conditions agree as the tags of their elements do. -/
theorem agree_of_agreeTags (clear : ∀ {element}, p element → Clear element)
    (related : ∀ {element element' : Element} {condition condition' : Condition},
      p element → p element' → SameTag element element' →
      Condition.ofElement element = .ok condition →
      Condition.ofElement element' = .ok condition' → own condition condition')
    (tags : AgreeTags p element element') (accepted : Condition.ofElement element = .ok condition)
    (accepted' : Condition.ofElement element' = .ok condition') :
    Agree Condition.children own condition condition' := by
  induction element using Element.induction generalizing element' condition condition' with
  | step element ih =>
    obtain ⟨⟨same, here, here'⟩, below⟩ := tags
    refine .node (related here here' same accepted accepted') ?_
    cases confusable_of_sameTag (clear here) (clear here') same accepted accepted' with
    | cut vacant vacant' =>
      rw [vacant.children, vacant'.children]
      exact .nil
    | same kind =>
      obtain ⟨-, -, group, leaf⟩ := shape_of_accepted accepted
      obtain ⟨-, -, group', leaf'⟩ := shape_of_accepted accepted'
      by_cases untyped : condition.typeName? = none
      · exact forall₂_of_square ih below (group untyped) (group' (kind.typed ▸ untyped))
      · rw [leaf untyped, leaf' (kind.typed ▸ untyped)]
        exact .nil

/-- Conditions from elements with equal keys have the same shape, except that vacant
ones can be taken for one another. They cannot where the names can be told. -/
theorem agree_of_canonical {text text' : String} (parsed : Element.parse text = .ok element)
    (parsed' : Element.parse text' = .ok element')
    (delimited : element.Throughout fun element => element.Delimited ∧ element.name ≠ "")
    (delimited' : element'.Throughout fun element => element.Delimited ∧ element.name ≠ "")
    (accepted : Condition.ofElement element = .ok condition)
    (accepted' : Condition.ofElement element' = .ok condition')
    (same : (Key.ofElement element).canonical = (Key.ofElement element').canonical) :
    Agree Condition.children Confusable condition condition' ∧
      (element.Throughout Telling → element'.Throughout Telling →
        Agree Condition.children SameKind condition condition') := by
  have clear : ∀ {text : String} {element : Element}, Element.parse text = .ok element →
      (element.Throughout fun element => element.Delimited ∧ element.name ≠ "") →
      element.Throughout Clear := fun parsed delimited =>
    ((Element.made_of_parse parsed).and delimited).mono fun _ ⟨made, delimited, named⟩ =>
      ⟨made.readable, delimited, named⟩
  have texts : canonicalize element.render = canonicalize element'.render :=
    String.ofList_inj.mp same
  constructor
  · have tags := agree_of_canonicalize_eq (fun clear => clear) (clear parsed delimited)
      (clear parsed' delimited') texts
    exact agree_of_agreeTags (fun clear => clear) confusable_of_sameTag tags accepted accepted'
  · intro telling telling'
    have tags := agree_of_canonicalize_eq And.left ((clear parsed delimited).and telling)
      ((clear parsed' delimited').and telling') texts
    refine agree_of_agreeTags And.left ?_ tags accepted accepted'
    intro element element' condition condition' ⟨clear, telling⟩ ⟨clear', telling'⟩ same
      accepted accepted'
    exact sameKind_of_name clear clear' accepted accepted'
      (name_of_sameTag clear clear' telling telling' same) same.inside

/-- Strings that differ in a space have the same place in conditions of one shape. -/
theorem agree_of_canonical_spaced :
    let text := "<c><axe type='string'>hand axe</axe><b/></c>"
    let text' := "<c> <axe type = 'string'>handaxe</axe> <b></b> </c>"
    let axe (literal : String) : Element := ⟨"axe", [("type", "string")], some literal, []⟩
    let element : Element := ⟨"c", [], none, [axe "hand axe", ⟨"b", [], none, []⟩]⟩
    let element' : Element := ⟨"c", [], none, [axe "handaxe", ⟨"b", [], none, []⟩]⟩
    let condition : Condition := .group "c" [.string "axe" "hand axe", .group "b" []]
    let condition' : Condition := .group "c" [.string "axe" "handaxe", .group "b" []]
    Element.parse text = .ok element ∧ Element.parse text' = .ok element' ∧
      Condition.ofElement element = .ok condition ∧
      Condition.ofElement element' = .ok condition' ∧
      (Key.ofElement element).canonical = (Key.ofElement element').canonical ∧
      Agree Condition.children SameKind condition condition' := by
  intro text text' axe element element' condition condition'
  have parsed : Element.parse text = .ok element := by decide +kernel
  have parsed' : Element.parse text' = .ok element' := by decide +kernel
  have same : (Key.ofElement element).canonical = (Key.ofElement element').canonical := by
    decide +kernel
  have accepted : Condition.ofElement element = .ok condition := rfl
  have accepted' : Condition.ofElement element' = .ok condition' := rfl
  have shapes := agree_of_canonical parsed parsed' (by decide +kernel) (by decide +kernel) accepted
    accepted' same
  exact ⟨parsed, parsed', accepted, accepted', same,
    shapes.2 (by decide +kernel) (by decide +kernel)⟩

/-- A leaf, and a group with a shorter name whose attribute begins with the rest. -/
theorem confusable_canonical :
    let leaf : Element := ⟨"ab", [("type", "string")], none, []⟩
    let group : Element := ⟨"a", [("btype", "string")], none, []⟩
    Element.parse "<ab type=\"string\"/>" = .ok leaf ∧
      Element.parse "<a btype=\"string\"/>" = .ok group ∧
      Condition.ofElement leaf = .ok (.string "ab" "") ∧
      Condition.ofElement group = .ok (.group "a" []) ∧
      (Key.ofElement leaf).canonical = (Key.ofElement group).canonical ∧
      ¬ Agree Condition.children SameKind (.string "ab" "") (.group "a" []) := by
  refine ⟨by decide +kernel, by decide +kernel, rfl, rfl, by decide +kernel, ?_⟩
  rintro ⟨⟨named, -⟩, -⟩
  exact absurd named (by decide)

end Keys

end RuleNet.Rule

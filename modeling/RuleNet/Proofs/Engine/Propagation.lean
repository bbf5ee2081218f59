import RuleNet.Engine.Report
import RuleNet.Proofs.Network.Growth

/-!
# Pushing activations and pulling them

A run walks over the nodes once and pushes the activations of every node into
the inputs of its successors. Evaluation by pulling computes a node from the
final activations of its operands and needs no inputs at all. On a well-formed
network the two agree.

* `Progress.step_waiting`: when the inputs hold exactly what the nodes taken so
  far have produced, they still do after one more node was taken.
* `run_equation`: after a run, every node has what it pulls from its operands.
* `run?_eq_some`: the loop that checks every index before use never fails.
* `reachable_run_pulls`: all of this for every network that a builder can reach.
-/

namespace RuleNet.Engine

open Markup (Element)
open Memory (Fact)
open Network (Builder Node NodeId Reachable WellFormed getElem?_foldl_modify)
open Rule (Definition)
open Settings (Config)

/-! ## Pulling -/

/-- The activations that a node pulls from the given ones. -/
def pulled (network : Network) (facts : List Placed) (activations : List (List Token))
    (node : Node) : List Token :=
  match node.kind with
  | .root => []
  | .pattern _ condition => activate network.config condition facts
  | .join _ operator operands =>
      combine operator (operands.map fun operand => activations[operand]?.getD [])
        network.config.activationLimit.toNat

/-- Only the activations of the predecessors matter. -/
theorem pulled_congr {network : Network} (wf : WellFormed network) {facts : List Placed}
    {activations activations' : List (List Token)} {i : Nat} {node : Node}
    (found : network.node? i = some node)
    (same : ∀ source : Nat, source < i → activations[source]? = activations'[source]?) :
    pulled network facts activations node = pulled network facts activations' node := by
  have reads := wf.reads found
  rw [pulled, pulled]
  cases kind : node.kind with
  | root => rfl
  | pattern key condition => rfl
  | join key operator operands =>
    rw [kind] at reads
    have inputs : (operands.map fun operand => activations[operand]?.getD []) =
        operands.map fun operand => activations'[operand]?.getD [] :=
      List.map_congr_left fun operand member => by rw [same operand (reads.2.2 operand member).2]
    simp only [inputs]

/-! ## What waits at the inputs -/

/-- The inputs of all nodes when the first nodes of the network have had the
given activations: every input holds those of the node it reads from, or
nothing as long as this node was not taken. -/
def waiting (network : Network) (activations : List (List Token)) : Inboxes :=
  network.nodes.map fun node => node.predecessors.map fun source => activations[source]?.getD []

theorem getElem?_waiting (network : Network) (activations : List (List Token)) (i : Nat) :
    (waiting network activations)[i]? = (network.node? i).map fun node =>
      node.predecessors.map fun source => activations[source]?.getD [] := by
  rw [waiting, List.getElem?_map, Network.node?]

theorem getD_append_singleton (activations : List (List Token)) (tokens : List Token)
    (source : Nat) :
    (activations ++ [tokens])[source]?.getD [] =
      if source = activations.length then tokens else activations[source]?.getD [] := by
  rcases Nat.lt_trichotomy source activations.length with before | last | behind
  · rw [List.getElem?_append_left before, if_neg (Nat.ne_of_lt before)]
  · rw [last, List.getElem?_concat_length, if_pos rfl, Option.getD_some]
  · have outside : activations.length ≤ source := Nat.le_of_lt behind
    have further : (activations ++ [tokens]).length ≤ source := by
      rw [List.length_append]
      exact behind
    rw [List.getElem?_eq_none outside, List.getElem?_eq_none further,
      if_neg (Nat.ne_of_gt behind)]

theorem fill_map (source : NodeId) (tokens : List Token) (slot : NodeId → List Token)
    (predecessors : List NodeId) :
    fill source tokens predecessors (predecessors.map slot) =
      predecessors.map fun predecessor =>
        if predecessor = source then tokens else slot predecessor := by
  induction predecessors with
  | nil => rfl
  | cons predecessor rest ih =>
    rw [List.map_cons, fill, List.zipWith_cons_cons, ← fill, ih, List.map_cons]

/-- Filling the same inputs twice is filling them once. -/
theorem fill_fill (source : NodeId) (tokens : List Token) (predecessors : List NodeId)
    (slots : List (List Token)) :
    fill source tokens predecessors (fill source tokens predecessors slots) =
      fill source tokens predecessors slots := by
  induction predecessors generalizing slots with
  | nil => rfl
  | cons predecessor rest ih =>
    cases slots with
    | nil => rfl
    | cons slot slots =>
      have later := ih slots
      simp only [fill, List.zipWith_cons_cons] at later ⊢
      rw [later]
      split <;> rfl

/-! ## One node -/

section Step

variable {network : Network} {facts : List Placed} {node : Node}

/-- A node combines exactly what it would pull. -/
theorem produce_waiting (wf : WellFormed network) (facts : List Placed)
    (activations : List (List Token)) {i : Nat} (found : network.node? i = some node) :
    produce network facts (waiting network activations) node =
      pulled network facts activations node := by
  have reads := wf.reads found
  have inbox : (waiting network activations)[node.id]? = some (node.predecessors.map fun source =>
      activations[source]?.getD []) := by
    rw [wf.id_eq found, getElem?_waiting, found, Option.map_some]
  rw [produce, pulled]
  cases kind : node.kind with
  | root => rfl
  | pattern key condition => rfl
  | join key operator operands =>
    rw [kind] at reads
    simp only [inbox, Option.getD_some, reads.1]

/-- Delivering fills the inputs that read from the node, and only these. -/
theorem deliver_waiting (wf : WellFormed network) {activations : List (List Token)}
    (next : network.node? activations.length = some node) (tokens : List Token) :
    deliver network (waiting network activations) node tokens =
      waiting network (activations ++ [tokens]) := by
  refine List.ext_getElem? fun i => ?_
  rw [getElem?_waiting]
  simp only [getD_append_singleton]
  rw [deliver]
  cases tokens with
  | nil =>
    -- Nothing is delivered, and nothing is what an input holds that reads from the node.
    have outside : activations[activations.length]?.getD [] = [] := by
      rw [List.getElem?_eq_none (Nat.le_refl _), Option.getD_none]
    rw [List.isEmpty_nil, if_pos rfl, getElem?_waiting]
    refine congrArg (fun slot : NodeId → List Token =>
      (network.node? i).map fun node => node.predecessors.map slot) (funext fun source => ?_)
    by_cases last : source = activations.length
    · rw [if_pos last, last, outside]
    · rw [if_neg last]
  | cons token rest =>
    have delivered := getElem?_foldl_modify
      (f := fun reader => fill node.id (token :: rest) (network.predecessors reader))
      (fun _ _ => fill_fill _ _ _ _) node.successors (waiting network activations) i
    rw [List.isEmpty_cons, if_neg Bool.false_ne_true, delivered, getElem?_waiting, wf.id_eq next]
    cases found : network.node? i with
    | none => simp
    | some reader =>
      -- Successors and predecessors describe the same edges: who is not served reads elsewhere.
      have edge : i ∈ node.successors ↔ activations.length ∈ reader.predecessors := by
        rw [wf.mem_successors next, Network.predecessors, found]
        rfl
      by_cases reading : i ∈ node.successors
      · rw [if_pos reading, Option.map_some, Option.map_some, Network.predecessors, found]
        exact congrArg some (fill_map _ _ _ _)
      · rw [if_neg reading, Option.map_some, Option.map_some]
        refine congrArg some (List.map_congr_left fun source member => ?_)
        have apart : source ≠ activations.length := by
          rintro rfl
          exact reading (edge.mpr member)
        rw [if_neg apart]

/-- When the inputs hold exactly what the nodes taken so far have produced, they
still do after the next node was taken. -/
theorem Progress.step_waiting (wf : WellFormed network) {activations : List (List Token)}
    (next : network.node? activations.length = some node) :
    Progress.step network facts ⟨waiting network activations, activations⟩ node =
      ⟨waiting network (activations ++ [pulled network facts activations node]),
        activations ++ [pulled network facts activations node]⟩ := by
  rw [step, produce_waiting wf facts activations next, deliver_waiting wf next]

end Step

/-! ## The whole run -/

/-- A run after its first nodes. -/
def progressAfter (network : Network) (facts : List Fact) (count : Nat) : Progress :=
  (network.nodes.take count).foldl (Progress.step network (place facts))
    { inboxes := emptyInboxes network }

theorem progressAfter_succ {network : Network} {facts : List Fact} {count : Nat} {node : Node}
    (found : network.node? count = some node) :
    progressAfter network facts (count + 1) =
      Progress.step network (place facts) (progressAfter network facts count) node := by
  have last : network.nodes[count]? = some node := found
  rw [progressAfter, List.take_add_one, last, Option.toList_some, List.foldl_append]
  rfl

theorem progressAfter_size (network : Network) (facts : List Fact) :
    (progressAfter network facts network.size).activations = run network facts := by
  rw [progressAfter, run, Network.size, List.take_length]

/-- At any time the nodes taken have their activations, and the inputs hold
exactly these. -/
theorem progressAfter_waiting {network : Network} (wf : WellFormed network) (facts : List Fact)
    {count : Nat} (inside : count ≤ network.size) :
    (progressAfter network facts count).activations.length = count ∧
      (progressAfter network facts count).inboxes =
        waiting network (progressAfter network facts count).activations := by
  induction count with
  | zero => exact ⟨rfl, rfl⟩
  | succ count ih =>
    obtain ⟨node, found⟩ := WellFormed.exists_node inside
    obtain ⟨length, inboxes⟩ := ih (Nat.le_of_succ_le inside)
    have state : progressAfter network facts count =
        ⟨waiting network (progressAfter network facts count).activations,
          (progressAfter network facts count).activations⟩ := by
      rw [← inboxes]
    rw [progressAfter_succ found, state, Progress.step_waiting wf (by rwa [length])]
    exact ⟨by rw [List.length_append, length]; rfl, rfl⟩

theorem activations_succ {network : Network} (wf : WellFormed network) (facts : List Fact)
    {count : Nat} {node : Node} (found : network.node? count = some node) :
    (progressAfter network facts (count + 1)).activations =
      (progressAfter network facts count).activations ++
        [pulled network (place facts) (progressAfter network facts count).activations node] := by
  obtain ⟨-, inboxes⟩ :=
    progressAfter_waiting wf facts (Nat.le_of_lt (WellFormed.lt_size found))
  have produced :=
    produce_waiting wf (place facts) (progressAfter network facts count).activations found
  rw [progressAfter_succ found, Progress.step, inboxes, produced]

/-- What a node has produced stays. -/
theorem activations_take_later {network : Network} (wf : WellFormed network) (facts : List Fact)
    {count later : Nat} (before : count ≤ later) (inside : later ≤ network.size) :
    (progressAfter network facts later).activations.take count =
      (progressAfter network facts count).activations := by
  induction before with
  | refl =>
    obtain ⟨length, -⟩ := progressAfter_waiting wf facts inside
    exact List.take_of_length_le (Nat.le_of_eq length)
  | @step later before ih =>
    obtain ⟨node, found⟩ := WellFormed.exists_node inside
    obtain ⟨length, -⟩ := progressAfter_waiting wf facts (Nat.le_of_succ_le inside)
    rw [activations_succ wf facts found, List.take_append_of_le_length (by rwa [length]),
      ih (Nat.le_of_succ_le inside)]

theorem activations_take {network : Network} (wf : WellFormed network) (facts : List Fact)
    {count : Nat} (inside : count ≤ network.size) :
    (run network facts).take count = (progressAfter network facts count).activations := by
  rw [← progressAfter_size, activations_take_later wf facts inside (Nat.le_refl _)]

theorem length_run {network : Network} (wf : WellFormed network) (facts : List Fact) :
    (run network facts).length = network.size := by
  rw [← progressAfter_size]
  exact (progressAfter_waiting wf facts (Nat.le_refl _)).1

/-- A node has what it pulls from the outcome of the run. -/
theorem run_equation {network : Network} (wf : WellFormed network) (facts : List Fact) {i : Nat}
    {node : Node} (found : network.node? i = some node) :
    (run network facts)[i]? =
      some (pulled network (place facts) (run network facts) node) := by
  have inside := WellFormed.lt_size found
  obtain ⟨length, -⟩ := progressAfter_waiting wf facts (Nat.le_of_lt inside)
  have last : ((run network facts).take (i + 1))[i]? =
      some (pulled network (place facts) ((run network facts).take i) node) := by
    rw [activations_take wf facts inside, activations_take wf facts (Nat.le_of_lt inside),
      activations_succ wf facts found]
    exact (congrArg _ length.symm).trans List.getElem?_concat_length
  rw [List.getElem?_take_of_lt (Nat.lt_succ_self i)] at last
  rw [last]
  refine congrArg some (pulled_congr wf found fun source before => ?_)
  rw [List.getElem?_take_of_lt before]

/-- The waiting lists of a run are those of the outcome, cut to the nodes taken. -/
theorem progressAfter_eq {network : Network} (wf : WellFormed network) (facts : List Fact)
    {count : Nat} (inside : count ≤ network.size) :
    progressAfter network facts count =
      ⟨waiting network ((run network facts).take count), (run network facts).take count⟩ := by
  rw [activations_take wf facts inside, ← (progressAfter_waiting wf facts inside).2]

/-! ## Checked indices -/

/-- One slot after the other is compared with the source, from the given index
on, and overwritten if it reads from there. There is no outcome without a slot
at the index. -/
def fill? (source : NodeId) (tokens : List Token) :
    Nat → List NodeId → List (List Token) → Option (List (List Token))
  | _, [], slots => some slots
  | slot, predecessor :: rest, slots =>
      if predecessor = source then
        if slot < slots.length then fill? source tokens (slot + 1) rest (slots.set slot tokens)
        else none
      else fill? source tokens (slot + 1) rest slots

/-- One successor after the other is looked up, as a node and as an inbox, and filled. -/
def deliver? (network : Network) (source : NodeId) (tokens : List Token) :
    List NodeId → Inboxes → Option Inboxes
  | [], inboxes => some inboxes
  | successor :: rest, inboxes => do
      let reader ← network.node? successor
      let slots ← inboxes[successor]?
      let filled ← fill? source tokens 0 reader.predecessors slots
      deliver? network source tokens rest (inboxes.set successor filled)

/-- The activations of a node and the inboxes without its own: a join takes its
inbox away, so that nothing can be delivered to it any more. -/
def produce? (network : Network) (facts : List Placed) (inboxes : Inboxes) (node : Node) :
    Option (List Token × Inboxes) :=
  match node.kind with
  | .root => some ([], inboxes)
  | .pattern _ condition => some (activate network.config condition facts, inboxes)
  | .join _ operator _ =>
      inboxes[node.id]?.map fun inputs =>
        (combine operator inputs network.config.activationLimit.toNat, inboxes.set node.id [])

/-- One node is taken. -/
def Progress.step? (network : Network) (facts : List Placed) (progress : Progress) (node : Node) :
    Option Progress := do
  let (tokens, inboxes) ← produce? network facts progress.inboxes node
  let inboxes ← if tokens.isEmpty then some inboxes
    else deliver? network node.id tokens node.successors inboxes
  return ⟨inboxes, progress.activations ++ [tokens]⟩

/-- The run that checks every index before use, and has no outcome when one is
out of bounds. -/
def run? (network : Network) (facts : List Fact) : Option (List (List Token)) :=
  (network.nodes.foldlM (Progress.step? network (place facts))
    { inboxes := emptyInboxes network }).map Progress.activations

theorem fill?_eq_some (source : NodeId) (tokens : List Token) (predecessors : List NodeId)
    (start slots : List (List Token)) (length : slots.length = predecessors.length) :
    fill? source tokens start.length predecessors (start ++ slots) =
      some (start ++ fill source tokens predecessors slots) := by
  induction predecessors generalizing start slots with
  | nil =>
    rw [List.eq_nil_of_length_eq_zero length]
    rfl
  | cons predecessor rest ih =>
    cases slots with
    | nil => cases length
    | cons slot slots =>
      have next : ∀ held : List Token, fill? source tokens (start.length + 1) rest
          (start ++ held :: slots) = some (start ++ held :: fill source tokens rest slots) := by
        intro held
        have moved := ih (start ++ [held]) slots (Nat.succ.inj length)
        rwa [List.length_append, List.append_assoc, List.append_assoc] at moved
      have inside : start.length < (start ++ slot :: slots).length := by
        rw [List.length_append, List.length_cons]
        omega
      rw [fill?, fill, List.zipWith_cons_cons, ← fill]
      by_cases reading : predecessor = source
      · rw [if_pos reading, if_pos reading, if_pos inside,
          List.set_append_right _ _ (Nat.le_refl _), Nat.sub_self, List.set_cons_zero, next]
      · rw [if_neg reading, if_neg reading, next]

/-- Every node has an inbox with a slot for each of its predecessors. -/
def Fits (network : Network) (inboxes : Inboxes) : Prop :=
  ∀ ⦃i : Nat⦄ ⦃node⦄, network.node? i = some node →
    ∃ slots, inboxes[i]? = some slots ∧ slots.length = node.predecessors.length

theorem fits_waiting (network : Network) (activations : List (List Token)) :
    Fits network (waiting network activations) := by
  intro i node found
  refine ⟨_, by rw [getElem?_waiting, found, Option.map_some], ?_⟩
  rw [List.length_map]

theorem Fits.modify {network : Network} {inboxes : Inboxes} (fits : Fits network inboxes)
    (source : NodeId) (tokens : List Token) (successor : Nat) :
    Fits network
      (inboxes.modify successor (fill source tokens (network.predecessors successor))) := by
  intro i node found
  obtain ⟨slots, there, length⟩ := fits found
  by_cases here : successor = i
  · subst here
    refine ⟨_, by rw [List.getElem?_modify_eq, there, Option.map_eq_map, Option.map_some], ?_⟩
    rw [fill, List.length_zipWith, Network.predecessors, found, length]
    exact Nat.min_self _
  · exact ⟨slots, by rw [List.getElem?_modify_ne _ _ here, there], length⟩

/-- The checked inboxes are those of the run from a position on. -/
def AgreeFrom (start : Nat) (checked inboxes : Inboxes) : Prop :=
  ∀ i : Nat, start ≤ i → checked[i]? = inboxes[i]?

/-- Delivering to nodes that were not taken yet never fails. -/
theorem deliver?_eq_some {network : Network} (source : NodeId) (tokens : List Token)
    {start : Nat} {successors : List Nat}
    (ahead : ∀ successor ∈ successors, start ≤ successor ∧ successor < network.size)
    {checked inboxes : Inboxes} (fits : Fits network inboxes)
    (agree : AgreeFrom start checked inboxes) :
    ∃ checked', deliver? network source tokens successors checked = some checked' ∧
      AgreeFrom start checked' (successors.foldl (fun inboxes successor =>
        inboxes.modify successor (fill source tokens (network.predecessors successor)))
          inboxes) := by
  induction successors generalizing checked inboxes with
  | nil => exact ⟨checked, rfl, agree⟩
  | cons successor rest ih =>
    obtain ⟨behind, inside⟩ := ahead successor List.mem_cons_self
    obtain ⟨reader, found⟩ := WellFormed.exists_node inside
    obtain ⟨slots, there, length⟩ := fits found
    have filled := fill?_eq_some source tokens reader.predecessors [] slots length
    have agree' : AgreeFrom start
        (checked.set successor (fill source tokens reader.predecessors slots))
        (inboxes.modify successor (fill source tokens (network.predecessors successor))) := by
      intro i later
      by_cases here : successor = i
      · subst here
        have known := (agree successor later).trans there
        rw [List.getElem?_set_self (List.getElem?_eq_some_iff.mp known).1,
          List.getElem?_modify_eq, there, Network.predecessors, found]
        rfl
      · rw [List.getElem?_set_ne here, List.getElem?_modify_ne _ _ here, agree i later]
    obtain ⟨checked', delivered, agrees⟩ :=
      ih (fun other member => ahead other (List.mem_cons_of_mem _ member))
        (fits.modify source tokens successor) agree'
    refine ⟨checked', ?_, agrees⟩
    rw [deliver?, found, (agree successor behind).trans there]
    exact (congrArg (· >>= fun filled => deliver? network source tokens rest
      (checked.set successor filled)) filled).trans delivered

/-- A node finds its inbox, and afterwards no node after it has lost its own. -/
theorem produce?_eq_some {network : Network} (wf : WellFormed network) (facts : List Placed)
    {i : Nat} {node : Node} (found : network.node? i = some node) {checked inboxes : Inboxes}
    (fits : Fits network inboxes) (agree : AgreeFrom i checked inboxes) :
    ∃ checked', produce? network facts checked node =
        some (produce network facts inboxes node, checked') ∧
      AgreeFrom (i + 1) checked' inboxes := by
  have later : AgreeFrom (i + 1) checked inboxes := fun j behind =>
    agree j (Nat.le_of_succ_le behind)
  rw [produce?, produce]
  cases kind : node.kind with
  | root => exact ⟨checked, rfl, later⟩
  | pattern key condition => exact ⟨checked, rfl, later⟩
  | join key operator operands =>
    obtain ⟨slots, there, -⟩ := fits found
    refine ⟨checked.set i [], ?_, fun j behind => ?_⟩
    · simp only [wf.id_eq found, (agree i (Nat.le_refl i)).trans there, there, Option.map_some,
        Option.getD_some]
    · rw [List.getElem?_set_ne (Nat.ne_of_lt behind), later j behind]

/-- Taking a node never fails, and leads to the state of the run. -/
theorem Progress.step?_eq_some {network : Network} (wf : WellFormed network)
    (facts : List Placed) {i : Nat} {node : Node} (found : network.node? i = some node)
    {checked progress : Progress} (fits : Fits network progress.inboxes)
    (agree : AgreeFrom i checked.inboxes progress.inboxes)
    (same : checked.activations = progress.activations) :
    ∃ checked', checked.step? network facts node = some checked' ∧
      AgreeFrom (i + 1) checked'.inboxes (progress.step network facts node).inboxes ∧
      checked'.activations = (progress.step network facts node).activations := by
  obtain ⟨emptied, produced, later⟩ := produce?_eq_some wf facts found fits agree
  -- Successors come later, so none of them has lost its inbox.
  have ahead : ∀ successor ∈ node.successors, i + 1 ≤ successor ∧ successor < network.size := by
    intro successor member
    rw [wf.successors_eq found, Network.readers, List.mem_filter, List.mem_range] at member
    obtain ⟨reader, there⟩ := WellFormed.exists_node member.1
    have reading := member.2
    rw [List.contains_iff_mem, Network.predecessors, there] at reading
    exact ⟨wf.predecessor_lt there reading, member.1⟩
  rw [step?, step, produced, same]
  cases tokens : produce network facts progress.inboxes node with
  | nil => exact ⟨_, rfl, later, rfl⟩
  | cons token rest =>
    obtain ⟨filled, delivered, agrees⟩ :=
      deliver?_eq_some node.id (token :: rest) ahead fits later
    refine ⟨⟨filled, progress.activations ++ [token :: rest]⟩, ?_, agrees, rfl⟩
    simp [delivered]

/-- The checked run never fails, and its outcome is the one of the run. -/
theorem run?_eq_some {network : Network} (wf : WellFormed network) (facts : List Fact) :
    run? network facts = some (run network facts) := by
  -- Induction on the nodes taken. The inboxes of those are gone in the checked
  -- run, but what is left of the run looks only at the others.
  have started : ∀ count, count ≤ network.size → ∃ checked : Progress,
      (network.nodes.take count).foldlM (Progress.step? network (place facts))
        { inboxes := emptyInboxes network } = some checked ∧
      AgreeFrom count checked.inboxes (progressAfter network facts count).inboxes ∧
      checked.activations = (progressAfter network facts count).activations := by
    intro count
    induction count with
    | zero => exact fun _ => ⟨_, rfl, fun _ _ => rfl, rfl⟩
    | succ count ih =>
      intro inside
      obtain ⟨node, found⟩ := WellFormed.exists_node inside
      obtain ⟨checked, reached, agree, same⟩ := ih (Nat.le_of_succ_le inside)
      have fits : Fits network (progressAfter network facts count).inboxes := by
        rw [(progressAfter_waiting wf facts (Nat.le_of_succ_le inside)).2]
        exact fits_waiting network _
      obtain ⟨checked', stepped, agree', same'⟩ :=
        Progress.step?_eq_some wf (place facts) found fits agree same
      have last : network.nodes[count]? = some node := found
      refine ⟨checked', ?_, ?_, ?_⟩
      · rw [List.take_add_one, last, Option.toList_some, List.foldlM_append, reached]
        simp [stepped]
      · rwa [progressAfter_succ found]
      · rwa [progressAfter_succ found]
  obtain ⟨checked, reached, -, same⟩ := started network.size (Nat.le_refl _)
  rw [Network.size, List.take_length] at reached
  rw [run?, reached, Option.map_some, same, progressAfter_size]

/-! ## Networks that a builder can reach -/

/-- Whatever calls a builder has seen, a run gives every node of its network one
list of activations, which is what the node pulls from the final lists of its
operands; these are its predecessors and stand before it. Whenever a node is
taken, the inputs hold the final lists of the nodes taken before and nothing
else, and no index is ever out of bounds. -/
theorem reachable_run_pulls {config : Config} {builder : Builder}
    (reachable : Reachable config builder) (facts : List Fact) :
    let network := builder.network
    let report := Report.ofRun network facts
    report.activations.length = network.size ∧
    (∀ (i : Nat) (node : Node), network.node? i = some node →
      node.kind.ReadsFrom i node.predecessors ∧
      report.activations[i]? = some (match node.kind with
        | .root => []
        | .pattern _ condition => activate config condition (place facts)
        | .join _ operator operands =>
            combine operator (operands.map report.activationsOf) config.activationLimit.toNat)) ∧
    (∀ count, count ≤ network.size →
      progressAfter network facts count =
        ⟨waiting network (report.activations.take count), report.activations.take count⟩) ∧
    run? network facts = some report.activations := by
  intro network report
  have wf : WellFormed network := reachable.wellFormed
  refine ⟨length_run wf facts, fun i node found => ⟨wf.reads found, ?_⟩,
    fun count inside => progressAfter_eq wf facts inside, run?_eq_some wf facts⟩
  have equation := run_equation wf facts found
  have limits : network.config = config := reachable.config_eq
  rw [pulled, limits] at equation
  exact equation

/-- One pattern is both operands of a conjunction: it fills both inputs. -/
theorem reachable_run_pulls_pair :
    let pattern : Element := { name := "weapon", attributes := [("type", "string")], text := "axe" }
    let rule := Definition.ofCondition "pair" { name := "and", children := [pattern, pattern] }
    let facts : List Fact := [.leaf 1 "weapon" (.string "axe"), .leaf 2 "weapon" (.string "axe")]
    let network := ((Builder.ofConfig {}).offer rule).network
    (run network facts).map List.length = [0, 2, 4] ∧
      (progressAfter network facts 2).inboxes.map (List.map List.length) = [[], [0], [2, 2]] ∧
      run? network facts = some (run network facts) := by
  intro pattern rule facts network
  have reachable : Reachable {} ((Builder.ofConfig {}).offer rule) := .offer rule .start
  obtain ⟨-, -, inputs, checked⟩ := reachable_run_pulls reachable facts
  refine ⟨by decide, ?_, checked⟩
  rw [inputs 2 (by decide)]
  decide

end RuleNet.Engine

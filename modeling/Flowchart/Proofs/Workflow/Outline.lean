import Flowchart.Proofs.Outline
import Flowchart.Proofs.Workflow.Schedule

/-!
# Outlines of chained workflows

A step is drawn wherever a chain comes to it, each time as one gadget: its node
alone, its node behind a condition node, or a loop.  The gadgets are numbered
through in the order in which they are drawn.  Within a chain the exit of each
gadget is joined to the first node of the next one.  The heads of a subscriber
graph are joined from the exits of the most recent occurrences of the steps that
the key names; the heads of the main graph are joined from nowhere.
-/

namespace Flowchart

open Outline
open Progress (keyParts)

/-! ## Gadgets -/

/-- What a step of a chain is drawn as. -/
inductive Gadget where
  /-- The node of the step. -/
  | plain
  /-- A condition node and the node of the step. -/
  | guarded
  /-- A loop condition, the outcome that runs the step again, the node of the
  step, and the outcome that finishes the loop. -/
  | looped
  deriving DecidableEq, Repr

namespace Gadget

def nodeCount : Gadget → Nat
  | plain => 1
  | guarded => 2
  | looped => 4

/-- The node that a chain goes on from, if the first node is number `n`. -/
def exit (n : Nat) : Gadget → Nat
  | plain => n
  | guarded => n + 1
  | looped => n + 3

/-- The arcs inside of a gadget.  In a loop the node of the step leads
nowhere. -/
def arcs (n : Nat) : Gadget → List (Nat × Nat)
  | plain => []
  | guarded => [(n, n + 1)]
  | looped => [(n, n + 1), (n + 1, n + 2), (n, n + 3)]

theorem exit_bounds (n : Nat) (gadget : Gadget) :
    n ≤ gadget.exit n ∧ gadget.exit n < n + gadget.nodeCount := by
  cases gadget <;> simp [exit, nodeCount]

theorem arcs_ascending (n : Nat) (gadget : Gadget) :
    Ascending n (n + gadget.nodeCount) (gadget.arcs n) := by
  cases gadget <;> simp [arcs, nodeCount, Ascending]

end Gadget

namespace Card

/-- The node of a step of a chain. -/
def ofChainStep (rank : Nat) (step : ChainStep) : Card :=
  ⟨.standard, step.id, step.description, none, [], step.id, rank⟩

/-- A node that stands by a step of a chain. -/
def beside (rank : Nat) (step : ChainStep) (role : Role) (kind : NodeKind)
    (label : String) (conditions : List Condition) : Card :=
  ⟨kind, label, none, none, conditions, role.baseId step.id rank, rank⟩

/-- The node of an outcome of a loop condition. -/
def ofOutcome (rank : Nat) (step : ChainStep) (outcome : LoopOutcome) : Card :=
  match outcome with
  | .again => beside rank step .again .loopResult "continue" []
  | .finished => beside rank step .finished .loopResult "finished" []

end Card

namespace ChainStep

def gadget (step : ChainStep) : Gadget :=
  match step.loopKind, step.guard with
  | some _, _ => .looped
  | none, some _ => .guarded
  | none, none => .plain

/-- What the nodes of the gadget of a step show. -/
def cards (rank : Nat) (step : ChainStep) : List Card :=
  match step.loopKind, step.guard with
  | some kind, group =>
    [.beside rank step .loop .condition
        (step.loopLabel.getD kind.conditionKind.word)
        ((group.map (Condition.ofGroup kind.conditionKind)).getD []),
      .ofOutcome rank step .again, .ofChainStep rank step,
      .ofOutcome rank step .finished]
  | none, some group =>
    [.beside rank step .guard .condition ConditionKind.whenKind.word
        (Condition.ofGroup .whenKind group),
      .ofChainStep rank step]
  | none, none => [.ofChainStep rank step]

theorem cards_length (rank : Nat) (step : ChainStep) :
    (step.cards rank).length = step.gadget.nodeCount := by
  unfold cards gadget
  cases step.loopKind <;> cases step.guard <;> rfl

end ChainStep

/-! ## Occurrences -/

/-- A step at a place of a chain: its rank, the number of the first node of its
gadget, and the numbers of the nodes that this node is joined from. -/
structure Occurrence where
  step : ChainStep
  rank : Nat
  first : Nat
  sources : List Nat

namespace Occurrence

/-- The number behind the gadget. -/
def next (o : Occurrence) : Nat :=
  o.first + o.step.gadget.nodeCount

/-- The number of the node that the chain goes on from. -/
def exit (o : Occurrence) : Nat :=
  o.step.gadget.exit o.first

def arcs (o : Occurrence) : List (Nat × Nat) :=
  o.sources ×ˢ [o.first] ++ o.step.gadget.arcs o.first

end Occurrence

/-- The occurrences that are drawn so far, in their order. -/
abbrev Occurrences := List Occurrence

namespace Occurrences

def nodeCount (drawn : Occurrences) : Nat :=
  (drawn.map fun o => o.step.gadget.nodeCount).sum

def cards (drawn : Occurrences) : List Card :=
  drawn.flatMap fun o => o.step.cards o.rank

def arcs (drawn : Occurrences) : List (Nat × Nat) :=
  drawn.flatMap Occurrence.arcs

/-- The step occurs next. -/
def nextOccurrence (drawn : Occurrences) (step : ChainStep) (rank : Nat)
    (sources : List Nat) : Occurrence :=
  ⟨step, rank, drawn.nodeCount, sources⟩

/-- A chain is drawn, its head joined from the sources and every other step
from the exit of the step before it. -/
def addChain (rank : Nat) (sources : List Nat) :
    List ChainStep → Occurrences → Occurrences
  | [], drawn => drawn
  | step :: steps, drawn =>
    let o := drawn.nextOccurrence step rank sources
    addChain (rank + 1) [o.exit] steps (drawn ++ [o])

/-- All chains of a graph are drawn. -/
def addGraph (drawn : Occurrences) (graph : ChainGraph) (rank : Nat)
    (sources : List Nat) : Occurrences :=
  graph.heads.foldl
    (fun drawn head => drawn.addChain rank sources (graph.chain head)) drawn

/-- The most recent occurrence of a step. -/
def latest? (drawn : Occurrences) (stepId : String) : Option Occurrence :=
  drawn.reverse.find? fun o => o.step.id == stepId

/-- One more than the greatest rank. -/
def rankBehind (sources : Occurrences) : Nat :=
  (sources.map fun o => o.rank + 1).foldr max 0

/-- Subscriber graphs are drawn, each behind the most recent occurrences of the
steps that its key names, all of which have to occur by then. -/
def addSubscribers (drawn : Occurrences) :
    List Subscriber → Option Occurrences
  | [] => some drawn
  | (key, graph) :: order =>
    ((keyParts key).mapM drawn.latest?).bind fun sources =>
      addSubscribers
        (drawn.addGraph graph (rankBehind sources)
          (sources.map Occurrence.exit))
        order

/-- The outline that shows the occurrences. -/
def outline (drawn : Occurrences) : Outline :=
  ⟨drawn.cards, drawn.arcs⟩

end Occurrences

/-- The occurrences of steps in a workflow.  The subscriber graphs follow the
main graph in the order in which their keys become ready. -/
def Workflow.occurrences? (w : Workflow) : Option Occurrences :=
  (Occurrences.addGraph [] w.main 0 []).addSubscribers w.schedule.drawn

/-! ## Numbering -/

namespace Occurrences

theorem nodeCount_append_singleton (drawn : Occurrences) (o : Occurrence) :
    nodeCount (drawn ++ [o]) = drawn.nodeCount + o.step.gadget.nodeCount := by
  simp [nodeCount]

theorem cards_length (drawn : Occurrences) :
    drawn.cards.length = drawn.nodeCount := by
  simp [cards, nodeCount, List.length_flatMap, ChainStep.cards_length]

/-- Gadgets are numbered one behind the other, they are joined from exits of
earlier ones only, and those of rank zero from nowhere. -/
structure Numbered (drawn : Occurrences) : Prop where
  ordered : drawn.Pairwise fun o o' => o.next ≤ o'.first
  below : ∀ o ∈ drawn, o.next ≤ drawn.nodeCount
  sources : ∀ o ∈ drawn, ∀ i ∈ o.sources,
    i < o.first ∧ i ∈ drawn.map Occurrence.exit
  start : ∀ o ∈ drawn, o.rank = 0 → o.sources = []

namespace Numbered

theorem nil : Numbered [] :=
  ⟨.nil, by simp, by simp, by simp⟩

variable {drawn : Occurrences}

theorem exit_lt (h : Numbered drawn) {i : Nat}
    (hi : i ∈ drawn.map Occurrence.exit) : i < drawn.nodeCount := by
  obtain ⟨o, ho, rfl⟩ := List.mem_map.mp hi
  have hexit := (Gadget.exit_bounds o.first o.step.gadget).2
  exact lt_of_lt_of_le hexit (h.below o ho)

/-- One more gadget keeps the numbering. -/
theorem concat (h : Numbered drawn) {rank : Nat} {sources : List Nat}
    (hsources : sources ⊆ drawn.map Occurrence.exit)
    (hstart : rank = 0 → sources = []) (step : ChainStep) :
    Numbered (drawn ++ [drawn.nextOccurrence step rank sources]) where
  ordered := by
    refine List.pairwise_append.mpr ⟨h.ordered, by simp, ?_⟩
    intro o ho o' ho'
    rw [List.mem_singleton.mp ho']
    exact h.below o ho
  below := by
    intro o ho
    rw [nodeCount_append_singleton]
    rcases List.mem_append.mp ho with hold | hnew
    · have hbelow := h.below o hold
      omega
    · rw [List.mem_singleton.mp hnew]
      exact le_refl _
  sources := by
    intro o ho i hi
    rw [List.map_append]
    rcases List.mem_append.mp ho with hold | hnew
    · obtain ⟨hlt, hexit⟩ := h.sources o hold i hi
      exact ⟨hlt, List.mem_append_left _ hexit⟩
    · rw [List.mem_singleton.mp hnew] at hi ⊢
      exact ⟨h.exit_lt (hsources hi), List.mem_append_left _ (hsources hi)⟩
  start := by
    intro o ho
    rcases List.mem_append.mp ho with hold | hnew
    · exact h.start o hold
    · rw [List.mem_singleton.mp hnew]
      exact hstart

theorem addChain
    (h : Numbered drawn) {rank : Nat} {sources : List Nat}
    (hsources : sources ⊆ drawn.map Occurrence.exit)
    (hstart : rank = 0 → sources = []) (steps : List ChainStep) :
    Numbered (drawn.addChain rank sources steps) ∧
      drawn ⊆ drawn.addChain rank sources steps := by
  induction steps generalizing drawn rank sources with
  | nil => exact ⟨h, List.Subset.refl _⟩
  | cons step steps ih =>
      have hstep := h.concat hsources hstart step
      have hexit : [(drawn.nextOccurrence step rank sources).exit] ⊆
          (drawn ++ [drawn.nextOccurrence step rank sources]).map
            Occurrence.exit := by
        simp
      have hlater : rank + 1 = 0 →
          [(drawn.nextOccurrence step rank sources).exit] = [] := by
        omega
      obtain ⟨hsteps, hsubset⟩ := ih hstep hexit hlater
      exact ⟨hsteps, fun o ho => hsubset (List.mem_append_left _ ho)⟩

theorem addGraph
    (h : Numbered drawn) {rank : Nat} {sources : List Nat}
    (hsources : sources ⊆ drawn.map Occurrence.exit)
    (hstart : rank = 0 → sources = []) (graph : ChainGraph) :
    Numbered (drawn.addGraph graph rank sources) := by
  unfold Occurrences.addGraph
  induction graph.heads generalizing drawn with
  | nil => exact h
  | cons head heads ih =>
      obtain ⟨hchain, hsubset⟩ :=
        h.addChain hsources hstart (graph.chain head)
      exact ih hchain fun _ hi => List.map_subset _ hsubset (hsources hi)

end Numbered

/-- Every source is an occurrence that is drawn. -/
theorem subset_of_mapM_latest?
    {drawn sources : Occurrences} {parts : List String}
    (h : parts.mapM drawn.latest? = some sources) : sources ⊆ drawn := by
  induction parts generalizing sources with
  | nil =>
      cases h
      exact List.nil_subset _
  | cons part parts ih =>
      simp only [List.mapM_cons, Option.bind_eq_bind, Option.bind_eq_some_iff,
        Option.pure_def, Option.some.injEq] at h
      obtain ⟨o, hlatest, rest, hrest, rfl⟩ := h
      have ho : o ∈ drawn :=
        List.mem_reverse.mp (List.mem_of_find?_eq_some hlatest)
      exact List.cons_subset.mpr ⟨ho, ih hrest⟩

/-- Nothing stands behind a rank of zero. -/
theorem eq_nil_of_rankBehind_eq_zero
    {sources : Occurrences} (h : sources.rankBehind = 0) : sources = [] := by
  cases sources with
  | nil => rfl
  | cons o sources => simp [rankBehind] at h

theorem Numbered.addSubscribers
    {drawn drawn' : Occurrences} (h : Numbered drawn) {order : List Subscriber}
    (hdrawn : drawn.addSubscribers order = some drawn') :
    Numbered drawn' := by
  induction order generalizing drawn with
  | nil =>
      cases hdrawn
      exact h
  | cons s order ih =>
      obtain ⟨key, graph⟩ := s
      obtain ⟨sources, hsources, hrest⟩ := Option.bind_eq_some_iff.mp hdrawn
      refine ih (h.addGraph ?_ ?_ graph) hrest
      · exact List.map_subset _ (subset_of_mapM_latest? hsources)
      · intro hrank
        rw [eq_nil_of_rankBehind_eq_zero hrank, List.map_nil]

end Occurrences

theorem Workflow.occurrences?_numbered
    {w : Workflow} {drawn : Occurrences} (h : w.occurrences? = some drawn) :
    drawn.Numbered :=
  (Occurrences.Numbered.nil.addGraph (List.nil_subset _) (fun _ => rfl)
    w.main).addSubscribers h

/-! ## Where arcs lead -/

namespace Occurrences

variable {drawn : Occurrences}

theorem mem_arcs_iff {arc : Nat × Nat} :
    arc ∈ drawn.arcs ↔ ∃ o ∈ drawn,
      (arc.1 ∈ o.sources ∧ arc.2 = o.first) ∨
        arc ∈ o.step.gadget.arcs o.first := by
  obtain ⟨i, j⟩ := arc
  simp [arcs, Occurrence.arcs]

namespace Numbered

theorem arcs_ascending (h : Numbered drawn) :
    Ascending 0 drawn.nodeCount drawn.arcs := by
  intro arc harc
  obtain ⟨o, ho, ⟨hsource, htarget⟩ | hinner⟩ := mem_arcs_iff.mp harc
  · have hlt := (h.sources o ho arc.1 hsource).1
    have hbelow := h.below o ho
    have hexit := Gadget.exit_bounds o.first o.step.gadget
    unfold Occurrence.next at hbelow
    omega
  · have hbounds := o.step.gadget.arcs_ascending o.first arc hinner
    have hbelow := h.below o ho
    unfold Occurrence.next at hbelow
    omega

/-- No node belongs to two gadgets. -/
theorem eq_of_mem_gadget
    (h : Numbered drawn) {o o' : Occurrence} (ho : o ∈ drawn) (ho' : o' ∈ drawn)
    {i : Nat} (hi : o.first ≤ i ∧ i < o.next)
    (hi' : o'.first ≤ i ∧ i < o'.next) : o = o' := by
  let apart : Occurrence → Occurrence → Prop := fun o o' =>
    ∀ i, o.first ≤ i ∧ i < o.next → o'.first ≤ i ∧ i < o'.next → o = o'
  have hsymm : Std.Symm apart :=
    ⟨fun o o' hoo' i hi hi' => (hoo' i hi' hi).symm⟩
  have hrefl : ∀ o ∈ drawn, apart o o := fun o _ _ _ _ => rfl
  have hordered : drawn.Pairwise apart := by
    refine h.ordered.imp ?_
    intro o o' hle i hi hi'
    omega
  exact hordered.forall_of_forall hrefl ho ho' i hi hi'

/-- An arc to a node of a gadget comes from inside, or leads to the first node
from one of the sources. -/
theorem arc_into
    (h : Numbered drawn) {o : Occurrence} (ho : o ∈ drawn) {i j : Nat}
    (hj : o.first ≤ j ∧ j < o.next) :
    (i, j) ∈ drawn.arcs ↔
      (i ∈ o.sources ∧ j = o.first) ∨ (i, j) ∈ o.step.gadget.arcs o.first := by
  constructor
  · intro harc
    obtain ⟨o', ho', hcases⟩ := mem_arcs_iff.mp harc
    have hj' : o'.first ≤ j ∧ j < o'.next := by
      have hexit := Gadget.exit_bounds o'.first o'.step.gadget
      unfold Occurrence.next
      rcases hcases with ⟨-, hfirst⟩ | hinner
      · simp only at hfirst
        omega
      · have hbounds := o'.step.gadget.arcs_ascending o'.first _ hinner
        simp only at hbounds
        omega
    rw [h.eq_of_mem_gadget ho ho' hj hj']
    exact hcases
  · intro hcases
    exact mem_arcs_iff.mpr ⟨o, ho, hcases⟩

/-- An arc from a node of a gadget stays inside or leaves from the exit. -/
theorem arc_from
    (h : Numbered drawn) {o : Occurrence} (ho : o ∈ drawn) {i j : Nat}
    (hi : o.first ≤ i ∧ i < o.next) (harc : (i, j) ∈ drawn.arcs) :
    i = o.exit ∨ (i, j) ∈ o.step.gadget.arcs o.first := by
  obtain ⟨o', ho', ⟨hsource, -⟩ | hinner⟩ := mem_arcs_iff.mp harc
  · obtain ⟨source, hsource, hexit⟩ :=
      List.mem_map.mp (h.sources o' ho' i hsource).2
    have hi' : source.first ≤ i ∧ i < source.next := by
      rw [← hexit]
      exact Gadget.exit_bounds source.first source.step.gadget
    rw [h.eq_of_mem_gadget ho hsource hi hi']
    exact Or.inl hexit.symm
  · have hbounds := o'.step.gadget.arcs_ascending o'.first _ hinner
    have hi' : o'.first ≤ i ∧ i < o'.next := by
      unfold Occurrence.next
      simp only at hbounds
      omega
    rw [h.eq_of_mem_gadget ho ho' hi hi']
    exact Or.inr hinner

theorem arc_into_start
    (h : Numbered drawn) {o : Occurrence} (ho : o ∈ drawn)
    (hrank : o.rank = 0) (k : Nat) : (k, o.first) ∉ drawn.arcs := by
  have hexit := Gadget.exit_bounds o.first o.step.gadget
  intro harc
  rcases (h.arc_into ho (by unfold Occurrence.next; omega)).mp harc with
    ⟨hsource, -⟩ | hinner
  · rw [h.start o ho hrank] at hsource
    cases hsource
  · have hbounds := o.step.gadget.arcs_ascending o.first _ hinner
    simp only at hbounds
    omega

/-- The node of a guarded step is entered from its condition node only. -/
theorem arc_into_guarded
    (h : Numbered drawn) {o : Occurrence} (ho : o ∈ drawn)
    (hgadget : o.step.gadget = .guarded) (k : Nat) :
    (k, o.first + 1) ∈ drawn.arcs ↔ k = o.first := by
  have hnext : o.next = o.first + 2 := by
    simp [Occurrence.next, hgadget, Gadget.nodeCount]
  rw [h.arc_into ho (by omega), hgadget]
  simp [Gadget.arcs]

/-- The node of a step that is run again is entered from the outcome that runs
it again only. -/
theorem arc_into_rerun
    (h : Numbered drawn) {o : Occurrence} (ho : o ∈ drawn)
    (hgadget : o.step.gadget = .looped) (k : Nat) :
    (k, o.first + 2) ∈ drawn.arcs ↔ k = o.first + 1 := by
  have hnext : o.next = o.first + 4 := by
    simp [Occurrence.next, hgadget, Gadget.nodeCount]
  rw [h.arc_into ho (by omega), hgadget]
  simp [Gadget.arcs]

/-- The node of a step that is run again is never left. -/
theorem arc_from_rerun
    (h : Numbered drawn) {o : Occurrence} (ho : o ∈ drawn)
    (hgadget : o.step.gadget = .looped) (k : Nat) :
    (o.first + 2, k) ∉ drawn.arcs := by
  have hnext : o.next = o.first + 4 := by
    simp [Occurrence.next, hgadget, Gadget.nodeCount]
  intro harc
  have hleft := h.arc_from ho (by omega) harc
  simp [Occurrence.exit, hgadget, Gadget.exit, Gadget.arcs] at hleft

end Numbered

end Occurrences

end Flowchart

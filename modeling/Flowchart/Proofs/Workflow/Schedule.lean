import Flowchart.Diagram.OfWorkflow
import Mathlib

/-!
# The order of subscriber graphs

Which subscriber graphs are drawn, and in which order, depends on nothing but
the ids of the steps that are known at each moment.  A sweep goes through the
graphs that still wait and takes every one whose key is ready by then, so that
a graph may profit from one taken before it in the same sweep.  Sweeping until
nothing changes reaches exactly the steps that are available: those of the main
graph and those of graphs whose keys name available steps only.
-/

namespace Flowchart

open Progress (keyParts)

/-- A subscriber graph behind its key. -/
abbrev Subscriber := String × ChainGraph

/-- The ids of the steps on the chains of a graph. -/
def ChainGraph.stepIds (graph : ChainGraph) : List String :=
  graph.heads.flatMap fun head => (graph.chain head).map ChainStep.id

/-! ## Available steps -/

namespace Workflow

/-- The least set of step ids with those of the main graph and, with all steps
that a key names, those of the subscriber graph behind the key. -/
inductive Available (w : Workflow) : String → Prop
  | main {id} (hid : id ∈ w.main.stepIds) : Available w id
  | subscriber {key graph id} (hmem : (key, graph) ∈ w.subscribers)
      (hkey : keyParts key ≠ [])
      (hparts : ∀ part ∈ keyParts key, Available w part)
      (hid : id ∈ graph.stepIds) : Available w id

/-- The key names a step, and all steps that it names are available. -/
def Enabled (w : Workflow) (key : String) : Prop :=
  keyParts key ≠ [] ∧ ∀ part ∈ keyParts key, w.Available part

/-- What a key that is not enabled waits for in vain: the first step that it
names and that is not available, or itself if it names no step. -/
def Missing (w : Workflow) (key stepId : String) : Prop :=
  (keyParts key = [] ∧ stepId = key) ∨
    ∃ before after, keyParts key = before ++ stepId :: after ∧
      (∀ part ∈ before, w.Available part) ∧ ¬w.Available stepId

/-- The subscriber graphs stand in the order of their keys, as they do in every
workflow that is read from a document. -/
def KeysAscending (w : Workflow) : Prop :=
  w.subscribers.Pairwise fun s t => s.1 < t.1

end Workflow

/-! ## Sweeping -/

/-- The subscriber graphs that are drawn, in their order, and those that are
left waiting. -/
structure Schedule where
  drawn : List Subscriber
  waiting : List Subscriber

namespace Schedule

/-- The key names a step, and all steps that it names are known. -/
def Ready (known : List String) (key : String) : Prop :=
  keyParts key ≠ [] ∧ ∀ part ∈ keyParts key, part ∈ known

instance (known : List String) (key : String) : Decidable (Ready known key) :=
  inferInstanceAs (Decidable (_ ∧ _))

/-- The steps that become known with subscriber graphs. -/
def gained (subscribers : List Subscriber) : List String :=
  subscribers.flatMap fun s => s.2.stepIds

/-- Goes through subscriber graphs once. -/
def sweep (known : List String) : List Subscriber → Schedule
  | [] => ⟨[], []⟩
  | s :: pending =>
    if Ready known s.1 then
      let rest := sweep (known ++ s.2.stepIds) pending
      ⟨s :: rest.drawn, rest.waiting⟩
    else
      let rest := sweep known pending
      ⟨rest.drawn, s :: rest.waiting⟩

/-- Goes through subscriber graphs until none of those that are left is
ready. -/
def settle (known : List String) (pending : List Subscriber) : Schedule :=
  let round := sweep known pending
  if _h : round.waiting.length < pending.length then
    let later := settle (known ++ gained round.drawn) round.waiting
    ⟨round.drawn ++ later.drawn, later.waiting⟩
  else
    ⟨[], pending⟩
termination_by pending.length
decreasing_by assumption

/-- Each subscriber graph is ready when its turn comes. -/
inductive InOrder : List String → List Subscriber → Prop
  | nil {known} : InOrder known []
  | cons {known s order} (ready : Ready known s.1)
      (rest : InOrder (known ++ s.2.stepIds) order) :
      InOrder known (s :: order)

theorem gained_append (order later : List Subscriber) :
    gained (order ++ later) = gained order ++ gained later :=
  List.flatMap_append

theorem InOrder.append
    {known : List String} {order later : List Subscriber}
    (h : InOrder known order) (h' : InOrder (known ++ gained order) later) :
    InOrder known (order ++ later) := by
  induction h with
  | nil => simpa [gained] using h'
  | cons ready rest ih =>
      refine .cons ready (ih ?_)
      simpa [gained] using h'

theorem sweep_inOrder (known : List String) (pending : List Subscriber) :
    InOrder known (sweep known pending).drawn := by
  induction pending generalizing known with
  | nil => exact .nil
  | cons s pending ih =>
      by_cases hready : Ready known s.1
      · simp only [sweep, if_pos hready]
        exact .cons hready (ih _)
      · simp only [sweep, if_neg hready]
        exact ih known

theorem sweep_perm (known : List String) (pending : List Subscriber) :
    ((sweep known pending).drawn ++ (sweep known pending).waiting).Perm
      pending := by
  induction pending generalizing known with
  | nil => exact List.Perm.refl _
  | cons s pending ih =>
      by_cases hready : Ready known s.1
      · simp only [sweep, if_pos hready]
        exact (ih _).cons s
      · simp only [sweep, if_neg hready]
        exact List.perm_middle.trans ((ih known).cons s)

theorem sweep_waiting_sublist
    (known : List String) (pending : List Subscriber) :
    (sweep known pending).waiting.Sublist pending := by
  induction pending generalizing known with
  | nil => exact List.Sublist.refl _
  | cons s pending ih =>
      by_cases hready : Ready known s.1
      · simp only [sweep, if_pos hready]
        exact (ih _).cons s
      · simp only [sweep, if_neg hready]
        exact (ih known).cons_cons s

/-- A sweep that takes nothing has met no key that is ready. -/
theorem not_ready_of_sweep_drawn_eq_nil
    {known : List String} {pending : List Subscriber}
    (hnone : (sweep known pending).drawn = []) :
    ∀ s ∈ pending, ¬Ready known s.1 := by
  induction pending with
  | nil => simp
  | cons s pending ih =>
      by_cases hready : Ready known s.1
      · simp [sweep, hready] at hnone
      · simp only [sweep, if_neg hready] at hnone
        intro t ht
        rcases List.mem_cons.mp ht with rfl | ht
        · exact hready
        · exact ih hnone t ht

theorem sweep_drawn_eq_nil_of_not_lt
    {known : List String} {pending : List Subscriber}
    (hstuck : ¬(sweep known pending).waiting.length < pending.length) :
    (sweep known pending).drawn = [] := by
  have hlength := (sweep_perm known pending).length_eq
  rw [List.length_append] at hlength
  exact List.length_eq_zero_iff.mp (by omega)

/-! ## What settling reaches -/

theorem settle_inOrder (known : List String) (pending : List Subscriber) :
    InOrder known (settle known pending).drawn := by
  induction known, pending using settle.induct with
  | case1 known pending round hprogress ih =>
      rw [settle, dif_pos hprogress]
      exact (sweep_inOrder known pending).append ih
  | case2 known pending round hstuck =>
      rw [settle, dif_neg hstuck]
      exact .nil

theorem settle_perm (known : List String) (pending : List Subscriber) :
    ((settle known pending).drawn ++ (settle known pending).waiting).Perm
      pending := by
  induction known, pending using settle.induct with
  | case1 known pending round hprogress ih =>
      rw [settle, dif_pos hprogress, List.append_assoc]
      exact (ih.append_left _).trans (sweep_perm known pending)
  | case2 known pending round hstuck =>
      rw [settle, dif_neg hstuck, List.nil_append]

theorem settle_waiting_sublist
    (known : List String) (pending : List Subscriber) :
    (settle known pending).waiting.Sublist pending := by
  induction known, pending using settle.induct with
  | case1 known pending round hprogress ih =>
      rw [settle, dif_pos hprogress]
      exact ih.trans (sweep_waiting_sublist known pending)
  | case2 known pending round hstuck =>
      rw [settle, dif_neg hstuck]

/-- No key that is left waiting is ready in the end. -/
theorem settle_waiting_not_ready
    (known : List String) (pending : List Subscriber) :
    ∀ s ∈ (settle known pending).waiting,
      ¬Ready (known ++ gained (settle known pending).drawn) s.1 := by
  induction known, pending using settle.induct with
  | case1 known pending round hprogress ih =>
      rw [settle, dif_pos hprogress]
      simpa [gained_append, List.append_assoc] using ih
  | case2 known pending round hstuck =>
      rw [settle, dif_neg hstuck]
      simpa [gained] using
        not_ready_of_sweep_drawn_eq_nil (sweep_drawn_eq_nil_of_not_lt hstuck)

/-- What is drawn in order, behind steps that are available, is enabled and
brings steps that are available. -/
theorem InOrder.available
    {w : Workflow} {known : List String} {order : List Subscriber}
    (h : InOrder known order) (horder : order ⊆ w.subscribers)
    (hknown : ∀ id ∈ known, w.Available id) :
    (∀ s ∈ order, w.Enabled s.1) ∧
      ∀ id ∈ known ++ gained order, w.Available id := by
  induction h with
  | nil => exact ⟨by simp, by simpa [gained] using hknown⟩
  | @cons known s order ready rest ih =>
      obtain ⟨hs, horder⟩ := List.cons_subset.mp horder
      have hparts : ∀ part ∈ keyParts s.1, w.Available part :=
        fun part hpart => hknown part (ready.2 part hpart)
      have hknown' : ∀ id ∈ known ++ s.2.stepIds, w.Available id := by
        intro id hid
        rcases List.mem_append.mp hid with hold | hnew
        · exact hknown id hold
        · exact .subscriber hs ready.1 hparts hnew
      obtain ⟨henabled, havailable⟩ := ih horder hknown'
      constructor
      · intro t ht
        rcases List.mem_cons.mp ht with rfl | ht
        · exact ⟨ready.1, hparts⟩
        · exact henabled t ht
      · simpa [gained, List.append_assoc] using havailable

end Schedule

/-! ## The steps of a workflow -/

namespace Workflow

open Schedule (Ready gained)

/-- The order in which the subscriber graphs of a workflow are drawn. -/
def schedule (w : Workflow) : Schedule :=
  .settle w.main.stepIds w.subscribers

/-- The steps that are known in the end. -/
def reached (w : Workflow) : List String :=
  w.main.stepIds ++ gained w.schedule.drawn

theorem schedule_perm (w : Workflow) :
    (w.schedule.drawn ++ w.schedule.waiting).Perm w.subscribers :=
  Schedule.settle_perm w.main.stepIds w.subscribers

theorem schedule_drawn_subset (w : Workflow) :
    w.schedule.drawn ⊆ w.subscribers := by
  intro s hs
  exact w.schedule_perm.subset (List.mem_append_left _ hs)

theorem schedule_drawn_enabled (w : Workflow) :
    ∀ s ∈ w.schedule.drawn, w.Enabled s.1 :=
  ((Schedule.settle_inOrder w.main.stepIds w.subscribers).available
    w.schedule_drawn_subset fun _ hid => .main hid).1

theorem schedule_waiting_not_ready (w : Workflow) :
    ∀ s ∈ w.schedule.waiting, ¬Ready w.reached s.1 :=
  Schedule.settle_waiting_not_ready w.main.stepIds w.subscribers

/-- Settling reaches the least fixpoint. -/
theorem mem_reached_iff {w : Workflow} {id : String} :
    id ∈ w.reached ↔ w.Available id := by
  constructor
  · exact ((Schedule.settle_inOrder w.main.stepIds w.subscribers).available
      w.schedule_drawn_subset fun _ hid => .main hid).2 id
  · intro h
    induction h with
    | main hid => exact List.mem_append_left _ hid
    | @subscriber key graph id hmem hkey hparts hid ih =>
        have hready : Ready w.reached key := ⟨hkey, ih⟩
        have hsplit := w.schedule_perm.mem_iff.mpr hmem
        rcases List.mem_append.mp hsplit with hdrawn | hwaiting
        · exact List.mem_append_right _
            (List.mem_flatMap.mpr ⟨_, hdrawn, hid⟩)
        · exact absurd hready (w.schedule_waiting_not_ready _ hwaiting)

theorem ready_reached_iff {w : Workflow} {key : String} :
    Ready w.reached key ↔ w.Enabled key := by
  simp only [Ready, Enabled, mem_reached_iff]

/-- What is left waiting are the subscriber graphs that are not enabled, in
the order in which the workflow lists them. -/
theorem schedule_waiting_eq_filter (w : Workflow) :
    w.schedule.waiting =
      w.subscribers.filter fun s => !decide (Ready w.reached s.1) := by
  let blocked : Subscriber → Bool := fun s => !decide (Ready w.reached s.1)
  have hdrawn : w.schedule.drawn.filter blocked = [] := by
    rw [List.filter_eq_nil_iff]
    intro s hs
    simpa [blocked, ready_reached_iff] using w.schedule_drawn_enabled s hs
  have hwaiting : w.schedule.waiting.filter blocked = w.schedule.waiting := by
    rw [List.filter_eq_self]
    intro s hs
    simpa [blocked] using w.schedule_waiting_not_ready s hs
  have hperm := w.schedule_perm.filter blocked
  have hsublist := (Schedule.settle_waiting_sublist w.main.stepIds
    w.subscribers).filter blocked
  change (w.schedule.waiting.filter blocked).Sublist _ at hsublist
  rw [List.filter_append, hdrawn, List.nil_append, hwaiting] at hperm
  rw [hwaiting] at hsublist
  exact hsublist.eq_of_length hperm.length_eq

end Workflow

end Flowchart

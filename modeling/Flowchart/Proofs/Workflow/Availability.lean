import Flowchart.Proofs.Workflow.Reading
import Flowchart.Proofs.Workflow.Run

/-!
# Which workflows have a diagram

A workflow has a diagram exactly if every subscriber key is enabled, that is,
if it names a step and all steps that it names are available.  Otherwise the
error names the first key that is not enabled and what this key misses, no
matter how many sweeps came before.
-/

namespace Flowchart

open Progress (keyParts Draws)
open Schedule (Ready)

namespace Workflow

/-- The main graph of a workflow is drawn. -/
def start (style : EdgeStyle) (w : Workflow) : Progress :=
  (Progress.mk (Builder.empty style) []).drawGraph w.main 0 []

theorem start_knows (style : EdgeStyle) (w : Workflow) :
    (w.start style).Knows w.main.stepIds := by
  intro id
  rw [start, Progress.mem_drawGraph_known]
  simp [Progress.known]

/-- The diagram of a workflow comes from a run over its schedule. -/
theorem exists_draws_schedule (style : EdgeStyle) (w : Workflow) :
    ∃ p, Draws (w.start style) w.schedule.drawn p ∧ p.Knows w.reached ∧
      Diagram.ofWorkflow style w =
        match w.schedule.waiting with
        | [] => .ok p.builder.finish
        | s :: _ => .error (p.waitingError s.1) := by
  obtain ⟨p, hdraws, hsettle⟩ := Progress.settle_spec w.main.stepIds
    w.subscribers (w.start style) (w.start_knows style)
  refine ⟨p, hdraws, (w.start_knows style).draws hdraws, ?_⟩
  have hofWorkflow : Diagram.ofWorkflow style w =
      ((w.start style).settle w.subscribers).map
        fun p => p.builder.finish := rfl
  rw [hofWorkflow, hsettle, schedule]
  cases (Schedule.settle w.main.stepIds w.subscribers).waiting <;> rfl

theorem draws_of_ofWorkflow_eq_ok
    {style : EdgeStyle} {w : Workflow} {diagram : Diagram}
    (h : Diagram.ofWorkflow style w = .ok diagram) :
    w.schedule.waiting = [] ∧
      ∃ p, Draws (w.start style) w.schedule.drawn p ∧
        p.builder.finish = diagram := by
  obtain ⟨p, hdraws, -, hresult⟩ := w.exists_draws_schedule style
  rw [h] at hresult
  cases hwaiting : w.schedule.waiting with
  | nil =>
      rw [hwaiting] at hresult
      exact ⟨rfl, p, hdraws, (Except.ok.inj hresult).symm⟩
  | cons s waiting =>
      rw [hwaiting] at hresult
      cases hresult

theorem exists_ofWorkflow_eq_ok
    {w : Workflow} (hwaiting : w.schedule.waiting = []) (style : EdgeStyle) :
    ∃ diagram, Diagram.ofWorkflow style w = .ok diagram := by
  obtain ⟨p, -, -, hresult⟩ := w.exists_draws_schedule style
  rw [hwaiting] at hresult
  exact ⟨p.builder.finish, hresult⟩

theorem exists_ofWorkflow_eq_error
    {w : Workflow} (hwaiting : w.schedule.waiting ≠ []) (style : EdgeStyle) :
    ∃ error, Diagram.ofWorkflow style w = .error error := by
  obtain ⟨p, -, -, hresult⟩ := w.exists_draws_schedule style
  obtain ⟨s, waiting, hwaiting⟩ := List.exists_cons_of_ne_nil hwaiting
  rw [hwaiting] at hresult
  exact ⟨p.waitingError s.1, hresult⟩

theorem waiting_eq_nil_iff_enabled (w : Workflow) :
    w.schedule.waiting = [] ↔ ∀ s ∈ w.subscribers, w.Enabled s.1 := by
  rw [schedule_waiting_eq_filter, List.filter_eq_nil_iff]
  simp [ready_reached_iff]

/-- The error of a key that is not enabled says what the key misses. -/
theorem waitingError_eq_unknownSource
    {w : Workflow} {p : Progress} (hp : p.Knows w.reached) {key : String}
    (hkey : ¬w.Enabled key) :
    ∃ stepId, w.Missing key stepId ∧
      p.waitingError key = .unknownSource key stepId := by
  have havailable : ∀ id, id ∈ p.known ↔ w.Available id :=
    fun id => (hp id).trans mem_reached_iff
  by_cases hnone : keyParts key = []
  · refine ⟨key, Or.inl ⟨hnone, rfl⟩, ?_⟩
    simp [Progress.waitingError, Progress.sourcesOfKey, hnone]
  · rcases p.sources_cases (keyParts key) with ⟨hall, -⟩ |
      ⟨before, part, after, hsplit, hbefore, hpart, herror⟩
    · exfalso
      exact hkey ⟨hnone, fun part hmem => (havailable part).mp (hall part hmem)⟩
    · refine ⟨part, Or.inr ⟨before, after, hsplit, ?_, ?_⟩, ?_⟩
      · exact fun id hid => (havailable id).mp (hbefore id hid)
      · exact fun h => hpart ((havailable part).mpr h)
      · simp [Progress.waitingError, Progress.sourcesOfKey, hnone, herror]

/-- In ascending order the first key that is not enabled is the least one. -/
theorem KeysAscending.le_of_not_enabled
    {w : Workflow} (h : w.KeysAscending) {before after : List Subscriber}
    {key : String} {graph : ChainGraph}
    (hsplit : w.subscribers = before ++ (key, graph) :: after)
    (hbefore : ∀ s ∈ before, w.Enabled s.1) :
    ∀ s ∈ w.subscribers, ¬w.Enabled s.1 → key ≤ s.1 := by
  intro s hs hblocked
  unfold KeysAscending at h
  rw [hsplit, List.pairwise_append, List.pairwise_cons] at h
  rw [hsplit, List.mem_append, List.mem_cons] at hs
  rcases hs with hs | rfl | hs
  · exact absurd (hbefore s hs) hblocked
  · exact le_refl key
  · exact le_of_lt (h.2.1.1 s hs)

end Workflow

/-- Sweeping over the subscriber graphs computes the available steps and ends.
There is a diagram exactly if all keys are enabled, and then every subscriber
graph is drawn exactly once.  Otherwise the error names the first key that is
not enabled and what it misses; the keys ascend in every workflow that is read,
and then it is the least one. -/
theorem ofWorkflow_least_fixpoint (style : EdgeStyle) (w : Workflow) :
    ((∃ diagram, Diagram.ofWorkflow style w = .ok diagram) ↔
      ∀ s ∈ w.subscribers, w.Enabled s.1) ∧
    (∀ diagram, Diagram.ofWorkflow style w = .ok diagram →
      ∃ order p, order.Perm w.subscribers ∧
        Draws (w.start style) order p ∧ p.builder.finish = diagram) ∧
    (∀ error, Diagram.ofWorkflow style w = .error error →
      ∃ before key graph after stepId,
        w.subscribers = before ++ (key, graph) :: after ∧
        (∀ s ∈ before, w.Enabled s.1) ∧ ¬w.Enabled key ∧
        w.Missing key stepId ∧ error = .unknownSource key stepId ∧
        (w.KeysAscending →
          ∀ s ∈ w.subscribers, ¬w.Enabled s.1 → key ≤ s.1)) ∧
    (∀ text, Workflow.ofText text = .ok w → w.KeysAscending) := by
  obtain ⟨p, -, hp, hresult⟩ := w.exists_draws_schedule style
  refine ⟨?_, ?_, ?_, fun _ => Workflow.ofText_keysAscending⟩
  · rw [← w.waiting_eq_nil_iff_enabled]
    constructor
    · rintro ⟨diagram, hdiagram⟩
      exact (Workflow.draws_of_ofWorkflow_eq_ok hdiagram).1
    · exact fun hwaiting => Workflow.exists_ofWorkflow_eq_ok hwaiting style
  · intro diagram hdiagram
    obtain ⟨hwaiting, p, hdraws, hfinish⟩ :=
      Workflow.draws_of_ofWorkflow_eq_ok hdiagram
    have hperm := w.schedule_perm
    rw [hwaiting, List.append_nil] at hperm
    exact ⟨w.schedule.drawn, p, hperm, hdraws, hfinish⟩
  · intro error herror
    cases hwaiting : w.schedule.waiting with
    | nil =>
        rw [herror, hwaiting] at hresult
        cases hresult
    | cons s waiting =>
        obtain ⟨key, graph⟩ := s
        have hfilter := w.schedule_waiting_eq_filter
        rw [hwaiting, eq_comm, List.filter_eq_cons_iff] at hfilter
        obtain ⟨before, after, hsplit, hbefore, hblocked, -⟩ := hfilter
        simp only [Bool.not_eq_true', decide_eq_false_iff_not, not_not,
          Workflow.ready_reached_iff] at hbefore hblocked
        obtain ⟨stepId, hmissing, hwaitingError⟩ :=
          Workflow.waitingError_eq_unknownSource hp hblocked
        rw [herror, hwaiting] at hresult
        refine ⟨before, key, graph, after, stepId, hsplit, hbefore, hblocked,
          hmissing, ?_, ?_⟩
        · exact (Except.error.inj hresult).trans hwaitingError
        · intro hascending
          exact hascending.le_of_not_enabled hsplit hbefore

/-- A graph that waits for one with a greater key, and others between them. -/
def relayWorkflow (others : List Subscriber) : Workflow where
  main := ⟨[⟨"start", none, none, none, none⟩], []⟩
  subscribers :=
    ("alpha", ⟨[⟨"omega", none, none, none, none⟩], []⟩) ::
      others ++ [("start", ⟨[⟨"alpha", none, none, none, none⟩], []⟩)]

/-- Without others the sweeps draw everything.  A key between them that names a
step that is nowhere drawn is reported with this step. -/
theorem relayWorkflow_least_fixpoint :
    (∃ diagram,
      Diagram.ofWorkflow .standard (relayWorkflow []) = .ok diagram) ∧
    Diagram.ofWorkflow .standard
        (relayWorkflow [("omega && ghost", ChainGraph.empty)]) =
      .error (.unknownSource "omega && ghost" "ghost") := by
  constructor
  · refine (ofWorkflow_least_fixpoint .standard _).1.mpr ?_
    simp only [← Workflow.ready_reached_iff]
    decide +kernel
  · let w := relayWorkflow [("omega && ghost", ChainGraph.empty)]
    have hblocked : ¬w.Enabled "omega && ghost" :=
      mt Workflow.ready_reached_iff.mpr (by decide +kernel)
    have hothers : w.Enabled "alpha" ∧ w.Enabled "start" := by
      simp only [← Workflow.ready_reached_iff]
      decide +kernel
    have homega : w.Available "omega" :=
      Workflow.mem_reached_iff.mp (by decide +kernel)
    have hparts : keyParts "omega && ghost" = ["omega", "ghost"] := by
      decide +kernel
    obtain ⟨hdiagram, -, herror, -⟩ := ofWorkflow_least_fixpoint .standard w
    cases hresult : Diagram.ofWorkflow .standard w with
    | ok diagram =>
        have hall := hdiagram.mp ⟨diagram, hresult⟩
        have hmem : ("omega && ghost", ChainGraph.empty) ∈ w.subscribers := by
          simp [w, relayWorkflow]
        exact absurd (hall _ hmem) hblocked
    | error error =>
        obtain ⟨before, key, graph, after, stepId, hsplit, -, hkey, hmissing,
          rfl, -⟩ := herror error hresult
        have hmem : (key, graph) ∈ w.subscribers := by simp [hsplit]
        have hghost : key = "omega && ghost" := by
          simp only [w, relayWorkflow, List.cons_append, List.nil_append,
            List.mem_cons, Prod.mk.injEq, List.not_mem_nil, or_false] at hmem
          rcases hmem with ⟨rfl, -⟩ | ⟨rfl, -⟩ | ⟨rfl, -⟩
          · exact absurd hothers.1 hkey
          · rfl
          · exact absurd hothers.2 hkey
        subst hghost
        rcases hmissing with ⟨hnone, -⟩ | ⟨first, rest, hfirst, -, hstep⟩
        · rw [hparts] at hnone
          cases hnone
        · rw [hparts] at hfirst
          rcases first with _ | ⟨part, _ | ⟨part', first⟩⟩
          · cases hfirst
            exact absurd homega hstep
          · cases hfirst
            rfl
          · simp at hfirst

end Flowchart

import Flowchart.Proofs.Workflow.Relocation

/-!
# Workflows graph by graph

The occurrences of a workflow are those of its graphs, one graph behind the
other.  So every node has a place that does not change when the graphs are drawn
in another order: the graph that it belongs to and its number within this graph.
Which places are joined depends on the order in one way only.  A subscriber
graph hangs off the graph that drew the step it waits for most recently.
-/

namespace Flowchart

open Progress (keyParts)

/-! ## Places -/

/-- A graph behind the key that it is stored under; the main graph has none. -/
abbrev KeyedGraph := Option String × ChainGraph

/-- The key of the graph that a node belongs to, and its number among the nodes
of this graph. -/
abbrev Place := Option String × Nat

namespace KeyedGraph

/-- The graph that stood last among those on whose chains the step is. -/
def host? (graphs : List KeyedGraph) (stepId : String) : Option KeyedGraph :=
  graphs.reverse.find? fun g => decide (stepId ∈ g.2.stepIds)

/-- The graphs that are drawn before the one with the key. -/
def before (graphs : List KeyedGraph) (key : Option String) :
    List KeyedGraph :=
  graphs.takeWhile fun g => decide (g.1 ≠ key)

/-- The place of every node, if the graphs are drawn in the given order. -/
def places (graphs : List KeyedGraph) : List Place :=
  graphs.flatMap fun g =>
    (List.range g.2.occurrences.nodeCount).map fun k => (g.1, k)

/-- A graph with the key hangs off the place, if the given graphs are drawn
already: it is the exit of the most recent occurrence of a step that the key
names. -/
def HangsOff (graphs : List KeyedGraph) (key : Option String) (s : Place) :
    Prop :=
  ∃ part ∈ key.elim [] keyParts, ∃ host ∈ host? graphs part,
    ∃ o ∈ host.2.occurrences.latest? part, s = (host.1, o.exit)

/-- The places are joined: inside of a graph, or because a graph hangs off a
place with its heads. -/
inductive Joins (graphs : List KeyedGraph) : Place → Place → Prop
  | inside {g : KeyedGraph} {arc : Nat × Nat} (hg : g ∈ graphs)
      (harc : arc ∈ g.2.occurrences.arcs) :
      Joins graphs (g.1, arc.1) (g.1, arc.2)
  | hanging {g : KeyedGraph} {s : Place} {head : Occurrence} (hg : g ∈ graphs)
      (hs : HangsOff (before graphs g.1) g.1 s)
      (hhead : head ∈ g.2.occurrences) (hrank : head.rank = 0) :
      Joins graphs s (g.1, head.first)

/-- The places of the nodes with the given numbers are related. -/
def AtPlaces (graphs : List KeyedGraph) (related : Place → Place → Prop)
    (i j : Nat) : Prop :=
  ∃ s t, (places graphs)[i]? = some s ∧ (places graphs)[j]? = some t ∧
    related s t

theorem host?_concat (graphs : List KeyedGraph) (g : KeyedGraph)
    (stepId : String) :
    host? (graphs ++ [g]) stepId =
      if stepId ∈ g.2.stepIds then some g else host? graphs stepId := by
  by_cases hmem : stepId ∈ g.2.stepIds <;> simp [host?, hmem]

theorem mem_of_host?
    {graphs : List KeyedGraph} {stepId : String} {host : KeyedGraph}
    (h : host ∈ host? graphs stepId) : host ∈ graphs :=
  List.mem_reverse.mp (List.mem_of_find?_eq_some h)

theorem stepId_mem_of_host?
    {graphs : List KeyedGraph} {stepId : String} {host : KeyedGraph}
    (h : host ∈ host? graphs stepId) : stepId ∈ host.2.stepIds := by
  have hfound := List.find?_some (p := fun g : KeyedGraph =>
    decide (stepId ∈ g.2.stepIds)) h
  exact of_decide_eq_true hfound

theorem exists_host?_of_mem
    {graphs : List KeyedGraph} {g : KeyedGraph} (hg : g ∈ graphs)
    {stepId : String} (hid : stepId ∈ g.2.stepIds) :
    ∃ host, host? graphs stepId = some host := by
  rw [← Option.isSome_iff_exists, host?, List.find?_isSome]
  exact ⟨g, List.mem_reverse.mpr hg, decide_eq_true hid⟩

theorem before_subset (graphs : List KeyedGraph) (key : Option String) :
    before graphs key ⊆ graphs :=
  (List.takeWhile_sublist _).subset

theorem before_eq_self
    {graphs : List KeyedGraph} {key : Option String}
    (hkey : key ∉ graphs.map Prod.fst) : before graphs key = graphs := by
  rw [before, List.takeWhile_eq_self_iff]
  intro g hg
  rw [decide_eq_true_eq]
  rintro rfl
  exact hkey (List.mem_map_of_mem hg)

theorem before_concat_of_mem
    {graphs : List KeyedGraph} {key : Option String}
    (hkey : key ∈ graphs.map Prod.fst) (g : KeyedGraph) :
    before (graphs ++ [g]) key = before graphs key := by
  induction graphs with
  | nil => cases hkey
  | cons g' graphs ih =>
      by_cases heq : g'.1 = key
      · simp [before, heq]
      · have hlater : key ∈ graphs.map Prod.fst := by
          rcases List.mem_cons.mp hkey with rfl | hlater
          · exact absurd rfl heq
          · exact hlater
        simpa [before, heq] using ih hlater

theorem before_append_cons
    {graphs later : List KeyedGraph} {g : KeyedGraph}
    (hkey : g.1 ∉ graphs.map Prod.fst) :
    before (graphs ++ g :: later) g.1 = graphs := by
  have hgraphs := before_eq_self hkey
  unfold before at hgraphs ⊢
  rw [List.takeWhile_append, hgraphs]
  simp

theorem places_concat (graphs : List KeyedGraph) (g : KeyedGraph) :
    places (graphs ++ [g]) = places graphs ++
      (List.range g.2.occurrences.nodeCount).map fun k => (g.1, k) := by
  simp [places]

theorem fst_mem_of_mem_places
    {graphs : List KeyedGraph} {s : Place} (hs : s ∈ places graphs) :
    s.1 ∈ graphs.map Prod.fst := by
  obtain ⟨g, hg, hmem⟩ := List.mem_flatMap.mp hs
  obtain ⟨k, -, rfl⟩ := List.mem_map.mp hmem
  exact List.mem_map_of_mem hg

/-- Different graphs have different keys, and then no place occurs twice. -/
theorem places_nodup
    {graphs : List KeyedGraph} (hkeys : (graphs.map Prod.fst).Nodup) :
    (places graphs).Nodup := by
  refine List.nodup_flatMap.mpr ⟨?_, ?_⟩
  · intro g _
    exact List.nodup_range.map fun k k' heq => (Prod.mk.inj heq).2
  · refine (List.pairwise_map.mp hkeys).imp ?_
    intro g g' hne s hs hs'
    obtain ⟨k, -, rfl⟩ := List.mem_map.mp hs
    obtain ⟨k', -, heq⟩ := List.mem_map.mp hs'
    exact hne (Prod.mk.inj heq).1.symm

/-- Every number is that of a place. -/
theorem exists_getElem?_places
    {graphs : List KeyedGraph} {i : Nat} (hi : i < (places graphs).length) :
    ∃ g ∈ graphs, ∃ k, (places graphs)[i]? = some (g.1, k) := by
  obtain ⟨g, hg, hmem⟩ := List.mem_flatMap.mp (List.getElem_mem hi)
  obtain ⟨k, -, hplace⟩ := List.mem_map.mp hmem
  exact ⟨g, hg, k, by rw [List.getElem?_eq_getElem hi, hplace]⟩

theorem places_inj
    {graphs : List KeyedGraph} (hkeys : (graphs.map Prod.fst).Nodup)
    {i j : Nat} {s : Place} (hi : (places graphs)[i]? = some s)
    (hj : (places graphs)[j]? = some s) : i = j :=
  (List.getElem?_inj (List.getElem?_eq_some_iff.mp hi).1
    (places_nodup hkeys)).mp (hi.trans hj.symm)

theorem places_perm
    {graphs graphs' : List KeyedGraph} (h : graphs.Perm graphs') :
    (places graphs).Perm (places graphs') :=
  h.flatMap_right _

theorem HangsOff.fst_mem
    {graphs : List KeyedGraph} {key : Option String} {s : Place}
    (h : HangsOff graphs key s) : s.1 ∈ graphs.map Prod.fst := by
  obtain ⟨part, -, host, hhost, o, -, rfl⟩ := h
  exact List.mem_map_of_mem (mem_of_host? hhost)

theorem Joins.fst_mem
    {graphs : List KeyedGraph} {s t : Place} (h : Joins graphs s t) :
    s.1 ∈ graphs.map Prod.fst ∧ t.1 ∈ graphs.map Prod.fst := by
  cases h with
  | inside hg harc =>
      exact ⟨List.mem_map_of_mem hg, List.mem_map_of_mem hg⟩
  | hanging hg hs hhead hrank =>
      exact ⟨List.map_subset Prod.fst (before_subset graphs _) hs.fst_mem,
        List.mem_map_of_mem hg⟩

/-- One more graph joins its own places, and its heads to what it hangs
off. -/
theorem joins_concat_iff
    {graphs : List KeyedGraph} {g : KeyedGraph}
    (hkey : g.1 ∉ graphs.map Prod.fst) {s t : Place} :
    Joins (graphs ++ [g]) s t ↔
      Joins graphs s t ∨
      (∃ arc ∈ g.2.occurrences.arcs, s = (g.1, arc.1) ∧ t = (g.1, arc.2)) ∨
      (HangsOff graphs g.1 s ∧
        ∃ head ∈ g.2.occurrences, head.rank = 0 ∧ t = (g.1, head.first)) := by
  constructor
  · rintro (⟨hg, harc⟩ | ⟨hg, hs, hhead, hrank⟩)
    · rcases List.mem_append.mp hg with hold | hnew
      · exact Or.inl (.inside hold harc)
      · rw [List.mem_singleton.mp hnew] at harc ⊢
        exact Or.inr (Or.inl ⟨_, harc, rfl, rfl⟩)
    · rcases List.mem_append.mp hg with hold | hnew
      · rw [before_concat_of_mem (List.mem_map_of_mem hold)] at hs
        exact Or.inl (.hanging hold hs hhead hrank)
      · rw [List.mem_singleton.mp hnew] at hs hhead ⊢
        rw [before_append_cons hkey] at hs
        exact Or.inr (Or.inr ⟨hs, _, hhead, hrank, rfl⟩)
  · have hg : g ∈ graphs ++ [g] := by simp
    rintro (hold | ⟨arc, harc, rfl, rfl⟩ | ⟨hs, head, hhead, hrank, rfl⟩)
    · cases hold with
      | inside hg' harc => exact .inside (List.mem_append_left _ hg') harc
      | hanging hg' hs hhead hrank =>
          refine .hanging (List.mem_append_left _ hg') ?_ hhead hrank
          rwa [before_concat_of_mem (List.mem_map_of_mem hg')]
    · exact .inside hg harc
    · refine .hanging hg ?_ hhead hrank
      rwa [before_append_cons hkey]

end KeyedGraph

/-! ## Runs -/

open KeyedGraph

/-- The occurrences are those of the graphs in the given order.  Every node
shows what it shows in its graph, the most recent occurrence of a step is that
of the graph which hosts the step, and the nodes that are joined are those whose
places are. -/
structure Arranges (graphs : List KeyedGraph) (drawn : Occurrences) :
    Prop where
  length : (places graphs).length = drawn.nodeCount
  faces : ∀ g ∈ graphs, ∀ i k : Nat, (places graphs)[i]? = some (g.1, k) →
    (drawn.cards.map Card.face)[i]? =
      (g.2.occurrences.cards.map Card.face)[k]?
  latest : ∀ stepId o, drawn.latest? stepId = some o →
    ∃ host ∈ host? graphs stepId, ∃ o' ∈ host.2.occurrences.latest? stepId,
      (places graphs)[o.exit]? = some (host.1, o'.exit)
  arcs : ∀ i j, (i, j) ∈ drawn.arcs ↔ AtPlaces graphs (Joins graphs) i j

namespace Arranges

theorem nil : Arranges [] [] where
  length := rfl
  faces := by simp
  latest := by simp [Occurrences.latest?]
  arcs := by simp [Occurrences.arcs, AtPlaces, places]

variable {graphs : List KeyedGraph} {drawn : Occurrences}

theorem getElem?_places_concat
    (h : Arranges graphs drawn) (g : KeyedGraph) {i : Nat} {s : Place} :
    (places (graphs ++ [g]))[i]? = some s ↔
      (places graphs)[i]? = some s ∨
        ∃ k < g.2.occurrences.nodeCount,
          i = drawn.nodeCount + k ∧ s = (g.1, k) := by
  rw [places_concat, List.getElem?_append, h.length]
  split
  · next hlt =>
    constructor
    · exact Or.inl
    · rintro (hold | ⟨k, -, rfl, -⟩)
      · exact hold
      · omega
  · next hge =>
    have hnone : (places graphs)[i]? = none :=
      List.getElem?_eq_none (by rw [h.length]; omega)
    simp only [hnone, reduceCtorEq, false_or, List.getElem?_map,
      Option.map_eq_some_iff, List.getElem?_eq_some_iff, List.length_range,
      List.getElem_range]
    constructor
    · rintro ⟨k, ⟨hlt, rfl⟩, rfl⟩
      exact ⟨_, hlt, by omega, rfl⟩
    · rintro ⟨k, hlt, rfl, rfl⟩
      exact ⟨k, ⟨by omega, by omega⟩, rfl⟩

/-! One more graph `g` is drawn.  Its key is new, so that a place tells whether
it is one of `g` or one of the graphs before. -/

theorem getElem?_places_old
    (h : Arranges graphs drawn) (g : KeyedGraph) {i : Nat} {s : Place}
    (hs : (places graphs)[i]? = some s) :
    (places (graphs ++ [g]))[i]? = some s :=
  (h.getElem?_places_concat g).mpr (Or.inl hs)

theorem getElem?_places_new
    (h : Arranges graphs drawn) (g : KeyedGraph) {k : Nat}
    (hk : k < g.2.occurrences.nodeCount) :
    (places (graphs ++ [g]))[drawn.nodeCount + k]? = some (g.1, k) :=
  (h.getElem?_places_concat g).mpr (Or.inr ⟨k, hk, rfl, rfl⟩)

variable {g : KeyedGraph}

theorem getElem?_places_of_fst_mem
    (h : Arranges graphs drawn) (hkey : g.1 ∉ graphs.map Prod.fst) {i : Nat}
    {s : Place} (hs : (places (graphs ++ [g]))[i]? = some s)
    (hmem : s.1 ∈ graphs.map Prod.fst) : (places graphs)[i]? = some s := by
  rcases (h.getElem?_places_concat g).mp hs with hold | ⟨k, -, -, rfl⟩
  · exact hold
  · exact absurd hmem hkey

theorem eq_of_getElem?_places
    (h : Arranges graphs drawn) (hkey : g.1 ∉ graphs.map Prod.fst) {i k : Nat}
    (hs : (places (graphs ++ [g]))[i]? = some (g.1, k)) :
    i = drawn.nodeCount + k := by
  rcases (h.getElem?_places_concat g).mp hs with hold | ⟨k', -, rfl, heq⟩
  · exact absurd (fst_mem_of_mem_places (List.mem_of_getElem? hold)) hkey
  · rw [(Prod.mk.inj heq).2]

theorem concat_faces
    (h : Arranges graphs drawn) (hkey : g.1 ∉ graphs.map Prod.fst) (rank : Nat)
    (sources : List Nat) :
    ∀ g' ∈ graphs ++ [g], ∀ i k : Nat,
      (places (graphs ++ [g]))[i]? = some (g'.1, k) →
      ((drawn.addGraph g.2 rank sources).cards.map Card.face)[i]? =
        (g'.2.occurrences.cards.map Card.face)[k]? := by
  intro g' hg' i k hs
  have hlength : (drawn.cards.map Card.face).length = drawn.nodeCount := by
    rw [List.length_map, drawn.cards_length]
  rw [Occurrences.cards_addGraph_map_face]
  rcases List.mem_append.mp hg' with hold | hnew
  · have hs' :=
      h.getElem?_places_of_fst_mem hkey hs (List.mem_map_of_mem hold)
    have hlt : i < drawn.nodeCount := by
      rw [← h.length]
      exact (List.getElem?_eq_some_iff.mp hs').1
    rw [List.getElem?_append_left (by rwa [hlength])]
    exact h.faces g' hold i k hs'
  · rw [List.mem_singleton.mp hnew] at hs ⊢
    rw [h.eq_of_getElem?_places hkey hs,
      List.getElem?_append_right (by rw [hlength]; omega), hlength,
      Nat.add_sub_cancel_left]

theorem concat_latest
    (h : Arranges graphs drawn) (rank : Nat) (sources : List Nat) :
    ∀ stepId o,
      (drawn.addGraph g.2 rank sources).latest? stepId = some o →
      ∃ host ∈ host? (graphs ++ [g]) stepId,
        ∃ o' ∈ host.2.occurrences.latest? stepId,
          (places (graphs ++ [g]))[o.exit]? = some (host.1, o'.exit) := by
  intro stepId o ho
  rw [Occurrences.addGraph_eq, Occurrences.latest?_append,
    Occurrences.latest?_map_behind] at ho
  rw [host?_concat]
  cases hlatest : g.2.occurrences.latest? stepId with
  | some o' =>
      rw [hlatest, Option.map_some, Option.some_or, Option.some.injEq] at ho
      obtain ⟨ho', hid⟩ := Occurrences.step_id_of_latest?_eq_some hlatest
      have hmem : stepId ∈ g.2.stepIds :=
        ChainGraph.mem_stepIds_iff.mpr ⟨o', ho', hid⟩
      refine ⟨g, by rw [if_pos hmem]; rfl, o', hlatest, ?_⟩
      rw [← ho, Occurrence.exit_behind]
      exact h.getElem?_places_new g (ChainGraph.bounds_of_mem ho').2
  | none =>
      rw [hlatest, Option.map_none, Option.none_or] at ho
      have hmem : stepId ∉ g.2.stepIds := by
        rw [ChainGraph.mem_stepIds_iff, ← Occurrences.latest?_isSome_iff,
          hlatest]
        simp
      obtain ⟨host, hhost, o', ho', hplace⟩ := h.latest stepId o ho
      exact ⟨host, by rwa [if_neg hmem], o', ho',
        h.getElem?_places_old g hplace⟩

theorem concat_arcs
    (h : Arranges graphs drawn) (hkey : g.1 ∉ graphs.map Prod.fst) (rank : Nat)
    {sources : List Nat}
    (hsources : ∀ i, i ∈ sources ↔
      ∃ s, (places graphs)[i]? = some s ∧ HangsOff graphs g.1 s) (i j : Nat) :
    (i, j) ∈ (drawn.addGraph g.2 rank sources).arcs ↔
      AtPlaces (graphs ++ [g]) (Joins (graphs ++ [g])) i j := by
  rw [Occurrences.mem_arcs_addGraph_iff, h.arcs]
  simp only [AtPlaces, joins_concat_iff hkey]
  constructor
  · rintro (⟨s, t, hs, ht, hjoins⟩ | ⟨arc, harc, rfl, rfl⟩ |
      ⟨hi, head, hhead, hrank, rfl⟩)
    · exact ⟨s, t, h.getElem?_places_old g hs, h.getElem?_places_old g ht,
        Or.inl hjoins⟩
    · have hbounds := g.2.occurrences_numbered.arcs_ascending arc harc
      exact ⟨_, _, h.getElem?_places_new g (by omega),
        h.getElem?_places_new g (by omega),
        Or.inr (Or.inl ⟨arc, harc, rfl, rfl⟩)⟩
    · obtain ⟨s, hs, hangs⟩ := (hsources i).mp hi
      exact ⟨s, _, h.getElem?_places_old g hs,
        h.getElem?_places_new g (ChainGraph.bounds_of_mem hhead).1,
        Or.inr (Or.inr ⟨hangs, head, hhead, hrank, rfl⟩)⟩
  · rintro ⟨s, t, hs, ht, hjoins | ⟨arc, harc, rfl, rfl⟩ |
      ⟨hangs, head, hhead, hrank, rfl⟩⟩
    · exact Or.inl ⟨s, t,
        h.getElem?_places_of_fst_mem hkey hs hjoins.fst_mem.1,
        h.getElem?_places_of_fst_mem hkey ht hjoins.fst_mem.2, hjoins⟩
    · exact Or.inr (Or.inl ⟨arc, harc, h.eq_of_getElem?_places hkey hs,
        h.eq_of_getElem?_places hkey ht⟩)
    · have hi := (hsources i).mpr ⟨s,
        h.getElem?_places_of_fst_mem hkey hs hangs.fst_mem, hangs⟩
      exact Or.inr (Or.inr ⟨hi, head, hhead, hrank,
        h.eq_of_getElem?_places hkey ht⟩)

/-- One more graph is drawn, and hangs off the given numbers. -/
theorem concat
    (h : Arranges graphs drawn) (hkey : g.1 ∉ graphs.map Prod.fst) (rank : Nat)
    {sources : List Nat}
    (hsources : ∀ i, i ∈ sources ↔
      ∃ s, (places graphs)[i]? = some s ∧ HangsOff graphs g.1 s) :
    Arranges (graphs ++ [g]) (drawn.addGraph g.2 rank sources) where
  length := by
    rw [places_concat, List.length_append, h.length, Occurrences.addGraph_eq,
      Occurrences.nodeCount_append, Occurrences.nodeCount_map_behind]
    simp
  faces := h.concat_faces hkey rank sources
  latest := h.concat_latest rank sources
  arcs := h.concat_arcs hkey rank hsources

/-- The exits of the most recent occurrences of the steps that a key names are
what a graph with this key hangs off. -/
theorem mem_exits_iff
    (h : Arranges graphs drawn) (hkeys : (graphs.map Prod.fst).Nodup)
    {key : String} {sources : Occurrences}
    (hsources : (keyParts key).mapM drawn.latest? = some sources) (i : Nat) :
    i ∈ sources.map Occurrence.exit ↔
      ∃ s, (places graphs)[i]? = some s ∧ HangsOff graphs (some key) s := by
  have hlatest := Occurrences.map_latest?_eq_map_some hsources
  constructor
  · intro hi
    obtain ⟨o, ho, rfl⟩ := List.mem_map.mp hi
    have hmem : some o ∈ (keyParts key).map drawn.latest? := by
      rw [hlatest]
      exact List.mem_map_of_mem ho
    obtain ⟨part, hpart, hlatest⟩ := List.mem_map.mp hmem
    obtain ⟨host, hhost, o', ho', hplace⟩ := h.latest part o hlatest
    exact ⟨_, hplace, part, hpart, host, hhost, o', ho', rfl⟩
  · rintro ⟨s, hs, part, hpart, host, hhost, o', ho', rfl⟩
    have hmem : drawn.latest? part ∈ sources.map some := by
      rw [← hlatest]
      exact List.mem_map_of_mem hpart
    obtain ⟨o, ho, hlatest⟩ := List.mem_map.mp hmem
    obtain ⟨host', hhost', o'', ho'', hplace⟩ := h.latest part o hlatest.symm
    obtain rfl : host' = host := Option.mem_unique hhost' hhost
    obtain rfl : o'' = o' := Option.mem_unique ho'' ho'
    rw [places_inj hkeys hs hplace]
    exact List.mem_map_of_mem ho

/-- Subscriber graphs are arranged in the order in which they are drawn. -/
theorem addSubscribers
    (h : Arranges graphs drawn) {order : List Subscriber}
    (hkeys : ((graphs ++ order.map fun s => (some s.1, s.2)).map
      Prod.fst).Nodup)
    {drawn' : Occurrences} (hdrawn : drawn.addSubscribers order = some drawn') :
    Arranges (graphs ++ order.map fun s => (some s.1, s.2)) drawn' := by
  induction order generalizing graphs drawn with
  | nil =>
      cases hdrawn
      rwa [List.map_nil, List.append_nil]
  | cons s order ih =>
      obtain ⟨key, graph⟩ := s
      obtain ⟨sources, hsources, hrest⟩ := Option.bind_eq_some_iff.mp hdrawn
      rw [List.map_cons, List.append_cons] at hkeys ⊢
      have hkeys' : ((graphs ++ [(some key, graph)]).map Prod.fst).Nodup := by
        rw [List.map_append] at hkeys
        exact (List.nodup_append.mp hkeys).1
      rw [List.map_append, List.nodup_append] at hkeys'
      have hfresh : some key ∉ graphs.map Prod.fst :=
        fun hmem => hkeys'.2.2 _ hmem (some key) (by simp) rfl
      have hgraph : Arranges (graphs ++ [(some key, graph)])
          (drawn.addGraph graph (Occurrences.rankBehind sources)
            (sources.map Occurrence.exit)) :=
        h.concat (g := (some key, graph)) hfresh _
          (h.mem_exits_iff hkeys'.1 hsources)
      exact ih hgraph hkeys hrest

end Arranges

namespace Workflow

/-- The graphs of a workflow in the order in which they are drawn. -/
def drawnGraphs (w : Workflow) : List KeyedGraph :=
  (none, w.main) :: w.schedule.drawn.map fun s => (some s.1, s.2)

theorem drawnGraphs_keys_nodup
    {w : Workflow} (hkeys : (w.subscribers.map Prod.fst).Nodup) :
    (w.drawnGraphs.map Prod.fst).Nodup := by
  have hperm := w.schedule_perm.map Prod.fst
  have hdrawn : (w.schedule.drawn.map Prod.fst).Nodup := by
    rw [← hperm.nodup_iff, List.map_append] at hkeys
    exact (List.nodup_append.mp hkeys).1
  have hsome : (w.schedule.drawn.map fun s => some s.1).Nodup := by
    have h := hdrawn.map (Option.some_injective String)
    rwa [List.map_map] at h
  simpa [drawnGraphs, Function.comp_def] using hsome

theorem occurrences?_arranges
    {w : Workflow} (hkeys : (w.subscribers.map Prod.fst).Nodup)
    {drawn : Occurrences} (h : w.occurrences? = some drawn) :
    Arranges w.drawnGraphs drawn := by
  have hmain :
      Arranges [(none, w.main)] (Occurrences.addGraph [] w.main 0 []) :=
    Arranges.nil.concat (g := (none, w.main)) (by simp) 0 (by simp [places])
  exact hmain.addSubscribers (drawnGraphs_keys_nodup hkeys) h

end Workflow

end Flowchart

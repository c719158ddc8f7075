import Flowchart.Proofs.Layout.Ranking
import Mathlib

/-!
# Ranks of any graph

A graph may list a vertex twice, have arcs without vertices at their ends, loops
and cycles.  Its ranks are the lengths of longest paths that go forward in some
order of its vertices, and every rank up to the greatest one is taken.  Without
cycles the order does not matter, and neither does any other choice that is made
on the way to the ranks.
-/

namespace Flowchart.Layout

/-! ## The greatest rank -/

theorem maxRank_concat (ranks : Ranks) (entry : String × Nat) :
    maxRank (ranks ++ [entry]) = max (maxRank ranks) entry.2 := by
  rw [maxRank, List.foldl_append]
  rfl

theorem le_maxRank
    {ranks : Ranks} {entry : String × Nat} (hentry : entry ∈ ranks) :
    entry.2 ≤ maxRank ranks := by
  induction ranks using List.reverseRecOn with
  | nil => simp at hentry
  | append_singleton ranks last ih =>
      rw [maxRank_concat]
      rcases List.mem_append.mp hentry with hearlier | hlast
      · exact (ih hearlier).trans (Nat.le_max_left _ _)
      · obtain rfl := List.mem_singleton.mp hlast
        exact Nat.le_max_right _ _

theorem exists_eq_maxRank {ranks : Ranks} (hne : ranks ≠ []) :
    ∃ entry ∈ ranks, entry.2 = maxRank ranks := by
  induction ranks using List.reverseRecOn with
  | nil => exact absurd rfl hne
  | append_singleton ranks last ih =>
      rw [maxRank_concat]
      by_cases hempty : ranks = []
      · subst hempty
        exact ⟨last, List.mem_cons_self, (Nat.zero_max _).symm⟩
      · obtain ⟨entry, hentry, hmax⟩ := ih hempty
        rcases Nat.le_total last.2 (maxRank ranks) with hle | hle
        · refine ⟨entry, List.mem_append_left _ hentry, ?_⟩
          rw [hmax, Nat.max_eq_left hle]
        · refine ⟨last, List.mem_append_right _ List.mem_cons_self, ?_⟩
          rw [Nat.max_eq_right hle]

theorem rankOf_mem
    {ranks : Ranks} {id : String} (hid : id ∈ ranks.map Prod.fst) :
    (id, rankOf ranks id) ∈ ranks := by
  have hlookup := lookup_of_mem hid
  generalize rankOf ranks id = rank at hlookup ⊢
  obtain ⟨before, behind, rfl, -⟩ := List.lookup_eq_some_iff.mp hlookup
  simp

theorem rankOf_le_maxRank (ranks : Ranks) (id : String) :
    rankOf ranks id ≤ maxRank ranks := by
  by_cases hid : id ∈ ranks.map Prod.fst
  · exact le_maxRank (rankOf_mem hid)
  · simp [rankOf, lookup_of_notMem hid]

theorem rankOf_of_mem
    {ranks : Ranks} (hnodup : (ranks.map Prod.fst).Nodup)
    {entry : String × Nat} (hentry : entry ∈ ranks) :
    rankOf ranks entry.1 = entry.2 := by
  have hsame := rankOf_mem (List.mem_map_of_mem (f := Prod.fst) hentry)
  exact congrArg Prod.snd
    (List.inj_on_of_nodup_map hnodup hsame hentry rfl)

/-! ## No rank is left out -/

theorem Rises.exists_rank_eq
    {leads : String → String → Prop} {rank : String → Nat}
    (h : Rises leads rank) {vertex : String → Prop}
    (hvertex : ∀ {id next}, leads id next → vertex id)
    {id : String} (hid : vertex id) {r : Nat} (hr : r ≤ rank id) :
    ∃ other, vertex other ∧ rank other = r := by
  induction hn : rank id generalizing id with
  | zero => exact ⟨id, hid, by omega⟩
  | succ n ih =>
      rcases Nat.eq_or_lt_of_le hr with rfl | hlt
      · exact ⟨id, hid, rfl⟩
      · obtain ⟨before, harc, hsucc⟩ :=
          (h.zero_or_succ id).resolve_left (by omega)
        exact ih (hvertex harc) (by omega) (by omega)

/-- Ranks as they are said of any graph. -/
structure IsRanking (ids : List String) (arcs : List Arc) (ranks : Ranks) :
    Prop where
  /-- No vertex has two ranks. -/
  nodup : (ranks.map Prod.fst).Nodup
  /-- The vertices have a rank, and nothing else has one. -/
  mem_iff : ∀ id, id ∈ ranks.map Prod.fst ↔ id ∈ ids
  /-- Ranks are longest paths that go forward in an order of the vertices. -/
  longest_forward : ∃ order : List String, order.Nodup ∧
    (∀ id, id ∈ order ↔ id ∈ ids) ∧
    ∀ id ∈ ids,
      IsGreatest {n | PathTo (LeadsForward arcs order) n id} (rankOf ranks id)
  /-- The ranks that are taken are those up to the greatest. -/
  exists_rank_iff : ids ≠ [] →
    ∀ r, (∃ id ∈ ids, rankOf ranks id = r) ↔ r ≤ maxRank ranks
  maxRank_lt : ids ≠ [] → maxRank ranks < ids.toFinset.card

section Graph

variable (priority : String → Nat) (ids : List String) (arcs : List Arc)

theorem mem_takingOrder {id : String} :
    id ∈ takingOrder priority ids arcs ↔ id ∈ ids :=
  (takingOrder_perm priority ids arcs).mem_iff.trans mem_byPriority

/-- An arc that goes forward in an order of the vertices joins two different
vertices. -/
theorem leadsForward_properArcs_iff
    {order : List String} (hnodup : order.Nodup)
    (hmem : ∀ id, id ∈ order ↔ id ∈ ids) (id next : String) :
    LeadsForward (properArcs ids arcs) order id next ↔
      LeadsForward arcs order id next := by
  constructor
  · rintro ⟨harc, hforward⟩
    exact ⟨(leads_properArcs_iff.mp harc).1, hforward⟩
  · intro h
    refine ⟨leads_properArcs_iff.mpr ⟨h.1, ?_, (hmem id).mp h.left_mem,
      (hmem next).mp h.right_mem⟩, h.2⟩
    simpa using hnodup.sublist h.2

theorem computeRanks_exists_rank_iff (hne : ids ≠ []) (r : Nat) :
    (∃ id ∈ ids, rankOf (computeRanks priority ids arcs) id = r) ↔
      r ≤ maxRank (computeRanks priority ids arcs) := by
  constructor
  · rintro ⟨id, -, rfl⟩
    exact rankOf_le_maxRank _ id
  · intro hr
    have hranks : computeRanks priority ids arcs ≠ [] := by
      obtain ⟨id, hid⟩ := List.exists_mem_of_ne_nil ids hne
      have hmem := (mem_computeRanks_ids priority ids arcs).mpr hid
      rintro hnil
      simp [hnil] at hmem
    obtain ⟨entry, hentry, hmax⟩ := exists_eq_maxRank hranks
    have htop : entry.1 ∈ ids :=
      (mem_computeRanks_ids priority ids arcs).mp (List.mem_map_of_mem hentry)
    rw [← hmax, ← rankOf_of_mem (computeRanks_ids_nodup priority ids arcs)
      hentry] at hr
    exact (computeRanks_rises priority ids arcs).exists_rank_eq
      (fun harc => (mem_takingOrder priority ids arcs).mp harc.left_mem)
      htop hr

/-- There are fewer ranks above zero than vertices, since each rank is taken by
some vertex. -/
theorem maxRank_computeRanks_lt (hne : ids ≠ []) :
    maxRank (computeRanks priority ids arcs) < ids.toFinset.card := by
  have hsubset : Finset.range (maxRank (computeRanks priority ids arcs) + 1) ⊆
      ids.toFinset.image (rankOf (computeRanks priority ids arcs)) := by
    intro r hr
    obtain ⟨id, hid, hrank⟩ := (computeRanks_exists_rank_iff priority ids arcs
      hne r).mpr (Nat.le_of_lt_succ (Finset.mem_range.mp hr))
    exact Finset.mem_image.mpr ⟨id, List.mem_toFinset.mpr hid, hrank⟩
  have hcard := (Finset.card_le_card hsubset).trans Finset.card_image_le
  rwa [Finset.card_range] at hcard

theorem computeRanks_isRanking :
    IsRanking ids arcs (computeRanks priority ids arcs) where
  nodup := computeRanks_ids_nodup priority ids arcs
  mem_iff _ := mem_computeRanks_ids priority ids arcs
  longest_forward := by
    have hnodup := takingOrder_nodup priority ids arcs
    have hmem : ∀ id, id ∈ takingOrder priority ids arcs ↔ id ∈ ids :=
      fun _ => mem_takingOrder priority ids arcs
    refine ⟨takingOrder priority ids arcs, hnodup, hmem, fun id _ => ?_⟩
    exact ((computeRanks_rises priority ids arcs).congr
      (leadsForward_properArcs_iff ids arcs hnodup hmem)).isGreatest id
  exists_rank_iff := computeRanks_exists_rank_iff priority ids arcs
  maxRank_lt := maxRank_computeRanks_lt priority ids arcs

/-! ## Graphs without cycles -/

/-- Without cycles, ranks are the lengths of longest paths, and the lists that a
graph is given by count as sets. -/
theorem rankOf_computeRanks_congr
    (hacyclic : Acyclic (properArcs ids arcs))
    {ids' : List String} {arcs' : List Arc}
    (hids : ∀ id, id ∈ ids ↔ id ∈ ids')
    (harcs : ∀ arc, arc ∈ arcs ↔ arc ∈ arcs')
    (priority' : String → Nat) (id : String) :
    rankOf (computeRanks priority ids arcs) id =
      rankOf (computeRanks priority' ids' arcs') id := by
  have hleads : ∀ id next, Leads (properArcs ids arcs) id next ↔
      Leads (properArcs ids' arcs') id next := by
    intro id next
    rw [leads_properArcs_iff, leads_properArcs_iff]
    simp only [Leads, hids, harcs]
  have hacyclic' : Acyclic (properArcs ids' arcs') := by
    have hsame : Leads (properArcs ids arcs) = Leads (properArcs ids' arcs') :=
      funext₂ fun id next => propext (hleads id next)
    rwa [Acyclic, ← hsame]
  have hrises := (computeRanks_rises_of_acyclic priority ids arcs
    hacyclic).congr hleads
  have hrises' := computeRanks_rises_of_acyclic priority' ids' arcs' hacyclic'
  exact (hrises.isGreatest id).unique (hrises'.isGreatest id)

end Graph

/-- The ranks of any graph leave no gap.  If the arcs between two different
vertices form no cycle, then a rank is the length of a longest path, whatever
the priorities are and in whatever order vertices and arcs are listed. -/
theorem computeRanks_longest_paths (ids : List String) (arcs : List Arc) :
    (∀ priority, IsRanking ids arcs (computeRanks priority ids arcs)) ∧
    (Acyclic (properArcs ids arcs) →
      (∀ priority, ∀ id ∈ ids,
        IsGreatest {n | PathTo (Leads (properArcs ids arcs)) n id}
          (rankOf (computeRanks priority ids arcs) id)) ∧
      ∀ priority priority' ids' arcs', (∀ id, id ∈ ids ↔ id ∈ ids') →
        (∀ arc, arc ∈ arcs ↔ arc ∈ arcs') →
        ∀ id, rankOf (computeRanks priority ids arcs) id =
          rankOf (computeRanks priority' ids' arcs') id) := by
  refine ⟨fun priority => computeRanks_isRanking priority ids arcs, ?_⟩
  intro hacyclic
  constructor
  · intro priority id _
    exact (computeRanks_rises_of_acyclic priority ids arcs
      hacyclic).isGreatest id
  · intro priority priority' ids' arcs' hids harcs id
    exact rankOf_computeRanks_congr priority ids arcs hacyclic hids harcs
      priority' id

def strayIds : List String := ["b", "a", "c", "b"]

/-- Arcs with a loop, a repetition and a way through what is no vertex. -/
def strayArcs : List Arc :=
  [⟨"a", "b"⟩, ⟨"b", "b"⟩, ⟨"b", "c"⟩, ⟨"a", "b"⟩, ⟨"a", "c"⟩, ⟨"c", "z"⟩,
    ⟨"z", "a"⟩]

theorem strayArcs_longest_paths :
    Acyclic (properArcs strayIds strayArcs) ∧
    (∀ priority, IsRanking strayIds strayArcs
      (computeRanks priority strayIds strayArcs)) ∧
    (∀ id ∈ strayIds,
      IsGreatest {n | PathTo (Leads (properArcs strayIds strayArcs)) n id}
        (rankOf (computeRanks (fun _ => 0) strayIds strayArcs) id)) ∧
    strayIds.map (rankOf (computeRanks (fun _ => 0) strayIds strayArcs)) =
      [1, 0, 2, 1] := by
  have hacyclic : Acyclic (properArcs strayIds strayArcs) := by
    refine acyclic_of_lt ["a", "b", "c"].idxOf fun harc => ?_
    have hlt : ∀ arc ∈ properArcs strayIds strayArcs,
        ["a", "b", "c"].idxOf arc.source <
          ["a", "b", "c"].idxOf arc.target := by
      decide +kernel
    exact hlt _ harc
  obtain ⟨hranking, hlongest⟩ := computeRanks_longest_paths strayIds strayArcs
  exact ⟨hacyclic, hranking, (hlongest hacyclic).1 _, by decide +kernel⟩

end Flowchart.Layout

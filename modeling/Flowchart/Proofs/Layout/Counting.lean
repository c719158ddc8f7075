import Flowchart.Proofs.Layout.BrokenCycles
import Flowchart.Proofs.Layout.Sizes

/-!
# Taking vertices by counting

Whether a vertex is ready can be seen without a look at all arcs.  For each
vertex a count is kept of the arcs that lead into it from vertices that are not
taken yet, and when a vertex is taken, the arcs that leave it are counted down.
A vertex is ready as soon as its count is zero.

A count is at all times the number of the arcs that it stands for, so that none
is ever taken below zero; and the vertices are taken in the same order.
-/

namespace Flowchart.Layout

/-! ## Counts -/

/-- The difference of two numbers, unless it is below zero. -/
def minus? (m n : Nat) : Option Nat :=
  if n ≤ m then some (m - n) else none

/-- The first of some vertices by their priority. -/
def firstOf? (priority : String → Nat) : List String → Option String
  | [] => none
  | id :: ids =>
    some (ids.foldl
      (fun first id =>
        if lexLess (priority id, id) (priority first, first) then id else first)
      id)

/-- The number of arcs into every vertex. -/
def countArcs (ids : List String) (arcs : List Arc) : Table Nat :=
  arcs.foldl
    (fun counts arc =>
      counts.insert arc.target (counts.getD arc.target 0 + 1))
    (ids.foldl (fun counts id => counts.insert id 0) ∅)

/-- Vertices that are being taken. -/
structure Countdown where
  /-- The number of arcs into a vertex that are not counted down yet. -/
  counts : Table Nat
  ready : List String
  /-- The vertices that are taken, the last one first. -/
  taken : List String

namespace Countdown

/-- No vertex is taken yet. -/
def start (ids : List String) (arcs : List Arc) : Countdown :=
  let counts := countArcs ids arcs
  ⟨counts, ids.filter fun id => counts.getD id 0 == 0, []⟩

/-- Counts down an arc into a vertex, which may be ready then. -/
def release? (state : Countdown) (id : String) : Option Countdown :=
  if state.taken.contains id then
    some state
  else
    match state.counts[id]? with
    | none => some state
    | some count => do
      let count ← minus? count 1
      some { state with
        counts := state.counts.insert id count
        ready := if count = 0 then id :: state.ready else state.ready }

/-- Takes a vertex and counts down the arcs that leave it. -/
def take? (arcs : List Arc) (state : Countdown) (id : String) :
    Option Countdown :=
  ((arcs.filter fun arc => arc.source == id).map Arc.target).foldlM release?
    { state with taken := id :: state.taken }

/-- The vertex that is taken next: the first one that is ready or, if there is
none, the first one that is left. -/
def next? (priority : String → Nat) (ids : List String) (state : Countdown) :
    Option String :=
  (firstOf? priority (state.ready.filter fun id => !state.taken.contains id)).or
    (firstOf? priority (ids.filter fun id => !state.taken.contains id))

/-- Takes at most `count` vertices and lists all that are taken. -/
def run? (priority : String → Nat) (ids : List String) (arcs : List Arc) :
    (count : Nat) → Countdown → Option (List String)
  | 0, state => some state.taken.reverse
  | count + 1, state =>
    match state.next? priority ids with
    | none => some state.taken.reverse
    | some id => do run? priority ids arcs count (← state.take? arcs id)

end Countdown

/-- The ranks of all vertices of a graph, which are taken by counting. -/
def computeRanks? (priority : String → Nat) (ids : List String)
    (arcs : List Arc) : Option Ranks := do
  let arcs := properArcs ids arcs
  let order ← Countdown.run? priority ids arcs ids.eraseDups.length
    (.start ids arcs)
  some (rankInOrder arcs [] order)

/-! ## The first vertex -/

section First

variable {priority : String → Nat}

theorem firstOf?_eq_none_iff {ids : List String} :
    firstOf? priority ids = none ↔ ids = [] := by
  cases ids <;> simp [firstOf?]

theorem Precedes.trans {id next other : String}
    (h : Precedes priority id next) (h' : Precedes priority next other) :
    Precedes priority id other := by
  rw [precedes_iff_toLex_lt] at h h' ⊢
  exact h.trans h'

theorem not_precedes_firstOf?
    {ids : List String} {first : String}
    (h : firstOf? priority ids = some first) :
    first ∈ ids ∧ ∀ id ∈ ids, ¬Precedes priority id first := by
  cases ids with
  | nil => simp [firstOf?] at h
  | cons id ids =>
      obtain rfl := Option.some.inj h
      induction ids using List.reverseRecOn with
      | nil => simp [Precedes.irrefl]
      | append_singleton ids last ih =>
          obtain ⟨hmem, hleast⟩ := ih rfl
          rw [List.foldl_concat]
          generalize ids.foldl _ id = first at hmem hleast ⊢
          rw [← List.cons_append]
          split
          · next hless =>
              have hlast := lexLess_eq_true_iff.mp hless
              refine ⟨List.mem_append_right _ List.mem_cons_self, ?_⟩
              intro other hother
              rcases List.mem_append.mp hother with hother | hother
              · exact fun h => hleast other hother (h.trans hlast)
              · rw [List.mem_singleton.mp hother]
                exact Precedes.irrefl last
          · next hless =>
              refine ⟨List.mem_append_left _ hmem, ?_⟩
              intro other hother
              rcases List.mem_append.mp hother with hother | hother
              · exact hleast other hother
              · rw [List.mem_singleton.mp hother, ← lexLess_eq_true_iff]
                exact hless

/-- The first of some vertices is the head of any list of them in order. -/
theorem firstOf?_eq_head?
    {ids sorted : List String} (hsorted : sorted.Pairwise (Precedes priority))
    (hmem : ∀ id, id ∈ ids ↔ id ∈ sorted) :
    firstOf? priority ids = sorted.head? := by
  cases sorted with
  | nil =>
      have hnil : ids = [] := by
        simpa [List.eq_nil_iff_forall_not_mem] using hmem
      rw [hnil]
      rfl
  | cons head rest =>
      cases hfirst : firstOf? priority ids with
      | none =>
          rw [firstOf?_eq_none_iff.mp hfirst] at hmem
          exact absurd ((hmem head).mpr List.mem_cons_self) List.not_mem_nil
      | some first =>
          obtain ⟨hfirstMem, hleast⟩ := not_precedes_firstOf? hfirst
          rcases List.mem_cons.mp ((hmem first).mp hfirstMem) with rfl | hrest
          · rfl
          · have hhead := hleast head ((hmem head).mpr List.mem_cons_self)
            exact absurd ((List.pairwise_cons.mp hsorted).1 first hrest) hhead

end First

/-! ## What the counts stand for -/

/-- The number of arcs into a vertex from vertices that are not taken. -/
def waiting (arcs : List Arc) (taken : List String) (id : String) : Nat :=
  arcs.countP fun arc => arc.target == id && !taken.contains arc.source

/-- The ends of the arcs that leave a vertex. -/
def targetsOf (arcs : List Arc) (id : String) : List String :=
  (arcs.filter fun arc => arc.source == id).map Arc.target

/-- Taking a vertex settles the arcs that leave it. -/
theorem waiting_cons (arcs : List Arc) {taken : List String} {id : String}
    (hid : id ∉ taken) (next : String) :
    waiting arcs (id :: taken) next + (targetsOf arcs id).count next =
      waiting arcs taken next := by
  induction arcs with
  | nil => rfl
  | cons arc arcs ih =>
      unfold waiting targetsOf at *
      by_cases hsource : arc.source = id
      · have hfree : arc.source ∉ taken := hsource ▸ hid
        by_cases htarget : arc.target = next
        · simp [hsource, htarget, hid] at ih ⊢
          omega
        · simpa [hsource, htarget] using ih
      · by_cases htarget : arc.target = next <;>
          by_cases htaken : arc.source ∈ taken <;>
          simp [hsource, htarget, htaken] at ih ⊢ <;> omega

namespace Countdown

variable {ids : List String} {arcs : List Arc} {state : Countdown}

/-- Counts are right for the vertices that are not taken, apart from some arcs
that are yet to be counted down, whose targets are given. -/
structure Sound (ids : List String) (arcs : List Arc) (state : Countdown)
    (targets : List String) : Prop where
  counts : ∀ id ∈ ids, id ∉ state.taken →
    state.counts[id]? =
      some (waiting arcs state.taken id + targets.count id)
  mem_ready_iff : ∀ id, id ∉ state.taken →
    (id ∈ state.ready ↔
      id ∈ ids ∧ waiting arcs state.taken id + targets.count id = 0)

/-- The count of an arc that is counted down is not zero yet. -/
theorem Sound.release? {targets : List String} {next : String}
    (h : state.Sound ids arcs (next :: targets)) (hnext : next ∈ ids) :
    ∃ state', state.release? next = some state' ∧
      state'.taken = state.taken ∧ state'.Sound ids arcs targets := by
  unfold Countdown.release?
  by_cases htaken : next ∈ state.taken
  · refine ⟨state, by simp [htaken], rfl, ?_, ?_⟩
    · intro id hid hfree
      have hne : next ≠ id := fun heq => hfree (heq ▸ htaken)
      rw [h.counts id hid hfree, List.count_cons_of_ne hne]
    · intro id hfree
      have hne : next ≠ id := fun heq => hfree (heq ▸ htaken)
      rw [h.mem_ready_iff id hfree, List.count_cons_of_ne hne]
  · have hcount := h.counts next hnext htaken
    have hready := h.mem_ready_iff next htaken
    rw [List.count_cons_self, ← Nat.add_assoc] at hcount hready
    generalize hleft : waiting arcs state.taken next + targets.count next =
      left at hcount hready
    refine ⟨{ state with
      counts := state.counts.insert next left
      ready := if left = 0 then next :: state.ready else state.ready },
      by simp [htaken, hcount, minus?], rfl, ?_, ?_⟩
    · intro id hid hfree
      dsimp only
      rw [Std.TreeMap.getElem?_insert]
      by_cases heq : next = id
      · rw [← heq, hleft]
        simp
      · rw [h.counts id hid hfree, List.count_cons_of_ne heq]
        simp [heq]
    · intro id hfree
      dsimp only
      by_cases heq : next = id
      · rw [← heq, hleft]
        by_cases hzero : left = 0 <;> simp [hzero, hready, hnext]
      · have hmem := h.mem_ready_iff id hfree
        rw [List.count_cons_of_ne heq] at hmem
        rw [← hmem]
        split <;> simp [Ne.symm heq]

theorem Sound.releaseAll? {targets : List String}
    (h : state.Sound ids arcs targets) (htargets : targets ⊆ ids) :
    ∃ state', targets.foldlM Countdown.release? state = some state' ∧
      state'.taken = state.taken ∧ state'.Sound ids arcs [] := by
  induction targets generalizing state with
  | nil => exact ⟨state, rfl, rfl, h⟩
  | cons target targets ih =>
      obtain ⟨htarget, hlater⟩ := List.cons_subset.mp htargets
      obtain ⟨next, hnext, htaken, hsound⟩ := h.release? htarget
      obtain ⟨last, hlast, hkept, hdone⟩ := ih hsound hlater
      refine ⟨last, ?_, hkept.trans htaken, hdone⟩
      rw [List.foldlM_cons, hnext]
      exact hlast

/-- Taking a vertex counts down the arcs that leave it, and nothing else. -/
theorem Sound.take? (h : state.Sound ids arcs []) {id : String}
    (hid : id ∉ state.taken) (htargets : ∀ arc ∈ arcs, arc.target ∈ ids) :
    ∃ state', state.take? arcs id = some state' ∧
      state'.taken = id :: state.taken ∧ state'.Sound ids arcs [] := by
  have hsubset : targetsOf arcs id ⊆ ids := by
    intro target htarget
    obtain ⟨arc, harc, rfl⟩ := List.mem_map.mp htarget
    exact htargets arc (List.mem_filter.mp harc).1
  have hstart : Sound ids arcs { state with taken := id :: state.taken }
      (targetsOf arcs id) := by
    constructor
    · intro next hnext hfree
      dsimp only at hfree ⊢
      rw [h.counts next hnext (List.not_mem_of_not_mem_cons hfree),
        waiting_cons arcs hid]
      rfl
    · intro next hfree
      dsimp only at hfree ⊢
      rw [h.mem_ready_iff next (List.not_mem_of_not_mem_cons hfree),
        waiting_cons arcs hid]
      rfl
  exact hstart.releaseAll? hsubset

/-! ## The order in which vertices are taken -/

/-- The vertices that are not taken, by their priority. -/
def pending (priority : String → Nat) (ids : List String)
    (state : Countdown) : List String :=
  (byPriority priority ids).filter fun id => !state.taken.contains id

theorem waiting_eq_zero_iff {id : String} {priority : String → Nat}
    (hsources : ∀ arc ∈ arcs, arc.source ∈ ids) :
    waiting arcs state.taken id = 0 ↔
      isReady arcs (state.pending priority ids) id = true := by
  rw [waiting, List.countP_eq_zero, isReady, List.all_eq_true]
  refine forall₂_congr fun arc harc => ?_
  have hpending : (state.pending priority ids).contains arc.source =
      !state.taken.contains arc.source := by
    rw [Bool.eq_iff_iff]
    simp [pending, mem_byPriority, hsources arc harc]
  rw [hpending]
  by_cases htarget : arc.target = id <;> simp [htarget]

/-- The vertex that is found by the counts is the one that is taken next. -/
theorem Sound.next?_eq (h : state.Sound ids arcs [])
    (priority : String → Nat) (hsources : ∀ arc ∈ arcs, arc.source ∈ ids) :
    state.next? priority ids =
      Layout.next? arcs (state.pending priority ids) := by
  have hsorted : (state.pending priority ids).Pairwise (Precedes priority) :=
    (byPriority_pairwise priority ids).filter _
  have hready : firstOf? priority
      (state.ready.filter fun id => !state.taken.contains id) =
        (state.pending priority ids).find?
          (isReady arcs (state.pending priority ids)) := by
    rw [← List.head?_filter]
    refine firstOf?_eq_head? (hsorted.filter _) fun id => ?_
    rw [List.mem_filter, List.mem_filter, pending, List.mem_filter,
      mem_byPriority, and_right_comm]
    refine and_congr_left fun hfree => ?_
    have hid : id ∉ state.taken := by simpa using hfree
    rw [h.mem_ready_iff id hid, List.count_nil, Nat.add_zero,
      waiting_eq_zero_iff hsources]
    rfl
  have hleft : firstOf? priority
      (ids.filter fun id => !state.taken.contains id) =
        (state.pending priority ids).head? := by
    refine firstOf?_eq_head? hsorted fun id => ?_
    rw [pending, List.mem_filter, List.mem_filter, mem_byPriority]
  rw [next?, Layout.next?, hready, hleft]

/-- Counting takes the vertices in the order in which they are taken. -/
theorem Sound.run?_eq (h : state.Sound ids arcs [])
    (priority : String → Nat) (hsources : ∀ arc ∈ arcs, arc.source ∈ ids)
    (htargets : ∀ arc ∈ arcs, arc.target ∈ ids) (count : Nat) :
    run? priority ids arcs count state =
      some (state.taken.reverse ++
        takeInOrder arcs count (state.pending priority ids)) := by
  induction count generalizing state with
  | zero => simp [run?, takeInOrder]
  | succ count ih =>
      rw [run?, takeInOrder, h.next?_eq priority hsources]
      cases hnext : Layout.next? arcs (state.pending priority ids) with
      | none => simp
      | some id =>
          have hmem := (List.mem_filter.mp (mem_of_next? hnext)).2
          have hid : id ∉ state.taken := by simpa using hmem
          obtain ⟨state', htake, htaken, hsound⟩ := h.take? hid htargets
          have hpending : state'.pending priority ids =
              (state.pending priority ids).erase id := by
            have hnodup : (state.pending priority ids).Nodup :=
              (byPriority_nodup priority ids).filter _
            rw [hnodup.erase_eq_filter, pending, pending, List.filter_filter,
              htaken]
            refine List.filter_congr fun next _ => ?_
            by_cases heq : next = id <;> simp [heq]
          simp [htake, ih hsound, hpending, htaken]

end Countdown

/-! ## Ranks by counting -/

section Ranks

variable {ids : List String} {arcs : List Arc}

/-- An arc that comes last is counted for its target. -/
theorem waiting_concat (arcs : List Arc) (arc : Arc) (id : String) :
    waiting (arcs ++ [arc]) [] id =
      waiting arcs [] id + if arc.target = id then 1 else 0 := by
  simp [waiting, List.countP_append, List.countP_singleton]

theorem getElem?_countArcs {id : String} (hid : id ∈ ids) :
    (countArcs ids arcs)[id]? = some (waiting arcs [] id) := by
  induction arcs using List.reverseRecOn with
  | nil =>
      exact getElem?_foldl_insert_of_mem (fun id => id) (fun _ => 0)
        (by rwa [List.map_id']) (fun _ _ _ => rfl) ∅
  | append_singleton arcs arc ih =>
      rw [countArcs, List.foldl_concat, ← countArcs,
        Std.TreeMap.getElem?_insert, waiting_concat]
      by_cases heq : arc.target = id
      · rw [heq, Std.TreeMap.getD_eq_getD_getElem?, ih]
        simp
      · simp [heq, ih]

theorem Countdown.start_sound (ids : List String) (arcs : List Arc) :
    (start ids arcs).Sound ids arcs [] := by
  refine ⟨fun id hid _ => getElem?_countArcs hid, fun id _ => ?_⟩
  rw [start, List.mem_filter, List.count_nil, Nat.add_zero]
  refine and_congr_right fun hid => ?_
  rw [Std.TreeMap.getD_eq_getD_getElem?, getElem?_countArcs hid]
  exact beq_iff_eq

/-- Counting never goes below zero and gives every vertex its rank. -/
theorem computeRanks?_eq (priority : String → Nat) (ids : List String)
    (arcs : List Arc) :
    computeRanks? priority ids arcs =
      some (computeRanks priority ids arcs) := by
  have hends : ∀ arc ∈ properArcs ids arcs,
      arc.source ∈ ids ∧ arc.target ∈ ids := by
    intro arc harc
    have hproper := (List.mem_filter.mp harc).2
    simp only [Bool.and_eq_true, List.contains_iff_mem] at hproper
    exact ⟨hproper.1.2, hproper.2⟩
  have hlength : (byPriority priority ids).length = ids.eraseDups.length :=
    (sortBy_perm _ _).length_eq
  have hpending : (Countdown.start ids (properArcs ids arcs)).pending priority
      ids = byPriority priority ids :=
    List.filter_true _
  have hrun := (Countdown.start_sound ids (properArcs ids arcs)).run?_eq
    priority (fun arc harc => (hends arc harc).1)
    (fun arc harc => (hends arc harc).2) ids.eraseDups.length
  rw [hpending, ← hlength] at hrun
  rw [computeRanks?, ← hlength, hrun]
  rfl

end Ranks

end Flowchart.Layout

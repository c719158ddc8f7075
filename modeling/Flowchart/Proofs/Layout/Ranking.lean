import Flowchart.Layout.Ranking
import Mathlib.Data.List.Induction
import Mathlib.Data.List.Nodup
import Mathlib.Logic.Relation
import Mathlib.Order.Bounds.Defs

/-!
# Ranks and longest paths

Vertices are taken one after the other, each of them once.  The rank of a vertex
is the number of arcs of a longest path to it that only goes forward in this
order.  In a graph without cycles a vertex is taken after all its predecessors,
so that every arc goes forward.

Ranks are longest paths because of two facts about single arcs: ranks rise along
every arc that goes forward, and a rank that is not zero is one more than the
rank at the other end of such an arc.
-/

namespace Flowchart.Layout

/-! ## Paths -/

/-- A path with a number of arcs that ends in a vertex. -/
inductive PathTo (leads : String → String → Prop) : Nat → String → Prop
  | start (id : String) : PathTo leads 0 id
  | step {n : Nat} {id next : String} :
      PathTo leads n id → leads id next → PathTo leads (n + 1) next

/-- Ranks rise along all arcs, and no further than the arcs demand. -/
structure Rises (leads : String → String → Prop) (rank : String → Nat) :
    Prop where
  lt : ∀ {id next}, leads id next → rank id < rank next
  zero_or_succ : ∀ next,
    rank next = 0 ∨ ∃ id, leads id next ∧ rank next = rank id + 1

namespace Rises

variable {leads : String → String → Prop} {rank : String → Nat}

theorem length_le
    (h : Rises leads rank) {n : Nat} {id : String} (hpath : PathTo leads n id) :
    n ≤ rank id := by
  induction hpath with
  | start id => exact Nat.zero_le _
  | step _ harc ih =>
      have hlt := h.lt harc
      omega

theorem exists_path
    (h : Rises leads rank) {n : Nat} {id : String} (hrank : rank id = n) :
    PathTo leads n id := by
  induction n generalizing id with
  | zero => exact .start id
  | succ n ih =>
      rcases h.zero_or_succ id with hzero | ⟨before, harc, hsucc⟩
      · omega
      · have hbefore : rank before = n := by omega
        exact .step (ih hbefore) harc

/-- A rank is the length of a longest path. -/
theorem isGreatest (h : Rises leads rank) (id : String) :
    IsGreatest {n | PathTo leads n id} (rank id) :=
  ⟨h.exists_path rfl, fun _ hpath => h.length_le hpath⟩

theorem congr
    {others : String → String → Prop} (h : Rises leads rank)
    (hiff : ∀ id next, leads id next ↔ others id next) : Rises others rank where
  lt harc := h.lt ((hiff _ _).mpr harc)
  zero_or_succ next := by
    simpa only [hiff] using h.zero_or_succ next

end Rises

/-! ## Arcs -/

/-- An arc leads from one vertex to another. -/
def Leads (arcs : List Arc) (id next : String) : Prop :=
  ⟨id, next⟩ ∈ arcs

/-- No path along arcs comes back to where it starts. -/
def Acyclic (arcs : List Arc) : Prop :=
  ∀ id, ¬ Relation.TransGen (Leads arcs) id id

/-- An arc leads from a vertex to another one that stands behind it. -/
def LeadsForward (arcs : List Arc) (order : List String)
    (id next : String) : Prop :=
  Leads arcs id next ∧ [id, next].Sublist order

theorem leads_properArcs_iff
    {ids : List String} {arcs : List Arc} {id next : String} :
    Leads (properArcs ids arcs) id next ↔
      Leads arcs id next ∧ id ≠ next ∧ id ∈ ids ∧ next ∈ ids := by
  simp [Leads, properArcs, and_assoc]

theorem Acyclic.properArcs
    {arcs : List Arc} (h : Acyclic arcs) (ids : List String) :
    Acyclic (properArcs ids arcs) := by
  intro id hcycle
  have hleads : Leads (Layout.properArcs ids arcs) ≤ Leads arcs :=
    fun _ _ harc => (leads_properArcs_iff.mp harc).1
  exact h id (Relation.TransGen.mono hleads id id hcycle)

theorem acyclic_of_lt
    {arcs : List Arc} (height : String → Nat)
    (hlt : ∀ {id next}, Leads arcs id next → height id < height next) :
    Acyclic arcs := by
  have hpath : ∀ {id next}, Relation.TransGen (Leads arcs) id next →
      height id < height next := by
    intro id next hpath
    induction hpath with
    | single harc => exact hlt harc
    | tail _ harc ih => exact Nat.lt_trans ih (hlt harc)
  exact fun id hcycle => Nat.lt_irrefl _ (hpath hcycle)

theorem LeadsForward.left_mem
    {arcs : List Arc} {order : List String} {id next : String}
    (h : LeadsForward arcs order id next) : id ∈ order :=
  h.2.subset List.mem_cons_self

theorem LeadsForward.right_mem
    {arcs : List Arc} {order : List String} {id next : String}
    (h : LeadsForward arcs order id next) : next ∈ order :=
  h.2.subset (List.mem_cons_of_mem _ List.mem_cons_self)

/-- A last vertex adds the arcs that end in it. -/
theorem leadsForward_concat_iff
    {arcs : List Arc} {order : List String} {last id next : String} :
    LeadsForward arcs (order ++ [last]) id next ↔
      LeadsForward arcs order id next ∨
        Leads arcs id next ∧ id ∈ order ∧ next = last := by
  have hstands : [id, next].Sublist (order ++ [last]) ↔
      [id, next].Sublist order ∨ id ∈ order ∧ next = last := by
    constructor
    · intro h
      obtain ⟨front, back, heq, hfront, hback⟩ := List.sublist_append_iff.mp h
      rcases List.sublist_singleton.mp hback with rfl | rfl
      · rw [List.append_nil] at heq
        exact .inl (heq ▸ hfront)
      · have hparts : [id] ++ [next] = front ++ [last] := heq
        obtain ⟨hid, hnext⟩ := List.append_inj' hparts rfl
        exact .inr ⟨List.singleton_sublist.mp (hid ▸ hfront),
          List.singleton_inj.mp hnext⟩
    · rintro (h | ⟨hid, rfl⟩)
      · exact h.trans (List.sublist_append_left _ _)
      · exact (List.singleton_sublist.mpr hid).append_right [next]
  simp only [LeadsForward, hstands, and_or_left]

/-! ## Ranks in a given order -/

theorem rankOf_cons
    (first : String) (rank : Nat) (ranks : Ranks) (id : String) :
    rankOf ((first, rank) :: ranks) id =
      if id = first then rank else rankOf ranks id := by
  by_cases heq : id = first
  · simp [rankOf, heq]
  · have hbeq : (id == first) = false := beq_false_of_ne heq
    simp [rankOf, List.lookup_cons, hbeq, heq]

theorem lookup_of_notMem
    {ranks : Ranks} {id : String} (hid : id ∉ ranks.map Prod.fst) :
    ranks.lookup id = none := by
  rw [List.lookup_eq_none_iff]
  intro entry hentry
  have hne : id ≠ entry.1 := by
    rintro rfl
    exact hid (List.mem_map_of_mem hentry)
  simpa using hne

theorem lookup_of_mem
    {ranks : Ranks} {id : String} (hid : id ∈ ranks.map Prod.fst) :
    ranks.lookup id = some (rankOf ranks id) := by
  obtain ⟨entry, hentry, rfl⟩ := List.mem_map.mp hid
  cases hlookup : ranks.lookup entry.1 with
  | none =>
      have hne := List.lookup_eq_none_iff.mp hlookup entry hentry
      simp at hne
  | some rank => simp [rankOf, hlookup]

theorem rankBehind_concat
    (arcs : List Arc) (arc : Arc) (ranks : Ranks) (id : String) :
    rankBehind (arcs ++ [arc]) ranks id =
      if arc.target = id ∧ arc.source ∈ ranks.map Prod.fst then
        max (rankBehind arcs ranks id) (rankOf ranks arc.source + 1)
      else
        rankBehind arcs ranks id := by
  have hlast : rankBehind (arcs ++ [arc]) ranks id =
      if arc.target = id then
        (ranks.lookup arc.source).elim (rankBehind arcs ranks id) fun rank =>
          max (rankBehind arcs ranks id) (rank + 1)
      else
        rankBehind arcs ranks id := by
    rw [rankBehind, List.foldl_append, List.foldl_cons, List.foldl_nil]
    cases ranks.lookup arc.source <;> rfl
  rw [hlast]
  by_cases hsource : arc.source ∈ ranks.map Prod.fst
  · simp [lookup_of_mem hsource, hsource]
  · simp [lookup_of_notMem hsource, hsource]

theorem lt_rankBehind
    {arcs : List Arc} {ranks : Ranks} {id next : String}
    (harc : Leads arcs id next) (hid : id ∈ ranks.map Prod.fst) :
    rankOf ranks id < rankBehind arcs ranks next := by
  induction arcs using List.reverseRecOn with
  | nil => simp [Leads] at harc
  | append_singleton arcs arc ih =>
      rw [rankBehind_concat]
      rcases List.mem_append.mp harc with hearlier | hlast
      · have hlt := ih hearlier
        split
        · exact Nat.lt_of_lt_of_le hlt (Nat.le_max_left _ _)
        · exact hlt
      · obtain rfl := List.mem_singleton.mp hlast
        rw [if_pos ⟨rfl, hid⟩]
        exact Nat.le_max_right _ _

theorem rankBehind_zero_or_succ
    (arcs : List Arc) (ranks : Ranks) (next : String) :
    rankBehind arcs ranks next = 0 ∨
      ∃ id, Leads arcs id next ∧ id ∈ ranks.map Prod.fst ∧
        rankBehind arcs ranks next = rankOf ranks id + 1 := by
  induction arcs using List.reverseRecOn with
  | nil => exact .inl rfl
  | append_singleton arcs arc ih =>
      have hearlier : rankBehind arcs ranks next = 0 ∨
          ∃ id, Leads (arcs ++ [arc]) id next ∧ id ∈ ranks.map Prod.fst ∧
            rankBehind arcs ranks next = rankOf ranks id + 1 := by
        rcases ih with hzero | ⟨id, harc, hid, hsucc⟩
        · exact .inl hzero
        · exact .inr ⟨id, List.mem_append_left _ harc, hid, hsucc⟩
      rw [rankBehind_concat]
      by_cases hlast : arc.target = next ∧ arc.source ∈ ranks.map Prod.fst
      · rw [if_pos hlast]
        rcases Nat.le_total (rankOf ranks arc.source + 1)
          (rankBehind arcs ranks next) with hle | hle
        · rw [Nat.max_eq_left hle]
          exact hearlier
        · have harc : Leads (arcs ++ [arc]) arc.source next :=
            hlast.1 ▸ List.mem_append_right arcs List.mem_cons_self
          exact .inr ⟨arc.source, harc, hlast.2, Nat.max_eq_right hle⟩
      · rw [if_neg hlast]
        exact hearlier

theorem rankInOrder_concat
    (arcs : List Arc) (ranks : Ranks) (order : List String) (last : String) :
    rankInOrder arcs ranks (order ++ [last]) =
      (last, rankBehind arcs (rankInOrder arcs ranks order) last) ::
        rankInOrder arcs ranks order := by
  induction order generalizing ranks with
  | nil => rfl
  | cons id order ih => exact ih _

theorem rankInOrder_ids
    (arcs : List Arc) (ranks : Ranks) (order : List String) :
    (rankInOrder arcs ranks order).map Prod.fst =
      order.reverse ++ ranks.map Prod.fst := by
  induction order generalizing ranks with
  | nil => rfl
  | cons id order ih => simp [rankInOrder, ih]

theorem mem_rankInOrder_ids
    {arcs : List Arc} {order : List String} {id : String} :
    id ∈ (rankInOrder arcs [] order).map Prod.fst ↔ id ∈ order := by
  simp [rankInOrder_ids]

/-- Only arcs that go forward in the order count. -/
theorem rankInOrder_rises
    (arcs : List Arc) {order : List String} (hnodup : order.Nodup) :
    Rises (LeadsForward arcs order) (rankOf (rankInOrder arcs [] order)) := by
  induction order using List.reverseRecOn with
  | nil =>
      refine ⟨fun harc => ?_, fun next => .inl rfl⟩
      simp [LeadsForward] at harc
  | append_singleton order last ih =>
      obtain ⟨hearlier, -, hdisjoint⟩ := List.nodup_append.mp hnodup
      have hne : ∀ id ∈ order, id ≠ last := fun id hid =>
        hdisjoint id hid last List.mem_cons_self
      have hrises := ih hearlier
      have hrank : ∀ id, id ≠ last →
          rankOf (rankInOrder arcs [] (order ++ [last])) id =
            rankOf (rankInOrder arcs [] order) id := by
        intro id hid
        rw [rankInOrder_concat, rankOf_cons, if_neg hid]
      have hrankLast : rankOf (rankInOrder arcs [] (order ++ [last])) last =
          rankBehind arcs (rankInOrder arcs [] order) last := by
        rw [rankInOrder_concat, rankOf_cons, if_pos rfl]
      constructor
      · intro id next harc
        rcases leadsForward_concat_iff.mp harc with
          hforward | ⟨hlead, hid, rfl⟩
        · rw [hrank id (hne id hforward.left_mem),
            hrank next (hne next hforward.right_mem)]
          exact hrises.lt hforward
        · rw [hrank id (hne id hid), hrankLast]
          exact lt_rankBehind hlead (mem_rankInOrder_ids.mpr hid)
      · intro next
        by_cases heq : next = last
        · subst heq
          rw [hrankLast]
          rcases rankBehind_zero_or_succ arcs (rankInOrder arcs [] order) next
            with hzero | ⟨id, hlead, hid, hsucc⟩
          · exact .inl hzero
          · have hid := mem_rankInOrder_ids.mp hid
            refine .inr ⟨id, leadsForward_concat_iff.mpr
              (.inr ⟨hlead, hid, rfl⟩), ?_⟩
            rw [hsucc, hrank id (hne id hid)]
        · rw [hrank next heq]
          rcases hrises.zero_or_succ next with hzero | ⟨id, hforward, hsucc⟩
          · exact .inl hzero
          · refine .inr ⟨id, leadsForward_concat_iff.mpr (.inl hforward), ?_⟩
            rw [hrank id (hne id hforward.left_mem), hsucc]

/-! ## The order in which vertices are taken -/

section Sorting

variable {α : Type} (less : α → α → Bool)

theorem insertBack_perm (x : α) (xs : List α) :
    (insertBack less x xs).Perm (x :: xs) := by
  induction xs with
  | nil => exact .refl _
  | cons y ys ih =>
      rw [insertBack]
      by_cases hless : less x y
      · rw [if_pos hless]
        exact (ih.cons y).trans (.swap x y ys)
      · rw [if_neg hless]

theorem sortBy_perm (xs : List α) : (sortBy less xs).Perm xs := by
  have hfold : (xs.foldl (fun sorted x => insertBack less x sorted) []).Perm
      xs := by
    induction xs using List.reverseRecOn with
    | nil => exact .refl _
    | append_singleton xs x ih =>
        rw [List.foldl_append]
        exact (insertBack_perm less x _).trans
          ((ih.cons x).trans (List.perm_append_singleton x xs).symm)
  exact (List.reverse_perm _).trans hfold

end Sorting

theorem nodup_eraseDups (ids : List String) : ids.eraseDups.Nodup := by
  cases ids with
  | nil => exact List.nodup_nil
  | cons id ids =>
      rw [List.eraseDups_cons, List.nodup_cons]
      constructor
      · simp [List.mem_eraseDups]
      · exact nodup_eraseDups (ids.filter fun other => !other == id)
termination_by ids.length
decreasing_by
  exact Nat.lt_succ_of_le (List.length_filter_le _ _)

theorem byPriority_nodup (priority : String → Nat) (ids : List String) :
    (byPriority priority ids).Nodup :=
  (sortBy_perm _ _).nodup_iff.mpr (nodup_eraseDups ids)

theorem mem_byPriority
    {priority : String → Nat} {ids : List String} {id : String} :
    id ∈ byPriority priority ids ↔ id ∈ ids :=
  (sortBy_perm _ _).mem_iff.trans List.mem_eraseDups

section Taking

variable {arcs : List Arc} {pending : List String} {id : String}

theorem mem_of_next? (h : next? arcs pending = some id) : id ∈ pending := by
  rcases Option.or_eq_some_iff.mp h with hfound | ⟨-, hhead⟩
  · exact List.mem_of_find?_eq_some hfound
  · exact List.mem_of_mem_head? hhead

theorem eq_nil_of_next? (h : next? arcs pending = none) : pending = [] :=
  List.head?_eq_none_iff.mp (Option.or_eq_none_iff.mp h).2

/-- Every vertex is taken once, whatever the arcs are. -/
theorem takeInOrder_perm
    {count : Nat} (hcount : pending.length ≤ count) :
    (takeInOrder arcs count pending).Perm pending := by
  induction count generalizing pending with
  | zero =>
      rw [List.length_eq_zero_iff.mp (Nat.le_zero.mp hcount)]
      exact .refl _
  | succ count ih =>
      rw [takeInOrder]
      cases htaken : next? arcs pending with
      | none =>
          rw [eq_nil_of_next? htaken]
      | some id =>
          have hid := mem_of_next? htaken
          have hlength : (pending.erase id).length ≤ count := by
            rw [List.length_erase_of_mem hid]
            omega
          exact ((ih hlength).cons id).trans (List.perm_cons_erase hid).symm

theorem isReady_iff :
    isReady arcs pending id = true ↔
      ∀ before, Leads arcs before id → before ∉ pending := by
  simp only [isReady, List.all_eq_true, Bool.or_eq_true, bne_iff_ne,
    Bool.not_eq_true', List.contains_eq_mem, decide_eq_false_iff_not, Leads]
  constructor
  · intro h before harc
    exact (h _ harc).resolve_left (fun hne => hne rfl)
  · intro h arc harc
    by_cases htarget : arc.target = id
    · subst htarget
      exact .inr (h arc.source harc)
    · exact .inl htarget

/-- Some vertex comes first along the paths of a graph if none of the vertices
lies on a cycle. -/
theorem exists_first
    {leads : String → String → Prop}
    (hacyclic : ∀ id ∈ pending, ¬ Relation.TransGen leads id id)
    (hne : pending ≠ []) :
    ∃ id ∈ pending, ∀ before ∈ pending,
      ¬ Relation.TransGen leads before id := by
  induction pending with
  | nil => exact absurd rfl hne
  | cons head rest ih =>
      obtain ⟨hhead, hlater⟩ := List.forall_mem_cons.mp hacyclic
      by_cases hrest : rest = []
      · subst hrest
        exact ⟨head, List.mem_cons_self, by simpa using hhead⟩
      · obtain ⟨id, hid, hfirst⟩ := ih hlater hrest
        by_cases hpath : Relation.TransGen leads head id
        · refine ⟨head, List.mem_cons_self, ?_⟩
          intro before hbefore hlong
          rcases List.mem_cons.mp hbefore with rfl | hbefore
          · exact hhead hlong
          · exact hfirst before hbefore (hlong.trans hpath)
        · refine ⟨id, List.mem_cons_of_mem _ hid, ?_⟩
          intro before hbefore
          rcases List.mem_cons.mp hbefore with rfl | hbefore
          · exact hpath
          · exact hfirst before hbefore

theorem isReady_of_next?
    (hacyclic : Acyclic arcs) (h : next? arcs pending = some id) :
    isReady arcs pending id = true := by
  obtain ⟨first, hfirst, hnone⟩ := exists_first (fun id _ => hacyclic id)
    (List.ne_nil_of_mem (mem_of_next? h))
  have hready : isReady arcs pending first = true := by
    rw [isReady_iff]
    intro before harc hbefore
    exact hnone before hbefore (.single harc)
  rcases Option.or_eq_some_iff.mp h with hfound | ⟨hnotFound, -⟩
  · exact List.find?_some hfound
  · exact absurd hready (List.find?_eq_none.mp hnotFound first hfirst)

/-- A vertex is taken after its predecessors. -/
theorem takeInOrder_forward
    (hacyclic : Acyclic arcs) {count : Nat}
    (hcount : pending.length ≤ count) (hnodup : pending.Nodup)
    {next : String} (harc : Leads arcs id next)
    (hid : id ∈ pending) (hnext : next ∈ pending) :
    [id, next].Sublist (takeInOrder arcs count pending) := by
  induction count generalizing pending with
  | zero =>
      rw [List.length_eq_zero_iff.mp (Nat.le_zero.mp hcount)] at hid
      simp at hid
  | succ count ih =>
      rw [takeInOrder]
      cases htaken : next? arcs pending with
      | none =>
          rw [eq_nil_of_next? htaken] at hid
          simp at hid
      | some taken =>
          have hready :=
            isReady_iff.mp (isReady_of_next? hacyclic htaken)
          have hlength : (pending.erase taken).length ≤ count := by
            rw [List.length_erase_of_mem (mem_of_next? htaken)]
            omega
          have hlater : next ∈ pending.erase taken := by
            refine (List.Nodup.mem_erase_iff hnodup).mpr ⟨?_, hnext⟩
            rintro rfl
            exact hready id harc hid
          by_cases heq : id = taken
          · subst heq
            refine List.Sublist.cons_cons id ?_
            exact List.singleton_sublist.mpr
              ((takeInOrder_perm hlength).mem_iff.mpr hlater)
          · have hpending : id ∈ pending.erase taken :=
              (List.Nodup.mem_erase_iff hnodup).mpr ⟨heq, hid⟩
            exact (ih hlength (hnodup.erase taken) hpending hlater).cons taken

end Taking

/-! ## Ranks of a graph -/

section Graph

variable (priority : String → Nat) (ids : List String) (arcs : List Arc)

theorem takingOrder_perm :
    (takingOrder priority ids arcs).Perm (byPriority priority ids) :=
  takeInOrder_perm (Nat.le_refl _)

theorem takingOrder_nodup : (takingOrder priority ids arcs).Nodup :=
  (takingOrder_perm priority ids arcs).nodup_iff.mpr (byPriority_nodup _ _)

theorem computeRanks_ids_nodup :
    ((computeRanks priority ids arcs).map Prod.fst).Nodup := by
  rw [computeRanks, rankInOrder_ids, List.map_nil, List.append_nil,
    List.nodup_reverse]
  exact takingOrder_nodup priority ids arcs

/-- Exactly the vertices have a rank. -/
theorem mem_computeRanks_ids {id : String} :
    id ∈ (computeRanks priority ids arcs).map Prod.fst ↔ id ∈ ids := by
  rw [computeRanks, mem_rankInOrder_ids,
    (takingOrder_perm priority ids arcs).mem_iff, mem_byPriority]

theorem computeRanks_rises :
    Rises
      (LeadsForward (properArcs ids arcs) (takingOrder priority ids arcs))
      (rankOf (computeRanks priority ids arcs)) :=
  rankInOrder_rises _ (takingOrder_nodup priority ids arcs)

/-- A cycle is opened at its first vertex. -/
example :
    computeRanks (fun _ => 0) ["a", "b", "c"]
        [⟨"a", "b"⟩, ⟨"b", "c"⟩, ⟨"c", "a"⟩] =
      [("c", 2), ("b", 1), ("a", 0)] := by
  decide +kernel

/-- Without cycles, all arcs go forward. -/
theorem computeRanks_rises_of_acyclic
    (hacyclic : Acyclic (properArcs ids arcs)) :
    Rises (Leads (properArcs ids arcs))
      (rankOf (computeRanks priority ids arcs)) := by
  refine (computeRanks_rises priority ids arcs).congr fun id next => ?_
  refine ⟨And.left, fun harc => ⟨harc, ?_⟩⟩
  obtain ⟨-, -, hid, hnext⟩ := leads_properArcs_iff.mp harc
  exact takeInOrder_forward hacyclic (Nat.le_refl _) (byPriority_nodup _ _)
    harc (mem_byPriority.mpr hid) (mem_byPriority.mpr hnext)

end Graph

end Flowchart.Layout

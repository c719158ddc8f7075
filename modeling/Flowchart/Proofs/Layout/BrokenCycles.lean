import Flowchart.Proofs.Layout.Levels
import Mathlib

/-!
# Where cycles are broken

An arc counts for the ranks if its source is taken before its target.  While all
vertices that are left wait for each other, the one with the highest priority is
taken all the same, and nothing says that it lies on a cycle: it may just as
well wait behind one.  Hence an arc on no cycle may not count either.

This happens to such an arc exactly if some cycle leads to its source and the
target of the arc precedes all vertices of the cycle and of the way from there
to the source.  In particular the arcs that no cycle leads to all count.
-/

namespace Flowchart.Layout

/-! ## Priorities -/

/-- Of two vertices that may be taken, the first one is. -/
def Precedes (priority : String → Nat) (id next : String) : Prop :=
  priority id < priority next ∨ priority id = priority next ∧ id < next

instance Precedes.decidable (priority : String → Nat) (id next : String) :
    Decidable (Precedes priority id next) :=
  inferInstanceAs (Decidable (_ ∨ _))

section Priority

variable {priority : String → Nat} {id next : String}

theorem precedes_iff_toLex_lt :
    Precedes priority id next ↔
      toLex (priority id, id) < toLex (priority next, next) := by
  rw [Prod.Lex.toLex_lt_toLex]
  rfl

theorem lexLess_eq_true_iff :
    lexLess (priority id, id) (priority next, next) = true ↔
      Precedes priority id next := by
  unfold lexLess Precedes
  dsimp only
  split
  · next h => simp [compare_lt_iff_lt.mp h]
  · next h => simp [compare_eq_iff_eq.mp h, compare_lt_iff_lt]
  · next h =>
      have hgt := compare_gt_iff_gt.mp h
      simp only [Bool.false_eq_true, false_iff]
      omega

theorem Precedes.irrefl (id : String) : ¬Precedes priority id id := by
  rw [precedes_iff_toLex_lt]
  exact lt_irrefl _

theorem Precedes.asymm (h : Precedes priority id next) :
    ¬Precedes priority next id := by
  rw [precedes_iff_toLex_lt] at h ⊢
  exact h.asymm

theorem precedes_of_not_precedes
    (hnot : ¬Precedes priority next id) (hne : id ≠ next) :
    Precedes priority id next := by
  rw [precedes_iff_toLex_lt] at hnot ⊢
  refine lt_of_le_of_ne (not_lt.mp hnot) fun heq => hne ?_
  exact congrArg Prod.snd (toLex.injective heq)

end Priority

section Sorting

variable {α : Type} {less : α → α → Bool}

/-- The list stands in descending order, as does the list that is sorted by
insertion. -/
theorem insertBack_pairwise
    (hasymm : ∀ x y, less x y = true → less y x = false)
    (htrans : ∀ x y z, less x y = false → less y z = false →
      less x z = false)
    (x : α) {ys : List α} (hys : ys.Pairwise fun y z => less y z = false) :
    (insertBack less x ys).Pairwise fun y z => less y z = false := by
  induction ys with
  | nil => exact List.pairwise_singleton _ x
  | cons y ys ih =>
      obtain ⟨hy, hlater⟩ := List.pairwise_cons.mp hys
      rw [insertBack]
      split
      · next hless =>
          refine List.pairwise_cons.mpr ⟨?_, ih hlater⟩
          intro z hz
          rcases List.mem_cons.mp ((insertBack_perm less x ys).mem_iff.mp hz)
            with rfl | hz
          · exact hasymm _ _ hless
          · exact hy z hz
      · next hless =>
          have hxy : less x y = false := Bool.eq_false_iff.mpr hless
          refine List.pairwise_cons.mpr ⟨?_, hys⟩
          intro z hz
          rcases List.mem_cons.mp hz with rfl | hz
          · exact hxy
          · exact htrans x y z hxy (hy z hz)

/-- Sorting leaves no item behind one that it is less than. -/
theorem sortBy_pairwise
    (hasymm : ∀ x y, less x y = true → less y x = false)
    (htrans : ∀ x y z, less x y = false → less y z = false →
      less x z = false) (xs : List α) :
    (sortBy less xs).Pairwise fun x y => less y x = false := by
  have hfold : (xs.foldl (fun sorted x => insertBack less x sorted)
      []).Pairwise fun y z => less y z = false :=
    List.foldlRecOn xs _ List.Pairwise.nil fun _ hsorted x _ =>
      insertBack_pairwise hasymm htrans x hsorted
  exact List.pairwise_reverse.mpr hfold

end Sorting

theorem byPriority_pairwise (priority : String → Nat) (ids : List String) :
    (byPriority priority ids).Pairwise (Precedes priority) := by
  have hnot : ∀ {id next}, lexLess (priority id, id) (priority next, next) =
      false ↔ ¬Precedes priority id next := by
    intro id next
    rw [← lexLess_eq_true_iff, Bool.not_eq_true]
  have hsorted : (byPriority priority ids).Pairwise fun id next =>
      lexLess (priority next, next) (priority id, id) = false :=
    sortBy_pairwise
      (fun _ _ h => hnot.mpr (lexLess_eq_true_iff.mp h).asymm)
      (fun _ _ _ h h' => by
        rw [hnot, precedes_iff_toLex_lt, not_lt] at h h' ⊢
        exact h'.trans h) ids.eraseDups
  refine (hsorted.and (byPriority_nodup priority ids)).imp ?_
  rintro id next ⟨hless, hne⟩
  exact precedes_of_not_precedes (hnot.mp hless) hne

/-! ## Arcs behind a cycle -/

/-- The arc joins two vertices that `first` precedes. -/
def LeadsBehind (priority : String → Nat) (arcs : List Arc)
    (first id next : String) : Prop :=
  Leads arcs id next ∧ Precedes priority first id ∧
    Precedes priority first next

/-- Some cycle leads to a vertex, and `first` precedes all vertices of the cycle
and of the way from there to the vertex. -/
def HeldUp (priority : String → Nat) (arcs : List Arc)
    (first id : String) : Prop :=
  ∃ vertex,
    Relation.TransGen (LeadsBehind priority arcs first) vertex vertex ∧
    Relation.ReflTransGen (LeadsBehind priority arcs first) vertex id

/-- Vertices that all wait for one of their own contain a cycle. -/
theorem exists_cycle
    {leads : String → String → Prop} {waiting : List String}
    (hne : waiting ≠ [])
    (hbefore : ∀ id ∈ waiting, ∃ before ∈ waiting, leads before id) :
    ∃ id ∈ waiting, Relation.TransGen leads id id := by
  by_contra hnone
  push Not at hnone
  obtain ⟨first, hfirst, hstart⟩ := exists_first hnone hne
  obtain ⟨before, hmem, hlead⟩ := hbefore first hfirst
  exact hstart before hmem (.single hlead)

section Taking

variable {priority : String → Nat} {arcs : List Arc} {pending : List String}
  {id next : String}

/-- A vertex that is taken although it is not ready precedes all others that are
left, and none of them is ready. -/
theorem precedes_of_next?
    (hsorted : pending.Pairwise (Precedes priority))
    (htaken : next? arcs pending = some next)
    (hnot : ¬isReady arcs pending next) :
    (∀ id ∈ pending, ¬isReady arcs pending id) ∧
      ∀ id ∈ pending, id ≠ next → Precedes priority next id := by
  rcases Option.or_eq_some_iff.mp htaken with hfound | ⟨hnone, hhead⟩
  · exact absurd (List.find?_some hfound) hnot
  · obtain ⟨rest, rfl⟩ := List.head?_eq_some_iff.mp hhead
    refine ⟨List.find?_eq_none.mp hnone, fun id hid hne => ?_⟩
    exact (List.pairwise_cons.mp hsorted).1 id
      ((List.mem_cons.mp hid).resolve_left hne)

/-- If the target of an arc is taken while its source is left, then the source
waits behind a cycle. -/
theorem heldUp_of_next?
    (hsorted : pending.Pairwise (Precedes priority))
    (htaken : next? arcs pending = some next)
    (harc : Leads arcs id next) (hid : id ∈ pending)
    (hback : ¬Relation.ReflTransGen (Leads arcs) next id) :
    HeldUp priority arcs next id := by
  classical
  have hnot : ¬isReady arcs pending next :=
    fun hready => isReady_iff.mp hready id harc hid
  obtain ⟨hstuck, hfirst⟩ := precedes_of_next? hsorted htaken hnot
  have hleads : LeadsBehind priority arcs next ≤ Leads arcs :=
    fun _ _ h => h.1
  -- The vertices that are left and hold up `id` have a predecessor each, which
  -- is left as well and is not `next`, from which no way leads to `id`.
  let waiting := pending.filter fun vertex =>
    Relation.ReflTransGen (LeadsBehind priority arcs next) vertex id
  have hbefore : ∀ vertex ∈ waiting, ∃ before ∈ waiting,
      LeadsBehind priority arcs next before vertex := by
    intro vertex hvertex
    obtain ⟨hpending, hway⟩ := List.mem_filter.mp hvertex
    rw [decide_eq_true_eq] at hway
    have hready := hstuck vertex hpending
    rw [isReady_iff] at hready
    push Not at hready
    obtain ⟨before, hlead, hmem⟩ := hready
    have hpath := Relation.ReflTransGen.mono hleads vertex id hway
    have hne : vertex ≠ next := by
      rintro rfl
      exact hback hpath
    have hneBefore : before ≠ next := by
      rintro rfl
      exact hback (hpath.head hlead)
    have hbehind : LeadsBehind priority arcs next before vertex :=
      ⟨hlead, hfirst before hmem hneBefore, hfirst vertex hpending hne⟩
    refine ⟨before, List.mem_filter.mpr ⟨hmem, ?_⟩, hbehind⟩
    exact decide_eq_true (hway.head hbehind)
  have hmem : id ∈ waiting :=
    List.mem_filter.mpr ⟨hid, decide_eq_true .refl⟩
  obtain ⟨vertex, hvertex, hcycle⟩ :=
    exists_cycle (List.ne_nil_of_mem hmem) hbefore
  exact ⟨vertex, hcycle, of_decide_eq_true (List.mem_filter.mp hvertex).2⟩

theorem heldUp_of_taken_first
    {count : Nat} (hcount : pending.length ≤ count)
    (hsorted : pending.Pairwise (Precedes priority))
    (harc : Leads arcs id next)
    (hback : ¬Relation.ReflTransGen (Leads arcs) next id)
    (horder : [next, id].Sublist (takeInOrder arcs count pending)) :
    HeldUp priority arcs next id := by
  induction count generalizing pending with
  | zero => simp [takeInOrder] at horder
  | succ count ih =>
      rw [takeInOrder] at horder
      cases htaken : next? arcs pending with
      | none => simp [htaken] at horder
      | some taken =>
          simp only [htaken] at horder
          have hlength : (pending.erase taken).length ≤ count := by
            rw [List.length_erase_of_mem (mem_of_next? htaken)]
            omega
          by_cases heq : taken = next
          · subst heq
            have hlater : id ∈ takeInOrder arcs count (pending.erase taken) :=
              List.singleton_sublist.mp (List.cons_sublist_cons.mp horder)
            have hid : id ∈ pending := List.mem_of_mem_erase
              ((takeInOrder_perm hlength).mem_iff.mp hlater)
            exact heldUp_of_next? hsorted htaken harc hid hback
          · refine ih hlength (hsorted.sublist List.erase_sublist) ?_
            rcases List.sublist_cons_iff.mp horder with hlater | ⟨_, hhead, -⟩
            · exact hlater
            · exact absurd (List.cons.inj hhead).1.symm heq

/-- If vertices wait for each other and `next` precedes all of them, then `next`
is taken before them. -/
theorem taken_first_of_waiting
    {waits : String → Prop} (hwaits : ∀ {vertex}, waits vertex →
      Precedes priority next vertex ∧
        ∃ before, waits before ∧ Leads arcs before vertex)
    {count : Nat} (hcount : pending.length ≤ count)
    (hsorted : pending.Pairwise (Precedes priority))
    (hnext : next ∈ pending)
    (hleft : ∀ {vertex}, waits vertex → vertex ∈ pending)
    (hid : waits id) :
    [next, id].Sublist (takeInOrder arcs count pending) := by
  induction count generalizing pending with
  | zero =>
      rw [List.length_eq_zero_iff.mp (Nat.le_zero.mp hcount)] at hnext
      simp at hnext
  | succ count ih =>
      rw [takeInOrder]
      cases htaken : next? arcs pending with
      | none =>
          rw [eq_nil_of_next? htaken] at hnext
          simp at hnext
      | some taken =>
          have hlength : (pending.erase taken).length ≤ count := by
            rw [List.length_erase_of_mem (mem_of_next? htaken)]
            omega
          by_cases heq : taken = next
          · subst heq
            refine List.Sublist.cons_cons taken (List.singleton_sublist.mpr ?_)
            refine (takeInOrder_perm hlength).mem_iff.mpr ?_
            refine (List.mem_erase_of_ne ?_).mpr (hleft hid)
            rintro rfl
            exact Precedes.irrefl id (hwaits hid).1
          · have hnot : ¬waits taken := by
              intro htakenWaits
              obtain ⟨hprecedes, before, hbefore, hlead⟩ := hwaits htakenWaits
              have hnotReady : ¬isReady arcs pending taken := fun hready =>
                isReady_iff.mp hready before hlead (hleft hbefore)
              exact hprecedes.asymm ((precedes_of_next? hsorted htaken
                hnotReady).2 next hnext (Ne.symm heq))
            refine (ih hlength (hsorted.sublist List.erase_sublist)
              ((List.mem_erase_of_ne (Ne.symm heq)).mpr hnext) ?_).cons taken
            intro vertex hvertex
            refine (List.mem_erase_of_ne ?_).mpr (hleft hvertex)
            rintro rfl
            exact hnot hvertex

end Taking

/-! ## Arcs that do not count -/

theorem pair_sublist_or {α : Type} {x y : α} {zs : List α}
    (hx : x ∈ zs) (hy : y ∈ zs) (hne : x ≠ y) :
    [x, y].Sublist zs ∨ [y, x].Sublist zs := by
  obtain ⟨earlier, later, rfl⟩ := List.append_of_mem hx
  rcases List.mem_append.mp hy with hy | hy
  · have hback : [y].Sublist earlier := List.singleton_sublist.mpr hy
    exact Or.inr (hback.append
      (List.singleton_sublist.mpr List.mem_cons_self))
  · have hy : y ∈ later := (List.mem_cons.mp hy).resolve_left hne.symm
    exact Or.inl (((List.singleton_sublist.mpr hy).cons_cons x).trans
      (List.sublist_append_right earlier _))

section Graph

variable (priority : String → Nat) (ids : List String) (arcs : List Arc)

/-- Of the two ends of an arc on no cycle, the target is taken first exactly if
the source is held up. -/
theorem taken_first_iff_heldUp
    {id next : String} (harc : Leads (properArcs ids arcs) id next)
    (hback : ¬Relation.ReflTransGen (Leads (properArcs ids arcs)) next id) :
    [next, id].Sublist (takingOrder priority ids arcs) ↔
      HeldUp priority (properArcs ids arcs) next id := by
  have hsorted := byPriority_pairwise priority ids
  constructor
  · exact heldUp_of_taken_first (Nat.le_refl _) hsorted harc hback
  · rintro ⟨vertex, hcycle, hway⟩
    have hnext : next ∈ ids := (leads_properArcs_iff.mp harc).2.2.2
    -- Every vertex behind the cycle has a predecessor behind it, since the way
    -- to it can begin with the cycle.
    have hbefore : ∀ {later}, Relation.ReflTransGen (LeadsBehind priority
        (properArcs ids arcs) next) vertex later →
        ∃ before, Relation.ReflTransGen (LeadsBehind priority
          (properArcs ids arcs) next) vertex before ∧
          LeadsBehind priority (properArcs ids arcs) next before later :=
      fun hlater => Relation.TransGen.tail'_iff.mp (hcycle.trans_left hlater)
    refine taken_first_of_waiting ?_ (Nat.le_refl _) hsorted
      (mem_byPriority.mpr hnext) ?_ hway
    · intro later hlater
      obtain ⟨before, hmem, hlead, -, hprecedes⟩ := hbefore hlater
      exact ⟨hprecedes, before, hmem, hlead⟩
    · intro later hlater
      obtain ⟨before, -, hlead, -⟩ := hbefore hlater
      exact mem_byPriority.mpr (leads_properArcs_iff.mp hlead).2.2.2

/-- Let no way lead back from the target of an arc to its source.  Then the
target has the greater rank, unless it precedes all vertices of some cycle and
of the way from there to the source.  In exactly these cases the target is taken
first. -/
theorem computeRanks_lt_of_not_heldUp
    {id next : String} (harc : Leads arcs id next)
    (hid : id ∈ ids) (hnext : next ∈ ids)
    (hback : ¬Relation.ReflTransGen (Leads (properArcs ids arcs)) next id) :
    (¬HeldUp priority (properArcs ids arcs) next id →
      rankOf (computeRanks priority ids arcs) id <
        rankOf (computeRanks priority ids arcs) next) ∧
    (HeldUp priority (properArcs ids arcs) next id ↔
      [next, id].Sublist (takingOrder priority ids arcs)) := by
  have hne : id ≠ next := by
    rintro rfl
    exact hback .refl
  have hproper : Leads (properArcs ids arcs) id next :=
    leads_properArcs_iff.mpr ⟨harc, hne, hid, hnext⟩
  have hiff := taken_first_iff_heldUp priority ids arcs hproper hback
  refine ⟨fun hfree => ?_, hiff.symm⟩
  have hforward : [id, next].Sublist (takingOrder priority ids arcs) :=
    (pair_sublist_or ((mem_takingOrder priority ids arcs).mpr hid)
      ((mem_takingOrder priority ids arcs).mpr hnext) hne).resolve_right
        fun hfirst => hfree (hiff.mp hfirst)
  exact (computeRanks_rises priority ids arcs).lt ⟨hproper, hforward⟩

end Graph

/-- A cycle with one vertex behind it that precedes the cycle, and one that does
not. -/
def knotIds : List String := ["early", "a", "b", "late"]

def knotArcs : List Arc :=
  [⟨"a", "b"⟩, ⟨"b", "a"⟩, ⟨"a", "early"⟩, ⟨"b", "late"⟩]

theorem knotArcs_late_lies_below :
    ¬Relation.ReflTransGen (Leads (properArcs knotIds knotArcs)) "late" "b" ∧
    ¬HeldUp knotIds.idxOf (properArcs knotIds knotArcs) "late" "b" ∧
    rankOf (computeRanks knotIds.idxOf knotIds knotArcs) "b" <
      rankOf (computeRanks knotIds.idxOf knotIds knotArcs) "late" := by
  have hback : ¬Relation.ReflTransGen
      (Leads (properArcs knotIds knotArcs)) "late" "b" := by
    intro hpath
    rcases hpath.cases_head with heq | ⟨later, hlead, -⟩
    · simp at heq
    · simpa [Leads, knotArcs] using (leads_properArcs_iff.mp hlead).1
  have hfree : ¬HeldUp knotIds.idxOf (properArcs knotIds knotArcs)
      "late" "b" := by
    rintro ⟨vertex, hcycle, -⟩
    obtain ⟨later, -, hlead, hprecedes, -⟩ :=
      Relation.TransGen.tail'_iff.mp hcycle
    have hmem := (leads_properArcs_iff.mp hlead).2.2.1
    have hnone : ∀ id ∈ knotIds, ¬Precedes knotIds.idxOf "late" id := by
      decide
    exact hnone later hmem hprecedes
  exact ⟨hback, hfree, (computeRanks_lt_of_not_heldUp knotIds.idxOf knotIds
    knotArcs (by simp [Leads, knotArcs]) (by decide) (by decide) hback).1
      hfree⟩

/-- The arc to the early vertex lies on no cycle, but it does not lead down. -/
theorem knotArcs_not_all_down :
    knotIds.Nodup ∧
    (∀ arc ∈ knotArcs, arc.source ∈ knotIds ∧ arc.target ∈ knotIds) ∧
    Leads knotArcs "a" "early" ∧
    ¬Relation.ReflTransGen (Leads knotArcs) "early" "a" ∧
    ¬rankOf (computeRanks knotIds.idxOf knotIds knotArcs) "a" <
      rankOf (computeRanks knotIds.idxOf knotIds knotArcs) "early" := by
  refine ⟨by decide, by decide, by simp [Leads, knotArcs], ?_,
    by decide +kernel⟩
  intro hpath
  rcases hpath.cases_head with heq | ⟨later, hlead, -⟩
  · simp at heq
  · simp [Leads, knotArcs] at hlead

end Flowchart.Layout

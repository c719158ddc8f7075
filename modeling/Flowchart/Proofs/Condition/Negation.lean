import Flowchart.Proofs.Condition.Groups

/-!
# Negated groups

A condition carries one combinator, the innermost one around it, and the first
condition carries none.  So the `not` around a whole group is never seen: the
first leaf loses it for being the first, and around every other leaf some
combinator of the group itself is closer.

At a place within a larger group a `not` is seen if it stands around a single
leaf, if no other `not` is closest to the place, and if the leaf does not come
first.  Around anything else it leaves no trace there either.
-/

namespace Flowchart

namespace Condition

namespace Group

/-- The group under a `not`. -/
def negated (group : Group) : Group :=
  .joined .absent .absent (.one group)

theorem leaves_negated (group : Group) :
    group.negated.leaves = group.leaves.map (.within .not) := by
  simp [negated, leaves, Members.leaves]

theorem leavesOf_eq_flatMap (groups : List Group) :
    leavesOf groups = groups.flatMap leaves := by
  induction groups with
  | nil => rfl
  | cons group groups ih => rw [leavesOf, ih, List.flatMap_cons]

/-- Around every leaf of a group that joins others there is a combinator of the
group. -/
theorem enclosing_ne_nil
    {ands ors nots : Members} {placed : PlacedLeaf}
    (h : placed ∈ (joined ands ors nots).leaves) : placed.enclosing ≠ [] := by
  simp only [leaves, List.mem_append, List.mem_map] at h
  obtain (⟨inner, -, rfl⟩ | ⟨inner, -, rfl⟩) | ⟨inner, -, rfl⟩ := h <;>
    exact List.cons_ne_nil _ _

end Group

/-! ## Places in a group -/

/-- Where a group stands under a combinator: alone or in a list. -/
inductive Seat where
  | alone
  | among (before after : List Group)

namespace Seat

/-- The groups before a seat. -/
def before : Seat → List Group
  | alone => []
  | among before _ => before

/-- The groups behind a seat. -/
def after : Seat → List Group
  | alone => []
  | among _ after => after

/-- A group is put on a seat. -/
def fill (group : Group) : Seat → Members
  | alone => .one group
  | among before after => .many (before ++ group :: after)

theorem leaves_fill (seat : Seat) (group : Group) :
    (seat.fill group).leaves =
      Group.leavesOf seat.before ++ group.leaves ++
        Group.leavesOf seat.after := by
  cases seat <;>
    simp [fill, before, after, Members.leaves, Group.leavesOf_eq_flatMap]

end Seat

/-- The groups that a combinator joins. -/
def Members.groups : Members → List Group
  | .absent => []
  | .one group => [group]
  | .many groups => groups

theorem Members.leaves_eq_flatMap (members : Members) :
    members.leaves = members.groups.flatMap Group.leaves := by
  cases members <;> simp [leaves, groups, Group.leavesOf_eq_flatMap]

/-- One level around a group: the combinator that it stands under, its seat
there, and what the other combinators join. -/
inductive Frame where
  | underAnd (seat : Seat) (ors nots : Members)
  | underOr (ands : Members) (seat : Seat) (nots : Members)
  | underNot (ands ors : Members) (seat : Seat)

namespace Frame

/-- The combinator of a level. -/
def combinator : Frame → Conjunction
  | underAnd _ _ _ => .and
  | underOr _ _ _ => .or
  | underNot _ _ _ => .not

/-- The groups of a level that are read before the one on the seat. -/
def earlier : Frame → List Group
  | underAnd seat _ _ => seat.before
  | underOr ands seat _ => ands.groups ++ seat.before
  | underNot ands ors seat => ands.groups ++ ors.groups ++ seat.before

/-- A group with one more level around it. -/
def plug : Frame → Group → Group
  | underAnd seat ors nots, group => .joined (seat.fill group) ors nots
  | underOr ands seat nots, group => .joined ands (seat.fill group) nots
  | underNot ands ors seat, group => .joined ands ors (seat.fill group)

/-- A level puts leaves before and behind those of the group on its seat, and
before them only those of the earlier groups. -/
theorem exists_leaves_plug (frame : Frame) :
    ∃ before after,
      (before = [] ↔ ∀ other ∈ frame.earlier, other.leaves = []) ∧
      ∀ group, (frame.plug group).leaves =
        before ++ group.leaves.map (.within frame.combinator) ++ after := by
  cases frame with
  | underAnd seat ors nots =>
      refine ⟨(Group.leavesOf seat.before).map (.within .and),
        (Group.leavesOf seat.after).map (.within .and) ++
          ors.leaves.map (.within .or) ++ nots.leaves.map (.within .not),
        ?_, fun group => ?_⟩
      · simp [earlier, Group.leavesOf_eq_flatMap]
      · simp [plug, combinator, Group.leaves, Seat.leaves_fill]
  | underOr ands seat nots =>
      refine ⟨ands.leaves.map (.within .and) ++
          (Group.leavesOf seat.before).map (.within .or),
        (Group.leavesOf seat.after).map (.within .or) ++
          nots.leaves.map (.within .not), ?_, fun group => ?_⟩
      · simp [earlier, Group.leavesOf_eq_flatMap, Members.leaves_eq_flatMap,
          or_imp, forall_and]
      · simp [plug, combinator, Group.leaves, Seat.leaves_fill]
  | underNot ands ors seat =>
      refine ⟨ands.leaves.map (.within .and) ++ ors.leaves.map (.within .or) ++
          (Group.leavesOf seat.before).map (.within .not),
        (Group.leavesOf seat.after).map (.within .not), ?_, fun group => ?_⟩
      · simp [earlier, Group.leavesOf_eq_flatMap, Members.leaves_eq_flatMap,
          or_imp, forall_and]
      · simp [plug, combinator, Group.leaves, Seat.leaves_fill]

end Frame

/-- A group at a place of a larger one, with the levels around it from the
outermost to the innermost. -/
def plugAll (frames : List Frame) (group : Group) : Group :=
  frames.foldr Frame.plug group

/-- The same leaf with more combinators around everything. -/
def PlacedLeaf.below (combinators : List Conjunction) (placed : PlacedLeaf) :
    PlacedLeaf :=
  ⟨combinators ++ placed.enclosing, placed.leaf⟩

/-- The leaves at a place keep their order and stand between others.  None are
before them exactly if the groups that are read earlier, on any level, have no
leaves. -/
theorem exists_leaves_plugAll (frames : List Frame) :
    ∃ before after,
      (before = [] ↔
        ∀ other ∈ frames.flatMap Frame.earlier, other.leaves = []) ∧
      ∀ group, (plugAll frames group).leaves =
        before ++ group.leaves.map (.below (frames.map Frame.combinator)) ++
          after := by
  induction frames with
  | nil =>
      have hsame : PlacedLeaf.below [] = id := rfl
      exact ⟨[], [], by simp, fun group => by simp [plugAll, hsame]⟩
  | cons frame frames ih =>
      obtain ⟨before, after, hbefore, hleaves⟩ := ih
      obtain ⟨outerBefore, outerAfter, houter, hplug⟩ :=
        frame.exists_leaves_plug
      refine ⟨outerBefore ++ before.map (.within frame.combinator),
        after.map (.within frame.combinator) ++ outerAfter, ?_, fun group => ?_⟩
      · rw [List.append_eq_nil_iff, List.map_eq_nil_iff, houter, hbefore,
          List.flatMap_cons, List.forall_mem_append]
      · have hwithin : PlacedLeaf.within frame.combinator ∘
            PlacedLeaf.below (frames.map Frame.combinator) =
              .below ((frame :: frames).map Frame.combinator) := rfl
        have hcons : plugAll (frame :: frames) group =
            frame.plug (plugAll frames group) := rfl
        rw [hcons, hplug, hleaves, List.map_append, List.map_append,
          List.map_map, hwithin]
        simp only [List.append_assoc]

/-! ## What is seen of leaves -/

/-- What is read from leaves before which a number of others stand. -/
def shownAfter (number : Nat) (kind : ConditionKind)
    (placed : List PlacedLeaf) : List Condition :=
  placed.mapIdx fun i placed =>
    (placed.leaf.condition kind).withConjunction
      (if number + i = 0 then none else placed.enclosing.getLast?)

theorem ofGroup_toTree_eq_shownAfter (kind : ConditionKind) (group : Group) :
    ofGroup kind group.toTree = shownAfter 0 kind group.leaves := by
  simp only [ofGroup_toTree, shownAfter, Nat.zero_add]

theorem shownAfter_append
    (number : Nat) (kind : ConditionKind) (placed others : List PlacedLeaf) :
    shownAfter number kind (placed ++ others) =
      shownAfter number kind placed ++
        shownAfter (number + placed.length) kind others := by
  have hnumber : ∀ i,
      number + (i + placed.length) = number + placed.length + i := by
    omega
  simp only [shownAfter, List.mapIdx_append, hnumber]

theorem shownAfter_map_congr
    (number : Nat) (kind : ConditionKind) {placed : List PlacedLeaf}
    {f f' : PlacedLeaf → PlacedLeaf}
    (h : ∀ leaf ∈ placed, (f leaf).leaf = (f' leaf).leaf ∧
      (f leaf).enclosing.getLast? = (f' leaf).enclosing.getLast?) :
    shownAfter number kind (placed.map f) =
      shownAfter number kind (placed.map f') := by
  refine List.ext_getElem (by simp [shownAfter]) fun i hi _ => ?_
  have hlt : i < placed.length := by simpa [shownAfter] using hi
  simp [shownAfter, h placed[i] (List.getElem_mem hlt)]

theorem shownAfter_eq_nil_iff
    {number : Nat} {kind : ConditionKind} {placed : List PlacedLeaf} :
    shownAfter number kind placed = [] ↔ placed = [] :=
  List.mapIdx_eq_nil_iff

/-- Behind an own combinator of the group the `not` is not seen. -/
theorem shownAfter_negated_joined
    (number : Nat) (kind : ConditionKind) (ands ors nots : Members)
    (outer : List Conjunction) :
    shownAfter number kind
        ((Group.joined ands ors nots).negated.leaves.map (.below outer)) =
      shownAfter number kind
        ((Group.joined ands ors nots).leaves.map (.below outer)) := by
  rw [Group.leaves_negated, List.map_map]
  refine shownAfter_map_congr number kind fun placed hmem => ⟨rfl, ?_⟩
  have hne := Group.enclosing_ne_nil hmem
  simp [PlacedLeaf.within, PlacedLeaf.below, List.getLast?_append,
    List.getLast?_cons, List.getLast?_eq_some_getLast hne]

theorem shownAfter_negated_eq_iff
    (number : Nat) (kind : ConditionKind) (outer : List Conjunction)
    (group : Group) :
    shownAfter number kind (group.negated.leaves.map (.below outer)) =
        shownAfter number kind (group.leaves.map (.below outer)) ↔
      ((∃ leaf, group = .leaf leaf) →
        number = 0 ∨ outer.getLast? = some .not) := by
  cases group with
  | leaf leaf =>
      have hnegated : (Group.leaf leaf).negated.leaves.map
          (PlacedLeaf.below outer) = [⟨outer ++ [.not], leaf⟩] := rfl
      have hplain : (Group.leaf leaf).leaves.map (PlacedLeaf.below outer) =
          [⟨outer ++ [], leaf⟩] := rfl
      rw [hnegated, hplain, List.append_nil]
      by_cases hnumber : number = 0
      · simp [shownAfter, hnumber]
      · simp [shownAfter, hnumber, withConjunction, eq_comm]
  | joined ands ors nots =>
      refine iff_of_true
        (shownAfter_negated_joined number kind ands ors nots outer) ?_
      rintro ⟨leaf, hleaf⟩
      cases hleaf

theorem ofGroup_toTree_eq_nil_iff {kind : ConditionKind} {group : Group} :
    ofGroup kind group.toTree = [] ↔ group.leaves = [] := by
  rw [ofGroup_toTree_eq_shownAfter, shownAfter_eq_nil_iff]

theorem ofGroup_negated_eq (kind : ConditionKind) (group : Group) :
    ofGroup kind group.negated.toTree = ofGroup kind group.toTree := by
  rw [ofGroup_toTree_eq_shownAfter, ofGroup_toTree_eq_shownAfter]
  cases group with
  | leaf leaf => rfl
  | joined ands ors nots =>
      have hsame : PlacedLeaf.below [] = id := rfl
      have hjoined := shownAfter_negated_joined 0 kind ands ors nots []
      rwa [hsame, List.map_id, List.map_id] at hjoined

theorem ofGroup_plugAll_negated_ne_iff
    (kind : ConditionKind) (frames : List Frame) (group : Group) :
    ofGroup kind (plugAll frames group.negated).toTree ≠
        ofGroup kind (plugAll frames group).toTree ↔
      (∃ leaf, group = .leaf leaf) ∧
      (frames.map Frame.combinator).getLast? ≠ some .not ∧
      ∃ other ∈ frames.flatMap Frame.earlier,
        ofGroup kind other.toTree ≠ [] := by
  obtain ⟨before, after, hbefore, hleaves⟩ := exists_leaves_plugAll frames
  have hlength : group.negated.leaves.length = group.leaves.length := by
    rw [Group.leaves_negated, List.length_map]
  have hnone : before.length = 0 ↔ ∀ other ∈ frames.flatMap Frame.earlier,
      ofGroup kind other.toTree = [] := by
    simp only [List.length_eq_zero_iff, hbefore, ofGroup_toTree_eq_nil_iff]
  have hcut : ∀ group : Group, ofGroup kind (plugAll frames group).toTree =
      shownAfter 0 kind before ++
        shownAfter before.length kind
          (group.leaves.map (.below (frames.map Frame.combinator))) ++
        shownAfter (before.length + group.leaves.length) kind after := by
    intro group
    rw [ofGroup_toTree_eq_shownAfter, hleaves, shownAfter_append,
      shownAfter_append]
    simp
  rw [hcut, hcut, hlength, ne_eq, List.append_left_inj, List.append_right_inj,
    shownAfter_negated_eq_iff, hnone]
  push Not
  tauto

/-- A `not` around a whole group is not seen.  A condition carries `not` exactly
if it is not the first and `not` is the innermost combinator around its leaf.
So a `not` around a group at a place of a larger group, on any level, is seen
exactly if this group is a single leaf, if the place does not stand directly
under a `not` itself, and if a condition is read before it in the larger
group. -/
theorem ofGroup_negation_seen_iff (kind : ConditionKind) (group : Group) :
    ofGroup kind group.negated.toTree = ofGroup kind group.toTree ∧
    (∀ i, (ofGroup kind group.toTree)[i]?.bind Condition.conjunction =
        some .not ↔
      i ≠ 0 ∧ group.leaves[i]?.bind (fun placed =>
        placed.enclosing.getLast?) = some .not) ∧
    ∀ frames : List Frame,
      ofGroup kind (plugAll frames group.negated).toTree ≠
        ofGroup kind (plugAll frames group).toTree ↔
      (∃ leaf, group = .leaf leaf) ∧
        (frames.map Frame.combinator).getLast? ≠ some .not ∧
        ∃ other ∈ frames.flatMap Frame.earlier,
          ofGroup kind other.toTree ≠ [] := by
  refine ⟨ofGroup_negated_eq kind group, fun i => ?_,
    fun frames => ofGroup_plugAll_negated_ne_iff kind frames group⟩
  rw [ofGroup_toTree, List.getElem?_mapIdx]
  cases group.leaves[i]? with
  | none => simp
  | some placed => by_cases hi : i = 0 <;> simp [withConjunction, hi]

/-- A guard and its negation, which are read alike. -/
theorem ready_negated_unchanged :
    ofGroup .whenKind (Group.leaf (.raw "ready")).toTree ≠ [] ∧
    ofGroup .whenKind (Group.leaf (.raw "ready")).negated.toTree =
      ofGroup .whenKind (Group.leaf (.raw "ready")).toTree := by
  decide

end Condition

end Flowchart

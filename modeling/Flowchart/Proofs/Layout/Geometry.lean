import Flowchart.Layout.Basic
import Flowchart.Proofs.Downward
import Flowchart.Proofs.Layout.Placement

/-!
# The geometry of a layout

In exact numbers, the nodes of one rank stand side by side at one height and
keep their distance, and they stand above the nodes of greater ranks.  The upper
left corner of the box around all nodes is the origin, and the box is as wide
and as high as the layout says.

Nodes may be joined in any way.  Only their ids must be distinct, and none of
them may be that of a dummy, which would take the node's room away.
-/

namespace Flowchart

open Layout

/-! ## Boxes -/

namespace PlacedNode

/-- The left edge of the box of a node. -/
def left (placed : PlacedNode Rat) : Rat :=
  placed.position.x

/-- The right edge of the box of a node. -/
def right (placed : PlacedNode Rat) : Rat :=
  placed.position.x + placed.size.width

/-- The upper edge of the box of a node. -/
def top (placed : PlacedNode Rat) : Rat :=
  placed.position.y

/-- The lower edge of the box of a node. -/
def bottom (placed : PlacedNode Rat) : Rat :=
  placed.position.y + placed.size.height

/-- The boxes of two nodes share more than an edge. -/
def Overlaps (a b : PlacedNode Rat) : Prop :=
  a.left < b.right ∧ b.left < a.right ∧ a.top < b.bottom ∧ b.top < a.bottom

theorem left_eq (placed : PlacedNode Rat) :
    placed.left = placed.center.x - placed.size.width / 2 := by
  rw [left, position, Scalar.half_eq]

theorem right_eq (placed : PlacedNode Rat) :
    placed.right = placed.center.x + placed.size.width / 2 := by
  have hleft := placed.left_eq
  unfold left at hleft
  rw [right, hleft]
  ring

theorem top_eq (placed : PlacedNode Rat) :
    placed.top = placed.center.y - placed.size.height / 2 := by
  rw [top, position, Scalar.half_eq, Scalar.half_eq]

theorem bottom_eq (placed : PlacedNode Rat) :
    placed.bottom = placed.center.y + placed.size.height / 2 := by
  have htop := placed.top_eq
  unfold top at htop
  rw [bottom, htop]
  ring

end PlacedNode

/-- A node after a point has become the origin. -/
def PlacedNode.moved (placed : PlacedNode Rat) (x y : Rat) : PlacedNode Rat :=
  { placed with center := ⟨placed.center.x - x, placed.center.y - y⟩ }

namespace PlacedNode

variable (placed : PlacedNode Rat) (x y : Rat)

theorem moved_left : (placed.moved x y).left = placed.left - x := by
  simp only [left_eq, moved]
  ring

theorem moved_right : (placed.moved x y).right = placed.right - x := by
  simp only [right_eq, moved]
  ring

theorem moved_top : (placed.moved x y).top = placed.top - y := by
  simp only [top_eq, moved]
  ring

theorem moved_bottom : (placed.moved x y).bottom = placed.bottom - y := by
  simp only [bottom_eq, moved]
  ring

end PlacedNode

/-- Nodes have room, and the distances between them are no less than zero. -/
structure Layout.Measures.Sensible (measures : Measures Rat) : Prop where
  nodeWidth_pos : 0 < measures.nodeWidth
  nodeHeight_pos : 0 < measures.nodeHeight
  largeNodeHeight_pos : 0 < measures.largeNodeHeight
  nodeSpacing_nonneg : 0 ≤ measures.nodeSpacing
  rankSpacing_nonneg : 0 ≤ measures.rankSpacing

namespace Diagram

/-- The rank of a node in the layout of a diagram. -/
def rank (diagram : Diagram) (id : String) : Nat :=
  rankOf (ranksOf diagram.nodeIds diagram.arcs) id

/-- There are nodes, their ids are distinct, and none of these is that of a
dummy. -/
structure Placeable (diagram : Diagram) : Prop where
  nodes_nonempty : diagram.nodes ≠ []
  nodeIds_nodup : diagram.nodeIds.Nodup
  nodeIds_free : ∀ n, dummyId n ∉ diagram.nodeIds

/-- Where a layout puts the nodes of a diagram. -/
structure Geometry (measures : Measures Rat) (diagram : Diagram) : Prop where
  /-- Every node is placed, and has the size of its kind. -/
  contents :
    (diagram.place measures).nodes.map (fun a => (a.node, a.size)) =
      diagram.nodes.map fun node => (node, measures.nodeSize node)
  /-- Nodes of one rank stand at one height. -/
  level : ∀ a ∈ (diagram.place measures).nodes,
    ∀ b ∈ (diagram.place measures).nodes,
      diagram.rank a.node.id = diagram.rank b.node.id →
      a.center.y = b.center.y
  /-- Nodes of one rank keep their distance. -/
  spaced : ∀ a ∈ (diagram.place measures).nodes,
    ∀ b ∈ (diagram.place measures).nodes, a.node.id ≠ b.node.id →
      diagram.rank a.node.id = diagram.rank b.node.id →
      a.right + measures.nodeSpacing ≤ b.left ∨
        b.right + measures.nodeSpacing ≤ a.left
  /-- Nodes stand above those of greater ranks. -/
  stacked : ∀ a ∈ (diagram.place measures).nodes,
    ∀ b ∈ (diagram.place measures).nodes,
      diagram.rank a.node.id < diagram.rank b.node.id →
      a.bottom + measures.rankSpacing ≤ b.top
  disjoint : ∀ a ∈ (diagram.place measures).nodes,
    ∀ b ∈ (diagram.place measures).nodes, a.node.id ≠ b.node.id →
      ¬ a.Overlaps b
  left_isLeast :
    IsLeast {x | ∃ a ∈ (diagram.place measures).nodes, a.left = x} 0
  top_isLeast :
    IsLeast {y | ∃ a ∈ (diagram.place measures).nodes, a.top = y} 0
  right_isGreatest :
    IsGreatest {x | ∃ a ∈ (diagram.place measures).nodes, a.right = x}
      (2 * (diagram.place measures).fullWidth)
  bottom_isGreatest :
    IsGreatest {y | ∃ a ∈ (diagram.place measures).nodes, a.bottom = y}
      (2 * (diagram.place measures).fullHeight)

/-! ## Places before they are moved to the origin -/

/-- The sizes that a layout goes by. -/
def sizes (measures : Measures Rat) (diagram : Diagram) : Table (Size Rat) :=
  sizesOf measures diagram.nodes diagram.layers.dummies

/-- The rows in the order in which they are drawn. -/
def orderedRows (measures : Measures Rat) (diagram : Diagram) :
    List (List String) :=
  orderRows diagram.layers.arcs measures.orderPasses diagram.layers.rows

section Places

variable {measures : Measures Rat} {diagram : Diagram}

theorem Placeable.ne_dummyId
    (h : diagram.Placeable) {id : String} (hid : id ∈ diagram.nodeIds) :
    ∀ n, id ≠ dummyId n := by
  rintro n rfl
  exact h.nodeIds_free n hid

theorem Placeable.standsIn
    (h : diagram.Placeable) (measures : Measures Rat) {id : String}
    (hid : id ∈ diagram.nodeIds) :
    StandsIn (diagram.orderedRows measures) (diagram.rank id) id :=
  (Layers.rows_standsIn hid (h.ne_dummyId hid) diagram.arcs).of_contents
    (contents_orderRows _ _ _)

/-- A node is as large as its kind demands. -/
theorem Placeable.sizeAt_sizes
    (h : diagram.Placeable) (measures : Measures Rat) {node : Node}
    (hnode : node ∈ diagram.nodes) :
    sizeAt (diagram.sizes measures) node.id = measures.nodeSize node := by
  have hid : node.id ∈ diagram.nodeIds := List.mem_map_of_mem hnode
  rw [sizes, sizeAt_sizesOf h.nodeIds_nodup hnode, if_neg]
  intro hdummy
  obtain ⟨n, hn⟩ := Layers.exists_eq_dummyId _ hdummy
  exact h.ne_dummyId hid n hn

theorem Placeable.contents_place
    (h : diagram.Placeable) (measures : Measures Rat) :
    (diagram.place measures).nodes.map (fun a => (a.node, a.size)) =
      diagram.nodes.map fun node => (node, measures.nodeSize node) := by
  rw [place_nodes]
  refine List.map_congr_left fun node hnode => ?_
  exact congrArg (node, ·) (h.sizeAt_sizes measures hnode)

theorem nodeSize_pos (hmeasures : measures.Sensible) (node : Node) :
    0 < (measures.nodeSize node).width ∧
      0 < (measures.nodeSize node).height := by
  refine ⟨hmeasures.nodeWidth_pos, ?_⟩
  unfold Measures.nodeSize
  split
  · exact hmeasures.largeNodeHeight_pos
  · exact hmeasures.nodeHeight_pos

theorem sizeAt_insert_width_nonneg
    {sizes : Table (Size Rat)} (h : ∀ id, 0 ≤ (sizeAt sizes id).width)
    (key : String) {size : Size Rat} (hsize : 0 ≤ size.width) (id : String) :
    0 ≤ (sizeAt (sizes.insert key size) id).width := by
  rw [sizeAt, Std.TreeMap.getD_insert]
  split
  · exact hsize
  · exact h id

/-- Dummies and nodes alike have no negative width. -/
theorem sizeAt_sizes_width_nonneg
    (hmeasures : measures.Sensible) (diagram : Diagram) :
    ∀ id, 0 ≤ (sizeAt (diagram.sizes measures) id).width := by
  have hzero : (0 : Rat) ≤ (Size.zero : Size Rat).width :=
    Scalar.zero_eq.ge
  refine List.foldlRecOn (motive := fun sizes : Table (Size Rat) =>
    ∀ id, 0 ≤ (sizeAt sizes id).width) _ _ ?_ ?_
  · refine List.foldlRecOn (motive := fun sizes : Table (Size Rat) =>
      ∀ id, 0 ≤ (sizeAt sizes id).width) _ _ ?_ ?_
    · intro id
      rw [sizeAt, Std.TreeMap.getD_emptyc]
      exact hzero
    · intro sizes hsizes node _
      exact sizeAt_insert_width_nonneg hsizes node.id
        (nodeSize_pos hmeasures node).1.le
  · intro sizes hsizes dummy _
    exact sizeAt_insert_width_nonneg hsizes dummy hzero

section Placed

variable {a b : PlacedNode Rat} (ha : a ∈ diagram.placeNodes measures)
  (hb : b ∈ diagram.placeNodes measures)

include ha in
/-- What a placed node is made of. -/
theorem of_mem_placeNodes :
    a.node ∈ diagram.nodes ∧
    a.size = sizeAt (diagram.sizes measures) a.node.id ∧
    a.center.x =
      (horizontalCenters measures (diagram.sizes measures) diagram.layers.arcs
        (diagram.orderedRows measures))[a.node.id]?.getD 0 ∧
    a.center.y =
      (verticalCenters measures (diagram.sizes measures)
        (diagram.orderedRows measures))[a.node.id]?.getD 0 := by
  obtain ⟨node, hnode, rfl⟩ := List.mem_map.mp ha
  rw [← Scalar.zero_eq, ← Std.TreeMap.getD_eq_getD_getElem?,
    ← Std.TreeMap.getD_eq_getD_getElem?]
  exact ⟨hnode, rfl, rfl, rfl⟩

variable (hplaceable : diagram.Placeable)

include hplaceable ha in
theorem standsIn_of_mem_placeNodes :
    StandsIn (diagram.orderedRows measures) (diagram.rank a.node.id)
      a.node.id :=
  hplaceable.standsIn measures (List.mem_map_of_mem (of_mem_placeNodes ha).1)

include hplaceable ha in
/-- A node stands in the middle of the row of its rank, and fits into it. -/
theorem exists_row_of_mem_placeNodes :
    ∃ row,
      (diagram.orderedRows measures)[diagram.rank a.node.id]? = some row ∧
      a.size.height ≤ bandHeight (diagram.sizes measures) row ∧
      a.center.y =
        rowTop measures (diagram.sizes measures) 0
            (diagram.orderedRows measures) (diagram.rank a.node.id) +
          bandHeight (diagram.sizes measures) row / 2 := by
  obtain ⟨-, hsize, -, hy⟩ := of_mem_placeNodes ha
  have hstands := standsIn_of_mem_placeNodes ha hplaceable
  obtain ⟨row, hrow⟩ : ∃ row,
      (diagram.orderedRows measures)[diagram.rank a.node.id]? = some row :=
    ⟨_, List.getElem?_eq_getElem hstands.lt_length⟩
  refine ⟨row, hrow, ?_, ?_⟩
  · rw [hsize]
    exact height_le_bandHeight ((hstands.mem_iff _ row hrow).mpr rfl)
  · rw [hy, verticalCenters, Scalar.zero_eq,
      placeBands_of_standsIn hstands hrow, Option.getD_some]

include hplaceable ha hb in
theorem level_placeNodes
    (hrank : diagram.rank a.node.id = diagram.rank b.node.id) :
    a.center.y = b.center.y := by
  obtain ⟨row, hrow, -, hy⟩ := exists_row_of_mem_placeNodes ha hplaceable
  obtain ⟨row', hrow', -, hy'⟩ := exists_row_of_mem_placeNodes hb hplaceable
  rw [hrank] at hrow hy
  obtain rfl := Option.some.inj (hrow.symm.trans hrow')
  rw [hy, hy']

variable (hmeasures : measures.Sensible)

include hplaceable hmeasures ha in
theorem size_pos_of_mem_placeNodes :
    0 < a.size.width ∧ 0 < a.size.height := by
  obtain ⟨hnode, hsize, -, -⟩ := of_mem_placeNodes ha
  rw [hsize, hplaceable.sizeAt_sizes measures hnode]
  exact nodeSize_pos hmeasures a.node

include hplaceable hmeasures ha hb in
theorem stacked_placeNodes
    (hrank : diagram.rank a.node.id < diagram.rank b.node.id) :
    a.bottom + measures.rankSpacing ≤ b.top := by
  obtain ⟨row, hrow, hfits, hy⟩ := exists_row_of_mem_placeNodes ha hplaceable
  obtain ⟨row', -, hfits', hy'⟩ := exists_row_of_mem_placeNodes hb hplaceable
  have hheight := (size_pos_of_mem_placeNodes ha hplaceable hmeasures).2
  have hstacked := rowTop_add_le hmeasures.rankSpacing_nonneg hrow
    (hheight.trans_le hfits) hrank 0
  rw [PlacedNode.bottom_eq, PlacedNode.top_eq, hy, hy']
  linarith

include hplaceable hmeasures ha hb in
theorem spaced_placeNodes
    (hne : a.node.id ≠ b.node.id)
    (hrank : diagram.rank a.node.id = diagram.rank b.node.id) :
    a.right + measures.nodeSpacing ≤ b.left ∨
      b.right + measures.nodeSpacing ≤ a.left := by
  obtain ⟨-, hsize, hx, -⟩ := of_mem_placeNodes ha
  obtain ⟨-, hsize', hx', -⟩ := of_mem_placeNodes hb
  have hstands := standsIn_of_mem_placeNodes ha hplaceable
  have hstands' := standsIn_of_mem_placeNodes hb hplaceable
  have hsame : ∀ row ∈ diagram.orderedRows measures,
      a.node.id ∈ row ↔ b.node.id ∈ row := by
    intro row hmem
    obtain ⟨i, hi⟩ := List.getElem?_of_mem hmem
    rw [hstands.mem_iff i row hi, hstands'.mem_iff i row hi, hrank]
  have hrow : ∃ row ∈ diagram.orderedRows measures, a.node.id ∈ row := by
    obtain ⟨row, hrow, -, -⟩ := exists_row_of_mem_placeNodes ha hplaceable
    exact ⟨row, List.mem_of_getElem? hrow,
      (hstands.mem_iff _ row hrow).mpr rfl⟩
  obtain ⟨x, y, hfirst, hsecond, hapart⟩ := horizontalCenters_apart
    hmeasures.nodeSpacing_nonneg (sizeAt_sizes_width_nonneg hmeasures diagram)
    diagram.layers.arcs hsame hrow hne
  rw [hfirst, Option.getD_some] at hx
  rw [hsecond, Option.getD_some] at hx'
  simp only [PlacedNode.right_eq, PlacedNode.left_eq, hsize, hsize', hx, hx']
  rcases hapart with h | h
  · refine .inl ?_
    unfold LeftOf at h
    linarith
  · refine .inr ?_
    unfold LeftOf at h
    linarith

end Placed

end Places

/-! ## The box around all nodes -/

theorem least_isLeast {xs : List Rat} (hne : xs ≠ []) :
    IsLeast {x | x ∈ xs} (least xs) := by
  cases xs with
  | nil => exact absurd rfl hne
  | cons x xs => exact Scalar.foldl_smaller_isLeast x xs

/-- Numbers that are no less than zero have a greatest one. -/
theorem greatest_isGreatest
    {xs : List Rat} (hne : xs ≠ []) (hnonneg : ∀ x ∈ xs, 0 ≤ x) :
    IsGreatest {x | x ∈ xs} (greatest xs) := by
  have hgreatest := Scalar.foldl_larger_isGreatest 0 xs
  rw [greatest, Scalar.zero_eq]
  obtain ⟨hmem, hle⟩ := hgreatest
  refine ⟨?_, fun x hx => hle (List.mem_cons_of_mem _ hx)⟩
  rcases List.mem_cons.mp hmem with hzero | hmem
  · obtain ⟨x, hx⟩ := List.exists_mem_of_ne_nil xs hne
    have hx0 : x = 0 := le_antisymm
      (hzero ▸ hle (List.mem_cons_of_mem _ hx)) (hnonneg x hx)
    rw [hzero, ← hx0]
    exact hx
  · exact hmem

section Box

variable {measures : Measures Rat} {diagram : Diagram}

/-- The layout moves all nodes by the same distances. -/
theorem mem_place_nodes_iff
    (hne : diagram.nodes ≠ []) {placed : PlacedNode Rat} :
    placed ∈ (diagram.place measures).nodes ↔
      ∃ a ∈ diagram.placeNodes measures, placed = a.moved
        (least ((diagram.placeNodes measures).map PlacedNode.left))
        (least ((diagram.placeNodes measures).map PlacedNode.top)) := by
  have hempty : diagram.isEmpty = false := List.isEmpty_eq_false_iff.mpr hne
  simp only [place, hempty, Bool.false_eq_true, if_false, toOrigin,
    List.mem_map, eq_comm]
  rfl

theorem placeNodes_ne_nil
    (measures : Measures Rat) (hne : diagram.nodes ≠ []) :
    diagram.placeNodes measures ≠ [] := by
  intro hnil
  exact hne (List.map_eq_nil_iff.mp hnil)

variable (hne : diagram.nodes ≠ [])
include hne

/-- The least edge on the side that nodes are moved to becomes zero. -/
theorem isLeast_of_moved
    (edge : PlacedNode Rat → Rat)
    (hmoved : ∀ a : PlacedNode Rat,
      edge (a.moved
        (least ((diagram.placeNodes measures).map PlacedNode.left))
        (least ((diagram.placeNodes measures).map PlacedNode.top))) =
      edge a - least ((diagram.placeNodes measures).map edge)) :
    IsLeast {x | ∃ a ∈ (diagram.place measures).nodes, edge a = x} 0 := by
  have hnonempty : (diagram.placeNodes measures).map edge ≠ [] := by
    simpa using placeNodes_ne_nil measures hne
  obtain ⟨hmem, hle⟩ := least_isLeast hnonempty
  constructor
  · obtain ⟨a, ha, hleast⟩ := List.mem_map.mp hmem
    refine ⟨_, (mem_place_nodes_iff hne).mpr ⟨a, ha, rfl⟩, ?_⟩
    rw [hmoved, hleast, sub_self]
  · rintro _ ⟨placed, hplaced, rfl⟩
    obtain ⟨a, ha, rfl⟩ := (mem_place_nodes_iff hne).mp hplaced
    rw [hmoved]
    exact sub_nonneg.mpr (hle (List.mem_map_of_mem ha))

theorem left_isLeast :
    IsLeast {x | ∃ a ∈ (diagram.place measures).nodes, a.left = x} 0 :=
  isLeast_of_moved hne PlacedNode.left fun a => a.moved_left _ _

theorem top_isLeast :
    IsLeast {y | ∃ a ∈ (diagram.place measures).nodes, a.top = y} 0 :=
  isLeast_of_moved hne PlacedNode.top fun a => a.moved_top _ _

theorem place_nodes_ne_nil : (diagram.place measures).nodes ≠ [] := by
  obtain ⟨a, ha⟩ := List.exists_mem_of_ne_nil _
    (placeNodes_ne_nil measures hne)
  exact List.ne_nil_of_mem ((mem_place_nodes_iff hne).mpr ⟨a, ha, rfl⟩)

/-- Twice the half of the greatest edge is that edge, if none is negative. -/
theorem isGreatest_edge
    (edge : PlacedNode Rat → Rat)
    (hnonneg : ∀ a ∈ (diagram.place measures).nodes, 0 ≤ edge a) :
    IsGreatest {x | ∃ a ∈ (diagram.place measures).nodes, edge a = x}
      (2 * Scalar.half
        (greatest ((diagram.place measures).nodes.map edge))) := by
  have hnonempty : (diagram.place measures).nodes.map edge ≠ [] := by
    simpa using place_nodes_ne_nil hne
  have hgreatest := greatest_isGreatest hnonempty
    (List.forall_mem_map.mpr hnonneg)
  rw [Scalar.half_eq, mul_div_cancel₀ _ two_ne_zero]
  simpa only [List.mem_map] using hgreatest

end Box

/-! ## The geometry of a layout -/

section Placed

variable {measures : Measures Rat} {diagram : Diagram}
  (hplaceable : diagram.Placeable)
include hplaceable

section Nodes

variable {a b : PlacedNode Rat} (ha : a ∈ (diagram.place measures).nodes)
  (hb : b ∈ (diagram.place measures).nodes)

include ha hb in
theorem level_place
    (hrank : diagram.rank a.node.id = diagram.rank b.node.id) :
    a.center.y = b.center.y := by
  have hne := hplaceable.nodes_nonempty
  obtain ⟨a', ha', rfl⟩ := (mem_place_nodes_iff hne).mp ha
  obtain ⟨b', hb', rfl⟩ := (mem_place_nodes_iff hne).mp hb
  exact congrArg (· - _) (level_placeNodes ha' hb' hplaceable hrank)

variable (hmeasures : measures.Sensible)
include hmeasures ha

theorem size_pos_place : 0 < a.size.width ∧ 0 < a.size.height := by
  obtain ⟨a', ha', rfl⟩ :=
    (mem_place_nodes_iff hplaceable.nodes_nonempty).mp ha
  have hpos := size_pos_of_mem_placeNodes ha' hplaceable hmeasures
  exact hpos

include hb

theorem stacked_place
    (hrank : diagram.rank a.node.id < diagram.rank b.node.id) :
    a.bottom + measures.rankSpacing ≤ b.top := by
  have hne := hplaceable.nodes_nonempty
  obtain ⟨a', ha', rfl⟩ := (mem_place_nodes_iff hne).mp ha
  obtain ⟨b', hb', rfl⟩ := (mem_place_nodes_iff hne).mp hb
  have hstacked := stacked_placeNodes ha' hb' hplaceable hmeasures hrank
  rw [PlacedNode.moved_bottom, PlacedNode.moved_top]
  linarith

theorem spaced_place
    (hdistinct : a.node.id ≠ b.node.id)
    (hrank : diagram.rank a.node.id = diagram.rank b.node.id) :
    a.right + measures.nodeSpacing ≤ b.left ∨
      b.right + measures.nodeSpacing ≤ a.left := by
  have hne := hplaceable.nodes_nonempty
  obtain ⟨a', ha', rfl⟩ := (mem_place_nodes_iff hne).mp ha
  obtain ⟨b', hb', rfl⟩ := (mem_place_nodes_iff hne).mp hb
  simp only [PlacedNode.moved_right, PlacedNode.moved_left]
  rcases spaced_placeNodes ha' hb' hplaceable hmeasures hdistinct hrank
    with hleft | hright
  · exact .inl (by linarith)
  · exact .inr (by linarith)

/-- Nodes of one rank are apart from left to right, others from top to
bottom. -/
theorem not_overlaps_place (hdistinct : a.node.id ≠ b.node.id) :
    ¬ a.Overlaps b := by
  rintro ⟨hleft, hright, htop, hbottom⟩
  have hnode := hmeasures.nodeSpacing_nonneg
  have hrow := hmeasures.rankSpacing_nonneg
  rcases Nat.lt_trichotomy (diagram.rank a.node.id) (diagram.rank b.node.id)
    with hlt | heq | hgt
  · have habove := stacked_place hplaceable ha hb hmeasures hlt
    linarith
  · rcases spaced_place hplaceable ha hb hmeasures hdistinct heq
      with hapart | hapart
    · linarith
    · linarith
  · have hbelow := stacked_place hplaceable hb ha hmeasures hgt
    linarith

end Nodes

variable (hmeasures : measures.Sensible)
include hmeasures

theorem right_isGreatest :
    IsGreatest {x | ∃ a ∈ (diagram.place measures).nodes, a.right = x}
      (2 * (diagram.place measures).fullWidth) := by
  have hne := hplaceable.nodes_nonempty
  have hwidth : (diagram.place measures).fullWidth =
      Scalar.half (greatest ((diagram.place measures).nodes.map
        PlacedNode.right)) := by
    refine congrArg (fun xs => Scalar.half (greatest xs))
      (List.map_congr_left fun a _ => ?_)
    rw [PlacedNode.right_eq, Scalar.half_eq]
  rw [hwidth]
  refine isGreatest_edge hne PlacedNode.right fun a ha => ?_
  have hleft : 0 ≤ a.left := (left_isLeast hne).2 ⟨a, ha, rfl⟩
  exact add_nonneg hleft (size_pos_place hplaceable ha hmeasures).1.le

theorem bottom_isGreatest :
    IsGreatest {y | ∃ a ∈ (diagram.place measures).nodes, a.bottom = y}
      (2 * (diagram.place measures).fullHeight) := by
  have hne := hplaceable.nodes_nonempty
  have hheight : (diagram.place measures).fullHeight =
      Scalar.half (greatest ((diagram.place measures).nodes.map
        PlacedNode.bottom)) := by
    refine congrArg (fun ys => Scalar.half (greatest ys))
      (List.map_congr_left fun a _ => ?_)
    rw [PlacedNode.bottom_eq, Scalar.half_eq]
  rw [hheight]
  refine isGreatest_edge hne PlacedNode.bottom fun a ha => ?_
  have htop : 0 ≤ a.top := (top_isLeast hne).2 ⟨a, ha, rfl⟩
  exact add_nonneg htop (size_pos_place hplaceable ha hmeasures).2.le

theorem geometry : diagram.Geometry measures where
  contents := hplaceable.contents_place measures
  level _ ha _ hb := level_place hplaceable ha hb
  spaced _ ha _ hb := spaced_place hplaceable ha hb hmeasures
  stacked _ ha _ hb := stacked_place hplaceable ha hb hmeasures
  disjoint _ ha _ hb := not_overlaps_place hplaceable ha hb hmeasures
  left_isLeast := left_isLeast hplaceable.nodes_nonempty
  top_isLeast := top_isLeast hplaceable.nodes_nonempty
  right_isGreatest := right_isGreatest hplaceable hmeasures
  bottom_isGreatest := bottom_isGreatest hplaceable hmeasures

end Placed

/-- Every edge leads from a node to one that stands below. -/
def PointsDown (measures : Measures Rat) (diagram : Diagram) : Prop :=
  ∀ edge ∈ diagram.edges,
    ∃ a ∈ (diagram.place measures).nodes,
    ∃ b ∈ (diagram.place measures).nodes,
      a.node.id = edge.source ∧ b.node.id = edge.target ∧
      a.bottom + measures.rankSpacing ≤ b.top

theorem Geometry.exists_of_mem_nodeIds
    {measures : Measures Rat} {diagram : Diagram}
    (h : diagram.Geometry measures) {id : String}
    (hid : id ∈ diagram.nodeIds) :
    ∃ a ∈ (diagram.place measures).nodes, a.node.id = id := by
  have hids : (diagram.place measures).nodes.map (fun a => a.node.id) =
      diagram.nodeIds := by
    have hcontents := congrArg (List.map fun entry => entry.1.id) h.contents
    simpa only [List.map_map, Function.comp_def, nodeIds] using hcontents
  exact List.mem_map.mp (hids ▸ hid)

/-- If ranks grow along the edges of a diagram, then its edges point down. -/
theorem pointsDown
    {measures : Measures Rat} (hmeasures : measures.Sensible)
    {diagram : Diagram} (hwellFormed : diagram.WellFormed)
    (hrunsDown : diagram.RunsDown)
    (hfree : ∀ n, dummyId n ∉ diagram.nodeIds) :
    diagram.PointsDown measures := by
  intro edge hedge
  obtain ⟨hsource, htarget⟩ := hwellFormed.ends_nodes edge hedge
  have hne : diagram.nodes ≠ [] := by
    obtain ⟨node, hnode, -⟩ := List.mem_map.mp hsource
    exact List.ne_nil_of_mem hnode
  have hgeometry := geometry ⟨hne, hwellFormed.nodeIds_nodup, hfree⟩ hmeasures
  obtain ⟨a, ha, hida⟩ := hgeometry.exists_of_mem_nodeIds hsource
  obtain ⟨b, hb, hidb⟩ := hgeometry.exists_of_mem_nodeIds htarget
  refine ⟨a, ha, b, hb, hida, hidb, hgeometry.stacked a ha b hb ?_⟩
  rw [hida, hidb]
  exact (hrunsDown.ranked _).lt edge hedge

end Diagram

/-- A layout in exact numbers keeps nodes apart and fits into its box, whatever
edges there are.  In the diagrams of documents all edges point down. -/
theorem place_geometry
    {measures : Measures Rat} (hmeasures : measures.Sensible) :
    (∀ diagram : Diagram, diagram.Placeable → diagram.Geometry measures) ∧
    ∀ style,
      (∀ flow diagram, Diagram.ofFlow style flow = .ok diagram →
        (∀ n, dummyId n ∉ diagram.nodeIds) → diagram.PointsDown measures) ∧
      (∀ w diagram, Diagram.ofWorkflow style w = .ok diagram →
        (∀ n, dummyId n ∉ diagram.nodeIds) → diagram.PointsDown measures) := by
  refine ⟨fun _ h => Diagram.geometry h hmeasures, fun style => ⟨?_, ?_⟩⟩
  · intro flow diagram hok
    have hwellFormed := Diagram.ofFlow_wellFormed hok
    obtain ⟨haligned, rfl⟩ := Diagram.ofFlow_eq_ok_iff.mp hok
    exact Diagram.pointsDown hmeasures hwellFormed
      (Diagram.ofFoldedFlow_realizes haligned style).runsDown
  · intro w diagram hok
    obtain ⟨drawn, -, hrealizes⟩ := Diagram.ofWorkflow_realizes hok
    exact Diagram.pointsDown hmeasures (Diagram.ofWorkflow_wellFormed hok)
      hrealizes.runsDown

theorem exactMeasures_sensible : exactMeasures.Sensible := by
  constructor <;> decide +kernel

/-- A ring of edges, a loop, and an edge to what is no node. -/
def ringDiagram : Diagram where
  nodes := ["a", "b", "c", "d"].map fun id =>
    ⟨id, .standard, .labelled id⟩
  edges := [("a", "b"), ("b", "c"), ("c", "a"), ("b", "b"), ("a", "d"),
    ("d", "z")].map fun ends =>
      ⟨ends.1 ++ "-" ++ ends.2, ends.1, ends.2, ends.1, ends.2, .standard⟩

theorem ringDiagram_and_forkedFlow_geometry :
    ringDiagram.Geometry exactMeasures ∧
    ringDiagram.nodeIds.map ringDiagram.rank = [0, 1, 2, 1] ∧
    ∃ diagram, Diagram.ofFlow .standard forkedFlow = .ok diagram ∧
      diagram.Geometry exactMeasures ∧ diagram.PointsDown exactMeasures := by
  have hok := Diagram.ofFlow_eq_ok
    (by decide : Entry.flowMismatch? 0 false forkedFlow.foldElse = none)
    .standard
  have hring : ∀ n, dummyId n ∉ ringDiagram.nodeIds :=
    dummyId_notMem (by decide +kernel)
  have hforked : ∀ n, dummyId n ∉
      (Diagram.ofFoldedFlow .standard forkedFlow.foldElse).nodeIds :=
    dummyId_notMem (by decide +kernel)
  refine ⟨(place_geometry exactMeasures_sensible).1 _
      ⟨by decide, by decide +kernel, hring⟩,
    by decide +kernel, _, hok,
    (place_geometry exactMeasures_sensible).1 _
      ⟨by decide +kernel, (Diagram.ofFlow_wellFormed hok).nodeIds_nodup,
        hforked⟩,
    ((place_geometry exactMeasures_sensible).2 .standard).1 _ _ hok hforked⟩

end Flowchart

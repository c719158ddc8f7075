import Flowchart.Proofs.Layout.Counting
import Flowchart.Proofs.Layout.Placement
import Flowchart.Proofs.Layout.Routes

/-!
# Layouts without faults

A layout looks up rows by ranks and medians by positions, takes one from lengths
and from counts, and divides by the number of the vertices of a row.  Here these
operations are checked: an index that is out of range, a difference below zero
and a mean of nothing are faults, after which there is no layout.

No diagram leads to a fault, however its ids repeat or look like those of
dummies and wherever its edges lead; so the checks can be left out.
-/

namespace Flowchart

namespace Layout

/-! ## Medians -/

/-- What is in the middle of a list: one entry or two of them. -/
def middle? {β γ : Type} (single : β → γ) (pair : β → β → γ)
    (sorted : List β) : Option γ := do
  let middle := sorted.length / 2
  if sorted.length % 2 = 1 then
    some (single (← sorted[middle]?))
  else
    some (pair (← sorted[← minus? middle 1]?) (← sorted[middle]?))

/-! ## Rows of vertices -/

/-- Puts a vertex behind the others of its rank. -/
def addToRow? (rows : List (List String)) (vertex : String × Nat) :
    Option (List (List String)) := do
  some (rows.set vertex.2 ((← rows[vertex.2]?) ++ [vertex.1]))

/-- A number of rows that hold vertices by their ranks. -/
def fillRows? (count : Nat) (ranked : List (String × Nat)) :
    Option (List (List String)) :=
  ranked.foldlM addToRow? (List.replicate count [])

/-- The layers of a graph. -/
def Layers.ofGraph? (ids : List String) (arcs : List Arc) : Option Layers := do
  let places := placesOf ids
  let arcs := arcs.filter fun arc =>
    ids.contains arc.source && ids.contains arc.target
  let ranks ← computeRanks? (fun id => places.getD id 0) ids arcs
  let routes := routesFrom ranks 0 arcs
  let rankedDummies := routes.flatMap Route.rankedDummies
  let rows ← fillRows? (maxRank ranks + 1)
    (ids.map (fun id => (id, rankOf ranks id)) ++ rankedDummies)
  let places := (rankedDummies.map Prod.fst).foldl addPlace places
  some
    { rows := rows.map (sortBy fun a b =>
        compare (places.getD a 0) (places.getD b 0) == .lt)
      arcs := routes.flatMap Route.arcs
      dummies := rankedDummies.map Prod.fst }

/-! ## The order within rows -/

/-- Twice the median of the positions of a vertex's neighbours, or twice its
own position. -/
def score? (neighbours : Table (List String)) (positions own : Table Nat)
    (id : String) : Option Nat :=
  let values := (neighbours.getD id []).filterMap
    fun neighbour => positions[neighbour]?.map toSingle
  if values.isEmpty then
    some (2 * toSingle (own.getD id 0))
  else
    middle? (2 * ·) (fun a b => toSingle (a + b))
      (sortBy (fun a b => a < b) values)

/-- Sorts a row by the scores of its vertices. -/
def sortRow? (neighbours : Table (List String)) (positions : Table Nat)
    (row : List String) : Option (List String) := do
  let own := positionsOf [row]
  let keyed ← row.mapM fun id => do
    some ((← score? neighbours positions own id, own.getD id 0), id)
  some ((sortBy (fun a b => lexLess a.1 b.1) keyed).map Prod.snd)

/-- Sorts the row of a rank. -/
def sortRank? (neighbours : Table (List String)) (rows : List (List String))
    (rank : Nat) : Option (List (List String)) := do
  let row ← rows[rank]?
  if row.length ≤ 1 then
    some rows
  else
    some (rows.set rank (← sortRow? neighbours (positionsOf rows) row))

/-- Sorts the rows from top to bottom and from bottom to top. -/
def sortRows? (above below : Table (List String)) (rows : List (List String)) :
    Option (List (List String)) := do
  let last ← minus? rows.length 1
  let down ← (List.range' 1 last).foldlM (sortRank? above) rows
  (List.range last).reverse.foldlM (sortRank? below) down

/-- Does something a number of times. -/
def iterate? {β : Type} (f : β → Option β) : (count : Nat) → β → Option β
  | 0, b => some b
  | count + 1, b => do iterate? f count (← f b)

/-- The rows in the order in which they are drawn.  There is nothing to sort in
a single row. -/
def orderRows? (arcs : List Arc) (passes : Nat) (rows : List (List String)) :
    Option (List (List String)) :=
  if rows.length ≤ 1 then
    some rows
  else
    iterate? (sortRows? (neighboursAbove arcs) (neighboursBelow arcs))
      (max passes 1) rows

/-! ## Places within rows -/

section Places

variable {α : Type} [Scalar α]

/-- The mean of numbers, if there are any. -/
def mean? (xs : List α) : Option α :=
  if xs.isEmpty then none else some (Scalar.mean xs)

/-- Where a vertex would like to have its center. -/
def desiredCenter? (neighbours : Table (List String)) (centers : Table α)
    (id : String) : Option α := do
  let current := centers.getD id 0.0
  let values := (neighbours.getD id []).filterMap
    fun neighbour => centers[neighbour]?
  if values.isEmpty then
    some current
  else
    let median ← middle? (fun a => a) (fun a b => (a + b) * 0.5)
      (sortBy Scalar.less values)
    some (median * 0.85 + current * 0.15)

/-- The vertices of a row with their wishes. -/
def candidates? (sizes : Table (Size α)) (neighbours : Table (List String))
    (centers : Table α) (row : List String) : Option (List (Candidate α)) :=
  row.zipIdx.mapM fun (id, index) => do
    some ⟨id, ← desiredCenter? neighbours centers id,
      Scalar.half (sizeAt sizes id).width, index⟩

/-- Places the vertices of a row by their neighbours, if there are any
vertices. -/
def placeRow? (measures : Measures α) (sizes : Table (Size α))
    (neighbours : Table (List String)) (centers : Table α)
    (row : List String) : Option (Table α) := do
  if row.isEmpty then
    some centers
  else
    let sorted := sortBy Candidate.before
      (← candidates? sizes neighbours centers row)
    let spreadOut := spread measures.nodeSpacing none sorted
    let shift := (← mean? (sorted.map Candidate.desired)) -
      (← mean? (spreadOut.map Prod.snd))
    some (spreadOut.foldl
      (fun centers entry => centers.insert entry.1 (entry.2 + shift)) centers)

/-- Places the rows from top to bottom and from bottom to top. -/
def placeRows? (measures : Measures α) (sizes : Table (Size α))
    (above below : Table (List String)) (rows : List (List String))
    (centers : Table α) : Option (Table α) := do
  let down ← rows.foldlM (placeRow? measures sizes above) centers
  rows.reverse.foldlM (placeRow? measures sizes below) down

/-- The horizontal centers of all vertices. -/
def horizontalCenters? (measures : Measures α) (sizes : Table (Size α))
    (arcs : List Arc) (rows : List (List String)) : Option (Table α) :=
  let packed := rows.foldl
    (fun centers row => packRow measures sizes 0.0 row centers) ∅
  iterate?
    (placeRows? measures sizes (neighboursAbove arcs) (neighboursBelow arcs)
      rows)
    (max measures.orderPasses 1) packed

end Places

end Layout

namespace Diagram

open Layout

variable {α : Type} [Scalar α]

/-- The nodes of a diagram with their places, before they are moved to the
origin. -/
def placeNodes? (measures : Measures α) (diagram : Diagram) :
    Option (List (PlacedNode α)) := do
  let layers ← Layers.ofGraph? (diagram.nodes.map Node.id) diagram.arcs
  let rows ← orderRows? layers.arcs measures.orderPasses layers.rows
  let sizes := sizesOf measures diagram.nodes layers.dummies
  let xs ← horizontalCenters? measures sizes layers.arcs rows
  let ys := verticalCenters measures sizes rows
  some (diagram.nodes.map fun node =>
    ⟨node, ⟨xs.getD node.id 0.0, ys.getD node.id 0.0⟩, sizeAt sizes node.id⟩)

/-- The layout of a diagram, unless there is a fault. -/
def place? (measures : Measures α) (diagram : Diagram) :
    Option (Placed α) := do
  let nodes ←
    if diagram.isEmpty then
      some []
    else
      (diagram.placeNodes? measures).map toOrigin
  some
    { nodes
      edges := diagram.edges
      fullWidth := Scalar.half (greatest (nodes.map fun placed =>
        placed.center.x + Scalar.half placed.size.width))
      fullHeight := Scalar.half (greatest (nodes.map fun placed =>
        placed.center.y + Scalar.half placed.size.height)) }

end Diagram

namespace Layout

/-! ## Steps without faults -/

section Steps

variable {β γ : Type} {P : β → Prop}

theorem foldlM_eq_some_foldl {f : β → γ → Option β} {g : β → γ → β}
    {items : List γ}
    (hstep : ∀ b, P b → ∀ c ∈ items, f b c = some (g b c) ∧ P (g b c))
    {b : β} (hstart : P b) :
    items.foldlM f b = some (items.foldl g b) ∧ P (items.foldl g b) := by
  induction items generalizing b with
  | nil => exact ⟨rfl, hstart⟩
  | cons c items ih =>
      obtain ⟨hfirst, hkept⟩ := hstep b hstart c List.mem_cons_self
      rw [List.foldlM_cons, hfirst]
      exact ih (fun b hb c hc => hstep b hb c (List.mem_cons_of_mem _ hc)) hkept

theorem iterate?_eq_some_iterate {f : β → Option β} {g : β → β}
    (hstep : ∀ b, P b → f b = some (g b) ∧ P (g b)) (count : Nat) {b : β}
    (hstart : P b) : iterate? f count b = some (iterate g count b) := by
  induction count generalizing b with
  | zero => rfl
  | succ count ih =>
      obtain ⟨hfirst, hkept⟩ := hstep b hstart
      rw [iterate?, hfirst]
      exact ih hkept

end Steps

/-! ## Medians are in range -/

theorem minus?_eq_some {m n : Nat} (h : n ≤ m) : minus? m n = some (m - n) :=
  if_pos h

theorem sortBy_ne_nil {β : Type} (less : β → β → Bool) {xs : List β}
    (hne : xs ≠ []) : sortBy less xs ≠ [] := by
  intro hnil
  exact hne (hnil ▸ sortBy_perm less xs).nil_eq.symm

/-- A list that is not empty has a middle. -/
theorem middle?_eq_some {β γ : Type} (single : β → γ) (pair : β → β → γ)
    {sorted : List β} (hne : sorted ≠ []) :
    ∃ (_ : sorted.length / 2 - 1 < sorted.length)
      (_ : sorted.length / 2 < sorted.length),
      middle? single pair sorted =
        some (if sorted.length % 2 = 1 then
          single sorted[sorted.length / 2]
        else
          pair sorted[sorted.length / 2 - 1] sorted[sorted.length / 2]) := by
  have hpos : 0 < sorted.length := List.length_pos_iff.mpr hne
  have hhigh : sorted.length / 2 < sorted.length := by omega
  have hlow : sorted.length / 2 - 1 < sorted.length := by omega
  refine ⟨hlow, hhigh, ?_⟩
  rw [middle?]
  by_cases hodd : sorted.length % 2 = 1
  · simp [hodd, List.getElem?_eq_getElem hhigh]
  · have hone : 1 ≤ sorted.length / 2 := by omega
    simp [hodd, minus?_eq_some hone, List.getElem?_eq_getElem hhigh,
      List.getElem?_eq_getElem hlow]

theorem middle?_eq_doubledMedian {sorted : List Nat} (hne : sorted ≠ []) :
    middle? (2 * ·) (fun a b => toSingle (a + b)) sorted =
      some (doubledMedian sorted) := by
  obtain ⟨hlow, hhigh, hmiddle⟩ :=
    middle?_eq_some (2 * ·) (fun a b => toSingle (a + b)) hne
  rw [hmiddle, doubledMedian, List.getD_eq_getElem _ _ hlow,
    List.getD_eq_getElem _ _ hhigh]

/-! ## Ranks are in range -/

theorem addToRow?_eq_some {count : Nat} (row : Nat → List String)
    {vertex : String × Nat} (hrank : vertex.2 < count) :
    addToRow? ((List.range count).map row) vertex =
      some ((List.range count).map fun r =>
        if vertex.2 = r then row r ++ [vertex.1] else row r) := by
  have hrow : ((List.range count).map row)[vertex.2]? =
      some (row vertex.2) := by
    rw [List.getElem?_map, List.getElem?_range hrank]
    rfl
  rw [addToRow?, hrow]
  refine congrArg some (List.ext_getElem (by simp) fun i _ _ => ?_)
  rw [List.getElem_set]
  simp only [List.getElem_map, List.getElem_range]
  split
  · next heq => rw [heq]
  · rfl

/-- Rows are filled without a fault if there is one for each rank. -/
theorem fillRows?_eq_some {count : Nat} {ranked : List (String × Nat)}
    (hranks : ∀ vertex ∈ ranked, vertex.2 < count) :
    fillRows? count ranked =
      some ((List.range count).map fun r =>
        (ranked.filter fun vertex => vertex.2 == r).map Prod.fst) := by
  induction ranked using List.reverseRecOn with
  | nil =>
      refine congrArg some (List.ext_getElem (by simp) fun i _ _ => ?_)
      simp
  | append_singleton ranked last ih =>
      obtain ⟨hbefore, hlast⟩ := List.forall_mem_append.mp hranks
      have hadd := addToRow?_eq_some (fun r =>
        (ranked.filter fun vertex => vertex.2 == r).map Prod.fst)
        (hlast last List.mem_cons_self)
      rw [fillRows?, List.foldlM_append, ← fillRows?, ih hbefore]
      simp only [List.foldlM_cons, List.foldlM_nil, Option.bind_eq_bind,
        Option.bind_some, hadd, Option.pure_def]
      refine congrArg some (List.map_congr_left fun r _ => ?_)
      rw [List.filter_append, List.map_append, List.filter_singleton]
      by_cases heq : last.2 = r <;> simp [heq, Bool.cond_eq_ite]

/-- A vertex without a row is a fault. -/
example : fillRows? 1 [("a", 0), ("b", 1)] = none := rfl

/-- There is a row for the rank of every vertex and of every dummy. -/
theorem Layers.ofGraph?_eq_some (ids : List String) (arcs : List Arc) :
    ofGraph? ids arcs = some (ofGraph ids arcs) := by
  have hrows : fillRows? (maxRank (ranksOf ids arcs) + 1)
      (rankedVertices ids arcs) = _ :=
    fillRows?_eq_some fun vertex hvertex =>
      Nat.lt_succ_of_le (le_maxRank_of_mem_rankedVertices hvertex)
  rw [rankedVertices, routesOf, ← ranksOf_innerArcs, ranksOf, innerArcs]
    at hrows
  simp only [ofGraph?, ofGraph, computeRanks?_eq, Option.bind_eq_bind,
    Option.bind_some, hrows, List.map_map]
  rfl

/-! ## Rows are ordered without faults -/

theorem score?_eq_some (neighbours : Table (List String))
    (positions own : Table Nat) (id : String) :
    score? neighbours positions own id =
      some (score neighbours positions own id) := by
  rw [score?, score]
  generalize (neighbours.getD id []).filterMap _ = values
  by_cases hempty : values = []
  · subst hempty
    rfl
  · simp only [List.isEmpty_iff, hempty, if_false]
    exact middle?_eq_doubledMedian (sortBy_ne_nil _ hempty)

theorem sortRow?_eq_some (neighbours : Table (List String))
    (positions : Table Nat) (row : List String) :
    sortRow? neighbours positions row =
      some (sortRow neighbours positions row) := by
  simp only [sortRow?, sortRow, score?_eq_some, Option.bind_eq_bind,
    Option.bind_some]
  rw [← Option.pure_def, List.mapM_pure]
  rfl

theorem sortRank?_eq_some (neighbours : Table (List String))
    {rows : List (List String)} {rank : Nat} (hrank : rank < rows.length) :
    sortRank? neighbours rows rank =
      some (sortRank neighbours rows rank) := by
  rw [sortRank?, sortRank, List.modify_eq_set_getElem?,
    List.getElem?_eq_getElem hrank]
  simp only [Option.bind_eq_bind, Option.bind_some, Option.map_eq_map,
    Option.map_some, Option.getD_some, sortRow?_eq_some]
  split
  · rw [List.set_getElem_self]
  · rfl

/-- Sorting rows one after the other keeps their number, so that all ranks of
the rows at the beginning stay in range. -/
theorem sweep?_eq_some (neighbours : Table (List String)) {ranks : List Nat}
    {rows : List (List String)} (hranks : ∀ rank ∈ ranks, rank < rows.length) :
    ranks.foldlM (sortRank? neighbours) rows =
      some (ranks.foldl (sortRank neighbours) rows) := by
  refine (foldlM_eq_some_foldl
    (P := fun sorted => contents sorted = contents rows) ?_ rfl).1
  intro sorted hsorted rank hrank
  have hlength := length_of_contents hsorted
  exact ⟨sortRank?_eq_some neighbours (hlength ▸ hranks rank hrank),
    (contents_sortRank neighbours sorted rank).trans hsorted⟩

theorem sortRows?_eq_some (above below : Table (List String))
    {rows : List (List String)} (hrows : 1 < rows.length) :
    sortRows? above below rows = some (sortRows above below rows) := by
  have hlength : ∀ ranks : List Nat,
      (ranks.foldl (sortRank above) rows).length = rows.length :=
    fun ranks => length_of_contents (contents_sweep above ranks rows)
  rw [sortRows?, minus?_eq_some hrows.le]
  simp only [Option.bind_eq_bind, Option.bind_some]
  rw [sweep?_eq_some, Option.bind_some, sweep?_eq_some]
  · rfl
  · intro rank hrank
    rw [hlength]
    have hlast := List.mem_range.mp (List.mem_reverse.mp hrank)
    omega
  · intro rank hrank
    have hlast := List.mem_range'_1.mp hrank
    omega

/-- No rank and no median is out of range when rows are ordered, however many
rows there are. -/
theorem orderRows?_eq_some (arcs : List Arc) (passes : Nat)
    (rows : List (List String)) :
    orderRows? arcs passes rows = some (orderRows arcs passes rows) := by
  rw [orderRows?, orderRows]
  split
  · next hone =>
      -- Both sweeps over a single row, or none, are over no ranks.
      have hstep : ∀ above below, sortRows above below rows = rows := by
        intro above below
        simp [sortRows, Nat.sub_eq_zero_of_le hone]
      refine congrArg some (Eq.symm ?_)
      refine iterate_keeps (P := fun sorted => sorted = rows) ?_ _ rfl
      intro sorted hsorted
      rw [hsorted, hstep]
  · next hmore =>
      refine iterate?_eq_some_iterate
        (P := fun sorted => contents sorted = contents rows) ?_ _ rfl
      intro sorted hsorted
      have hlength := length_of_contents hsorted
      exact ⟨sortRows?_eq_some _ _ (by omega),
        (contents_sortRows _ _ sorted).trans hsorted⟩

/-! ## Rows are placed without faults -/

section Places

variable {α : Type} [Scalar α]

theorem desiredCenter?_eq_some (neighbours : Table (List String))
    (centers : Table α) (id : String) :
    desiredCenter? neighbours centers id =
      some (desiredCenter neighbours centers id) := by
  rw [desiredCenter?, desiredCenter]
  generalize (neighbours.getD id []).filterMap _ = values
  by_cases hempty : values = []
  · subst hempty
    rfl
  · obtain ⟨hlow, hhigh, hmiddle⟩ := middle?_eq_some (fun a : α => a)
      (fun a b => (a + b) * 0.5) (sortBy_ne_nil Scalar.less hempty)
    rw [median?, List.getElem?_eq_getElem hlow, List.getElem?_eq_getElem hhigh]
    simp only [List.isEmpty_iff, hempty, if_false, hmiddle]
    split <;> rfl

theorem candidates?_eq_some (sizes : Table (Size α))
    (neighbours : Table (List String)) (centers : Table α)
    (row : List String) :
    candidates? sizes neighbours centers row =
      some (candidates sizes neighbours centers row) := by
  simp only [candidates?, candidates, desiredCenter?_eq_some,
    Option.bind_eq_bind, Option.bind_some]
  exact List.mapM_pure

theorem mean?_eq_some {xs : List α} (hne : xs ≠ []) :
    mean? xs = some (Scalar.mean xs) := by
  rw [mean?, if_neg (by simpa using hne)]

/-- A row that is not empty has as many wishes and centers as vertices, of which
there is a mean. -/
theorem placeRow?_eq_some (measures : Measures α) (sizes : Table (Size α))
    (neighbours : Table (List String)) (centers : Table α)
    (row : List String) :
    placeRow? measures sizes neighbours centers row =
      some (placeRow measures sizes neighbours centers row) := by
  rw [placeRow?, placeRow, candidates?_eq_some]
  by_cases hempty : row = []
  · -- The means of nothing that stand in `placeRow` are not used.
    subst hempty
    rfl
  · simp only [List.isEmpty_iff, hempty, if_false, Option.bind_eq_bind,
      Option.bind_some]
    have hwishes : candidates sizes neighbours centers row ≠ [] := by
      intro hnil
      have hids := candidates_ids sizes neighbours centers row
      rw [hnil] at hids
      exact hempty hids.symm
    have hsorted := sortBy_ne_nil Candidate.before hwishes
    generalize sortBy Candidate.before
      (candidates sizes neighbours centers row) = sorted at hsorted ⊢
    have hspread : spread measures.nodeSpacing none sorted ≠ [] := by
      intro hnil
      have hspreadIds := spread_ids measures.nodeSpacing none sorted
      rw [hnil] at hspreadIds
      exact hsorted (List.map_eq_nil_iff.mp hspreadIds.symm)
    rw [mean?_eq_some (by simpa using hsorted),
      mean?_eq_some (by simpa using hspread)]
    rfl

theorem placeRows?_eq_some (measures : Measures α) (sizes : Table (Size α))
    (above below : Table (List String)) (rows : List (List String))
    (centers : Table α) :
    placeRows? measures sizes above below rows centers =
      some (placeRows measures sizes above below rows centers) := by
  have hrow : ∀ neighbours, placeRow? measures sizes neighbours =
      fun centers row =>
        pure (placeRow measures sizes neighbours centers row) :=
    fun neighbours => funext₂ fun centers row => placeRow?_eq_some ..
  simp only [placeRows?, placeRows, hrow, List.foldlM_pure]
  rfl

theorem horizontalCenters?_eq_some (measures : Measures α)
    (sizes : Table (Size α)) (arcs : List Arc) (rows : List (List String)) :
    horizontalCenters? measures sizes arcs rows =
      some (horizontalCenters measures sizes arcs rows) :=
  iterate?_eq_some_iterate (P := fun _ => True)
    (fun _ _ => ⟨placeRows?_eq_some .., trivial⟩) _ trivial

end Places

end Layout

/-! ## Diagrams are laid out without faults -/

namespace Diagram

open Layout

variable {α : Type} [Scalar α]

theorem placeNodes?_eq_some (measures : Measures α) (diagram : Diagram) :
    diagram.placeNodes? measures = some (diagram.placeNodes measures) := by
  simp only [placeNodes?, placeNodes, layers, Layers.ofGraph?_eq_some,
    orderRows?_eq_some, horizontalCenters?_eq_some, Option.bind_eq_bind,
    Option.bind_some]

theorem place?_eq_some (measures : Measures α) (diagram : Diagram) :
    diagram.place? measures = some (diagram.place measures) := by
  rw [place?, place, placeNodes?_eq_some]
  split <;> rfl

/-- Laying out a diagram never leads to a fault, nor does ranking any vertices
or ordering any rows, from whatever diagram they are.  The layout has the nodes
of the diagram, in their order, and its edges. -/
theorem place_without_faults (measures : Measures α) (diagram : Diagram) :
    diagram.place? measures = some (diagram.place measures) ∧
      (diagram.place measures).nodes.map PlacedNode.node = diagram.nodes ∧
      (diagram.place measures).edges = diagram.edges ∧
      (∀ priority ids arcs,
        computeRanks? priority ids arcs =
          some (computeRanks priority ids arcs)) ∧
      ∀ arcs passes rows,
        orderRows? arcs passes rows = some (orderRows arcs passes rows) := by
  refine ⟨place?_eq_some measures diagram, ?_, rfl, computeRanks?_eq,
    orderRows?_eq_some⟩
  have hnodes := congrArg (List.map Prod.fst) (place_nodes measures diagram)
  simpa [Function.comp_def] using hnodes

end Diagram

end Flowchart

import Flowchart.Proofs.Layout.Rows

/-!
# Routes through the rows

An arc that goes down becomes a path with one arc for each rank that it goes
down by.  The vertices in between are dummies of its own, so that a path through
dummies cannot change from one arc to another: it is the path of a single arc
from beginning to end.

Every vertex and every dummy stands in the row of its rank, once, and ordering
the rows does not change that.  This holds for any vertices and arcs, as long as
ids tell the vertices apart from each other and from the dummies.
-/

namespace Flowchart.Layout

/-! ## The vertices of a route -/

namespace Route

theorem arcsFrom_sources (target vertex : String) (dummies : List String) :
    (arcsFrom target vertex dummies).map Arc.source = vertex :: dummies := by
  induction dummies generalizing vertex with
  | nil => rfl
  | cons dummy dummies ih => exact congrArg (vertex :: ·) (ih dummy)

theorem arcsFrom_targets (target vertex : String) (dummies : List String) :
    (arcsFrom target vertex dummies).map Arc.target = dummies ++ [target] := by
  induction dummies generalizing vertex with
  | nil => rfl
  | cons dummy dummies ih => exact congrArg (dummy :: ·) (ih dummy)

theorem length_arcs (route : Route) :
    route.arcs.length = route.dummies.length + 1 := by
  have hlength := congrArg List.length
    (arcsFrom_sources route.arc.target route.arc.source route.dummies)
  rwa [List.length_map, List.length_cons] at hlength

/-- An arc of a route has a number, at which both its ends are found. -/
theorem exists_number {route : Route} {arc : Arc} (harc : arc ∈ route.arcs) :
    ∃ i : Nat,
      (route.arc.source :: route.dummies)[i]? = some arc.source ∧
      (route.dummies ++ [route.arc.target])[i]? = some arc.target := by
  obtain ⟨i, hi⟩ := List.mem_iff_getElem?.mp harc
  refine ⟨i, ?_, ?_⟩
  · rw [← arcsFrom_sources route.arc.target, List.getElem?_map]
    exact congrArg (Option.map Arc.source) hi
  · rw [← arcsFrom_targets route.arc.target route.arc.source route.dummies,
      List.getElem?_map]
    exact congrArg (Option.map Arc.target) hi

theorem mem_rankedDummies_iff {route : Route} {dummy : String} {r : Nat} :
    (dummy, r) ∈ route.rankedDummies ↔
      ∃ i : Nat, route.dummies[i]? = some dummy ∧ r = route.top + 1 + i := by
  simp only [rankedDummies, List.mem_iff_getElem?, List.getElem?_zip_eq_some]
  refine exists_congr fun i => and_congr_right fun hdummy => ?_
  obtain ⟨hi, -⟩ := List.getElem?_eq_some_iff.mp hdummy
  rw [List.getElem?_range' hi, Option.some.injEq, Nat.one_mul, eq_comm]

end Route

/-! ## The routes of a graph -/

theorem dummyId_injective : Function.Injective dummyId := by
  intro m n h
  have hdigits : toString m = toString n :=
    (String.append_right_inj "__dummy_").mp
      ((String.append_left_inj "__").mp h)
  rw [Nat.toString_eq_repr, Nat.toString_eq_repr] at hdigits
  exact Nat.repr_injective hdigits

section Routes

variable {ranks : Ranks} {number : Nat} {arcs : List Arc}

/-- The arcs that go down have a route each, and no other arc has one. -/
theorem routesFrom_arcs :
    (routesFrom ranks number arcs).map Route.arc =
      arcs.filter fun arc =>
        rankOf ranks arc.source < rankOf ranks arc.target := by
  induction arcs generalizing number with
  | nil => rfl
  | cons arc arcs ih =>
      rw [routesFrom]
      split
      · next hup => rw [ih, List.filter_cons_of_neg (by simpa using hup)]
      · next hdown =>
          rw [List.map_cons, ih, List.filter_cons_of_pos (by simpa using hdown)]

/-- A route has a dummy for each rank between its ends. -/
theorem length_dummies {route : Route}
    (hroute : route ∈ routesFrom ranks number arcs) :
    route.top = rankOf ranks route.arc.source ∧
      rankOf ranks route.arc.source + (route.dummies.length + 1) =
        rankOf ranks route.arc.target := by
  induction arcs generalizing number with
  | nil => simp [routesFrom] at hroute
  | cons arc arcs ih =>
      rw [routesFrom] at hroute
      split at hroute
      · exact ih hroute
      · rcases List.mem_cons.mp hroute with rfl | hlater
        · refine ⟨rfl, ?_⟩
          simp only [List.length_map, List.length_range']
          omega
        · exact ih hlater

/-- Dummies are numbered through all routes. -/
theorem routesFrom_dummies_numbered
    (ranks : Ranks) (number : Nat) (arcs : List Arc) :
    ∃ count, (routesFrom ranks number arcs).flatMap Route.dummies =
      (List.range' number count).map dummyId := by
  induction arcs generalizing number with
  | nil => exact ⟨0, rfl⟩
  | cons arc arcs ih =>
      rw [routesFrom]
      split
      · exact ih number
      · generalize rankOf ranks arc.target - rankOf ranks arc.source - 1 = own
        obtain ⟨later, hlater⟩ := ih (number + own)
        refine ⟨own + later, ?_⟩
        rw [List.flatMap_cons, hlater, ← List.map_append,
          List.range'_append_1]

theorem routesFrom_dummies_nodup :
    ((routesFrom ranks number arcs).flatMap Route.dummies).Nodup := by
  obtain ⟨count, hcount⟩ := routesFrom_dummies_numbered ranks number arcs
  rw [hcount]
  exact List.Nodup.map dummyId_injective List.nodup_range'

end Routes

section Graph

variable (ids : List String) (arcs : List Arc)

/-- The dummies that stand at a rank. -/
def dummiesAt (r : Nat) : List String :=
  (((routesOf ids arcs).flatMap Route.rankedDummies).filter
    fun entry => entry.2 == r).map Prod.fst

/-- How the arcs of a graph run through its rows, and what the rows hold after
they have been ordered a number of times. -/
structure RunsThroughRows (passes : Nat) : Prop where
  /-- No vertex and no dummy has two ranks, nor have two of them one id. -/
  ranked_nodup : ((rankedVertices ids arcs).map Prod.fst).Nodup
  /-- Every arc leads from a rank to the next one. -/
  joins : ∀ arc ∈ (Layers.ofGraph ids arcs).arcs, ∃ r,
    (arc.source, r) ∈ rankedVertices ids arcs ∧
      (arc.target, r + 1) ∈ rankedVertices ids arcs
  /-- The arcs are those of the routes, and nothing else. -/
  arcs_eq : (Layers.ofGraph ids arcs).arcs =
    (routesOf ids arcs).flatMap Route.arcs
  dummies_eq : (Layers.ofGraph ids arcs).dummies =
    (routesOf ids arcs).flatMap Route.dummies
  /-- There is a route for each arc that goes down, and for no other arc. -/
  routes_arcs : (routesOf ids arcs).map Route.arc =
    (innerArcs ids arcs).filter fun arc =>
      rankOf (ranksOf ids arcs) arc.source <
        rankOf (ranksOf ids arcs) arc.target
  /-- A route leads through its dummies, with an arc for each rank. -/
  route_path : ∀ route ∈ routesOf ids arcs,
    route.arcs.map Arc.source = route.arc.source :: route.dummies ∧
      route.arcs.map Arc.target = route.dummies ++ [route.arc.target] ∧
      rankOf (ranksOf ids arcs) route.arc.source + route.arcs.length =
        rankOf (ranksOf ids arcs) route.arc.target
  /-- No other route comes by the dummies of a route. -/
  dummies_own : ∀ (i j : Nat) (route other : Route),
    (routesOf ids arcs)[i]? = some route →
      (routesOf ids arcs)[j]? = some other → ∀ arc ∈ other.arcs,
        arc.source ∈ route.dummies ∨ arc.target ∈ route.dummies → i = j
  /-- A path through dummies from vertex to vertex is a route. -/
  eq_route : ∀ source ∈ ids, ∀ target ∈ ids, ∀ dummies,
    dummies ⊆ (Layers.ofGraph ids arcs).dummies →
    Route.arcsFrom target source dummies ⊆ (Layers.ofGraph ids arcs).arcs →
    ∃ route ∈ routesOf ids arcs,
      route.arc = ⟨source, target⟩ ∧ route.dummies = dummies
  rows_length : (orderRows (Layers.ofGraph ids arcs).arcs passes
    (Layers.ofGraph ids arcs).rows).length = maxRank (ranksOf ids arcs) + 1
  /-- A row holds the vertices of its rank and the dummies there. -/
  row_perm : ∀ (r : Nat) row, (orderRows (Layers.ofGraph ids arcs).arcs passes
      (Layers.ofGraph ids arcs).rows)[r]? = some row →
    row.Perm ((ids.filter fun id => rankOf (ranksOf ids arcs) id == r) ++
      dummiesAt ids arcs r)
  /-- There is a row for each rank that is taken, and what has this rank stands
  once in it and not at all in the other rows. -/
  stands_once : ∀ id r, (id, r) ∈ rankedVertices ids arcs →
    r ≤ maxRank (ranksOf ids arcs) ∧
      ∀ (i : Nat) row, (orderRows (Layers.ofGraph ids arcs).arcs passes
          (Layers.ofGraph ids arcs).rows)[i]? = some row →
        row.count id = if i = r then 1 else 0

end Graph

section Graph

variable {ids : List String} {arcs : List Arc} {route : Route}

theorem ends_mem_of_mem_routesOf (hroute : route ∈ routesOf ids arcs) :
    route.arc.source ∈ ids ∧ route.arc.target ∈ ids := by
  have harc := List.mem_map_of_mem (f := Route.arc) hroute
  rw [routesOf, routesFrom_arcs] at harc
  simpa [innerArcs] using (List.mem_filter.mp (List.mem_filter.mp harc).1).2

theorem mem_rankedVertices_of_mem {id : String} (hid : id ∈ ids) :
    (id, rankOf (ranksOf ids arcs) id) ∈ rankedVertices ids arcs :=
  List.mem_append_left _ (List.mem_map.mpr ⟨id, hid, rfl⟩)

theorem mem_rankedVertices_of_dummy (hroute : route ∈ routesOf ids arcs)
    {dummy : String} {i : Nat} (hdummy : route.dummies[i]? = some dummy) :
    (dummy, rankOf (ranksOf ids arcs) route.arc.source + (i + 1)) ∈
      rankedVertices ids arcs := by
  refine List.mem_append_right _ (List.mem_flatMap.mpr ⟨route, hroute, ?_⟩)
  rw [← (length_dummies hroute).1, Nat.add_comm i, ← Nat.add_assoc]
  exact Route.mem_rankedDummies_iff.mpr ⟨i, hdummy, rfl⟩

theorem source_ranked (hroute : route ∈ routesOf ids arcs) {id : String}
    {i : Nat} (hid : (route.arc.source :: route.dummies)[i]? = some id) :
    (id, rankOf (ranksOf ids arcs) route.arc.source + i) ∈
      rankedVertices ids arcs := by
  cases i with
  | zero =>
      obtain rfl := Option.some.inj hid
      exact mem_rankedVertices_of_mem (ends_mem_of_mem_routesOf hroute).1
  | succ i => exact mem_rankedVertices_of_dummy hroute hid

theorem target_ranked (hroute : route ∈ routesOf ids arcs) {id : String}
    {i : Nat} (hid : (route.dummies ++ [route.arc.target])[i]? = some id) :
    (id, rankOf (ranksOf ids arcs) route.arc.source + (i + 1)) ∈
      rankedVertices ids arcs := by
  rcases Nat.lt_or_ge i route.dummies.length with hi | hi
  · rw [List.getElem?_append_left hi] at hid
    exact mem_rankedVertices_of_dummy hroute hid
  · rw [List.getElem?_append_right hi, List.getElem?_singleton] at hid
    obtain ⟨hlast, heq⟩ := Option.ite_none_right_eq_some.mp hid
    obtain rfl := Option.some.inj heq
    have hi : i = route.dummies.length := by omega
    rw [hi, (length_dummies hroute).2]
    exact mem_rankedVertices_of_mem (ends_mem_of_mem_routesOf hroute).2

/-- An arc between rows leads from a rank to the next one. -/
theorem joins_ranks {arc : Arc} (hroute : route ∈ routesOf ids arcs)
    (harc : arc ∈ route.arcs) :
    ∃ r, (arc.source, r) ∈ rankedVertices ids arcs ∧
      (arc.target, r + 1) ∈ rankedVertices ids arcs := by
  obtain ⟨i, hsource, htarget⟩ := Route.exists_number harc
  exact ⟨_, source_ranked hroute hsource, target_ranked hroute htarget⟩

theorem le_maxRank_of_mem_rankedVertices {id : String} {r : Nat}
    (hid : (id, r) ∈ rankedVertices ids arcs) :
    r ≤ maxRank (ranksOf ids arcs) := by
  rcases List.mem_append.mp hid with hvertex | hdummy
  · obtain ⟨id, -, heq⟩ := List.mem_map.mp hvertex
    obtain ⟨-, rfl⟩ := Prod.mk.inj heq
    exact rankOf_le_maxRank _ id
  · obtain ⟨route, hroute, hranked⟩ := List.mem_flatMap.mp hdummy
    obtain ⟨i, hi, rfl⟩ := Route.mem_rankedDummies_iff.mp hranked
    obtain ⟨hlt, -⟩ := List.getElem?_eq_some_iff.mp hi
    obtain ⟨htop, hbottom⟩ := length_dummies hroute
    have hmax := rankOf_le_maxRank (ranksOf ids arcs) route.arc.target
    omega

/-! ## Dummies belong to one route -/

section Free

variable (hfree : ∀ n, dummyId n ∉ ids)
include hfree

theorem dummy_notMem (hroute : route ∈ routesOf ids arcs) {dummy : String}
    (hdummy : dummy ∈ route.dummies) : dummy ∉ ids := by
  obtain ⟨n, rfl⟩ := routesFrom_dummies hroute dummy hdummy
  exact hfree n

/-- An arc that leaves a vertex is the first one of a route. -/
theorem exists_route_of_source_mem {arc : Arc}
    (harc : arc ∈ (routesOf ids arcs).flatMap Route.arcs)
    (hsource : arc.source ∈ ids) :
    ∃ route ∈ routesOf ids arcs, route.arc.source = arc.source ∧
      (route.dummies ++ [route.arc.target])[0]? = some arc.target := by
  obtain ⟨route, hroute, harc⟩ := List.mem_flatMap.mp harc
  obtain ⟨i, hi, htarget⟩ := Route.exists_number harc
  cases i with
  | zero => exact ⟨route, hroute, Option.some.inj hi, htarget⟩
  | succ i =>
      exact absurd hsource
        (dummy_notMem hfree hroute (List.mem_of_getElem? hi))

end Free

theorem route_unique {other : Route} {dummy : String} {i j : Nat}
    (hroute : (routesOf ids arcs)[i]? = some route)
    (hother : (routesOf ids arcs)[j]? = some other)
    (hdummy : dummy ∈ route.dummies) (hdummy' : dummy ∈ other.dummies) :
    i = j := by
  have hnodup : ((routesOf ids arcs).map Route.dummies).flatten.Nodup := by
    rw [← List.flatMap_def]
    exact routesFrom_dummies_nodup
  refine rank_unique hnodup ?_ ?_ hdummy hdummy'
  · rw [List.getElem?_map, hroute, Option.map_some]
  · rw [List.getElem?_map, hother, Option.map_some]

theorem dummies_nodup (hroute : route ∈ routesOf ids arcs) :
    route.dummies.Nodup :=
  (List.nodup_flatMap.mp routesFrom_dummies_nodup).1 route hroute

section Free

variable (hfree : ∀ n, dummyId n ∉ ids)
include hfree

/-- The only arc that leaves a dummy leads on along its route. -/
theorem next_of_dummy (hroute : route ∈ routesOf ids arcs)
    {front rest : List String} {dummy : String}
    (hdummies : route.dummies = front ++ dummy :: rest) {arc : Arc}
    (harc : arc ∈ (routesOf ids arcs).flatMap Route.arcs)
    (hsource : arc.source = dummy) :
    (rest ++ [route.arc.target])[0]? = some arc.target := by
  have hdummy : dummy ∈ route.dummies := by simp [hdummies]
  obtain ⟨other, hother, harc⟩ := List.mem_flatMap.mp harc
  obtain ⟨i, hi, htarget⟩ := Route.exists_number harc
  cases i with
  | zero =>
      have hend : arc.source ∈ ids :=
        Option.some.inj hi ▸ (ends_mem_of_mem_routesOf hother).1
      exact absurd (hsource ▸ hend) (dummy_notMem hfree hroute hdummy)
  | succ k =>
      have hk : other.dummies[k]? = some dummy := hsource ▸ hi
      obtain ⟨m, hm⟩ := List.mem_iff_getElem?.mp hroute
      obtain ⟨n, hn⟩ := List.mem_iff_getElem?.mp hother
      obtain rfl := route_unique hm hn hdummy (List.mem_of_getElem? hk)
      obtain rfl := Option.some.inj (hm.symm.trans hn)
      have hfront : front.length = k := by
        refine (List.getElem?_inj ?_ (dummies_nodup hroute)).mp ?_
        · simp [hdummies]
        · rw [hk, hdummies]
          simp
      rw [hdummies, ← hfront] at htarget
      simpa using htarget

/-- A path through dummies that comes by a route follows it to its end. -/
theorem follows_route (hroute : route ∈ routesOf ids arcs)
    {target : String} (htarget : target ∈ ids)
    {dummies front rest : List String}
    {dummy : String} (hdummies : route.dummies = front ++ dummy :: rest)
    (hdisjoint : dummies.Disjoint ids)
    (hpath : Route.arcsFrom target dummy dummies ⊆
      (routesOf ids arcs).flatMap Route.arcs) :
    dummies = rest ∧ target = route.arc.target := by
  induction dummies generalizing front dummy rest with
  | nil =>
      have hnext := next_of_dummy hfree hroute hdummies
        (hpath List.mem_cons_self) rfl
      cases rest with
      | nil => exact ⟨rfl, (Option.some.inj hnext).symm⟩
      | cons next rest =>
          obtain rfl := Option.some.inj hnext
          have hdummy : next ∈ route.dummies := by simp [hdummies]
          exact absurd htarget (dummy_notMem hfree hroute hdummy)
  | cons next dummies ih =>
      obtain ⟨hfirst, hlater⟩ := List.cons_subset.mp hpath
      obtain ⟨hnextFree, hlaterFree⟩ := List.disjoint_cons_left.mp hdisjoint
      have hnext := next_of_dummy hfree hroute hdummies hfirst rfl
      cases rest with
      | nil =>
          obtain rfl := Option.some.inj hnext
          exact absurd (ends_mem_of_mem_routesOf hroute).2 hnextFree
      | cons next' rest =>
          obtain rfl := Option.some.inj hnext
          have hsplit :
              route.dummies = (front ++ [dummy]) ++ next' :: rest := by
            simp [hdummies]
          obtain ⟨rfl, rfl⟩ := ih hsplit hlaterFree hlater
          exact ⟨rfl, rfl⟩

/-- A path through dummies from vertex to vertex is a route. -/
theorem exists_route_of_path {source target : String} (hsource : source ∈ ids)
    (htarget : target ∈ ids) {dummies : List String}
    (hdisjoint : dummies.Disjoint ids)
    (hpath : Route.arcsFrom target source dummies ⊆
      (routesOf ids arcs).flatMap Route.arcs) :
    ∃ route ∈ routesOf ids arcs,
      route.arc = ⟨source, target⟩ ∧ route.dummies = dummies := by
  cases dummies with
  | nil =>
      obtain ⟨route, hroute, hstart, hnext⟩ :=
        exists_route_of_source_mem hfree (hpath List.mem_cons_self) hsource
      cases hdummies : route.dummies with
      | nil =>
          rw [hdummies] at hnext
          exact ⟨route, hroute,
            Arc.eq_of_ends hstart (Option.some.inj hnext), hdummies⟩
      | cons next rest =>
          rw [hdummies] at hnext
          obtain rfl : next = target := Option.some.inj hnext
          have hdummy : next ∈ route.dummies := by simp [hdummies]
          exact absurd htarget (dummy_notMem hfree hroute hdummy)
  | cons dummy dummies =>
      obtain ⟨hfirst, hlater⟩ := List.cons_subset.mp hpath
      obtain ⟨hdummyFree, hlaterFree⟩ := List.disjoint_cons_left.mp hdisjoint
      obtain ⟨route, hroute, hstart, hnext⟩ :=
        exists_route_of_source_mem hfree hfirst hsource
      cases hdummies : route.dummies with
      | nil =>
          rw [hdummies] at hnext
          obtain rfl := Option.some.inj hnext
          exact absurd (ends_mem_of_mem_routesOf hroute).2 hdummyFree
      | cons next rest =>
          rw [hdummies] at hnext
          obtain rfl := Option.some.inj hnext
          have hsplit : route.dummies = [] ++ next :: rest := hdummies
          obtain ⟨rfl, hend⟩ := follows_route hfree hroute htarget hsplit
            hlaterFree hlater
          exact ⟨route, hroute, Arc.eq_of_ends hstart hend.symm, hdummies⟩

end Free

/-! ## What stands in the rows -/

theorem rankedVertices_ids :
    (rankedVertices ids arcs).map Prod.fst =
      ids ++ (routesOf ids arcs).flatMap Route.dummies := by
  simp [rankedVertices, List.map_flatMap, Route.rankedDummies_ids,
    Function.comp_def]

theorem rankedVertices_nodup (arcs : List Arc) (hnodup : ids.Nodup)
    (hfree : ∀ n, dummyId n ∉ ids) :
    ((rankedVertices ids arcs).map Prod.fst).Nodup := by
  rw [rankedVertices_ids]
  refine hnodup.append routesFrom_dummies_nodup fun id hid hdummy => ?_
  obtain ⟨route, hroute, hdummy⟩ := List.mem_flatMap.mp hdummy
  exact dummy_notMem hfree hroute hdummy hid

/-- What has a rank, taken apart into vertices and dummies. -/
theorem ranked_filter (r : Nat) :
    ((rankedVertices ids arcs).filter fun entry => entry.2 == r).map Prod.fst =
      (ids.filter fun id => rankOf (ranksOf ids arcs) id == r) ++
        dummiesAt ids arcs r := by
  rw [rankedVertices, List.filter_append, List.map_append, List.filter_map,
    List.map_map, dummiesAt]
  exact congrArg (· ++ _) (List.map_id _)

theorem exists_row_perm {rows : List (List String)}
    (hcontents : contents rows = contents (Layers.ofGraph ids arcs).rows)
    {r : Nat} {row : List String} (hrow : rows[r]? = some row) :
    row.Perm ((ids.filter fun id => rankOf (ranksOf ids arcs) id == r) ++
      dummiesAt ids arcs r) := by
  obtain ⟨places, hlayers⟩ := Layers.ofGraph_eq ids arcs
  obtain ⟨start, hstart, hperm⟩ := exists_perm_of_contents hcontents.symm hrow
  rw [hlayers, List.getElem?_map] at hstart
  obtain ⟨r', hr', rfl⟩ := Option.map_eq_some_iff.mp hstart
  obtain ⟨hlt, rfl⟩ := List.getElem?_eq_some_iff.mp hr'
  rw [List.getElem_range] at hperm
  rw [← ranked_filter]
  exact hperm.symm.trans (sortBy_perm _ _)

theorem rows_length_of_contents {rows : List (List String)}
    (hcontents : contents rows = contents (Layers.ofGraph ids arcs).rows) :
    rows.length = maxRank (ranksOf ids arcs) + 1 := by
  obtain ⟨places, hlayers⟩ := Layers.ofGraph_eq ids arcs
  rw [length_of_contents hcontents, hlayers, List.length_map,
    List.length_range]

theorem count_row
    (hnodup : ((rankedVertices ids arcs).map Prod.fst).Nodup)
    {id : String} {r i : Nat} (hid : (id, r) ∈ rankedVertices ids arcs)
    {row : List String}
    (hrow : row.Perm (((rankedVertices ids arcs).filter
      fun entry => entry.2 == i).map Prod.fst)) :
    row.count id = if i = r then 1 else 0 := by
  have hrowNodup : row.Nodup :=
    hrow.nodup_iff.mpr (hnodup.sublist (List.filter_sublist.map _))
  have hmem : id ∈ row ↔ i = r := by
    rw [hrow.mem_iff, List.mem_map]
    constructor
    · rintro ⟨entry, hentry, rfl⟩
      obtain ⟨hentry, hrank⟩ := List.mem_filter.mp hentry
      have hsame := List.inj_on_of_nodup_map hnodup hentry hid rfl
      exact (beq_iff_eq.mp hrank).symm.trans (congrArg Prod.snd hsame)
    · rintro rfl
      exact ⟨(id, i), List.mem_filter.mpr ⟨hid, beq_self_eq_true i⟩, rfl⟩
  simp only [hrowNodup.count, hmem]

end Graph

/-- Arcs run through the rows on routes of their own, and ordering the rows
leaves every vertex and every dummy in the row of its rank. -/
theorem ofGraph_runsThroughRows
    {ids : List String} (hnodup : ids.Nodup) (hfree : ∀ n, dummyId n ∉ ids)
    (arcs : List Arc) (passes : Nat) : RunsThroughRows ids arcs passes := by
  obtain ⟨places, hlayers⟩ := Layers.ofGraph_eq ids arcs
  have harcs : (Layers.ofGraph ids arcs).arcs =
      (routesOf ids arcs).flatMap Route.arcs := by rw [hlayers]
  have hdummies : (Layers.ofGraph ids arcs).dummies =
      (routesOf ids arcs).flatMap Route.dummies := by rw [hlayers]
  have hranked := rankedVertices_nodup arcs hnodup hfree
  have hcontents := contents_orderRows (Layers.ofGraph ids arcs).arcs passes
    (Layers.ofGraph ids arcs).rows
  constructor
  case ranked_nodup => exact hranked
  case arcs_eq => exact harcs
  case dummies_eq => exact hdummies
  case routes_arcs => exact routesFrom_arcs
  case rows_length => exact rows_length_of_contents hcontents
  case row_perm => exact fun r row hrow => exists_row_perm hcontents hrow
  case joins =>
    intro arc harc
    rw [harcs] at harc
    obtain ⟨route, hroute, harc⟩ := List.mem_flatMap.mp harc
    exact joins_ranks hroute harc
  case route_path =>
    intro route hroute
    refine ⟨Route.arcsFrom_sources _ _ _, Route.arcsFrom_targets _ _ _, ?_⟩
    rw [route.length_arcs, (length_dummies hroute).2]
  case dummies_own =>
    intro i j route other hroute hother arc harc hdummy
    have hmem := List.mem_of_getElem? hroute
    obtain ⟨k, hsource, htarget⟩ := Route.exists_number harc
    obtain ⟨houter, hinner⟩ :=
      ends_mem_of_mem_routesOf (List.mem_of_getElem? hother)
    rcases hdummy with hdummy | hdummy
    · rcases List.mem_cons.mp (List.mem_of_getElem? hsource) with hend | hown
      · exact absurd (hend ▸ houter) (dummy_notMem hfree hmem hdummy)
      · exact route_unique hroute hother hdummy hown
    · rcases List.mem_append.mp (List.mem_of_getElem? htarget) with hown | hend
      · exact route_unique hroute hother hdummy hown
      · rw [List.mem_singleton.mp hend] at hdummy
        exact absurd hinner (dummy_notMem hfree hmem hdummy)
  case eq_route =>
    intro source hsource target htarget dummies hsubset hpath
    rw [harcs] at hpath
    rw [hdummies] at hsubset
    refine exists_route_of_path hfree hsource htarget ?_ hpath
    intro dummy hdummy
    obtain ⟨route, hroute, hdummy⟩ := List.mem_flatMap.mp (hsubset hdummy)
    exact dummy_notMem hfree hroute hdummy
  case stands_once =>
    intro id r hid
    refine ⟨le_maxRank_of_mem_rankedVertices hid, fun i row hrow => ?_⟩
    refine count_row hranked hid ?_
    rw [ranked_filter]
    exact exists_row_perm hcontents hrow

def tangledIds : List String := ["a", "b", "c", "d"]

/-- A chain with two arcs that pass it by, an arc twice, an arc back, a loop and
an arc to what is no vertex. -/
def tangledArcs : List Arc :=
  [⟨"a", "b"⟩, ⟨"a", "d"⟩, ⟨"b", "c"⟩, ⟨"c", "d"⟩, ⟨"a", "d"⟩, ⟨"a", "b"⟩,
    ⟨"d", "b"⟩, ⟨"c", "c"⟩, ⟨"d", "z"⟩]

theorem tangledArcs_runThroughRows :
    tangledIds.Nodup ∧ (∀ n, dummyId n ∉ tangledIds) ∧
    (∀ passes, RunsThroughRows tangledIds tangledArcs passes) ∧
    (routesOf tangledIds tangledArcs).map
        (fun route => (route.arc.source, route.dummies, route.arc.target)) =
      [("a", [], "b"), ("a", ["__dummy_0__", "__dummy_1__"], "d"),
        ("b", [], "c"), ("c", [], "d"),
        ("a", ["__dummy_2__", "__dummy_3__"], "d"), ("a", [], "b")] ∧
    orderRows (Layers.ofGraph tangledIds tangledArcs).arcs 4
        (Layers.ofGraph tangledIds tangledArcs).rows =
      [["a"], ["b", "__dummy_0__", "__dummy_2__"],
        ["c", "__dummy_1__", "__dummy_3__"], ["d"]] := by
  have hnodup : tangledIds.Nodup := by decide
  have hfree : ∀ n, dummyId n ∉ tangledIds :=
    dummyId_notMem (by decide +kernel)
  exact ⟨hnodup, hfree, ofGraph_runsThroughRows hnodup hfree tangledArcs,
    by decide +kernel, by decide +kernel⟩

end Flowchart.Layout

import Flowchart.Proofs.Flow.NamingOrder
import Flowchart.Proofs.Flow.Wiring
import Flowchart.Proofs.Naming

/-!
# Naming the nodes of flows

A flow is drawn against the list `names` of the ids that the finished diagram
will have.  Whenever ids are claimed, they are claimed for nodes whose numbers
are known, and the claims follow the naming order of the flow.
-/

namespace Flowchart

open Names Outline Entrance Entry

namespace Builder

variable {names : List String}

/-! ## Claiming -/

/-- Between the two builders, the points get their ids for the cards in their
order. -/
structure ClaimsFor (b b' : Builder) (points : Frontier)
    (cards : List Card) : Prop where
  claimed : HandsOut b b' cards
  nodeIds : points.nodeIds = givenNames b.claimed cards

theorem ClaimsFor.refl (b : Builder) : ClaimsFor b b [] [] :=
  ⟨rfl, rfl⟩

theorem ClaimsFor.trans
    {b b' b'' : Builder} {points others : Frontier}
    {cards cards' : List Card} (h : ClaimsFor b b' points cards)
    (h' : ClaimsFor b' b'' others cards') :
    ClaimsFor b b'' (points ++ others) (cards ++ cards') where
  claimed := h.claimed.trans h'.claimed
  nodeIds := by
    rw [Frontier.nodeIds_append, h.nodeIds, h'.nodeIds, h.claimed,
      givenNames_append]

theorem claim_claimsFor
    (b : Builder) (card : Card) (stepId : String) :
    ClaimsFor b (b.claim card.baseId card.rank).2
      [⟨(b.claim card.baseId card.rank).1, stepId⟩] [card] :=
  ⟨rfl, rfl⟩

theorem claimGuards_claimsFor
    (n rank index : Nat) (branches : List (List Entry))
    (conditions : List Condition)
    (hlength : branches.length = conditions.length) (b : Builder) :
    ClaimsFor b (claimGuards rank index branches b).2
      (claimGuards rank index branches b).1
      ((guardHeadSlots n rank index branches conditions).map Slot.card) := by
  induction branches generalizing n index conditions b with
  | nil => exact .refl b
  | cons branch branches ih =>
      cases conditions with
      | nil => simp at hlength
      | cons condition conditions =>
          exact (claim_claimsFor b (.guard rank index branch condition)
            _).trans (ih _ (index + 1) conditions (by simpa using hlength) _)

mutual

theorem claimEntrance_claimsFor (n rank : Nat) :
    (e : Entry) → (b : Builder) → Aligned e →
      ClaimsFor b (claimEntrance rank e b).2 (claimEntrance rank e b).1.points
        ((headSlots n rank e).map Slot.card)
  | .parallel branches, b, haligned => by
      simp only [Aligned] at haligned
      exact claimHeads_claimsFor n rank branches b haligned
  | .conditional branches conditions, b, haligned => by
      simp only [Aligned] at haligned
      exact claimGuards_claimsFor n rank 0 branches conditions haligned.1 b
  | .step s, b, _ | .foreach s _, b, _ | .loop s _ _, b, _ =>
      claim_claimsFor b (.ofStep rank s) s.id
  | .sleep id _, b, _ | .sleepUntil id _, b, _ =>
      claim_claimsFor b (.pause rank id none) id
  | .waitForEvent id _ description, b, _ =>
      claim_claimsFor b (.pause rank id description) id
termination_by structural e => e

theorem claimHeads_claimsFor (n rank : Nat) :
    (branches : List (List Entry)) → (b : Builder) →
      BranchesAligned branches →
      ClaimsFor b (claimHeads rank branches b).2
        (pointsOfHeads (claimHeads rank branches b).1)
        ((branchesHeadSlots n rank branches).map Slot.card)
  | [], b, _ => .refl b
  | branch :: branches, b, haligned => by
      simp only [BranchesAligned] at haligned
      rw [branchesHeadSlots, List.map_append]
      exact (claimHead_claimsFor n rank branch b haligned.1).trans
        (claimHeads_claimsFor (n + flowNodeCount branch) rank branches _
          haligned.2)
termination_by structural branches => branches

theorem claimHead_claimsFor (n rank : Nat) :
    (branch : List Entry) → (b : Builder) → FlowAligned branch →
      ClaimsFor b (claimHead rank branch b).2
        (pointsOfHead (claimHead rank branch b).1)
        ((flowHeadSlots n rank branch).map Slot.card)
  | [], b, _ => .refl b
  | e :: _, b, haligned => by
      simp only [FlowAligned] at haligned
      exact claimEntrance_claimsFor n rank e b haligned.1
termination_by structural branch => branch

end

/-! ## Drawing -/

/-- Between the two builders, the nodes of the slots get their ids in the order
of the slots, and these are the ids under their numbers in `names`. -/
structure NamesSlots (names : List String) (b b' : Builder)
    (slots : List Slot) : Prop where
  claimed : HandsOut b b' (slots.map Slot.card)
  named : (slots.map fun slot => names[slot.number]?) =
    (givenNames b.claimed (slots.map Slot.card)).map some

namespace NamesSlots

theorem of_claimed_eq {b b' : Builder} (h : b'.claimed = b.claimed) :
    NamesSlots names b b' [] :=
  ⟨h, rfl⟩

theorem trans
    {b b' b'' : Builder} {slots others : List Slot}
    (h : NamesSlots names b b' slots) (h' : NamesSlots names b' b'' others) :
    NamesSlots names b b'' (slots ++ others) where
  claimed := by
    rw [List.map_append]
    exact h.claimed.trans h'.claimed
  named := by
    rw [List.map_append, List.map_append, h.named, h'.named, h.claimed,
      givenNames_append, List.map_append]

/-- Claimed points stand at the nodes of their slots. -/
theorem of_claimsFor
    {b b' : Builder} {points : Frontier} {slots : List Slot}
    {numbers : List Nat}
    (hclaims : ClaimsFor b b' points (slots.map Slot.card))
    (hnumbers : slots.map Slot.number = numbers)
    (hpoints : StandsAt names numbers points) :
    NamesSlots names b b' slots where
  claimed := hclaims.claimed
  named := by
    have hstands : points.nodeIds.map some =
        numbers.map fun i => names[i]? := hpoints
    rw [← hclaims.nodeIds, hstands, ← hnumbers, List.map_map]
    rfl

end NamesSlots

/-- The id of a node is claimed right before the node is drawn. -/
theorem claim_push_namesSlots
    (b : Builder) (card : Card) (declared : Bool) (kind : NodeKind)
    (payload : Payload) (incoming : Frontier) (entered : String) {n : Nat}
    (hn : b.nodes.length = n)
    (hnames : (((b.claim card.baseId card.rank).2.push
      (b.claim card.baseId card.rank).1 kind payload).connectAll incoming
        [⟨(b.claim card.baseId card.rank).1, entered⟩]).nodeIds <+: names) :
    NamesSlots names b
      (((b.claim card.baseId card.rank).2.push
        (b.claim card.baseId card.rank).1 kind payload).connectAll incoming
          [⟨(b.claim card.baseId card.rank).1, entered⟩])
      [⟨n, declared, card⟩] where
  claimed := by
    rw [HandsOut, connectAll_claimed]
    rfl
  named := by
    have hpushed : ((b.claim card.baseId card.rank).2.push
        (b.claim card.baseId card.rank).1 kind payload).nodeIds <+: names := by
      simpa [nodeIds] using hnames
    exact congrArg (fun name => [name]) (getElem?_of_push hn hpushed)

/-- An entry that is entered in one place names no other node, unless it is a
loop, whose exit condition is named last. -/
theorem drawSingle_namesSlots
    {rank n : Nat} {incoming : Frontier} {e : Entry}
    {entrance : Entrance} {b : Builder} {declared : String}
    (he : e.declaredId? = some declared)
    (hn : b.nodes.length = n) (hfits : Fits rank e entrance)
    (hnames : (drawEntry rank incoming e entrance b).2.nodeIds <+: names) :
    NamesSlots names b (drawEntry rank incoming e entrance b).2
      (innerSlots n rank e) := by
  cases hfits with
  | @node _ point hdeclared hname =>
      cases e with
      | step | foreach | sleep | sleepUntil | waitForEvent =>
          exact .of_claimed_eq (connectAll_claimed _ _ _)
      | loop s exit kind =>
          have hstep : NamesSlots names b
              (b.pushPoint incoming point s.nodeKind (.ofStep s)) [] :=
            .of_claimed_eq (connectAll_claimed _ _ _)
          have hlength : (b.pushPoint incoming point s.nodeKind
              (.ofStep s)).nodes.length = n + 1 := by
            simp [pushPoint, push_nodes, hn]
          exact hstep.trans (claim_push_namesSlots _ (.exit rank exit kind) true
            .condition _ [point] point.stepId hlength hnames)
      | parallel branches => cases he
      | conditional branches conditions => cases he
  | guards => cases he
  | fork => cases he

/-- A branch without entries leaves the builder as it is. -/
theorem drawGuarded_cons
    (rank : Nat) (incoming : Frontier) (branch : List Entry)
    (branches : List (List Entry)) (condition : Condition)
    (conditions : List Condition) (point : Tail) (points : List Tail)
    (b : Builder) :
    (drawGuarded rank incoming (branch :: branches) (condition :: conditions)
        (point :: points) b).2 =
      (drawGuarded rank incoming branches conditions points
        (drawFlow rank [guardTail incoming point] none branch
          (b.pushGuard incoming point condition)).2).2 := by
  cases branch <;> rfl

/- The induction follows the branches of an entry.  The heads of an entry are
named before the entry is drawn, so drawing an entry names its inner nodes only.
That the heads stand where their numbers say is known once the entry is drawn,
from what the drawing traces. -/
mutual

theorem drawEntry_namesSlots (rank : Nat) :
    (e : Entry) → (n : Nat) → (ins : List Nat) → (incoming : Frontier) →
      (entrance : Entrance) → (b : Builder) → b.nodes.length = n →
      Fits rank e entrance → Aligned e → StandsAt names ins incoming →
      (drawEntry rank incoming e entrance b).2.nodeIds <+: names →
      NamesSlots names b (drawEntry rank incoming e entrance b).2
        (innerSlots n rank e)
  | .parallel branches, n, ins, incoming, _, b, hn, .fork hheads, haligned,
      hincoming, hnames => by
      simp only [Aligned] at haligned
      exact drawBranches_namesSlots rank branches n ins incoming _ b hn hheads
        haligned hincoming hnames
  | .conditional branches conditions, n, ins, incoming, _, b, hn,
      .guards hguards, haligned, hincoming, hnames => by
      simp only [Aligned] at haligned
      exact drawGuarded_namesSlots rank branches conditions n 0 ins incoming _ b
        hn hguards haligned.1 haligned.2 hincoming hnames
  | .step _, _, _, _, _, _, hn, hfits, _, _, hnames
  | .foreach _ _, _, _, _, _, _, hn, hfits, _, _, hnames
  | .sleep _ _, _, _, _, _, _, hn, hfits, _, _, hnames
  | .sleepUntil _ _, _, _, _, _, _, hn, hfits, _, _, hnames
  | .waitForEvent _ _ _, _, _, _, _, _, hn, hfits, _, _, hnames
  | .loop _ _ _, _, _, _, _, _, hn, hfits, _, _, hnames =>
      drawSingle_namesSlots rfl hn hfits hnames
termination_by structural e => e

theorem drawFlow_namesSlots (rank : Nat) :
    (flow : List Entry) → (n : Nat) → (ins : List Nat) →
      (incoming : Frontier) → (head : Option Entrance) → (b : Builder) →
      b.nodes.length = n → FitsStart rank flow head → FlowAligned flow →
      StandsAt names ins incoming →
      (drawFlow rank incoming head flow b).2.nodeIds <+: names →
      NamesSlots names b (drawFlow rank incoming head flow b).2
        ((if head.isSome then [] else flowHeadSlots n rank flow) ++
          flowInnerSlots n rank flow)
  | [], _, _, _, none, _, _, _, _, _, _ => .of_claimed_eq rfl
  | e :: flow, n, ins, incoming, head, b, hn, hfits, haligned, hincoming,
      hnames => by
      simp only [FlowAligned] at haligned
      have hdrawn : ∀ entrance b', b'.nodes.length = n →
          Fits rank e entrance →
          (drawFlow rank incoming (some entrance) (e :: flow) b').2.nodeIds <+:
            names →
          StandsAt names (heads n e) entrance.points ∧
            NamesSlots names b'
              (drawFlow rank incoming (some entrance) (e :: flow) b').2
              (flowInnerSlots n rank (e :: flow)) := by
        intro entrance b' hn' hfits' hnames'
        have hlater := (drawFlow_settles (rank + 1) flow
          (drawEntry rank incoming e entrance
            (b'.connectAll incoming entrance.points)).1 none
          (drawEntry rank incoming e entrance
            (b'.connectAll incoming entrance.points)).2
          trivial haligned.2).grows
        have hn'' : (b'.connectAll incoming entrance.points).nodes.length =
            n := by
          rw [connectAll_nodes, hn']
        obtain ⟨hpoints, hentry, htips⟩ := drawEntry_traces rank e n ins
          incoming entrance _ hn'' hfits' haligned.1 hincoming
          (hlater.nodeIds.trans hnames')
        have hlength := hentry.nodes_length
        rw [hn'', cards_length rank e haligned.1] at hlength
        have hconnected : NamesSlots names b'
            (b'.connectAll incoming entrance.points) [] :=
          .of_claimed_eq (connectAll_claimed _ _ _)
        have hinner := drawEntry_namesSlots rank e n ins incoming entrance _
          hn'' hfits' haligned.1 hincoming (hlater.nodeIds.trans hnames')
        have hrest := drawFlow_namesSlots (rank + 1) flow (n + nodeCount e)
          (exits n e) _ none _ hlength trivial haligned.2 htips hnames'
        exact ⟨hpoints, hconnected.trans (hinner.trans hrest)⟩
      cases head with
      | some entrance => exact (hdrawn entrance b hn hfits hnames).2
      | none =>
          have hclaims := claimEntrance_claims rank e b
          obtain ⟨hpoints, hrest⟩ := hdrawn _ (claimEntrance rank e b).2
            (by rw [hclaims.nodes, hn]) (claimEntrance_fits rank e b) hnames
          exact (NamesSlots.of_claimsFor
            (claimEntrance_claimsFor n rank e b haligned.1)
            (headSlots_number n rank e haligned.1) hpoints).trans hrest
termination_by structural flow => flow

theorem drawBranches_namesSlots (rank : Nat) :
    (branches : List (List Entry)) → (n : Nat) → (ins : List Nat) →
      (incoming : Frontier) → (given : List (Option Entrance)) →
      (b : Builder) → b.nodes.length = n → FitsHeads rank branches given →
      BranchesAligned branches → StandsAt names ins incoming →
      (drawBranches rank incoming branches given b).2.nodeIds <+: names →
      NamesSlots names b (drawBranches rank incoming branches given b).2
        (branchesInnerSlots n rank branches)
  | [], _, _, _, _, _, _, .nil, _, _, _ => .of_claimed_eq rfl
  | [] :: branches, n, ins, incoming, _, b, hn, .empty hrest, haligned,
      hincoming, hnames => by
      simp only [BranchesAligned] at haligned
      exact drawBranches_namesSlots rank branches n ins incoming _ b hn hrest
        haligned.2 hincoming hnames
  | (e :: flow) :: branches, n, ins, incoming, _, b, hn,
      @FitsHeads.cons _ _ _ entrance _ given hhead hrest, haligned, hincoming,
      hnames => by
      simp only [BranchesAligned] at haligned
      have hlater := (drawBranches_settles rank branches incoming given
        (drawFlow rank incoming (some entrance) (e :: flow) b).2 hrest
        haligned.2).grows
      obtain ⟨-, htraces, -⟩ := drawFlow_traces rank (e :: flow) n ins
        incoming (some entrance) b hn hhead haligned.1 hincoming
        (hlater.nodeIds.trans hnames)
      have hlength := htraces.nodes_length
      rw [hn, flowCards_length rank _ haligned.1] at hlength
      exact (drawFlow_namesSlots rank (e :: flow) n ins incoming
        (some entrance) b hn hhead haligned.1 hincoming
        (hlater.nodeIds.trans hnames)).trans
        (drawBranches_namesSlots rank branches _ ins incoming given _ hlength
          hrest haligned.2 hincoming hnames)
termination_by structural branches => branches

theorem drawGuarded_namesSlots (rank : Nat) :
    (branches : List (List Entry)) → (conditions : List Condition) →
      (n index : Nat) → (ins : List Nat) → (incoming : Frontier) →
      (points : List Tail) → (b : Builder) → b.nodes.length = n →
      FitsGuards rank index branches points →
      branches.length = conditions.length → BranchesAligned branches →
      StandsAt names ins incoming →
      (drawGuarded rank incoming branches conditions points b).2.nodeIds <+:
        names →
      NamesSlots names b
        (drawGuarded rank incoming branches conditions points b).2
        (guardedInnerSlots n rank branches conditions)
  | [], _, _, _, _, _, _, _, _, .nil, _, _, _, _ => .of_claimed_eq rfl
  | branch :: branches, condition :: conditions, n, index, ins, incoming,
      point :: points, b, hn, .cons hname _ hrest, hconditions, haligned,
      hincoming, hnames => by
      simp only [BranchesAligned] at haligned
      have hconditions' : branches.length = conditions.length := by
        simpa using hconditions
      rw [drawGuarded_cons] at hnames ⊢
      have hlater := (drawGuarded_settles rank branches conditions incoming
        (index + 1) points
        (drawFlow rank [guardTail incoming point] none branch
          (b.pushGuard incoming point condition)).2 hrest
        hconditions' haligned.2).grows
      have hinner := (drawFlow_settles rank branch
        [guardTail incoming point] none
        (b.pushGuard incoming point condition) trivial haligned.1).grows
      obtain ⟨hpoint, hguard⟩ := pushGuard_traces b condition hn hname
        hincoming ((hinner.trans hlater).nodeIds.trans hnames)
      have hlength := hguard.nodes_length
      rw [hn] at hlength
      obtain ⟨-, htraces, -⟩ := drawFlow_traces rank branch (n + 1) [n]
        [guardTail incoming point] none _ hlength trivial haligned.1 hpoint
        (hlater.nodeIds.trans hnames)
      have hlength' := htraces.nodes_length
      rw [hlength, flowCards_length rank _ haligned.1] at hlength'
      have hpushed : NamesSlots names b (b.pushGuard incoming point condition)
          [] :=
        .of_claimed_eq (connectAll_claimed _ _ _)
      have hflow := drawFlow_namesSlots rank branch (n + 1) [n]
        [guardTail incoming point] none _ hlength trivial haligned.1 hpoint
        (hlater.nodeIds.trans hnames)
      exact hpushed.trans (hflow.trans (drawGuarded_namesSlots rank branches
        conditions _ (index + 1) ins incoming points _ hlength' hrest
        hconditions' haligned.2 hincoming hnames))
  | _ :: _, [], _, _, _, _, _, _, _, _, hlength, _, _, _ => by simp at hlength
termination_by structural branches => branches

end

end Builder

/-! ## Diagrams of flows -/

namespace Diagram

/-- The ids of the nodes follow from the cards and from the naming order. -/
theorem ofFoldedFlow_named
    {flow : Flow} (haligned : FlowAligned flow) (style : EdgeStyle) :
    ((flowNamingOrder 0 0 flow).map fun slot =>
        (ofFoldedFlow style flow).nodeIds[slot.number]?) =
      (givenNames [] ((flowNamingOrder 0 0 flow).map Slot.card)).map some := by
  have hnames := Builder.drawFlow_namesSlots 0 flow 0 [] [] none
    (.empty style) rfl trivial haligned standsAt_nil (List.prefix_refl _)
  have hids : (ofFoldedFlow style flow).nodeIds =
      ((Builder.empty style).drawFlow 0 [] none flow).2.nodeIds :=
    Builder.finish_nodeIds _
  rw [hids]
  exact hnames.named

/-- The number of a slot is its place among the slots. -/
theorem ofFoldedFlow_slots
    {flow : Flow} (haligned : FlowAligned flow) (style : EdgeStyle) :
    List.Forall₂ (fun slot name =>
        (ofFoldedFlow style flow).nodeIds[slot.number]? = some name)
      (flowSlots 0 0 flow) (ofFoldedFlow style flow).nodeIds := by
  have hnumbers := flowSlots_number 0 0 flow haligned
  have hslots : (flowSlots 0 0 flow).length = flowNodeCount flow := by
    simpa using congrArg List.length hnumbers
  have hlength : (ofFoldedFlow style flow).nodeIds.length =
      (flowSlots 0 0 flow).length := by
    rw [hslots, ← flowCards_length 0 flow haligned, nodeIds, List.length_map]
    exact (ofFoldedFlow_realizes haligned style).shows.length_eq
  refine List.forall₂_iff_get.mpr ⟨hlength.symm, fun i hi hi' => ?_⟩
  have hnumber : ((flowSlots 0 0 flow).map Slot.number)[i]? = some i := by
    rw [hnumbers, List.getElem?_range' (hslots ▸ hi), Nat.zero_add,
      Nat.one_mul]
  rw [List.getElem?_map, List.getElem?_eq_getElem hi, Option.map_some,
    Option.some.injEq] at hnumber
  rw [List.get_eq_getElem, List.get_eq_getElem, hnumber]
  exact List.getElem?_eq_getElem hi'

/-- Every node has the least name for what its slot asks for. -/
theorem ofFoldedFlow_slots_least
    {flow : Flow} (haligned : FlowAligned flow) (style : EdgeStyle) :
    List.Forall₂ (fun slot name =>
        (ofFoldedFlow style flow).nodeIds[slot.number]? = some name ∧
        IsLeastRenaming ((ofFoldedFlow style flow).nodeIds.erase name)
          slot.card.baseId slot.card.rank name)
      (flowSlots 0 0 flow) (ofFoldedFlow style flow).nodeIds := by
  let names := (ofFoldedFlow style flow).nodeIds
  let order := flowNamingOrder 0 0 flow
  let given := givenNames [] (order.map Slot.card)
  have hnamed : (order.map fun slot => names[slot.number]?) =
      given.map some := ofFoldedFlow_named haligned style
  have hgiven : given ⊆ names := by
    intro name hname
    have hmem : some name ∈ order.map fun slot => names[slot.number]? :=
      hnamed ▸ List.mem_map_of_mem hname
    obtain ⟨slot, -, hslot⟩ := List.mem_map.mp hmem
    exact List.mem_of_getElem? hslot
  have hplaces : List.Forall₂ (fun slot name =>
      names[slot.number]? = some name) order given := by
    rw [← List.forall₂_eq_eq_eq, List.forall₂_map_left_iff,
      List.forall₂_map_right_iff] at hnamed
    exact hnamed
  have hleast := givenNames_least (List.nil_subset names) hgiven
  rw [List.forall₂_map_right_iff] at hleast
  have horder := hplaces.mp (fun _ _ => And.intro) hleast.flip
  -- Listed by number, the names are the ids of the nodes.
  obtain ⟨listed, hlisted, -⟩ := List.perm_comp_forall₂
    (flowNamingOrder_perm 0 0 flow).symm horder
  have hunique : Relator.RightUnique fun (slot : Slot) (name : String) =>
      names[slot.number]? = some name :=
    fun _ _ _ h h' => Option.some.inj (h.symm.trans h')
  obtain rfl : listed = names := List.right_unique_forall₂' hunique
    (hlisted.imp fun _ _ h => h.1) (ofFoldedFlow_slots haligned style)
  exact hlisted

theorem ofFoldedFlow_namesLeast
    {flow : Flow} (haligned : FlowAligned flow) (style : EdgeStyle) :
    (ofFoldedFlow style flow).NamesLeast (flowCards 0 flow) := by
  let names := (ofFoldedFlow style flow).nodeIds
  have hcards : List.Forall₂ (fun name card =>
      IsLeastRenaming (names.erase name) card.baseId card.rank name) names
      (flowCards 0 flow) := by
    rw [← flowSlots_card 0 0 flow, List.forall₂_map_right_iff]
    exact ((ofFoldedFlow_slots_least haligned style).imp
      fun _ _ h => h.2).flip
  exact List.forall₂_map_left_iff.mp hcards

end Diagram

end Flowchart

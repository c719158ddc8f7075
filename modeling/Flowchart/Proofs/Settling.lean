import Flowchart.Proofs.Builder

/-!
# Settling pending ids

An id may be claimed long before its node is drawn.  A drawing settles the ids
of some entry points when it draws their nodes and leaves nothing else pending.
Drawings compose in two ways, one behind the open ends of another and two
beside each other behind the same open ends; what both front ends draw is put
together in these two ways.
-/

namespace Flowchart.Builder

/-! ## Claiming -/

/-- The later builder is the earlier one with the ids of the points handed
out. -/
structure Claims (b b' : Builder) (points : Frontier) : Prop where
  grows : Grows b b'
  nodes : b'.nodes = b.nodes
  edges : b'.edges = b.edges
  sound : ∀ pending, b.Sound pending → b'.Sound (points.nodeIds ++ pending)

namespace Claims

theorem refl (b : Builder) : Claims b b [] :=
  ⟨Grows.refl b, rfl, rfl, fun _ h => h⟩

theorem trans
    {b b' b'' : Builder} {points others : Frontier}
    (h : Claims b b' points) (h' : Claims b' b'' others) :
    Claims b b'' (points ++ others) where
  grows := h.grows.trans h'.grows
  nodes := h'.nodes.trans h.nodes
  edges := h'.edges.trans h.edges
  sound pending hb := by
    refine (h'.sound _ (h.sound _ hb)).perm ?_
    rw [Frontier.nodeIds_append, ← List.append_assoc]
    exact List.perm_append_comm.append_right pending

theorem ends {b b' : Builder} {points : Frontier} (h : Claims b b' points) :
    b'.ends = b.ends := by
  rw [Builder.ends, h.edges, Builder.ends]

end Claims

theorem claims_claim
    (b : Builder) (declared : String) (rank : Nat) (stepId : String) :
    Claims b (b.claim declared rank).2
      [⟨(b.claim declared rank).1, stepId⟩] where
  grows := grows_claim b declared rank
  nodes := rfl
  edges := rfl
  sound _ hb := hb.claim declared rank

/-! ## Drawing -/

/-- The result of a drawing behind the open ends `incoming`, in which the nodes
of the ids of `points` are drawn and nothing new is left pending. -/
structure Settles
    (incoming points : Frontier) (b : Builder)
    (result : Frontier × Builder) : Prop where
  grows : Grows b result.2
  sound : ∀ pending, b.Sound (points.nodeIds ++ pending) →
    incoming.nodeIds ⊆ b.claimed → result.2.Sound pending
  tips : ∀ pending, b.Sound (points.nodeIds ++ pending) →
    incoming.nodeIds ⊆ b.claimed → result.1.nodeIds ⊆ result.2.claimed

namespace Settles

variable {incoming points others : Frontier} {b : Builder}

theorem nothing (incoming : Frontier) (b : Builder) :
    Settles incoming [] b ([], b) where
  grows := Grows.refl b
  sound _ hb _ := hb
  tips _ _ _ := List.nil_subset _

theorem unchanged (incoming : Frontier) (b : Builder) :
    Settles incoming [] b (incoming, b) where
  grows := Grows.refl b
  sound _ hb _ := hb
  tips _ _ hin := hin

/-- A drawing behind the open ends of another one. -/
theorem andThen
    {result result' : Frontier × Builder}
    (h : Settles incoming points b result)
    (h' : Settles result.1 [] result.2 result') :
    Settles incoming points b result' where
  grows := h.grows.trans h'.grows
  sound pending hb hin :=
    h'.sound pending (h.sound pending hb hin) (h.tips pending hb hin)
  tips pending hb hin :=
    h'.tips pending (h.sound pending hb hin) (h.tips pending hb hin)

/-- A drawing whose own open ends are left open. -/
theorem forget
    {result : Frontier × Builder} (h : Settles incoming points b result) :
    Settles incoming points b ([], result.2) where
  grows := h.grows
  sound := h.sound
  tips _ _ _ := List.nil_subset _

/-- Two drawings behind the same open ends. -/
theorem append
    {result result' : Frontier × Builder}
    (h : Settles incoming points b result)
    (h' : Settles incoming others result.2 result') :
    Settles incoming (points ++ others) b
      (result.1 ++ result'.1, result'.2) := by
  have hfirst : ∀ pending, b.Sound ((points ++ others).nodeIds ++ pending) →
      b.Sound (points.nodeIds ++ (others.nodeIds ++ pending)) := by
    intro pending hb
    simpa using hb
  have hin' : incoming.nodeIds ⊆ b.claimed →
      incoming.nodeIds ⊆ result.2.claimed :=
    fun hin _ hid => h.grows.mem_claimed (hin hid)
  refine ⟨h.grows.trans h'.grows, ?_, ?_⟩
  · intro pending hb hin
    exact h'.sound pending (h.sound _ (hfirst pending hb) hin) (hin' hin)
  · intro pending hb hin
    rw [Frontier.nodeIds_append]
    refine List.append_subset_of_subset_of_subset ?_ ?_
    · intro id hid
      exact h'.grows.mem_claimed (h.tips _ (hfirst pending hb) hin hid)
    · exact h'.tips pending (h.sound _ (hfirst pending hb) hin) (hin' hin)

theorem of_claims
    {b' : Builder} {result : Frontier × Builder}
    (hclaims : Claims b b' points) (h : Settles incoming points b' result) :
    Settles incoming [] b result where
  grows := hclaims.grows.trans h.grows
  sound pending hb hin :=
    h.sound pending (hclaims.sound _ hb)
      fun _ hid => hclaims.grows.mem_claimed (hin hid)
  tips pending hb hin :=
    h.tips pending (hclaims.sound _ hb)
      fun _ hid => hclaims.grows.mem_claimed (hin hid)

theorem of_connectAll
    {result : Frontier × Builder}
    (h : Settles incoming points (b.connectAll incoming points) result) :
    Settles incoming points b result := by
  have hconnected : ∀ pending, b.Sound (points.nodeIds ++ pending) →
      incoming.nodeIds ⊆ b.claimed →
      (b.connectAll incoming points).Sound (points.nodeIds ++ pending) := by
    intro pending hb hin
    refine hb.connectAll hin ?_
    intro id hid
    exact hb.pending_claimed (List.mem_append_left _ hid)
  refine ⟨(grows_connectAll b incoming points).trans h.grows, ?_, ?_⟩
  · intro pending hb hin
    exact h.sound pending (hconnected pending hb hin) (by simpa using hin)
  · intro pending hb hin
    exact h.tips pending (hconnected pending hb hin) (by simpa using hin)

end Settles

/-! ## Single nodes -/

/-- The node of a pending id is drawn and joined to what comes before, whatever
steps its ends are said to stand for. -/
theorem push_settles
    (incoming : Frontier) (id : String) (kind : NodeKind) (payload : Payload)
    (entered left : String) (b : Builder) :
    Settles incoming [⟨id, entered⟩] b
      ([⟨id, left⟩],
        (b.push id kind payload).connectAll incoming [⟨id, entered⟩]) := by
  have hid : ∀ pending, b.Sound (id :: pending) → id ∈ b.claimed := by
    intro pending hb
    exact hb.pending_claimed List.mem_cons_self
  refine ⟨(grows_push b _ _ _).trans (grows_connectAll _ _ _), ?_, ?_⟩
  · intro pending hb hin
    exact (hb.push kind payload).connectAll hin (by simpa using hid pending hb)
  · intro pending hb _
    simpa using hid pending hb

/-- The id of a node is claimed right before the node is drawn. -/
theorem claim_push_settles
    (incoming : Frontier) (declared : String) (rank : Nat) (kind : NodeKind)
    (payload : Payload) (entered left : String) (b : Builder) :
    Settles incoming [] b
      ([⟨(b.claim declared rank).1, left⟩],
        ((b.claim declared rank).2.push (b.claim declared rank).1 kind
          payload).connectAll incoming
            [⟨(b.claim declared rank).1, entered⟩]) :=
  .of_claims (claims_claim b declared rank entered)
    (push_settles incoming _ kind payload entered left _)

end Flowchart.Builder

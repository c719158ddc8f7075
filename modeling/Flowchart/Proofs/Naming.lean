import Flowchart.Proofs.Outline

/-!
# Naming

The ids of nodes are handed out one after the other, each with a look at all ids
that were handed out before.  So the ids of a diagram follow from the cards of
its nodes and from the order in which the cards are named.

An id is only refused if it is handed out already, and every id that is handed
out becomes the id of a node.  Hence no node gets a longer name than the names
of the other nodes force it to have.
-/

namespace Flowchart

namespace Names

/-! ## Least names -/

theorem length_lt_numbered (base : String) (n : Nat) :
    base.length < (numbered base n).length := by
  have hdash : "-".length = 1 := rfl
  simp only [numbered, String.length_append, hdash]
  omega

theorem numbered_ne (base : String) (n : Nat) : numbered base n ≠ base := by
  intro h
  exact (length_lt_numbered base n).ne (congrArg String.length h.symm)

theorem numbered_numbered_ne (base : String) (m n : Nat) :
    numbered (numbered base m) n ≠ base := by
  intro h
  have hlt := (length_lt_numbered base m).trans
    (length_lt_numbered (numbered base m) n)
  exact hlt.ne (congrArg String.length h.symm)

/-- The name is a renaming that is as close to the declared id as the other
names permit. -/
structure IsLeastRenaming (others : List String) (declared : String)
    (rank : Nat) (name : String) : Prop where
  isRenaming : IsRenaming declared rank name
  declared_mem : name ≠ declared → declared ∈ others
  numbered_mem : ∀ n, 2 ≤ n → name = numbered (numbered declared rank) n →
    numbered declared rank ∈ others ∧
      ∀ m, 2 ≤ m → m < n → numbered (numbered declared rank) m ∈ others

namespace IsLeastRenaming

variable {others : List String} {declared : String} {rank : Nat}

theorem mono
    {others' : List String} {name : String}
    (h : IsLeastRenaming others declared rank name)
    (hsubset : others ⊆ others') :
    IsLeastRenaming others' declared rank name where
  isRenaming := h.isRenaming
  declared_mem hne := hsubset (h.declared_mem hne)
  numbered_mem n hn hname := by
    obtain ⟨hrank, hbelow⟩ := h.numbered_mem n hn hname
    exact ⟨hsubset hrank, fun m hm hmn => hsubset (hbelow m hm hmn)⟩

theorem of_declared (others : List String) (declared : String) (rank : Nat) :
    IsLeastRenaming others declared rank declared where
  isRenaming := Or.inl rfl
  declared_mem hne := absurd rfl hne
  numbered_mem n _ hname :=
    absurd hname.symm (numbered_numbered_ne declared rank n)

theorem of_numbered (hdeclared : declared ∈ others) :
    IsLeastRenaming others declared rank (numbered declared rank) where
  isRenaming := Or.inr (Or.inl rfl)
  declared_mem _ := hdeclared
  numbered_mem n _ hname :=
    absurd hname.symm (numbered_ne (numbered declared rank) n)

theorem of_searched
    (hdeclared : declared ∈ others) (hrank : numbered declared rank ∈ others)
    {n : Nat} (hn : 2 ≤ n)
    (hbelow : ∀ m, 2 ≤ m → m < n →
      numbered (numbered declared rank) m ∈ others) :
    IsLeastRenaming others declared rank
      (numbered (numbered declared rank) n) where
  isRenaming := Or.inr (Or.inr ⟨n, hn, rfl⟩)
  declared_mem _ := hdeclared
  numbered_mem n' _ hname := by
    obtain rfl := numbered_injective _ hname
    exact ⟨hrank, hbelow⟩

end IsLeastRenaming

theorem nodeId_isLeastRenaming
    (taken : List String) (declared : String) (rank : Nat) :
    IsLeastRenaming taken declared rank (nodeId taken declared rank) := by
  unfold nodeId firstFree
  split
  · next hdeclared =>
      split
      · next hrank =>
          obtain ⟨n, hn, heq, hbelow, -⟩ :=
            exists_searchFree_eq taken (numbered declared rank) taken.length 2
          rw [heq]
          exact .of_searched hdeclared hrank hn hbelow
      · exact .of_numbered hdeclared
  · exact .of_declared taken declared rank

/-! ## Naming cards -/

/-- The ids that are handed out for cards one after the other, if some ids are
taken already. -/
def givenNames (taken : List String) : List Card → List String
  | [] => []
  | card :: cards =>
    let name := nodeId taken card.baseId card.rank
    name :: givenNames (name :: taken) cards

theorem givenNames_append
    (taken : List String) (cards others : List Card) :
    givenNames taken (cards ++ others) =
      givenNames taken cards ++
        givenNames ((givenNames taken cards).reverse ++ taken) others := by
  induction cards generalizing taken with
  | nil => rfl
  | cons card cards ih => simp [givenNames, ih]

/-- Names stay least when more names are given after them. -/
theorem givenNames_least
    {taken final : List String} {cards : List Card}
    (htaken : taken ⊆ final) (hgiven : givenNames taken cards ⊆ final) :
    List.Forall₂ (fun name card =>
        IsLeastRenaming (final.erase name) card.baseId card.rank name)
      (givenNames taken cards) cards := by
  induction cards generalizing taken with
  | nil => exact .nil
  | cons card cards ih =>
      obtain ⟨hname, hlater⟩ := List.cons_subset.mp hgiven
      refine .cons ?_ (ih (List.cons_subset.mpr ⟨hname, htaken⟩) hlater)
      refine (nodeId_isLeastRenaming taken card.baseId card.rank).mono ?_
      intro id hid
      refine (List.mem_erase_of_ne ?_).mpr (htaken hid)
      rintro rfl
      exact nodeId_notMem taken card.baseId card.rank hid

theorem ne_of_mem_givenNames
    {taken : List String} {cards : List Card} {id name : String}
    (hid : id ∈ taken) (hname : name ∈ givenNames taken cards) :
    name ≠ id := by
  induction cards generalizing taken with
  | nil => simp [givenNames] at hname
  | cons card cards ih =>
      rcases List.mem_cons.mp hname with rfl | hlater
      · rintro rfl
        exact nodeId_notMem taken card.baseId card.rank hid
      · exact ih (List.mem_cons_of_mem _ hid) hlater

/-- What is asked for is taken from then on. -/
theorem baseId_mem_of_nodeId (taken : List String) (card : Card) :
    card.baseId ∈ nodeId taken card.baseId card.rank :: taken := by
  by_cases hfree : nodeId taken card.baseId card.rank = card.baseId
  · exact List.mem_cons.mpr (Or.inl hfree.symm)
  · exact List.mem_cons_of_mem _ ((nodeId_isLeastRenaming taken card.baseId
      card.rank).declared_mem hfree)

/-- No item is given an id that an item before it has asked for. -/
theorem pairwise_of_map_eq_givenNames
    {α : Type} {name? : α → Option String} {card : α → Card}
    {taken : List String} {items : List α}
    (h : items.map name? = (givenNames taken (items.map card)).map some) :
    items.Pairwise fun earlier later =>
      name? later ≠ some (card earlier).baseId := by
  induction items generalizing taken with
  | nil => exact .nil
  | cons item items ih =>
      obtain ⟨-, hlater⟩ := List.cons.inj h
      refine List.pairwise_cons.mpr ⟨?_, ih hlater⟩
      intro later hmem hname
      have hgiven := List.mem_map_of_mem (f := name?) hmem
      rw [hlater, hname] at hgiven
      obtain ⟨name, hname', heq⟩ := List.mem_map.mp hgiven
      exact ne_of_mem_givenNames (baseId_mem_of_nodeId taken (card item))
        hname' (Option.some.inj heq)

end Names

open Names

/-- Between the two builders, ids are handed out for the cards in their
order. -/
def Builder.HandsOut (b b' : Builder) (cards : List Card) : Prop :=
  b'.claimed = (givenNames b.claimed cards).reverse ++ b.claimed

theorem Builder.HandsOut.trans
    {b b' b'' : Builder} {cards others : List Card}
    (h : HandsOut b b' cards) (h' : HandsOut b' b'' others) :
    HandsOut b b'' (cards ++ others) := by
  unfold HandsOut at *
  rw [h', h, givenNames_append, List.reverse_append, List.append_assoc]

/-! ## Diagrams -/

/-- Every node has the least name that the names of the other nodes permit. -/
def Diagram.NamesLeast (diagram : Diagram) (cards : List Card) : Prop :=
  List.Forall₂ (fun node card =>
      IsLeastRenaming (diagram.nodeIds.erase node.id) card.baseId card.rank
        node.id)
    diagram.nodes cards

end Flowchart

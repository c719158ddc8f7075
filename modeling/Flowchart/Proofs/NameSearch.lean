import Flowchart.Proofs.Builder
import Flowchart.Proofs.Naming

/-!
# The search for a name

A name is found by trying one after the other until one is free, and nothing in
the search itself says that it ends.  It does because no name is tried twice:
each one that is tried in vain is taken, and the names that are taken run out.
So the search tries at most one name more than are taken, and what it finds is
the first free name in the order in which names are tried.

Whatever is handed out is taken from then on.  Hence no two requests get the
same id, whether they ask for a declared id or for one that is made from a step
and a role.
-/

namespace Flowchart

namespace Names

/-! ## Trying names -/

/-- Names are tried from a number on until one is free.  The search comes with
the number of names that it tries and with the one that it finds. -/
inductive Search (taken : List String) (candidate : Nat → String) :
    (start tried : Nat) → (name : String) → Prop
  | found {n : Nat} :
      candidate n ∉ taken → Search taken candidate n 1 (candidate n)
  | next {n tried : Nat} {name : String} :
      candidate n ∈ taken → Search taken candidate (n + 1) tried name →
      Search taken candidate n (tried + 1) name

section Search

variable {taken : List String} {candidate : Nat → String}
variable {start tried : Nat} {name : String}

/-- The names before the one that is found are taken. -/
theorem search_iff :
    Search taken candidate start tried name ↔
      ∃ n, tried = n + 1 ∧ name = candidate (start + n) ∧ name ∉ taken ∧
        ∀ m < n, candidate (start + m) ∈ taken := by
  constructor
  · intro h
    induction h with
    | found hfree => exact ⟨0, rfl, rfl, hfree, by simp⟩
    | @next start tried name htaken _ ih =>
        obtain ⟨n, rfl, hname, hfree, hbefore⟩ := ih
        refine ⟨n + 1, rfl, ?_, hfree, ?_⟩
        · rw [hname, Nat.add_right_comm, Nat.add_assoc]
        · rintro (_ | m) hm
          · exact htaken
          · rw [← Nat.add_assoc, Nat.add_right_comm]
            exact hbefore m (Nat.lt_of_succ_lt_succ hm)
  · rintro ⟨n, rfl, rfl, hfree, hbefore⟩
    induction n generalizing start with
    | zero => exact .found hfree
    | succ n ih =>
        have hshift : ∀ m, start + 1 + m = start + (m + 1) := by
          intro m
          omega
        refine .next (hbefore 0 (Nat.succ_pos n)) ?_
        have hlater := ih (hshift n ▸ hfree) fun m hm =>
          hshift m ▸ hbefore (m + 1) (Nat.succ_lt_succ hm)
        rwa [hshift] at hlater

/-- There is only one way to search. -/
theorem Search.unique (h : Search taken candidate start tried name)
    {tried' : Nat} {name' : String}
    (h' : Search taken candidate start tried' name') :
    tried' = tried ∧ name' = name := by
  induction h generalizing tried' name' with
  | found hfree =>
      cases h' with
      | found => exact ⟨rfl, rfl⟩
      | next htaken => exact absurd htaken hfree
  | next htaken _ ih =>
      cases h' with
      | found hfree => exact absurd htaken hfree
      | next _ hlater =>
          obtain ⟨rfl, rfl⟩ := ih hlater
          exact ⟨rfl, rfl⟩

/-- The names that are tried in vain are among those that are taken. -/
theorem Search.tried_le (hinjective : Function.Injective candidate)
    (h : Search taken candidate start tried name) :
    tried ≤ taken.toFinset.card + 1 := by
  obtain ⟨n, rfl, -, -, hbefore⟩ := search_iff.mp h
  exact Nat.succ_le_succ (count_le_of_taken hinjective hbefore)

end Search

/-! ## The names that are tried -/

/-- A name, and then the same name with the numbers from two on. -/
def variant (base : String) : Nat → String
  | 0 => base
  | n + 1 => numbered base (n + 2)

/-- A declared id, the same with the rank behind it, and then this with the
numbers from two on. -/
def rankedVariant (declared : String) (rank : Nat) : Nat → String
  | 0 => declared
  | n + 1 => variant (numbered declared rank) n

theorem variant_injective (base : String) :
    Function.Injective (variant base) := by
  rintro (_ | m) (_ | n) h
  · rfl
  · exact absurd h.symm (numbered_ne base _)
  · exact absurd h (numbered_ne base _)
  · have hsame := numbered_injective base h
    omega

theorem rankedVariant_succ_ne (declared : String) (rank n : Nat) :
    rankedVariant declared rank (n + 1) ≠ declared := by
  cases n with
  | zero => exact numbered_ne declared rank
  | succ n => exact numbered_numbered_ne declared rank (n + 2)

theorem rankedVariant_injective (declared : String) (rank : Nat) :
    Function.Injective (rankedVariant declared rank) := by
  rintro (_ | m) (_ | n) h
  · rfl
  · exact absurd h.symm (rankedVariant_succ_ne declared rank n)
  · exact absurd h (rankedVariant_succ_ne declared rank m)
  · exact congrArg (· + 1) (variant_injective _ h)

theorem firstFree_search (taken : List String) (base : String) :
    ∃ tried, Search taken (variant base) 0 tried (firstFree taken base) := by
  have hfree := firstFree_notMem taken base
  unfold firstFree at hfree ⊢
  split at hfree
  · next hbase =>
      rw [if_pos hbase]
      obtain ⟨n, hn, heq, hbelow, -⟩ :=
        exists_searchFree_eq taken base taken.length 2
      obtain ⟨n, rfl⟩ := Nat.exists_eq_add_of_le' hn
      refine ⟨n + 2, search_iff.mpr ⟨n + 1, rfl, ?_, hfree, ?_⟩⟩
      · rw [heq, Nat.zero_add]
        rfl
      · rintro (_ | m) hm
        · exact hbase
        · rw [Nat.zero_add]
          exact hbelow (m + 2) (by omega) (by omega)
  · next hbase =>
      rw [if_neg hbase]
      exact ⟨1, .found hbase⟩

theorem nodeId_search (taken : List String) (declared : String) (rank : Nat) :
    ∃ tried, Search taken (rankedVariant declared rank) 0 tried
      (nodeId taken declared rank) := by
  unfold nodeId
  split
  · next hdeclared =>
      obtain ⟨tried, hsearch⟩ := firstFree_search taken (numbered declared rank)
      obtain ⟨n, rfl, hname, hfree, hbefore⟩ := search_iff.mp hsearch
      rw [Nat.zero_add] at hname
      refine ⟨n + 2, search_iff.mpr ⟨n + 1, rfl, ?_, hfree, ?_⟩⟩
      · rw [hname, Nat.zero_add]
        rfl
      · rintro (_ | m) hm
        · exact hdeclared
        · rw [Nat.zero_add]
          have htaken := hbefore m (by omega)
          rwa [Nat.zero_add] at htaken
  · next hdeclared => exact ⟨1, .found hdeclared⟩

/-- A name is what the search among the names to try comes to, and the search
tries at most one name more than are taken. -/
structure Finds (taken : List String) (candidate : Nat → String)
    (base name : String) : Prop where
  ends : ∃ tried ≤ taken.toFinset.card + 1, ∀ tried' name',
    Search taken candidate 0 tried' name' ↔ tried' = tried ∧ name' = name
  notMem : name ∉ taken
  /-- A number behind the base is the least free one from two on. -/
  isLeast : ∀ n, 2 ≤ n → name = numbered base n →
    IsLeast {m | 2 ≤ m ∧ numbered base m ∉ taken} n

theorem Search.finds
    {taken : List String} {candidate : Nat → String} {base name : String}
    {tried : Nat} (h : Search taken candidate 0 tried name)
    (hinjective : Function.Injective candidate) (offset : Nat)
    (hnumbered : ∀ n, numbered base (n + 2) = candidate (n + offset)) :
    Finds taken candidate base name where
  ends := by
    refine ⟨tried, h.tried_le hinjective, fun tried' name' => ⟨h.unique, ?_⟩⟩
    rintro ⟨rfl, rfl⟩
    exact h
  notMem := by
    obtain ⟨-, -, -, hfree, -⟩ := search_iff.mp h
    exact hfree
  isLeast := by
    intro n hn hname
    obtain ⟨k, -, hfound, hfree, hbefore⟩ := search_iff.mp h
    obtain ⟨n, rfl⟩ := Nat.exists_eq_add_of_le' hn
    have hk : n + offset = k := by
      rw [hfound, hnumbered, Nat.zero_add] at hname
      exact (hinjective hname).symm
    refine ⟨⟨hn, hname ▸ hfree⟩, ?_⟩
    rintro m ⟨hm, hfree'⟩
    obtain ⟨m, rfl⟩ := Nat.exists_eq_add_of_le' hm
    by_contra hlt
    refine hfree' ?_
    have htaken := hbefore (m + offset) (by omega)
    rwa [Nat.zero_add, ← hnumbered] at htaken

theorem firstFree_finds (taken : List String) (base : String) :
    Finds taken (variant base) base (firstFree taken base) := by
  obtain ⟨tried, hsearch⟩ := firstFree_search taken base
  exact hsearch.finds (variant_injective base) 1 fun _ => rfl

theorem nodeId_finds (taken : List String) (declared : String) (rank : Nat) :
    Finds taken (rankedVariant declared rank) (numbered declared rank)
      (nodeId taken declared rank) := by
  obtain ⟨tried, hsearch⟩ := nodeId_search taken declared rank
  exact hsearch.finds (rankedVariant_injective declared rank) 2 fun _ => rfl

end Names

open Names

/-! ## Requests -/

/-- What an id is asked for: a declared id, or the part that a node plays by a
step. -/
inductive Request where
  | declared (id : String) (rank : Nat)
  | role (anchor : String) (rank : Nat) (role : Role)
  deriving DecidableEq, Repr

namespace Builder

/-- Hands out the id that is asked for. -/
def serve (b : Builder) : Request → String × Builder
  | .declared id rank => b.claim id rank
  | .role anchor rank role => b.claimRole anchor rank role

/-- Serves requests one after the other. -/
def serveAll (b : Builder) : List Request → List String × Builder
  | [] => ([], b)
  | request :: requests =>
    let (id, b) := b.serve request
    let (ids, b) := b.serveAll requests
    (id :: ids, b)

theorem serve_notMem (b : Builder) (request : Request) :
    (b.serve request).1 ∉ b.claimed := by
  cases request with
  | declared id rank => exact b.claim_notMem id rank
  | role anchor rank role => exact b.claim_notMem _ rank

theorem serve_claimed (b : Builder) (request : Request) :
    (b.serve request).2.claimed = (b.serve request).1 :: b.claimed := by
  cases request with
  | declared id rank => exact b.claim_claimed id rank
  | role anchor rank role => exact b.claim_claimed _ rank

theorem serveAll_cons
    (b : Builder) (request : Request) (requests : List Request) :
    b.serveAll (request :: requests) =
      ((b.serve request).1 :: ((b.serve request).2.serveAll requests).1,
        ((b.serve request).2.serveAll requests).2) := rfl

theorem serveAll_length (b : Builder) (requests : List Request) :
    (b.serveAll requests).1.length = requests.length := by
  induction requests generalizing b with
  | nil => rfl
  | cons request requests ih =>
      rw [serveAll_cons, List.length_cons, ih, List.length_cons]

/-- What is handed out is taken from then on, so that nothing is handed out
twice. -/
theorem serveAll_claimed (b : Builder) (requests : List Request) :
    (b.serveAll requests).2.claimed =
      (b.serveAll requests).1.reverse ++ b.claimed := by
  induction requests generalizing b with
  | nil => rfl
  | cons request requests ih =>
      rw [serveAll_cons, ih, serve_claimed, List.reverse_cons,
        List.append_assoc]
      rfl

theorem serveAll_disjoint (b : Builder) (requests : List Request) :
    (b.serveAll requests).1.Disjoint b.claimed := by
  induction requests generalizing b with
  | nil => exact List.disjoint_nil_left _
  | cons request requests ih =>
      have hlater := ih (b.serve request).2
      rw [serve_claimed] at hlater
      rw [serveAll_cons, List.disjoint_cons_left]
      exact ⟨b.serve_notMem request, (List.disjoint_cons_right.mp hlater).2⟩

theorem serveAll_nodup (b : Builder) (requests : List Request) :
    (b.serveAll requests).1.Nodup := by
  induction requests generalizing b with
  | nil => exact List.nodup_nil
  | cons request requests ih =>
      have hlater := (b.serve request).2.serveAll_disjoint requests
      rw [serve_claimed] at hlater
      rw [serveAll_cons, List.nodup_cons]
      exact ⟨(List.disjoint_cons_right.mp hlater).1, ih _⟩

end Builder

/-- Whatever names are taken, the search for the id of a node or of an edge ends
with the first free one, after at most one name more than are taken.  Hence
requests for ids, however they are mixed, get one id each, and no two of them
get the same one. -/
theorem searches_end_and_ids_distinct (taken : List String) :
    (∀ declared rank, Finds taken (rankedVariant declared rank)
      (numbered declared rank) (nodeId taken declared rank)) ∧
    (∀ source target, Finds taken (variant ("e" ++ source ++ "-" ++ target))
      ("e" ++ source ++ "-" ++ target) (edgeId taken source target)) ∧
    ∀ (b : Builder) (requests : List Request),
      (b.serveAll requests).1.length = requests.length ∧
      (b.serveAll requests).1.Nodup ∧
      (b.serveAll requests).1.Disjoint b.claimed ∧
      (b.serveAll requests).2.claimed =
        (b.serveAll requests).1.reverse ++ b.claimed :=
  ⟨nodeId_finds taken,
    fun source target => firstFree_finds taken ("e" ++ source ++ "-" ++ target),
    fun b requests => ⟨b.serveAll_length requests, b.serveAll_nodup requests,
      b.serveAll_disjoint requests, b.serveAll_claimed requests⟩⟩

/-- A declared id may be what was made from another one. -/
example :
    ((Builder.empty .standard).serveAll
      [.declared "A" 0, .declared "A" 1, .declared "A" 1,
        .role "A" 1 .finished, .declared "A-1-finished" 1,
        .declared "A-1-2" 3]).1 =
      ["A", "A-1", "A-1-2", "A-1-finished", "A-1-finished-1", "A-1-2-3"] := by
  decide +kernel

end Flowchart

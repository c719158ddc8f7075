import Flowchart.Document.Record
import Flowchart.Proofs.Document.Sorting

/-!
# Reading records

What a decoder yields is spoken of in two directions.  A record decoder reads a
value from the fields that it asks for, whatever other fields there are; and
what a decoder yields for ordered trees has some property.  There is a lemma in
each direction for every way to combine decoders.
-/

namespace Flowchart

/-! ## Results -/

theorem eq_ok_of_mapError_eq_ok
    {f : ε → ε'} {result : Except ε α} {a : α}
    (h : result.mapError f = .ok a) : result = .ok a := by
  cases result with
  | error fault => cases h
  | ok a' => simpa [Except.mapError] using h

theorem exists_of_map_eq_ok
    {f : α → β} {result : Except ε α} {b : β} (h : result.map f = .ok b) :
    ∃ a, result = .ok a ∧ f a = b := by
  cases result with
  | error fault => cases h
  | ok a => exact ⟨a, rfl, by simpa [Except.map] using h⟩

theorem exists_of_bind_eq_ok
    {result : Except ε α} {f : α → Except ε β} {b : β}
    (h : result >>= f = .ok b) : ∃ a, result = .ok a ∧ f a = .ok b := by
  cases result with
  | error fault => cases h
  | ok a => exact ⟨a, rfl, h⟩

/-- Reading item by item succeeds when every item is read. -/
theorem forall₂_of_mapM_eq_ok
    {f : α → Except ε β} {items : List α} {results : List β}
    (h : items.mapM f = .ok results) :
    List.Forall₂ (fun item result => f item = .ok result) items results := by
  induction items generalizing results with
  | nil =>
      cases h
      exact .nil
  | cons item items ih =>
      rw [List.mapM_cons] at h
      cases hitem : f item with
      | error fault => simp [hitem, bind, Except.bind] at h
      | ok result =>
          cases hitems : items.mapM f with
          | error fault => simp [hitem, hitems, bind, Except.bind] at h
          | ok rest =>
              simp only [hitem, hitems, bind, Except.bind, pure, Except.pure,
                Except.ok.injEq] at h
              subst h
              exact .cons hitem (ih hitems)

theorem mapM_eq_ok_of_forall₂
    {f : α → Except ε β} {items : List α} {results : List β}
    (h : List.Forall₂ (fun item result => f item = .ok result) items results) :
    items.mapM f = .ok results := by
  induction h with
  | nil => rfl
  | cons hitem _ ih =>
      rw [List.mapM_cons, hitem, ih]
      rfl

/-! ## What is read from given fields -/

namespace Decoder

/-- A list of written values is read back. -/
theorem list_written
    {value : Decoder α} {write : α → Tree} {as : List α}
    (h : ∀ a ∈ as, value (write a).sorted = .ok a) :
    list value (Tree.list (as.map write)).sorted = .ok as := by
  rw [Tree.sorted, Tree.sortedList_eq_map, List.map_map]
  refine mapM_eq_ok_of_forall₂ ?_
  rw [List.forall₂_map_left_iff, List.forall₂_same]
  exact h

/-- The values of a written map are read back. -/
theorem fields_map_written
    {value : Decoder α} {write : α → Tree} {results : List (String × α)}
    (h : ∀ field ∈ results, value (write field.2).sorted = .ok field.2) :
    fields value (.map (results.map fun field =>
      (field.1, (write field.2).sorted))) = .ok results := by
  refine mapM_eq_ok_of_forall₂ ?_
  rw [List.forall₂_map_left_iff, List.forall₂_same]
  intro field hfield
  change (value (write field.2).sorted).map (Prod.mk field.1) = .ok field
  rw [h field hfield]
  rfl

theorem fields_written
    {value : Decoder α} {write : α → Tree} {results : List (String × α)}
    (hascending : Tree.Ascending results)
    (h : ∀ field ∈ results, value (write field.2).sorted = .ok field.2) :
    fields value (Tree.map (results.map fun field =>
      (field.1, write field.2))).sorted = .ok results := by
  have hsorted : Tree.Ascending (results.map fun field =>
      (field.1, (write field.2).sorted)) :=
    (Tree.ascending_map_snd fun a => (write a).sorted).mpr hascending
  rw [Tree.sorted, Tree.sortedFields_eq_map, List.map_map, Tree.ofFields]
  change fields value (.map (Tree.sortFields (results.map fun field =>
    (field.1, (write field.2).sorted)))) = _
  rw [hsorted.sortFields]
  exact fields_map_written h

theorem natural_int
    {bound n : Nat} (h : n ≤ bound) : natural bound (Tree.int n) = .ok n := by
  simp [natural, Tree.int, h]

theorem word64_written (n : UInt64) :
    word64 (Tree.int n.toNat) = .ok n := by
  have hbound : n.toNat ≤ UInt64.size - 1 :=
    Nat.le_sub_one_of_lt n.toNat_lt_size
  rw [word64, natural_int hbound, Except.map, UInt64.ofNat_toNat]

theorem word32_written (n : UInt32) :
    word32 (Tree.int n.toNat) = .ok n := by
  have hbound : n.toNat ≤ UInt32.size - 1 :=
    Nat.le_sub_one_of_lt n.toNat_lt_size
  rw [word32, natural_int hbound, Except.map, UInt32.ofNat_toNat]

theorem nullable_of_ne_null
    {value : Decoder α} {tree : Tree} (h : tree ≠ .null) :
    nullable value tree = (value tree).map some := by
  cases tree with
  | null => contradiction
  | _ => rfl

theorem oneOf_written
    {words : List (String × α)} {word : String} {a : α}
    (h : words.lookup word = some a) (emptyToo : Bool) :
    oneOf words emptyToo (.text word) = .ok a := by
  simp [oneOf, oneOf.find, h]

end Decoder

namespace RecordDecoder

/-- The record is read as `a` wherever its fields have these values. -/
def Reads (r : RecordDecoder α) (values : String → Option Tree) (a : α) :
    Prop :=
  ∀ slots : Slots, (∀ name, (slots.find name).map Prod.snd = values name) →
    r.read slots = .ok a

variable {values : String → Option Tree}

theorem Reads.map
    {r : RecordDecoder α} {a : α} (h : r.Reads values a) (f : α → β) :
    (f <$> r).Reads values (f a) := by
  intro slots hslots
  change (r.read slots).map f = .ok (f a)
  rw [h slots hslots]
  rfl

theorem Reads.seq
    {f : RecordDecoder (α → β)} {g : α → β} {r : RecordDecoder α} {a : α}
    (hf : f.Reads values g) (hr : r.Reads values a) :
    (f <*> r).Reads values (g a) := by
  intro slots hslots
  change both (f.read slots) (r.read slots) = .ok (g a)
  rw [hf slots hslots, hr slots hslots]
  rfl

theorem field_reads
    {name : String} {value : Decoder α} {absent : Except DecodeError α} {a : α}
    (h : match values name with
      | some tree => value tree = .ok a
      | none => absent = .ok a) :
    (field name value absent).Reads values a := by
  intro slots hslots
  rw [← hslots name] at h
  unfold field
  cases hfind : slots.find name with
  | none =>
      have habsent : absent = .ok a := by simpa [hfind] using h
      simp [hfind, habsent, Except.mapError]
  | some entry =>
      have hvalue : value entry.2 = .ok a := by simpa [hfind] using h
      simp [hfind, hvalue, Except.mapError]

theorem required_reads
    {name : String} {value : Decoder α} {tree : Tree} {a : α}
    (hname : values name = some tree) (hvalue : value tree = .ok a) :
    (required name value).Reads values a := by
  intro slots hslots
  exact field_reads (by rw [hname]; exact hvalue) slots hslots

theorem withDefault_reads
    {name : String} {value : Decoder α} {tree : Tree} {a default : α}
    (hname : values name = some tree) (hvalue : value tree = .ok a) :
    (withDefault name value default).Reads values a :=
  field_reads (by rw [hname]; exact hvalue)

/-- An optional field is read back if no value is written as null. -/
theorem optional_reads
    {name : String} {value : Decoder α} {write : α → Tree} {a? : Option α}
    (hname : values name = a?.map write)
    (hvalue : ∀ a ∈ a?, write a ≠ .null ∧ value (write a) = .ok a) :
    (optional name value).Reads values a? := by
  refine field_reads ?_
  rw [hname]
  cases a? with
  | none => rfl
  | some a =>
      obtain ⟨hnull, hread⟩ := hvalue a rfl
      change Decoder.nullable value (write a) = .ok (some a)
      rw [Decoder.nullable_of_ne_null hnull, hread]
      rfl

theorem find_slotsOfFields (fields : List (String × Tree)) (name : String) :
    ((slotsOfFields fields).find name).map Prod.snd = fields.lookup name := by
  induction fields with
  | nil => rfl
  | cons field fields ih =>
      rw [Tree.lookup_cons, ← ih]
      by_cases h : name = field.1
      · simp [slotsOfFields, List.findIdx?_cons, h]
      · simp [slotsOfFields, List.findIdx?_cons, h, Ne.symm h, Option.bind_map,
          Function.comp_def]

theorem Reads.ofFields
    {r : RecordDecoder α} {fields : List (String × Tree)} {a : α}
    (h : r.Reads (fun name => fields.lookup name) a) :
    r.ofFields fields = .ok a := by
  have hread := h (slotsOfFields fields) (find_slotsOfFields fields)
  rw [RecordDecoder.ofFields, hread]
  rfl

/-- A record that is written with these fields is read back. -/
theorem Reads.decode
    {r : RecordDecoder α} {fields : List (String × Tree)} {a : α}
    (h : r.Reads (Tree.sortedValue fields) a) :
    r.decode (Tree.map fields).sorted = .ok a := by
  refine Reads.ofFields ?_
  rwa [funext (Tree.lookup_sorted fields)]

end RecordDecoder

/-! ## What is read from ordered trees -/

/-- Whatever is read from an ordered tree has the property. -/
def Decoder.Ensures (value : Decoder α) (P : α → Prop) : Prop :=
  ∀ tree a, tree.Ordered → value tree = .ok a → P a

namespace Decoder

variable {value : Decoder α} {P : α → Prop}

theorem exists_of_mem_mapM
    {f : α → Except ε β} {items : List α} {results : List β}
    (h : items.mapM f = .ok results) {result : β} (hresult : result ∈ results) :
    ∃ item ∈ items, f item = .ok result := by
  have hread := forall₂_of_mapM_eq_ok h
  clear h
  induction hread with
  | nil => cases hresult
  | @cons item first items results hfirst _ ih =>
      rcases List.mem_cons.mp hresult with rfl | hrest
      · exact ⟨item, List.mem_cons_self, hfirst⟩
      · obtain ⟨item', hitem', hread'⟩ := ih hrest
        exact ⟨item', List.mem_cons_of_mem _ hitem', hread'⟩

theorem Ensures.list (h : value.Ensures P) :
    (list value).Ensures fun as => ∀ a ∈ as, P a := by
  intro tree as htree hread a ha
  cases htree with
  | list hitems =>
      obtain ⟨item, hitem, hvalue⟩ := exists_of_mem_mapM hread ha
      exact h item a (hitems item hitem) hvalue
  | _ => cases hread

theorem fields_keys
    {pairs : List (String × Tree)} {results : List (String × α)}
    (h : fields value (.map pairs) = .ok results) :
    results.map Prod.fst = pairs.map Prod.fst := by
  have hread := forall₂_of_mapM_eq_ok h
  clear h
  induction hread with
  | nil => rfl
  | cons hfield _ ih =>
      obtain ⟨a, -, rfl⟩ := exists_of_map_eq_ok hfield
      rw [List.map_cons, List.map_cons, ih]

theorem fields_ascending :
    (fields value).Ensures Tree.Ascending := by
  intro tree results htree h
  cases htree with
  | map hascending _ =>
      have hkeys := fields_keys h
      unfold Tree.Ascending at hascending ⊢
      rw [← List.pairwise_map (f := Prod.fst) (R := (· < ·))] at hascending ⊢
      rwa [hkeys]
  | _ => cases h

theorem Ensures.fields (h : value.Ensures P) :
    (fields value).Ensures fun results => ∀ field ∈ results, P field.2 := by
  intro tree results htree hread field hfield
  cases htree with
  | map _ hvalues =>
      obtain ⟨pair, hpair, hread'⟩ := exists_of_mem_mapM hread hfield
      obtain ⟨a, hvalue, rfl⟩ := exists_of_map_eq_ok hread'
      exact h pair.2 a (hvalues pair hpair) hvalue
  | _ => cases hread

end Decoder

/-- All fields hold ordered trees. -/
def Slots.Ordered (slots : Slots) : Prop :=
  ∀ name entry, slots.find name = some entry → entry.2.Ordered

namespace RecordDecoder

theorem slotsOfFields_ordered
    {fields : List (String × Tree)} (h : ∀ field ∈ fields, field.2.Ordered) :
    (slotsOfFields fields).Ordered := by
  intro name entry hentry
  obtain ⟨place, -, hplace⟩ := Option.bind_eq_some_iff.mp hentry
  obtain ⟨field, hfield, rfl⟩ := Option.map_eq_some_iff.mp hplace
  exact h field (List.mem_of_getElem? hfield)

theorem slotsOfItems_ordered
    {names : List String} {items : List Tree}
    (h : ∀ item ∈ items, item.Ordered) :
    (slotsOfItems names items).Ordered := by
  intro name entry hentry
  obtain ⟨place, -, hplace⟩ := Option.bind_eq_some_iff.mp hentry
  obtain ⟨item, hitem, rfl⟩ := Option.map_eq_some_iff.mp hplace
  exact h item (List.mem_of_getElem? hitem)

/-- A record that is read from an ordered tree is read from ordered fields. -/
theorem exists_slots_of_decode_eq_ok
    {r : RecordDecoder α} {tree : Tree} {a : α} (htree : tree.Ordered)
    (h : r.decode tree = .ok a) :
    ∃ slots : Slots, slots.Ordered ∧ r.read slots = .ok a := by
  cases htree with
  | map _ hvalues =>
      exact ⟨_, slotsOfFields_ordered hvalues, eq_ok_of_mapError_eq_ok h⟩
  | @list items hitems =>
      refine ⟨slotsOfItems r.names items, slotsOfItems_ordered hitems, ?_⟩
      have h : r.ofItems items = .ok a := h
      cases hread : r.read (slotsOfItems r.names items) with
      | error fault =>
          simp [ofItems, hread, Except.mapError, bind, Except.bind] at h
      | ok a' =>
          simp only [ofItems, hread, Except.mapError, bind, Except.bind] at h
          split at h
          · cases h
          · simp only [pure, Except.pure, Except.ok.injEq] at h
            rw [h]
  | _ => cases h

theorem exists_of_map_read
    {f : α → β} {r : RecordDecoder α} {slots : Slots} {b : β}
    (h : (f <$> r).read slots = .ok b) :
    ∃ a, r.read slots = .ok a ∧ f a = b :=
  exists_of_map_eq_ok h

theorem exists_of_seq_read
    {f : RecordDecoder (α → β)} {r : RecordDecoder α} {slots : Slots} {b : β}
    (h : (f <*> r).read slots = .ok b) :
    ∃ g a, f.read slots = .ok g ∧ r.read slots = .ok a ∧ g a = b := by
  change both (f.read slots) (r.read slots) = .ok b at h
  cases hf : f.read slots <;> cases hr : r.read slots <;>
    simp only [hf, hr, both, Except.ok.injEq, reduceCtorEq] at h
  exact ⟨_, _, rfl, rfl, h⟩

variable {slots : Slots} {name : String} {value : Decoder α} {P : α → Prop}

theorem field_ensures
    {absent : Except DecodeError α} (hvalue : value.Ensures P)
    (habsent : ∀ a, absent = .ok a → P a) (hslots : slots.Ordered) {a : α}
    (h : (field name value absent).read slots = .ok a) : P a := by
  unfold field at h
  cases hfind : slots.find name with
  | none =>
      simp only [hfind] at h
      exact habsent a (eq_ok_of_mapError_eq_ok h)
  | some entry =>
      simp only [hfind] at h
      exact hvalue entry.2 a (hslots name entry hfind)
        (eq_ok_of_mapError_eq_ok h)

theorem withDefault_ensures
    {default : α} (hvalue : value.Ensures P) (hdefault : P default)
    (hslots : slots.Ordered) {a : α}
    (h : (withDefault name value default).read slots = .ok a) : P a := by
  refine field_ensures hvalue ?_ hslots h
  rintro a ⟨⟩
  exact hdefault

end RecordDecoder

end Flowchart

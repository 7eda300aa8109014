import AuditTrail.Table
import Mathlib.Data.List.Forall2
import Mathlib.Data.String.Basic

/-!
Tables as finite maps: what a lookup finds after an entry is put in or taken out. Putting in needs
nothing of the table; taking out needs its keys in order, or a second entry of the key would show.
With its keys in order a table is fixed by what is found in it.
-/

namespace AuditTrail.Table

variable {α : Type}

@[simp] theorem find?_nil (key : String) : find? key ([] : Table α) = none := rfl

theorem find?_insert (table : Table α) (key other : String) (value : α) :
    (table.insert key value).find? other =
      if other = key then some value else table.find? other := by
  induction table with
  | nil => simp [insert, find?]
  | cons entry rest ih =>
      obtain ⟨first, former⟩ := entry
      simp only [insert]
      split
      · rename_i same
        subst first
        by_cases equal : other = key <;> simp [find?, equal]
      · rename_i different
        split
        · simp [find?]
        · simp only [find?, ih]
          by_cases equal : other = first
          · subst other
            simp [Ne.symm different]
          · simp [equal]

theorem mem_insert {table : Table α} {key : String} {value : α} {entry : String × α}
    (member : entry ∈ table.insert key value) : entry = (key, value) ∨ entry ∈ table := by
  induction table with
  | nil => simpa [insert] using member
  | cons first rest ih =>
      simp only [insert] at member
      split at member
      · simp only [List.mem_cons] at member ⊢
        rcases member with new | old
        · exact Or.inl new
        · exact Or.inr (Or.inr old)
      · split at member
        · simpa using member
        · simp only [List.mem_cons] at member ⊢
          rcases member with same | later
          · exact Or.inr (Or.inl same)
          · rcases ih later with new | old
            · exact Or.inl new
            · exact Or.inr (Or.inr old)

theorem mem_of_find? {table : Table α} {key : String} {value : α}
    (found : table.find? key = some value) : (key, value) ∈ table := by
  induction table with
  | nil => cases found
  | cons entry rest ih =>
      simp only [find?] at found
      split at found
      · rename_i same
        rw [same, ← Option.some.inj found]
        exact List.mem_cons_self
      · exact List.mem_cons_of_mem _ (ih found)

theorem find?_getD (Holds : α → Prop) {table : Table α} {key : String} {default : α}
    (missing : Holds default) (given : ∀ value, table.find? key = some value → Holds value) :
    Holds ((table.find? key).getD default) := by
  cases found : table.find? key with
  | none => exact missing
  | some value => exact given value found

theorem Ordered.nil : Ordered ([] : Table α) := List.Pairwise.nil

theorem Ordered.insert {table : Table α} (ordered : table.Ordered) (key : String) (value : α) :
    (table.insert key value).Ordered := by
  induction table with
  | nil => simp [Table.insert, Ordered]
  | cons entry rest ih =>
      obtain ⟨first, former⟩ := entry
      obtain ⟨before, tail⟩ := List.pairwise_cons.mp ordered
      simp only [Table.insert]
      split
      · rename_i same
        subst first
        exact List.pairwise_cons.mpr ⟨before, tail⟩
      · rename_i different
        split
        · rename_i less
          refine List.pairwise_cons.mpr ⟨?_, ordered⟩
          intro other member
          rcases List.mem_cons.mp member with same | later
          · simpa [same] using less
          · exact lt_trans less (before other later)
        · rename_i notLess
          have greater : first < key := lt_of_le_of_ne (not_lt.mp notLess) (Ne.symm different)
          refine List.pairwise_cons.mpr ⟨?_, ih tail⟩
          intro other member
          rcases mem_insert member with new | old
          · simpa [new] using greater
          · exact before other old

theorem find?_eq_none_of_before {table : Table α} {key : String}
    (before : ∀ entry ∈ table, key < entry.1) : table.find? key = none := by
  induction table with
  | nil => rfl
  | cons entry rest ih =>
      have different : key ≠ entry.1 := ne_of_lt (before entry List.mem_cons_self)
      simp only [find?, different, if_false]
      exact ih fun other member => before other (List.mem_cons_of_mem _ member)

theorem find?_eq_none_of_after {table : Table α} {key : String}
    (after : ∀ entry ∈ table, entry.1 < key) : table.find? key = none := by
  induction table with
  | nil => rfl
  | cons entry rest ih =>
      have different : key ≠ entry.1 := ne_of_gt (after entry List.mem_cons_self)
      simp only [find?, different, if_false]
      exact ih fun other member => after other (List.mem_cons_of_mem _ member)

theorem insert_eq_append {table : Table α} {key : String} (value : α)
    (after : ∀ entry ∈ table, entry.1 < key) :
    table.insert key value = table ++ [(key, value)] := by
  induction table with
  | nil => rfl
  | cons entry rest ih =>
      have less := after entry List.mem_cons_self
      have later := ih fun other member => after other (List.mem_cons_of_mem _ member)
      simp only [insert, if_neg (ne_of_gt less), if_neg (not_lt_of_gt less), later,
        List.cons_append]

theorem insert_eq_cons {table : Table α} {key : String} (value : α)
    (before : ∀ entry ∈ table, key < entry.1) : table.insert key value = (key, value) :: table := by
  cases table with
  | nil => rfl
  | cons entry rest =>
      have less := before entry List.mem_cons_self
      rw [insert, if_neg (ne_of_lt less), if_pos less]

theorem insert_perm {table : Table α} {key : String} (value : α)
    (fresh : table.find? key = none) : (table.insert key value).Perm ((key, value) :: table) := by
  induction table with
  | nil => exact List.Perm.refl _
  | cons entry rest ih =>
      obtain ⟨first, former⟩ := entry
      simp only [find?] at fresh
      split at fresh
      · cases fresh
      · rename_i different
        rw [insert, if_neg different]
        split
        · exact List.Perm.refl _
        · exact ((ih fresh).cons _).trans (List.Perm.swap _ _ _)

theorem map_insert {β : Type} (f : α → β) (table : Table α) (key : String) (value : α) :
    (table.insert key value).map (fun entry => (entry.1, f entry.2)) =
      Table.insert key (f value) (table.map fun entry => (entry.1, f entry.2)) := by
  induction table with
  | nil => rfl
  | cons entry rest ih =>
      simp only [insert, List.map_cons]
      split
      · rfl
      · split
        · rfl
        · rw [List.map_cons, ih]

theorem Ordered.find?_erase {table : Table α} (ordered : table.Ordered) (key other : String) :
    (table.erase key).find? other = if other = key then none else table.find? other := by
  induction table with
  | nil => simp [erase]
  | cons entry rest ih =>
      obtain ⟨first, former⟩ := entry
      obtain ⟨before, tail⟩ := List.pairwise_cons.mp ordered
      simp only [erase]
      split
      · rename_i same
        subst first
        by_cases equal : other = key
        · subst other
          simpa using find?_eq_none_of_before before
        · simp [find?, equal]
      · rename_i different
        simp only [find?, ih tail]
        by_cases equal : other = first
        · subst other
          simp [Ne.symm different]
        · simp [equal]

theorem find?_erase_of_ne {table : Table α} {key other : String} (different : other ≠ key) :
    (table.erase key).find? other = table.find? other := by
  induction table with
  | nil => rfl
  | cons entry rest ih =>
      simp only [erase]
      split
      · rename_i same
        simp [find?, ← same, different]
      · simp only [find?, ih]

theorem erase_sublist (table : Table α) (key : String) : (table.erase key).Sublist table := by
  induction table with
  | nil => exact List.Sublist.refl _
  | cons entry rest ih =>
      simp only [erase]
      split
      · exact List.sublist_cons_self _ _
      · exact ih.cons_cons _

theorem Ordered.erase {table : Table α} (ordered : table.Ordered) (key : String) :
    (table.erase key).Ordered :=
  ordered.sublist (erase_sublist table key)

section

variable {entries : List (String × α)}

theorem Ordered.foldl_insert {table : Table α} (ordered : table.Ordered) :
    Ordered (entries.foldl (fun table entry => table.insert entry.1 entry.2) table) := by
  induction entries generalizing table with
  | nil => exact ordered
  | cons first rest ih => exact ih (ordered.insert _ _)

theorem mem_foldl_insert {table : Table α} {entry : String × α}
    (member : entry ∈ entries.foldl (fun table entry => table.insert entry.1 entry.2) table) :
    entry ∈ table ∨ entry ∈ entries := by
  induction entries generalizing table with
  | nil => exact Or.inl member
  | cons first rest ih =>
      rcases ih member with inserted | later
      · rcases mem_insert inserted with new | old
        · exact Or.inr (new ▸ List.mem_cons_self)
        · exact Or.inl old
      · exact Or.inr (List.mem_cons_of_mem _ later)

theorem ordered_ofList (entries : List (String × α)) : (ofList entries).Ordered :=
  Ordered.nil.foldl_insert

theorem mem_ofList {entry : String × α} (member : entry ∈ ofList entries) : entry ∈ entries :=
  (mem_foldl_insert member).resolve_left List.not_mem_nil

end

/-- The value that the last entry of a key holds. -/
def lastOf (key : String) : List (String × α) → Option α
  | [] => none
  | (k, v) :: rest => (lastOf key rest).or (if key = k then some v else none)

theorem lastOf_append (key : String) (entries more : List (String × α)) :
    lastOf key (entries ++ more) = (lastOf key more).or (lastOf key entries) := by
  induction entries with
  | nil => simp [lastOf]
  | cons entry rest ih => rw [List.cons_append, lastOf, ih, lastOf, Option.or_assoc]

theorem mem_of_lastOf {entries : List (String × α)} {key : String} {value : α}
    (found : lastOf key entries = some value) : (key, value) ∈ entries := by
  induction entries with
  | nil => cases found
  | cons entry rest ih =>
      rcases Option.or_eq_some_iff.mp found with later | ⟨_, here⟩
      · exact List.mem_cons_of_mem _ (ih later)
      · split at here
        · rename_i same
          rw [same, ← Option.some.inj here]
          exact List.mem_cons_self
        · cases here

theorem isSome_lastOf {entries : List (String × α)} {key : String}
    (member : key ∈ entries.map Prod.fst) : (lastOf key entries).isSome = true := by
  induction entries with
  | nil => cases member
  | cons entry rest ih =>
      rw [lastOf, Option.isSome_or, Bool.or_eq_true]
      rcases List.mem_cons.mp member with here | later
      · exact Or.inr (by simp [here])
      · exact Or.inl (ih later)

theorem lastOf_map {β : Type} (f : α → β) (key : String) (entries : List (String × α)) :
    lastOf key (entries.map fun entry => (entry.1, f entry.2)) =
      (lastOf key entries).map f := by
  induction entries with
  | nil => rfl
  | cons entry rest ih =>
      simp only [List.map_cons, lastOf, ih]
      cases lastOf key rest <;> by_cases same : key = entry.1 <;> simp [same]

theorem find?_foldl_insert (entries : List (String × α)) (table : Table α) (key : String) :
    find? key (entries.foldl (fun table entry => table.insert entry.1 entry.2) table) =
      (lastOf key entries).or (table.find? key) := by
  induction entries generalizing table with
  | nil => rfl
  | cons entry rest ih =>
      rw [List.foldl_cons, ih, find?_insert, lastOf]
      cases lastOf key rest <;> by_cases same : key = entry.1 <;> simp [same]

theorem find?_map {β : Type} (f : α → β) (key : String) (table : Table α) :
    find? key (table.map fun entry => (entry.1, f entry.2)) = (table.find? key).map f := by
  induction table with
  | nil => rfl
  | cons entry rest ih =>
      simp only [List.map_cons, find?, ih]
      split <;> rfl

theorem Ordered.map {β : Type} {table : Table α} (ordered : table.Ordered) (f : α → β) :
    Ordered (table.map fun entry => (entry.1, f entry.2)) :=
  List.Pairwise.map _ (fun _ _ less => less) ordered

theorem find?_ofList (entries : List (String × α)) (key : String) :
    (ofList entries).find? key = lastOf key entries :=
  (find?_foldl_insert entries [] key).trans (by simp)

theorem isSome_find?_ofList {entries : List (String × α)} {key : String}
    (member : key ∈ entries.map Prod.fst) : ((ofList entries).find? key).isSome = true := by
  rw [find?_ofList]
  exact isSome_lastOf member

theorem Ordered.lastOf_eq_find? {table : Table α} (ordered : table.Ordered) (key : String) :
    lastOf key table = table.find? key := by
  induction table with
  | nil => rfl
  | cons entry rest ih =>
      obtain ⟨before, tail⟩ := List.pairwise_cons.mp ordered
      simp only [lastOf, find?, ih tail]
      split
      · rename_i same
        rw [find?_eq_none_of_before (fun other member => same ▸ before other member)]
        rfl
      · simp

theorem Ordered.first_le {first : String × α} {rest : Table α} {key : String}
    (ordered : Ordered (first :: rest)) (found : (find? key (first :: rest)).isSome = true) :
    first.1 ≤ key := by
  by_contra notLe
  have less : key < first.1 := not_le.mp notLe
  have none : find? key (first :: rest) = none := find?_eq_none_of_before (by
    intro entry member
    rcases List.mem_cons.mp member with rfl | later
    · exact less
    · exact lt_trans less ((List.pairwise_cons.mp ordered).1 entry later))
  rw [none] at found
  cases found

theorem isSome_eq_of_rel {β : Type} {Goes : α → β → Prop} {value : Option α} {other : Option β}
    (rel : Option.Rel Goes value other) : value.isSome = other.isSome := by
  cases rel <;> rfl

theorem Ordered.forall₂_of_rel {β : Type} {Goes : α → β → Prop} {table : Table α} {other : Table β}
    (ordered : table.Ordered) (orderedOther : other.Ordered)
    (rel : ∀ key, Option.Rel Goes (table.find? key) (other.find? key)) :
    List.Forall₂ (fun entry next => entry.1 = next.1 ∧ Goes entry.2 next.2) table other := by
  have isSome := fun key => isSome_eq_of_rel (rel key)
  induction table generalizing other with
  | nil =>
      cases other with
      | nil => exact .nil
      | cons next more => simpa [find?] using isSome next.1
  | cons entry rest ih =>
      cases other with
      | nil => simpa [find?] using isSome entry.1
      | cons next more =>
          obtain ⟨key, value⟩ := entry
          obtain ⟨nextKey, nextValue⟩ := next
          obtain ⟨before, tail⟩ := List.pairwise_cons.mp ordered
          obtain ⟨beforeOther, tailOther⟩ := List.pairwise_cons.mp orderedOther
          have le : key ≤ nextKey := ordered.first_le (by rw [isSome]; simp [find?])
          have ge : nextKey ≤ key := orderedOther.first_le (by rw [← isSome]; simp [find?])
          obtain rfl : key = nextKey := le_antisymm le ge
          have first : Goes value nextValue := by simpa [find?] using rel key
          have later (name : String) : Option.Rel Goes (find? name rest) (find? name more) := by
            by_cases here : name = key
            · subst name
              rw [find?_eq_none_of_before before, find?_eq_none_of_before beforeOther]
              exact .none
            · simpa [find?, here] using rel name
          exact .cons ⟨rfl, first⟩ (ih tail tailOther later fun name => isSome_eq_of_rel (later name))

/-- An ordered table is fixed by what is found in it. -/
theorem Ordered.ext {table other : Table α} (ordered : table.Ordered)
    (orderedOther : other.Ordered) (same : ∀ key, table.find? key = other.find? key) :
    table = other := by
  have entries : List.Forall₂ (fun entry next => entry.1 = next.1 ∧ entry.2 = next.2) table
      other := ordered.forall₂_of_rel orderedOther fun key => by
    rw [same]
    cases other.find? key <;> constructor
    rfl
  rw [← List.forall₂_eq_eq_eq]
  exact entries.imp fun _ _ equal => Prod.ext equal.1 equal.2

theorem ofList_map {β : Type} (f : α → β) (entries : List (String × α)) :
    ofList (entries.map fun entry => (entry.1, f entry.2)) =
      (ofList entries).map fun entry => (entry.1, f entry.2) :=
  (ordered_ofList _).ext ((ordered_ofList _).map f) fun key => by
    rw [find?_ofList, lastOf_map, find?_map, find?_ofList]

theorem rel_find? {β : Type} {Goes : α → β → Prop} {table : Table α} {other : Table β}
    (entries : List.Forall₂ (fun entry next => entry.1 = next.1 ∧ Goes entry.2 next.2) table other)
    (key : String) : Option.Rel Goes (table.find? key) (other.find? key) := by
  induction entries with
  | nil => exact .none
  | cons first _ ih =>
      simp only [find?, first.1]
      split
      · exact .some first.2
      · exact ih

theorem find?_filter_key (keep : String → Bool) {key : String} (own : keep key = true)
    (table : Table α) : find? key (table.filter fun entry => keep entry.1) =
      find? key table := by
  induction table with
  | nil => rfl
  | cons entry rest ih =>
      rw [List.filter_cons]
      by_cases same : key = entry.1
      · rw [if_pos (same ▸ own), find?, find?, if_pos same, if_pos same]
      · split
        · rw [find?, find?, if_neg same, if_neg same, ih]
        · rw [find?, if_neg same, ih]

theorem Ordered.find?_filter {table : Table α} (ordered : table.Ordered) (picked : α → Bool)
    (key : String) : find? key (table.filter fun entry => picked entry.2) =
      (table.find? key).filter picked := by
  induction table with
  | nil => rfl
  | cons entry rest ih =>
      obtain ⟨before, tail⟩ := List.pairwise_cons.mp ordered
      by_cases same : key = entry.1
      · subst key
        have later : find? entry.1 (rest.filter fun entry => picked entry.2) = none := by
          rw [ih tail, find?_eq_none_of_before before]
          rfl
        cases kept : picked entry.2 <;> simp [find?, Option.filter, kept, later]
      · cases kept : picked entry.2 <;> simp [find?, kept, same, ih tail]

theorem Ordered.distinct {table : Table α} (ordered : table.Ordered) :
    (table.map Prod.fst).Nodup :=
  List.pairwise_map.mpr (ordered.imp fun less => ne_of_lt less)

theorem Ordered.length_eq {β : Type} {table : Table α} {other : Table β}
    (ordered : table.Ordered) (orderedOther : other.Ordered)
    (same : ∀ key, (table.find? key).isSome = (other.find? key).isSome) :
    table.length = other.length := by
  have keys : (table.map fun entry => (entry.1, ())) = other.map fun entry => (entry.1, ()) := by
    refine (ordered.map fun _ => ()).ext (orderedOther.map fun _ => ()) fun key => ?_
    have found := same key
    rw [find?_map (fun _ => ()), find?_map (fun _ => ())]
    cases left : table.find? key <;> cases right : other.find? key <;> simp [left, right] at found ⊢
  simpa using congrArg List.length keys

theorem Ordered.find?_of_mem {table : Table α} (ordered : table.Ordered) {key : String} {value : α}
    (member : (key, value) ∈ table) : table.find? key = some value := by
  induction table with
  | nil => cases member
  | cons entry rest ih =>
      obtain ⟨before, tail⟩ := List.pairwise_cons.mp ordered
      rcases List.mem_cons.mp member with rfl | later
      · simp [find?]
      · have different : key ≠ entry.1 := ne_of_gt (before _ later)
        simpa [find?, different] using ih tail later

theorem isSome_lastOf_iff {entries : List (String × α)} {key : String} :
    (lastOf key entries).isSome = true ↔ key ∈ entries.map Prod.fst := by
  refine ⟨fun found => ?_, isSome_lastOf⟩
  obtain ⟨value, found⟩ := Option.isSome_iff_exists.mp found
  exact List.mem_map_of_mem (mem_of_lastOf found)

theorem isSome_find?_iff {table : Table α} {key : String} :
    (table.find? key).isSome = true ↔ key ∈ table.keys := by
  induction table with
  | nil => simp [keys]
  | cons entry rest ih =>
      simp only [find?, keys, List.map_cons, List.mem_cons] at ih ⊢
      split
      · rename_i same
        simp [same]
      · rename_i different
        simpa [different] using ih

theorem Ordered.insert_eq_self {table : Table α} (ordered : table.Ordered) {key : String} {value : α}
    (found : table.find? key = some value) : table.insert key value = table := by
  refine (ordered.insert key value).ext ordered fun other => ?_
  rw [find?_insert]
  split
  · rename_i same
    rw [same, found]
  · rfl

def total (size : α → Nat) : Table α → Nat
  | [] => 0
  | (_, value) :: rest => size value + total size rest

@[simp] theorem total_nil (size : α → Nat) : total size ([] : Table α) = 0 := rfl

theorem total_cons (size : α → Nat) (key : String) (value : α) (table : Table α) :
    total size ((key, value) :: table) = size value + total size table := rfl

theorem total_erase (size : α → Nat) (table : Table α) (key : String) :
    total size (table.erase key) + ((table.find? key).map size).getD 0 = total size table := by
  induction table with
  | nil => rfl
  | cons entry rest ih =>
      obtain ⟨first, value⟩ := entry
      simp only [erase, find?]
      split
      · rw [total_cons, Option.map_some, Option.getD_some, Nat.add_comm]
      · rw [total_cons, total_cons, Nat.add_assoc, ih]

/-- When each entry has a counterpart of its key that counts as much or more, so does the whole
table, and if it counts as much each entry does and there are no others. -/
theorem Ordered.rel_of_total {size : α → Nat} (positive : ∀ value, 0 < size value)
    {Goes : α → α → Prop} {table other : Table α} (ordered : table.Ordered)
    (inside : ∀ entry ∈ table, ∃ value, other.find? entry.1 = some value ∧
      size entry.2 ≤ size value ∧ (size value ≤ size entry.2 → Goes entry.2 value)) :
    total size table ≤ total size other ∧ (total size other ≤ total size table →
      ∀ key, Option.Rel Goes (table.find? key) (other.find? key)) := by
  -- On the table; the counterpart of its first entry is taken out of the other.
  induction table generalizing other with
  | nil =>
      refine ⟨Nat.zero_le _, fun less key => ?_⟩
      cases other with
      | nil => exact .none
      | cons entry rest =>
          have counted := positive entry.2
          rw [total_nil, total_cons] at less
          omega
  | cons entry rest ih =>
      obtain ⟨key, value⟩ := entry
      obtain ⟨before, tail⟩ := List.pairwise_cons.mp ordered
      obtain ⟨counterpart, found, (more : size value ≤ size counterpart), goes⟩ :=
        inside (key, value) List.mem_cons_self
      have left := total_erase size other key
      rw [found, Option.map_some, Option.getD_some] at left
      obtain ⟨most, same⟩ := @ih (other.erase key) tail fun later member => by
        rw [find?_erase_of_ne (ne_of_gt (before later member))]
        exact inside later (List.mem_cons_of_mem _ member)
      rw [total_cons]
      refine ⟨by omega, fun less wanted => ?_⟩
      rw [find?]
      split
      · rename_i own
        rw [own, found]
        refine .some (goes ?_)
        show size counterpart ≤ size value
        omega
      · rename_i different
        have later := same (by omega) wanted
        rwa [find?_erase_of_ne different] at later

theorem Ordered.total_insert {table : Table α} (ordered : table.Ordered) (size : α → Nat)
    (key : String) (value : α) :
    total size (table.insert key value) + ((table.find? key).map size).getD 0 =
      total size table + size value := by
  induction table with
  | nil => simp [Table.insert, total_cons]
  | cons entry rest ih =>
      obtain ⟨first, former⟩ := entry
      obtain ⟨before, tail⟩ := List.pairwise_cons.mp ordered
      simp only [Table.insert, find?]
      split
      · simp only [total_cons, Option.map_some, Option.getD_some]
        omega
      · split
        · rename_i less
          have fresh : find? key rest = none := find?_eq_none_of_before fun other member =>
            lt_trans less (before other member)
          simp only [total_cons, fresh, Option.map_none, Option.getD_none]
          omega
        · have later := ih tail
          simp only [total_cons]
          omega

theorem Ordered.head_of_least {table : Table α} {key : String} (ordered : table.Ordered)
    (least : ∀ entry ∈ table, key ≤ entry.1) (found : (table.find? key).isSome = true) :
    ∃ value rest, table = (key, value) :: rest := by
  cases table with
  | nil => simp at found
  | cons entry rest =>
      obtain ⟨first, value⟩ := entry
      obtain rfl : key = first := le_antisymm (least _ List.mem_cons_self) (ordered.first_le found)
      exact ⟨value, rest, rfl⟩

end AuditTrail.Table

namespace AuditTrail

open Table

theorem sortedDistinct_congr {names others : List String}
    (same : ∀ name, name ∈ names ↔ name ∈ others) :
    sortedDistinct names = sortedDistinct others := by
  refine congrArg keys ((ordered_ofList _).ext (ordered_ofList _) fun key => ?_)
  have found : ((ofList (names.map fun name => (name, ()))).find? key).isSome =
      ((ofList (others.map fun name => (name, ()))).find? key).isSome := by
    rw [Bool.eq_iff_iff, find?_ofList, find?_ofList, isSome_lastOf_iff, isSome_lastOf_iff]
    simpa using same key
  cases left : (ofList (names.map fun name => (name, ()))).find? key <;>
    cases right : (ofList (others.map fun name => (name, ()))).find? key <;>
    simp [left, right] at found ⊢

theorem mem_sortedDistinct {name : String} {names : List String} :
    name ∈ sortedDistinct names ↔ name ∈ names := by
  rw [sortedDistinct, ← Table.isSome_find?_iff, Table.find?_ofList, Table.isSome_lastOf_iff]
  simp

theorem pairwise_sortedDistinct (names : List String) :
    (sortedDistinct names).Pairwise (· < ·) :=
  List.Pairwise.map _ (fun _ _ less => less) (Table.ordered_ofList _)

end AuditTrail

import Mathlib

/-!
# Ordered maps and sets

`TimestampedObject` keeps its pending writes in a `BTreeMap` and its readers in a
`BTreeSet`, and the concurrency rules read both through their order: the least
pending writer, the greatest writer in a half-open range, the greatest reader. A map
here is its entry list in ascending key order, the order its iterators visit, and the
strict ascent is a field of the map, so every map that can be built has distinct,
sorted keys. As in the standard library, a set is a map to `()`.

Each operation gets one lemma saying what it stores under every key, and the ordered
queries get lemmas saying which key they return. Nothing later unfolds an operation.
-/

namespace TxServer

section Entries

variable {κ α : Type} [LinearOrder κ]

/-- Keys strictly increase along an entry list. -/
def Ascending (entries : List (κ × α)) : Prop :=
  entries.Pairwise fun earlier later => earlier.1 < later.1

@[simp] theorem ascending_nil : Ascending ([] : List (κ × α)) := List.Pairwise.nil

@[simp] theorem ascending_cons {entry : κ × α} {rest : List (κ × α)} :
    Ascending (entry :: rest) ↔ (∀ later ∈ rest, entry.1 < later.1) ∧ Ascending rest :=
  List.pairwise_cons

/-- `List.lookup` on a first entry, as a case split on the key. -/
@[simp] theorem lookup_cons_pair (key first : κ) (stored : α) (rest : List (κ × α)) :
    ((first, stored) :: rest).lookup key = if key = first then some stored else rest.lookup key := by
  rw [List.lookup_cons]
  cases same : key == first <;> simp_all

/-- In an ascending list a key finds exactly the entry stored under it. -/
theorem lookup_eq_some_iff {entries : List (κ × α)} (ascending : Ascending entries)
    {key : κ} {value : α} : entries.lookup key = some value ↔ (key, value) ∈ entries := by
  induction entries with
  | nil => simp
  | cons entry rest ih =>
    obtain ⟨first, stored⟩ := entry
    obtain ⟨above, ascending⟩ := ascending_cons.1 ascending
    by_cases here : key = first
    · subst here
      have absent : (key, value) ∉ rest := fun mem => lt_irrefl key (above (key, value) mem)
      simp [absent, eq_comm]
    · simp [here, ih ascending]

/-- Insert into an ascending list, replacing the entry of an equal key. -/
def insertEntry (key : κ) (value : α) : List (κ × α) → List (κ × α)
  | [] => [(key, value)]
  | entry :: rest =>
    if key < entry.1 then (key, value) :: entry :: rest
    else if key = entry.1 then (key, value) :: rest
    else entry :: insertEntry key value rest

/-- An insertion adds no entry but the inserted one. -/
theorem mem_of_mem_insertEntry {key : κ} {value : α} {entry : κ × α} :
    ∀ {entries : List (κ × α)}, entry ∈ insertEntry key value entries →
      entry = (key, value) ∨ entry ∈ entries
  | [] => by simp [insertEntry]
  | head :: rest => by
    unfold insertEntry
    split_ifs
    · simp
    · intro mem
      rcases List.mem_cons.1 mem with found | found <;> simp [found]
    · intro mem
      rcases List.mem_cons.1 mem with found | found
      · simp [found]
      · rcases mem_of_mem_insertEntry found with found | found <;> simp [found]

/-- An insertion keeps the keys ascending. -/
theorem ascending_insertEntry (key : κ) (value : α) :
    ∀ {entries : List (κ × α)}, Ascending entries → Ascending (insertEntry key value entries)
  | [] => by simp [insertEntry]
  | head :: rest => by
    intro ascending
    obtain ⟨above, ascending⟩ := ascending_cons.1 ascending
    unfold insertEntry
    split_ifs with below same
    · simp only [ascending_cons, List.mem_cons, forall_eq_or_imp]
      exact ⟨⟨below, fun later mem => below.trans (above later mem)⟩, above, ascending⟩
    · subst same
      exact ascending_cons.2 ⟨above, ascending⟩
    · refine ascending_cons.2 ⟨fun later mem => ?_, ascending_insertEntry key value ascending⟩
      rcases mem_of_mem_insertEntry mem with rfl | mem
      · exact lt_of_le_of_ne (not_lt.1 below) (Ne.symm same)
      · exact above later mem

/-- Looking up after an insertion finds the inserted value under its key, and the old
entries elsewhere. -/
theorem lookup_insertEntry (key query : κ) (value : α) :
    ∀ entries : List (κ × α), (insertEntry key value entries).lookup query =
      if query = key then some value else entries.lookup query
  | [] => by simp [insertEntry]
  | (first, stored) :: rest => by
    simp only [insertEntry]
    by_cases below : key < first
    · simp only [if_pos below, lookup_cons_pair]
    · by_cases same : key = first
      · subst same
        by_cases onKey : query = key <;> simp [below, onKey]
      · simp only [if_neg below, if_neg same, lookup_cons_pair,
          lookup_insertEntry key query value rest]
        by_cases onKey : query = key
        · simp [onKey, same]
        · simp only [if_neg onKey]

/-- Inserting a key the list does not hold adds one entry. -/
theorem length_insertEntry {key : κ} {value : α} :
    ∀ {entries : List (κ × α)}, entries.lookup key = none →
      (insertEntry key value entries).length = entries.length + 1
  | [] => fun _ => rfl
  | (first, stored) :: rest => by
    intro absent
    have other : key ≠ first := fun same => by simp [same] at absent
    simp only [lookup_cons_pair, if_neg other] at absent
    simp only [insertEntry]
    split_ifs
    · rfl
    · simp [length_insertEntry absent]

/-- Inserting a key the list holds replaces its entry. -/
theorem length_insertEntry_of_isSome {key : κ} {value : α} :
    ∀ {entries : List (κ × α)}, Ascending entries → (entries.lookup key).isSome →
      (insertEntry key value entries).length = entries.length
  | [] => fun _ held => by simp at held
  | (first, stored) :: rest => by
    intro ascending held
    obtain ⟨above, ascending⟩ := ascending_cons.1 ascending
    simp only [insertEntry]
    split_ifs with below same
    · obtain ⟨found, mem⟩ : ∃ found, (key, found) ∈ rest := by simpa [below.ne] using held
      exact absurd (above _ mem) (lt_asymm below)
    · rfl
    · simp [length_insertEntry_of_isSome ascending (by simpa [same] using held)]

/-- Looking up after filtering by key finds the kept entries and nothing else. -/
theorem lookup_filter (keep : κ → Bool) (query : κ) (entries : List (κ × α)) :
    (entries.filter fun entry => keep entry.1).lookup query =
      if keep query then entries.lookup query else none := by
  induction entries with
  | nil => simp
  | cons entry rest ih =>
    obtain ⟨first, stored⟩ := entry
    by_cases onFirst : query = first
    · subst onFirst
      cases kept : keep query <;> simp [List.filter_cons, kept, ih]
    · cases kept : keep first <;> simp [List.filter_cons, kept, ih, onFirst]

/-- The head of an ascending list has the least key. -/
theorem le_of_head? {entries : List (κ × α)} (ascending : Ascending entries)
    {first : κ × α} (found : entries.head? = some first) :
    ∀ entry ∈ entries, first.1 ≤ entry.1 := by
  obtain ⟨rest, rfl⟩ := List.head?_eq_some_iff.1 found
  intro entry mem
  rcases List.mem_cons.1 mem with rfl | mem
  · exact le_refl _
  · exact le_of_lt ((ascending_cons.1 ascending).1 entry mem)

/-- The last entry of an ascending list has the greatest key. -/
theorem le_of_getLast? {entries : List (κ × α)} (ascending : Ascending entries)
    {last : κ × α} (found : entries.getLast? = some last) :
    ∀ entry ∈ entries, entry.1 ≤ last.1 := by
  obtain ⟨front, rfl⟩ := List.getLast?_eq_some_iff.1 found
  have before := (List.pairwise_append.1 ascending).2.2
  intro entry mem
  rcases List.mem_append.1 mem with mem | mem
  · exact le_of_lt (before entry mem last (List.mem_singleton_self _))
  · rw [List.mem_singleton.1 mem]

end Entries

/-- `std::collections::BTreeMap`, as its entries in ascending key order. -/
@[ext] structure BTreeMap (κ : Type) [LinearOrder κ] (α : Type) where
  /-- The entries in the order `iter` visits them. -/
  entries : List (κ × α)
  /-- Keys strictly increase along the entries. -/
  ascending : Ascending entries

namespace BTreeMap

variable {κ α : Type} [LinearOrder κ]

/-- `BTreeMap::new`. -/
def new : BTreeMap κ α := ⟨[], ascending_nil⟩

/-- `BTreeMap::get`. -/
def get? (map : BTreeMap κ α) (key : κ) : Option α := map.entries.lookup key

/-- `BTreeMap::contains_key`. -/
def containsKey (map : BTreeMap κ α) (key : κ) : Bool := (map.get? key).isSome

/-- `BTreeMap::len`. -/
def len (map : BTreeMap κ α) : Nat := map.entries.length

/-- `BTreeMap::is_empty`. -/
def isEmpty (map : BTreeMap κ α) : Bool := map.entries.isEmpty

/-- `BTreeMap::insert`, with the old value dropped. -/
def insert (map : BTreeMap κ α) (key : κ) (value : α) : BTreeMap κ α :=
  ⟨insertEntry key value map.entries, ascending_insertEntry key value map.ascending⟩

/-- `BTreeMap::retain`: keep the entries whose key satisfies `keep`. -/
def retain (map : BTreeMap κ α) (keep : κ → Bool) : BTreeMap κ α :=
  ⟨map.entries.filter fun entry => keep entry.1, List.Pairwise.filter _ map.ascending⟩

/-- `BTreeMap::remove`, with the removed value dropped. -/
def remove (map : BTreeMap κ α) (key : κ) : BTreeMap κ α :=
  map.retain fun other => other ≠ key

/-- `BTreeMap::remove_entry`: the stored entry, if any, and the map without it. -/
def removeEntry (map : BTreeMap κ α) (key : κ) : Option (κ × α) × BTreeMap κ α :=
  ((map.get? key).map fun value => (key, value), map.remove key)

/-- `map.entry(key).and_modify(modify).or_insert(value)`. -/
def entryAndModifyOrInsert (map : BTreeMap κ α) (key : κ) (modify : α → α) (value : α) :
    BTreeMap κ α :=
  match map.get? key with
  | some stored => map.insert key (modify stored)
  | none => map.insert key value

/-- `map.keys().next()`: the least key. -/
def firstKey? (map : BTreeMap κ α) : Option κ := map.entries.head?.map Prod.fst

/-- `map.range((Excluded(low), Included(high))).next_back()`: the entry with the greatest
key in the half-open range `(low, high]`. -/
def rangeNextBack (map : BTreeMap κ α) (low high : κ) : Option (κ × α) :=
  (map.entries.filter fun entry => low < entry.1 ∧ entry.1 ≤ high).getLast?

@[simp] theorem get?_new (key : κ) : (new : BTreeMap κ α).get? key = none := rfl

@[simp] theorem get?_insert (map : BTreeMap κ α) (key query : κ) (value : α) :
    (map.insert key value).get? query = if query = key then some value else map.get? query :=
  lookup_insertEntry key query value map.entries

@[simp] theorem get?_retain (map : BTreeMap κ α) (keep : κ → Bool) (query : κ) :
    (map.retain keep).get? query = if keep query then map.get? query else none :=
  lookup_filter keep query map.entries

@[simp] theorem get?_remove (map : BTreeMap κ α) (key query : κ) :
    (map.remove key).get? query = if query = key then none else map.get? query := by
  by_cases onKey : query = key <;> simp [remove, onKey]

@[simp] theorem get?_entryAndModifyOrInsert (map : BTreeMap κ α) (key query : κ)
    (modify : α → α) (value : α) :
    (map.entryAndModifyOrInsert key modify value).get? query =
      if query = key then some ((map.get? key).elim value modify) else map.get? query := by
  unfold entryAndModifyOrInsert
  split <;> simp_all

@[simp] theorem removeEntry_fst (map : BTreeMap κ α) (key : κ) :
    (map.removeEntry key).1 = (map.get? key).map fun value => (key, value) := rfl

@[simp] theorem removeEntry_snd (map : BTreeMap κ α) (key : κ) :
    (map.removeEntry key).2 = map.remove key := rfl

@[simp] theorem containsKey_new (key : κ) : (new : BTreeMap κ α).containsKey key = false := rfl

@[simp] theorem containsKey_insert (map : BTreeMap κ α) (key query : κ) (value : α) :
    (map.insert key value).containsKey query = (decide (query = key) || map.containsKey query) := by
  by_cases onKey : query = key <;> simp [containsKey, onKey]

@[simp] theorem containsKey_remove (map : BTreeMap κ α) (key query : κ) :
    (map.remove key).containsKey query = (!decide (query = key) && map.containsKey query) := by
  by_cases onKey : query = key <;> simp [containsKey, onKey]

/-- A lookup finds exactly the stored entries. -/
theorem get?_eq_some_iff {map : BTreeMap κ α} {key : κ} {value : α} :
    map.get? key = some value ↔ (key, value) ∈ map.entries :=
  lookup_eq_some_iff map.ascending

/-- A map holds a key exactly when a lookup finds a value under it. -/
theorem containsKey_iff {map : BTreeMap κ α} {key : κ} :
    map.containsKey key = true ↔ ∃ value, map.get? key = some value :=
  Option.isSome_iff_exists

/-- A map holds the key of each of its entries. -/
theorem containsKey_of_mem {map : BTreeMap κ α} {entry : κ × α} (mem : entry ∈ map.entries) :
    map.containsKey entry.1 = true :=
  containsKey_iff.2 ⟨entry.2, get?_eq_some_iff.2 mem⟩

/-- The first key is a key, and no key is below it. -/
theorem firstKey?_eq_some_iff {map : BTreeMap κ α} {key : κ} :
    map.firstKey? = some key ↔
      map.containsKey key = true ∧ ∀ other, map.containsKey other = true → key ≤ other := by
  have least : ∀ {first}, map.entries.head? = some first →
      ∀ other, map.containsKey other = true → first.1 ≤ other := by
    intro first found other contained
    obtain ⟨value, stored⟩ := containsKey_iff.1 contained
    exact le_of_head? map.ascending found _ (get?_eq_some_iff.1 stored)
  constructor
  · intro found
    obtain ⟨first, head, rfl⟩ := Option.map_eq_some'.1 found
    exact ⟨containsKey_of_mem (List.mem_of_mem_head? head), least head⟩
  · rintro ⟨contained, below⟩
    obtain ⟨value, stored⟩ := containsKey_iff.1 contained
    cases head : map.entries.head? with
    | none => simp_all [get?_eq_some_iff]
    | some first =>
      have same : first.1 = key := le_antisymm (least head key contained)
        (below _ (containsKey_of_mem (List.mem_of_mem_head? head)))
      simp [firstKey?, head, same]

/-- Inserting a key above the first one keeps the first key. -/
theorem firstKey?_insert_of_lt {map : BTreeMap κ α} {first key : κ} {value : α}
    (found : map.firstKey? = some first) (above : first < key) :
    (map.insert key value).firstKey? = some first := by
  obtain ⟨contained, least⟩ := firstKey?_eq_some_iff.1 found
  refine firstKey?_eq_some_iff.2 ⟨by simp [contained], fun other held => ?_⟩
  rcases (by simpa using held : other = key ∨ map.containsKey other = true) with rfl | held
  · exact le_of_lt above
  · exact least other held

/-- Removing another key keeps the first key. -/
theorem firstKey?_remove_of_ne {map : BTreeMap κ α} {first key : κ}
    (found : map.firstKey? = some first) (other : key ≠ first) :
    (map.remove key).firstKey? = some first := by
  obtain ⟨contained, least⟩ := firstKey?_eq_some_iff.1 found
  refine firstKey?_eq_some_iff.2 ⟨by simp [contained, Ne.symm other], fun k held => ?_⟩
  simp only [containsKey_remove, Bool.and_eq_true] at held
  exact least k held.2

/-- A map without a first key has no keys. -/
theorem firstKey?_eq_none {map : BTreeMap κ α} (found : map.firstKey? = none) (key : κ) :
    map.containsKey key = false := by
  have empty : map.entries = [] := by simpa [firstKey?] using found
  simp [containsKey, get?, empty]

/-- The entry `rangeNextBack` finds is stored, lies in the range, and has the greatest key
there. -/
theorem rangeNextBack_eq_some {map : BTreeMap κ α} {low high key : κ} {value : α}
    (found : map.rangeNextBack low high = some (key, value)) :
    map.get? key = some value ∧ low < key ∧ key ≤ high ∧
      ∀ other, map.containsKey other = true → low < other → other ≤ high → other ≤ key := by
  have inRange := List.mem_filter.1 (List.mem_of_getLast?_eq_some found)
  simp only [decide_eq_true_eq] at inRange
  refine ⟨get?_eq_some_iff.2 inRange.1, inRange.2.1, inRange.2.2, ?_⟩
  intro other contained above below
  obtain ⟨stored, get⟩ := containsKey_iff.1 contained
  exact le_of_getLast? (List.Pairwise.filter _ map.ascending) found (other, stored)
    (List.mem_filter.2 ⟨get?_eq_some_iff.1 get, by simp [above, below]⟩)

/-- Without an entry in the range, every key above `low` is above `high`. -/
theorem rangeNextBack_eq_none {map : BTreeMap κ α} {low high : κ}
    (found : map.rangeNextBack low high = none) :
    ∀ other, map.containsKey other = true → low < other → high < other := by
  intro other contained above
  obtain ⟨stored, get⟩ := containsKey_iff.1 contained
  have empty := List.getLast?_eq_none_iff.1 found
  have excluded := List.filter_eq_nil_iff.1 empty _ (get?_eq_some_iff.1 get)
  simpa [above] using excluded

/-- The key at the top of the range is the entry `rangeNextBack` finds. -/
theorem rangeNextBack_of_get? {map : BTreeMap κ α} {low high : κ} {value : α}
    (above : low < high) (stored : map.get? high = some value) :
    map.rangeNextBack low high = some (high, value) := by
  have contained : map.containsKey high = true := containsKey_iff.2 ⟨value, stored⟩
  cases found : map.rangeNextBack low high with
  | none => exact absurd (rangeNextBack_eq_none found high contained above) (lt_irrefl _)
  | some entry =>
    obtain ⟨key, other⟩ := entry
    obtain ⟨get, -, below, greatest⟩ := rangeNextBack_eq_some found
    obtain rfl : key = high := le_antisymm below (greatest high contained above le_rfl)
    rw [stored, Option.some.injEq] at get
    rw [get]

/-- `BTreeMap::keys`, in ascending order. -/
def keys (map : BTreeMap κ α) : List κ := map.entries.map Prod.fst

/-- The keys listed are the keys the map holds. -/
theorem mem_keys {map : BTreeMap κ α} {key : κ} : key ∈ map.keys ↔ map.containsKey key = true := by
  simp only [keys, List.mem_map, containsKey_iff, get?_eq_some_iff]
  exact ⟨fun ⟨entry, mem, same⟩ => ⟨entry.2, same ▸ mem⟩, fun ⟨value, mem⟩ => ⟨_, mem, rfl⟩⟩

/-- A map lists no key twice. -/
theorem nodup_keys (map : BTreeMap κ α) : map.keys.Nodup :=
  List.pairwise_map.2 (map.ascending.imp ne_of_lt)

/-- A map has as many entries as keys. -/
theorem len_eq_length_keys (map : BTreeMap κ α) : map.len = map.keys.length := by
  simp [len, keys]

/-- Inserting a new key adds one to the length. -/
theorem len_insert {map : BTreeMap κ α} {key : κ} (value : α)
    (absent : map.containsKey key = false) : (map.insert key value).len = map.len + 1 :=
  length_insertEntry (by simpa [containsKey, get?] using absent)

/-- Inserting a key the map holds keeps its length. -/
theorem len_insert_of_containsKey {map : BTreeMap κ α} {key : κ} (value : α)
    (held : map.containsKey key = true) : (map.insert key value).len = map.len :=
  length_insertEntry_of_isSome map.ascending held

/-- A map holding every key of a list without repeats has at least as many keys. -/
theorem length_le_len_of_subset {map : BTreeMap κ α} {bound : List κ} (nodup : bound.Nodup)
    (held : ∀ key ∈ bound, map.containsKey key = true) : bound.length ≤ map.len :=
  len_eq_length_keys map ▸ (nodup.subperm fun key mem => mem_keys.2 (held key mem)).length_le

/-- A map whose keys all lie in `bound` has at most as many keys as `bound` has, and holds
every key of `bound` once it has as many and `bound` has no repeats. -/
theorem len_le_of_subset {map : BTreeMap κ α} {bound : List κ}
    (within : ∀ key, map.containsKey key = true → key ∈ bound) :
    map.len ≤ bound.length ∧ (bound.Nodup → bound.length ≤ map.len →
      ∀ key ∈ bound, map.containsKey key = true) := by
  have sub : List.Subperm map.keys bound := (nodup_keys map).subperm fun key mem => within key (mem_keys.1 mem)
  rw [len_eq_length_keys]
  refine ⟨sub.length_le, fun _ full key mem => mem_keys.1 ((sub.perm_of_length_le full).mem_iff.2 mem)⟩

/-- Removing the only key a map may hold leaves the empty map. -/
theorem remove_eq_new {map : BTreeMap κ α} {key : κ}
    (only : ∀ other, map.containsKey other = true → other = key) : map.remove key = new := by
  ext1
  refine List.filter_eq_nil_iff.2 fun entry mem => ?_
  simpa using only _ (containsKey_of_mem mem)

/-- A map of length one holding `key` holds no other key. -/
theorem eq_of_len_eq_one {map : BTreeMap κ α} {key : κ} (one : map.len = 1)
    (contained : map.containsKey key = true) :
    ∀ other, map.containsKey other = true → other = key := by
  obtain ⟨entry, single⟩ := List.length_eq_one.1 one
  have onlyEntry : ∀ other, map.containsKey other = true → other = entry.1 := by
    intro other held
    obtain ⟨stored, get⟩ := containsKey_iff.1 held
    have mem := get?_eq_some_iff.1 get
    rw [single, List.mem_singleton] at mem
    rw [← mem]
  intro other held
  rw [onlyEntry other held, onlyEntry key contained]

/-- An empty map holds no key. -/
theorem containsKey_of_isEmpty {map : BTreeMap κ α} (empty : map.isEmpty = true) (key : κ) :
    map.containsKey key = false := by
  simp_all [isEmpty, containsKey, get?]

end BTreeMap

/-- `std::collections::BTreeSet`, which the standard library builds as a map to `()`. -/
def BTreeSet (κ : Type) [LinearOrder κ] : Type := BTreeMap κ Unit

namespace BTreeSet

variable {κ : Type} [LinearOrder κ]

/-- `BTreeSet::new`. -/
def new : BTreeSet κ := BTreeMap.new

/-- `BTreeSet::contains`. -/
def contains (set : BTreeSet κ) (key : κ) : Bool := BTreeMap.containsKey set key

/-- `BTreeSet::insert`. -/
def insert (set : BTreeSet κ) (key : κ) : BTreeSet κ := BTreeMap.insert set key ()

/-- `BTreeSet::remove`. -/
def remove (set : BTreeSet κ) (key : κ) : BTreeSet κ := BTreeMap.remove set key

/-- `BTreeSet::retain`: keep the elements that satisfy `keep`. -/
def retain (set : BTreeSet κ) (keep : κ → Bool) : BTreeSet κ := BTreeMap.retain set keep

/-- `set.iter().next_back()`: the greatest element. -/
def last? (set : BTreeSet κ) : Option κ := (BTreeMap.entries set).getLast?.map Prod.fst

@[simp] theorem contains_new (key : κ) : (new : BTreeSet κ).contains key = false := rfl

@[simp] theorem contains_insert (set : BTreeSet κ) (key query : κ) :
    (set.insert key).contains query = (decide (query = key) || set.contains query) := by
  by_cases onKey : query = key <;> simp [contains, insert, BTreeMap.containsKey, onKey]

@[simp] theorem contains_remove (set : BTreeSet κ) (key query : κ) :
    (set.remove key).contains query = (!decide (query = key) && set.contains query) := by
  by_cases onKey : query = key <;> simp [contains, remove, BTreeMap.containsKey, onKey]

@[simp] theorem contains_retain (set : BTreeSet κ) (keep : κ → Bool) (query : κ) :
    (set.retain keep).contains query = (keep query && set.contains query) := by
  cases kept : keep query <;> simp [contains, retain, BTreeMap.containsKey, kept]

/-- The last element is an element, and no element is above it. -/
theorem last?_eq_some {set : BTreeSet κ} {key : κ} (found : set.last? = some key) :
    set.contains key = true ∧ ∀ other, set.contains other = true → other ≤ key := by
  obtain ⟨last, lastEntry, rfl⟩ := Option.map_eq_some'.1 found
  refine ⟨BTreeMap.containsKey_of_mem (List.mem_of_getLast?_eq_some lastEntry), ?_⟩
  intro other contained
  obtain ⟨stored, get⟩ := BTreeMap.containsKey_iff.1 contained
  exact le_of_getLast? (BTreeMap.ascending set) lastEntry _ (BTreeMap.get?_eq_some_iff.1 get)

/-- A set without a last element is empty. -/
theorem last?_eq_none {set : BTreeSet κ} (found : set.last? = none) (key : κ) :
    set.contains key = false := by
  have empty : BTreeMap.entries set = [] := by simpa [last?] using found
  simp [contains, BTreeMap.containsKey, BTreeMap.get?, empty]

/-- Removing the only element a set may hold leaves the empty set. -/
theorem remove_eq_new {set : BTreeSet κ} {key : κ}
    (only : ∀ other, set.contains other = true → other = key) : set.remove key = new :=
  BTreeMap.remove_eq_new only

end BTreeSet

end TxServer

import Mathlib.Data.Multiset.AddSub
import Mathlib.Data.Multiset.MapFold
import Mathlib.Data.List.Sort
import Mathlib.Order.Basic

/-!
# Ordered maps

A finite map kept as the list of its entries in strictly increasing key order. The order is a field
of the structure, so no operation can produce an unsorted map. Facts about contents are stated on
the multiset of entries (`OrderedMap.toMultiset`), where moving an entry out of one container and
into another is an equation between sums.
-/

/-- A finite map from `K` to `V`, with its entries in strictly increasing key order. -/
structure OrderedMap (K V : Type*) [LinearOrder K] where
  entries : List (K × V)
  sorted : entries.Pairwise (fun a b => a.1 < b.1)

namespace OrderedMap

variable {K V : Type*} [LinearOrder K]

/-- The entries as a multiset. -/
def toMultiset (m : OrderedMap K V) : Multiset (K × V) := ↑m.entries

/-- The keys as a multiset. -/
def keys (m : OrderedMap K V) : Multiset K := m.toMultiset.map Prod.fst

/-- The number of entries. -/
def length (m : OrderedMap K V) : ℕ := m.entries.length

/-- Whether there are no entries. -/
def isEmpty (m : OrderedMap K V) : Bool := m.entries.isEmpty

/-- The empty map. -/
def empty : OrderedMap K V := ⟨[], List.Pairwise.nil⟩

/-- `insert` on the entry list: an existing entry with the key is replaced. -/
def insertEntry (k : K) (v : V) : List (K × V) → List (K × V)
  | [] => [(k, v)]
  | e :: es => if k < e.1 then (k, v) :: e :: es
    else if e.1 < k then e :: insertEntry k v es
    else (k, v) :: es

/-- An entry of the list after an insertion is the inserted one or an old one. -/
theorem mem_insertEntry {k : K} {v : V} {es : List (K × V)} {a : K × V}
    (h : a ∈ insertEntry k v es) : a = (k, v) ∨ a ∈ es := by
  induction es with
  | nil => simpa [insertEntry] using h
  | cons e es ih =>
    simp only [insertEntry] at h
    split_ifs at h <;> grind

/-- Insertion keeps the key order. -/
theorem insertEntry_sorted (k : K) (v : V) {es : List (K × V)}
    (h : es.Pairwise (fun a b => a.1 < b.1)) :
    (insertEntry k v es).Pairwise (fun a b => a.1 < b.1) := by
  induction es with
  | nil => simp [insertEntry]
  | cons e es ih =>
    obtain ⟨hhd, htl⟩ := List.pairwise_cons.1 h
    simp only [insertEntry]
    split_ifs with h1 h2
    · refine List.pairwise_cons.2 ⟨fun a ha => ?_, h⟩
      rcases List.mem_cons.1 ha with rfl | ha
      · exact h1
      · exact lt_trans h1 (hhd a ha)
    · refine List.pairwise_cons.2 ⟨fun a ha => ?_, ih htl⟩
      rcases mem_insertEntry ha with rfl | ha
      · exact h2
      · exact hhd a ha
    · have hk : k = e.1 := le_antisymm (not_lt.1 h2) (not_lt.1 h1)
      exact List.pairwise_cons.2 ⟨fun a ha => hk ▸ hhd a ha, htl⟩

/-- Inserting a new key adds its entry. -/
theorem insertEntry_perm {k : K} (v : V) {es : List (K × V)} (h : k ∉ es.map Prod.fst) :
    (insertEntry k v es).Perm ((k, v) :: es) := by
  induction es with
  | nil => rfl
  | cons e es ih =>
    simp only [List.map_cons, List.mem_cons, not_or] at h
    simp only [insertEntry]
    split_ifs with h1 h2
    · rfl
    · exact ((ih h.2).cons e).trans (List.Perm.swap _ _ _)
    · exact absurd (le_antisymm (not_lt.1 h2) (not_lt.1 h1)) h.1

/-- Adds an entry, replacing the entry with the same key if there is one. -/
def insert (k : K) (v : V) (m : OrderedMap K V) : OrderedMap K V :=
  ⟨insertEntry k v m.entries, insertEntry_sorted k v m.sorted⟩

/-- Removes the entry with the least key and returns it with the rest. -/
def popFirst (m : OrderedMap K V) : Option ((K × V) × OrderedMap K V) :=
  match m with
  | ⟨[], _⟩ => none
  | ⟨e :: es, h⟩ => some (e, ⟨es, (List.pairwise_cons.1 h).2⟩)

/-- The value stored under a key. -/
def get? (k : K) (m : OrderedMap K V) : Option V :=
  (m.entries.find? (fun e => e.1 = k)).map Prod.snd

/-- Drops the entry with a key. -/
def erase (k : K) (m : OrderedMap K V) : OrderedMap K V :=
  ⟨m.entries.filter (fun e => e.1 ≠ k), m.sorted.filter _⟩

/-- Removes the entry with a key and returns its value with the rest. -/
def remove (k : K) (m : OrderedMap K V) : Option (V × OrderedMap K V) :=
  (m.get? k).map (fun v => (v, m.erase k))

/-! ## Contents -/

@[simp] theorem toMultiset_empty : (empty : OrderedMap K V).toMultiset = 0 := rfl

@[simp] theorem keys_empty : (empty : OrderedMap K V).keys = 0 := rfl

@[simp] theorem length_empty : (empty : OrderedMap K V).length = 0 := rfl

@[simp] theorem card_toMultiset (m : OrderedMap K V) : m.toMultiset.card = m.length := rfl

@[simp] theorem card_keys (m : OrderedMap K V) : m.keys.card = m.length := by simp [keys]

/-- A map is empty exactly when it has no entries. -/
theorem isEmpty_iff (m : OrderedMap K V) : m.isEmpty = true ↔ m.length = 0 := by
  simp [isEmpty, length]

/-- A map of length zero has no keys. -/
theorem keys_eq_zero_of_length {m : OrderedMap K V} (h : m.length = 0) : m.keys = 0 := by
  rw [← Multiset.card_eq_zero, card_keys, h]

/-- An entry's key is a key. -/
theorem mem_keys_of_mem {m : OrderedMap K V} {k : K} {v : V} (h : (k, v) ∈ m.toMultiset) :
    k ∈ m.keys := Multiset.mem_map_of_mem Prod.fst h

/-- Inserting a new key adds exactly its entry. -/
theorem toMultiset_insert {m : OrderedMap K V} {k : K} (v : V) (h : k ∉ m.keys) :
    (m.insert k v).toMultiset = (k, v) ::ₘ m.toMultiset :=
  Multiset.coe_eq_coe.2 (insertEntry_perm v (by simpa [keys, toMultiset] using h))

/-- Inserting a new key adds one entry. -/
theorem length_insert {m : OrderedMap K V} {k : K} (v : V) (h : k ∉ m.keys) :
    (m.insert k v).length = m.length + 1 := by
  rw [← card_toMultiset, toMultiset_insert v h, Multiset.card_cons, card_toMultiset]

/-- A key after an insertion is the inserted one or an old one. -/
theorem mem_keys_insert {m : OrderedMap K V} {k k' : K} {v : V} (h : k' ∈ (m.insert k v).keys) :
    k' = k ∨ k' ∈ m.keys := by
  obtain ⟨a, ha, rfl⟩ := Multiset.mem_map.1 h
  exact (mem_insertEntry ha).imp (by rintro rfl; rfl) fun ha => Multiset.mem_map_of_mem Prod.fst ha

/-- Popping from a map without entries gives nothing, and only then. -/
theorem popFirst_eq_none {m : OrderedMap K V} : m.popFirst = none ↔ m.length = 0 := by
  obtain ⟨_ | ⟨e, es⟩, h⟩ := m <;> simp [popFirst, length]

/-- Popping splits off one entry. -/
theorem toMultiset_of_popFirst {m m' : OrderedMap K V} {e : K × V}
    (h : m.popFirst = some (e, m')) : m.toMultiset = e ::ₘ m'.toMultiset := by
  obtain ⟨_ | ⟨a, es⟩, hs⟩ := m
  · simp [popFirst] at h
  · simp only [popFirst, Option.some.injEq, Prod.mk.injEq] at h
    obtain ⟨rfl, rfl⟩ := h
    rfl

/-- Popping splits off one key. -/
theorem keys_of_popFirst {m m' : OrderedMap K V} {e : K × V} (h : m.popFirst = some (e, m')) :
    m.keys = e.1 ::ₘ m'.keys := by
  rw [keys, toMultiset_of_popFirst h, Multiset.map_cons, keys]

/-- A key that is left after popping was there before. -/
theorem mem_keys_of_popFirst {m m' : OrderedMap K V} {e : K × V} (h : m.popFirst = some (e, m'))
    {k : K} (hk : k ∈ m'.keys) : k ∈ m.keys := by
  rw [keys_of_popFirst h]
  exact Multiset.mem_cons_of_mem hk

/-- Popping takes one entry. -/
theorem length_of_popFirst {m m' : OrderedMap K V} {e : K × V}
    (h : m.popFirst = some (e, m')) : m.length = m'.length + 1 := by
  rw [← card_toMultiset, toMultiset_of_popFirst h, Multiset.card_cons, card_toMultiset]

/-- The popped key is below every key that is left. -/
theorem lt_of_popFirst {m m' : OrderedMap K V} {e : K × V} (h : m.popFirst = some (e, m'))
    {k : K} (hk : k ∈ m'.keys) : e.1 < k := by
  obtain ⟨_ | ⟨a, es⟩, hs⟩ := m
  · simp [popFirst] at h
  · simp only [popFirst, Option.some.injEq, Prod.mk.injEq] at h
    obtain ⟨rfl, rfl⟩ := h
    obtain ⟨b, hb, rfl⟩ := Multiset.mem_map.1 hk
    exact (List.pairwise_cons.1 hs).1 b hb

/-- In a sorted list the entry found under a key is the only one with it. -/
theorem perm_of_find {es : List (K × V)} (hs : es.Pairwise (fun a b => a.1 < b.1)) {k : K}
    {e : K × V} (h : es.find? (fun e => e.1 = k) = some e) :
    es.Perm (e :: es.filter (fun e => e.1 ≠ k)) := by
  induction es with
  | nil => simp at h
  | cons a es ih =>
    obtain ⟨hhd, htl⟩ := List.pairwise_cons.1 hs
    by_cases hak : a.1 = k
    · have hea : a = e := by simpa [List.find?_cons, hak] using h
      subst hea
      have hrest : es.filter (fun e => decide (e.1 ≠ k)) = es := by
        refine List.filter_eq_self.2 fun b hb => ?_
        have := hhd b hb
        simp only [decide_eq_true_eq]
        rintro rfl
        exact absurd hak this.ne
      rw [List.filter_cons_of_neg (by simp [hak]), hrest]
    · have h' : es.find? (fun e => e.1 = k) = some e := by
        simpa [List.find?_cons, hak] using h
      simp only [ne_eq, hak, not_false_eq_true, decide_true, List.filter_cons_of_pos]
      exact ((ih htl h').cons a).trans (List.Perm.swap _ _ _)

/-- Removing a stored key splits off its entry. -/
theorem toMultiset_of_remove {m m' : OrderedMap K V} {k : K} {v : V}
    (h : m.remove k = some (v, m')) : m.toMultiset = (k, v) ::ₘ m'.toMultiset := by
  simp only [remove, get?, Option.map_map, Option.map_eq_some_iff, Function.comp_apply,
    Prod.mk.injEq] at h
  obtain ⟨e, he, rfl, rfl⟩ := h
  have hek : e.1 = k := by simpa using List.find?_some he
  subst hek
  exact Multiset.coe_eq_coe.2 (perm_of_find m.sorted he)

/-- A key that is left after a removal was there before. -/
theorem mem_keys_of_remove {m m' : OrderedMap K V} {k : K} {v : V} (h : m.remove k = some (v, m'))
    {k' : K} (hk : k' ∈ m'.keys) : k' ∈ m.keys := by
  rw [keys, toMultiset_of_remove h, Multiset.map_cons]
  exact Multiset.mem_cons_of_mem hk

/-- Removal takes one entry. -/
theorem length_of_remove {m m' : OrderedMap K V} {k : K} {v : V}
    (h : m.remove k = some (v, m')) : m.length = m'.length + 1 := by
  rw [← card_toMultiset, toMultiset_of_remove h, Multiset.card_cons, card_toMultiset]

/-- There is no value exactly when the key is absent. -/
theorem get?_eq_none {m : OrderedMap K V} {k : K} : m.get? k = none ↔ k ∉ m.keys := by
  simp only [get?, Option.map_eq_none_iff, List.find?_eq_none, decide_eq_true_eq, keys, toMultiset,
    Multiset.map_coe, Multiset.mem_coe, List.mem_map, not_exists, not_and]

/-- Removal gives nothing exactly when the key is absent. -/
theorem remove_eq_none {m : OrderedMap K V} {k : K} : m.remove k = none ↔ k ∉ m.keys := by
  rw [remove, Option.map_eq_none_iff, get?_eq_none]

end OrderedMap

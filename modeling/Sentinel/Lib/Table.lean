import Mathlib.Data.List.Nodup

/-!
# Keyed tables

A `Table K V` is a list of rows with pairwise distinct keys: at once a database table with a primary
key and an in-memory map whose iteration order is the order of its rows.
-/

structure Table (K V : Type*) where
  rows : List (K × V)
  nodup : (rows.map Prod.fst).Nodup

open List Option

namespace Table

variable {K V W : Type*}

variable {t u t' : Table K V} {k j : K} {v w : V} {n : Nat} {r : K × V}

@[ext] theorem ext (h : t.rows = u.rows) : t = u := by
  cases t
  cases u
  cases h
  rfl

def empty : Table K V := ⟨[], nodup_nil⟩

instance : EmptyCollection (Table K V) := ⟨empty⟩

@[simp] theorem rows_empty : (∅ : Table K V).rows = [] := rfl

def keys (t : Table K V) : List K := t.rows.map Prod.fst

theorem mem_keys : k ∈ t.keys ↔ ∃ v, (k, v) ∈ t.rows := by
  simp [keys]

@[simp] theorem keys_empty : (∅ : Table K V).keys = [] := rfl

theorem eq_of_mem (hv : (k, v) ∈ t.rows) (hw : (k, w) ∈ t.rows) : v = w :=
  congrArg Prod.snd (inj_on_of_nodup_map t.nodup hv hw rfl)

def filter (p : K × V → Bool) (t : Table K V) : Table K V :=
  ⟨t.rows.filter p, (filter_sublist.map Prod.fst).nodup t.nodup⟩

variable (p : K × V → Bool)

@[simp] theorem rows_filter (t : Table K V) : (t.filter p).rows = t.rows.filter p := rfl

def mapVals (f : K → V → W) (t : Table K V) : Table K W where
  rows := t.rows.map fun r => (r.1, f r.1 r.2)
  nodup := by
    have h : (t.rows.map fun r => (r.1, f r.1 r.2)).map Prod.fst = t.rows.map Prod.fst := by
      simp
    rw [h]
    exact t.nodup

@[simp] theorem rows_mapVals (f : K → V → W) (t : Table K V) :
    (t.mapVals f).rows = t.rows.map fun r => (r.1, f r.1 r.2) := rfl

@[simp] theorem keys_mapVals (f : K → V → W) (t : Table K V) : (t.mapVals f).keys = t.keys := by
  simp [keys]

/-! ## Deletions, counted -/

structure Shrinks (t t' : Table K V) (n : Nat) : Prop where
  sublist : t'.rows.Sublist t.rows
  length : t.rows.length = t'.rows.length + n

theorem Shrinks.refl (t : Table K V) : Shrinks t t 0 := ⟨Sublist.refl _, rfl⟩

theorem Shrinks.trans {v : Table K V} {m : Nat} (h : Shrinks t u m) (h' : Shrinks u v n) :
    Shrinks t v (m + n) :=
  ⟨h'.sublist.trans h.sublist, by rw [h.length, h'.length]; omega⟩

theorem Shrinks.mem (h : Shrinks t t' n) (hr : r ∈ t'.rows) : r ∈ t.rows :=
  h.sublist.subset hr

theorem shrinks_filter (t : Table K V) :
    Shrinks t (t.filter p) (t.rows.length - (t.filter p).rows.length) := by
  have hlen : (t.rows.filter p).length ≤ t.rows.length := length_filter_le p t.rows
  exact ⟨filter_sublist, by rw [rows_filter]; omega⟩

theorem Shrinks.length_removed [BEq (K × V)] [LawfulBEq (K × V)] (h : Shrinks t t' n) :
    (t.rows.filter (· ∉ t'.rows)).length = n := by
  have hkept : (t.rows.filter (· ∈ t'.rows)).length = t'.rows.length := by
    have hnd : t.rows.Nodup := t.nodup.of_map
    refine ((perm_ext_iff_of_nodup (hnd.filter _) (h.sublist.nodup hnd)).mpr ?_).length_eq
    intro r
    simpa using fun hr => h.mem hr
  have hsplit := length_eq_length_filter_add (l := t.rows) (· ∈ t'.rows)
  simp only [← decide_not] at hsplit
  have hlen := h.length
  omega

variable [DecidableEq K]

def get? (t : Table K V) (k : K) : Option V :=
  (t.rows.find? fun r => r.1 = k).map Prod.snd

theorem get?_eq_some : t.get? k = some v ↔ (k, v) ∈ t.rows := by
  constructor
  · intro h
    obtain ⟨⟨k', v'⟩, hr, rfl⟩ := map_eq_some_iff.mp h
    have hk : k' = k := by simpa using find?_some hr
    exact hk ▸ mem_of_find?_eq_some hr
  intro h
  cases hf : t.rows.find? (fun r => r.1 = k) with
  | none =>
    have hne := find?_eq_none.mp hf (k, v) h
    simp at hne
  | some r =>
    have hk : r.1 = k := by simpa using find?_some hf
    have hr : (k, r.2) ∈ t.rows := hk ▸ mem_of_find?_eq_some hf
    simp only [get?, hf, map_some, some.injEq]
    exact eq_of_mem hr h

theorem get?_eq_none : t.get? k = none ↔ k ∉ t.keys := by
  rw [eq_none_iff_forall_ne_some, mem_keys, not_exists]
  exact forall_congr' fun v => not_congr get?_eq_some

theorem isSome_get? : (t.get? k).isSome ↔ k ∈ t.keys := by
  rw [isSome_iff_exists, mem_keys]
  exact exists_congr fun v => get?_eq_some

theorem mem_keys_of_get? (h : t.get? k = some v) : k ∈ t.keys :=
  mem_keys.mpr ⟨v, get?_eq_some.mp h⟩

@[simp] theorem get?_empty (k : K) : (∅ : Table K V).get? k = none := rfl

theorem get?_congr (h : ∀ v, (k, v) ∈ t.rows ↔ (k, v) ∈ u.rows) : t.get? k = u.get? k := by
  ext v
  rw [get?_eq_some, get?_eq_some, h]

theorem get?_mapVals (f : K → V → W) (t : Table K V) (k : K) :
    (t.mapVals f).get? k = (t.get? k).map (f k) := by
  ext w
  rw [get?_eq_some, map_eq_some_iff]
  constructor
  · intro h
    obtain ⟨r, hr, he⟩ := mem_map.mp h
    obtain ⟨rfl, rfl⟩ := Prod.mk.inj he
    exact ⟨r.2, get?_eq_some.mpr hr, rfl⟩
  rintro ⟨v, hv, rfl⟩
  exact mem_map.mpr ⟨(k, v), get?_eq_some.mp hv, rfl⟩

theorem get?_filter (t : Table K V) (k : K) :
    (t.filter p).get? k = (t.get? k).filter fun v => p (k, v) := by
  ext v
  rw [get?_eq_some, rows_filter, mem_filter, filter_eq_some_iff, get?_eq_some]

def erase (t : Table K V) (k : K) : Table K V :=
  t.filter fun r => r.1 ≠ k

theorem mem_rows_erase : r ∈ (t.erase k).rows ↔ r ∈ t.rows ∧ r.1 ≠ k := by
  simp [erase]

@[simp] theorem get?_erase_self (t : Table K V) (k : K) : (t.erase k).get? k = none := by
  rw [get?_eq_none, mem_keys]
  rintro ⟨v, hv⟩
  exact (mem_rows_erase.mp hv).2 rfl

theorem get?_erase_ne (t : Table K V) (h : j ≠ k) : (t.erase k).get? j = t.get? j :=
  get?_congr fun _ => by simp [mem_rows_erase, h]

theorem erase_of_get?_eq_none (h : t.get? k = none) : t.erase k = t := by
  apply Table.ext
  rw [erase, rows_filter, filter_eq_self]
  intro r hr
  have hk : r.1 ≠ k := fun hk => get?_eq_none.mp h (hk ▸ mem_map_of_mem hr)
  simpa using hk

def insertNew (t : Table K V) (k : K) (v : V) : Table K V :=
  if h : k ∈ t.keys then t
  else ⟨t.rows ++ [(k, v)], by
    rw [map_append, map_singleton]
    exact t.nodup.append (nodup_singleton k) (by simpa [keys] using h)⟩

theorem insertNew_of_mem (h : k ∈ t.keys) (v : V) : t.insertNew k v = t := dif_pos h

theorem rows_insertNew_of_not_mem (h : k ∉ t.keys) (v : V) :
    (t.insertNew k v).rows = t.rows ++ [(k, v)] := by
  rw [insertNew, dif_neg h]

theorem mem_rows_insertNew :
    r ∈ (t.insertNew k v).rows ↔ r ∈ t.rows ∨ (r = (k, v) ∧ k ∉ t.keys) := by
  by_cases h : k ∈ t.keys
  · simp [insertNew_of_mem h, h]
  · simp [rows_insertNew_of_not_mem h, h]

theorem get?_insertNew_of_ne (t : Table K V) (h : j ≠ k) (v : V) :
    (t.insertNew k v).get? j = t.get? j :=
  get?_congr fun w => by simp [mem_rows_insertNew, h]

theorem get?_insertNew_self (t : Table K V) (k : K) (v : V) :
    (t.insertNew k v).get? k = some ((t.get? k).getD v) := by
  rw [get?_eq_some, mem_rows_insertNew]
  cases h : t.get? k with
  | none => exact Or.inr ⟨rfl, get?_eq_none.mp h⟩
  | some w => exact Or.inl (get?_eq_some.mp h)

theorem get?_insertNew_congr (h : t.get? j = t'.get? j) (k : K) (v : V) :
    (t.insertNew k v).get? j = (t'.insertNew k v).get? j := by
  by_cases hj : j = k
  · subst hj
    rw [get?_insertNew_self, get?_insertNew_self, h]
  · rw [get?_insertNew_of_ne t hj, get?_insertNew_of_ne t' hj, h]

theorem mem_keys_insertNew : j ∈ (t.insertNew k v).keys ↔ j = k ∨ j ∈ t.keys := by
  by_cases h : j = k
  · rw [← isSome_get?, h, get?_insertNew_self]
    simp
  rw [← isSome_get?, get?_insertNew_of_ne t h, isSome_get?]
  simp [h]

def put (t : Table K V) (k : K) (v : V) : Table K V :=
  if k ∈ t.keys then t.mapVals fun j w => if j = k then v else w
  else t.insertNew k v

@[simp] theorem get?_put_self (t : Table K V) (k : K) (v : V) : (t.put k v).get? k = some v := by
  by_cases h : k ∈ t.keys
  · obtain ⟨w, hw⟩ := isSome_iff_exists.mp (isSome_get?.mpr h)
    rw [put, if_pos h, get?_mapVals, hw, map_some, if_pos rfl]
  · rw [put, if_neg h, get?_insertNew_self, get?_eq_none.mpr h, getD_none]

theorem get?_put_ne (t : Table K V) (h : j ≠ k) (v : V) : (t.put k v).get? j = t.get? j := by
  by_cases hk : k ∈ t.keys
  · rw [put, if_pos hk, get?_mapVals]
    simp [h]
  · rw [put, if_neg hk, get?_insertNew_of_ne t h]

theorem get?_put (t : Table K V) (k j : K) (v : V) :
    (t.put k v).get? j = if j = k then some v else t.get? j := by
  by_cases h : j = k
  · rw [if_pos h, h, get?_put_self]
  · rw [if_neg h, get?_put_ne t h]

theorem mem_rows_put : r ∈ (t.put k v).rows ↔ r = (k, v) ∨ (r ∈ t.rows ∧ r.1 ≠ k) := by
  obtain ⟨j, w⟩ := r
  rw [← get?_eq_some, get?_put, ← get?_eq_some]
  by_cases h : j = k
  · simp [h, eq_comm]
  · simp [h]

theorem mem_keys_put : j ∈ (t.put k v).keys ↔ j = k ∨ j ∈ t.keys := by
  rw [← isSome_get?, get?_put, ← isSome_get?]
  by_cases h : j = k <;> simp [h]

theorem mem_keys_put_of_get? (h : t.get? k = some w) : j ∈ (t.put k v).keys ↔ j ∈ t.keys := by
  rw [mem_keys_put]
  exact ⟨fun hj => hj.elim (fun he => he ▸ mem_keys_of_get? h) id, .inr⟩

theorem length_put_of_mem (h : k ∈ t.keys) (v : V) : (t.put k v).rows.length = t.rows.length := by
  rw [put, if_pos h, rows_mapVals, length_map]

theorem length_put_of_not_mem (h : k ∉ t.keys) (v : V) :
    (t.put k v).rows.length = t.rows.length + 1 := by
  rw [put, if_neg h, rows_insertNew_of_not_mem h, length_append, length_singleton]

theorem le_length_put (t : Table K V) (k : K) (v : V) :
    t.rows.length ≤ (t.put k v).rows.length := by
  by_cases h : k ∈ t.keys
  · exact Nat.le_of_eq (length_put_of_mem h v).symm
  · exact Nat.le_of_succ_le (Nat.le_of_eq (length_put_of_not_mem h v).symm)

theorem length_put_le (t : Table K V) (k : K) (v : V) :
    (t.put k v).rows.length ≤ t.rows.length + 1 := by
  by_cases h : k ∈ t.keys
  · exact Nat.le_succ_of_le (Nat.le_of_eq (length_put_of_mem h v))
  · exact Nat.le_of_eq (length_put_of_not_mem h v)

theorem bind_get?_put {X : Type*} (h : t.get? k = some w) {f : V → Option X} (hf : f v = f w)
    (j : K) : ((t.put k v).get? j).bind f = (t.get? j).bind f := by
  by_cases hj : j = k
  · rw [hj, get?_put_self, h, bind_some, bind_some, hf]
  · rw [get?_put_ne t hj]

theorem map_get?_put {X : Type*} (h : t.get? k = some w) {f : V → X} (hf : f v = f w) (j : K) :
    ((t.put k v).get? j).map f = (t.get? j).map f := by
  have hsome : (some ∘ f) v = (some ∘ f) w := congrArg some hf
  rw [map_eq_bind, map_eq_bind, bind_get?_put h hsome]

end Table

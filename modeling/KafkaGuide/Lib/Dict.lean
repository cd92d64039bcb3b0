import Mathlib.Algebra.Ring.Nat
import Mathlib.Data.List.Induction
import Mathlib.Data.List.Nodup
/-!
# Dict — a dictionary that keeps the order of its first insertions

A list of entries with distinct keys: assignment replaces in place or appends, so `entries` is the order in which an
iteration meets them.
-/

/-- A dictionary: entries in insertion order, keys distinct. -/
structure Dict (κ ν : Type*) where
  entries : List (κ × ν)
  nodup : (entries.map Prod.fst).Nodup

namespace Dict

variable {κ ν ν' : Type*} [DecidableEq κ]

/-- The value of a key among entries. -/
def find (k : κ) : List (κ × ν) → Option ν
  | [] => none
  | p :: d => if p.1 = k then some p.2 else find k d

theorem mem_of_find {k : κ} {v : ν} : ∀ {d : List (κ × ν)}, find k d = some v → (k, v) ∈ d
  | p :: d, h => by
    rw [find] at h
    split at h
    · rename_i hk
      cases h
      exact List.mem_cons.2 (.inl (Prod.ext hk.symm rfl))
    · exact List.mem_cons_of_mem _ (mem_of_find h)

theorem find_of_mem {k : κ} {v : ν} : ∀ {d : List (κ × ν)}, (d.map Prod.fst).Nodup → (k, v) ∈ d → find k d = some v
  | p :: d, hd, h => by
    rw [List.map_cons, List.nodup_cons] at hd
    rw [find]
    rcases List.mem_cons.1 h with rfl | h
    · exact if_pos rfl
    · have hne : ¬ p.1 = k := by
        rintro rfl
        exact hd.1 (List.mem_map.2 ⟨(p.1, v), h, rfl⟩)
      rw [if_neg hne]
      exact find_of_mem hd.2 h

/-- Replace the value of a key in place, or append the key. -/
def assoc (k : κ) (v : ν) : List (κ × ν) → List (κ × ν)
  | [] => [(k, v)]
  | p :: d => if p.1 = k then (k, v) :: d else p :: assoc k v d

theorem keys_assoc (k : κ) (v : ν) : ∀ d : List (κ × ν), (assoc k v d).map Prod.fst =
    if k ∈ d.map Prod.fst then d.map Prod.fst else d.map Prod.fst ++ [k]
  | [] => by simp [assoc]
  | p :: d => by
    rw [assoc]
    split
    · rename_i h
      simp [h]
    · rename_i h
      rw [List.map_cons, keys_assoc k v d, List.map_cons]
      have hk : k ≠ p.1 := Ne.symm h
      by_cases hm : k ∈ d.map Prod.fst <;> simp [hm, hk]

theorem find_assoc (k k' : κ) (v : ν) : ∀ d : List (κ × ν),
    find k' (assoc k v d) = if k' = k then some v else find k' d
  | [] => by simp only [assoc, find, eq_comm]
  | p :: d => by
    rw [assoc, find]
    by_cases hp : p.1 = k
    · rw [if_pos hp, find]
      by_cases hk : k' = k
      · simp [hk]
      · simp [hk, hp, Ne.symm hk]
    · rw [if_neg hp, find, find_assoc k k' v d]
      by_cases hk : k' = k
      · subst hk
        simp [hp]
      · simp [hk]

theorem mem_assoc {k : κ} {v : ν} {e : κ × ν} : ∀ {d : List (κ × ν)}, e ∈ assoc k v d → e = (k, v) ∨ e ∈ d
  | [], h => .inl (List.mem_singleton.1 h)
  | p :: d, h => by
    rw [assoc] at h
    split at h
    · exact (List.mem_cons.1 h).imp_right (List.mem_cons_of_mem p)
    · rcases List.mem_cons.1 h with rfl | h
      · exact .inr List.mem_cons_self
      · exact (mem_assoc h).imp_right (List.mem_cons_of_mem p)

def empty : Dict κ ν := ⟨[], List.nodup_nil⟩

/-- `d.get(k)`. -/
def get? (d : Dict κ ν) (k : κ) : Option ν := find k d.entries

/-- `d[k] = v`. -/
def set (d : Dict κ ν) (k : κ) (v : ν) : Dict κ ν where
  entries := assoc k v d.entries
  nodup := by
    rw [keys_assoc]
    split
    · exact d.nodup
    · rename_i h
      exact List.Nodup.append d.nodup (List.nodup_singleton k) (by simpa [List.disjoint_singleton] using h)

/-- `d.pop(k, None)`. -/
def erase (d : Dict κ ν) (k : κ) : Dict κ ν where
  entries := d.entries.filter (fun p => p.1 ≠ k)
  nodup := d.nodup.sublist (List.filter_sublist.map Prod.fst)

/-- `list(d.values())`. -/
def values (d : Dict κ ν) : List ν := d.entries.map Prod.snd

theorem get?_set (d : Dict κ ν) (k k' : κ) (v : ν) : (d.set k v).get? k' = if k' = k then some v else d.get? k' :=
  find_assoc k k' v d.entries

@[simp] theorem get?_set_self (d : Dict κ ν) (k : κ) (v : ν) : (d.set k v).get? k = some v := by
  rw [get?_set, if_pos rfl]

@[simp] theorem get?_set_ne (d : Dict κ ν) {k k' : κ} (h : k' ≠ k) (v : ν) : (d.set k v).get? k' = d.get? k' := by
  rw [get?_set, if_neg h]

theorem find_append (k : κ) : ∀ d d' : List (κ × ν), find k (d ++ d') = (find k d).or (find k d')
  | [], d' => rfl
  | p :: d, d' => by
    rw [List.cons_append, find, find]
    split
    · rfl
    · exact find_append k d d'

theorem find_reverse {d : List (κ × ν)} (hd : (d.map Prod.fst).Nodup) (k : κ) : find k d.reverse = find k d := by
  have hmem : ∀ v, find k d.reverse = some v ↔ find k d = some v := by
    intro v
    have hrev : (d.reverse.map Prod.fst).Nodup := by
      rw [List.map_reverse]
      exact List.nodup_reverse.2 hd
    constructor
    · intro h
      exact find_of_mem hd (List.mem_reverse.1 (mem_of_find h))
    · intro h
      exact find_of_mem hrev (List.mem_reverse.2 (mem_of_find h))
  cases h : find k d with
  | none =>
    cases hr : find k d.reverse with
    | none => rfl
    | some v =>
      rw [(hmem v).1 hr] at h
      cases h
  | some v => exact (hmem v).2 h

theorem find_perm {d d' : List (κ × ν)} (hd : (d.map Prod.fst).Nodup) (h : d.Perm d') (k : κ) :
    find k d = find k d' := by
  have hd' : (d'.map Prod.fst).Nodup := (h.map Prod.fst).nodup_iff.1 hd
  ext v
  constructor
  · intro hv
    exact find_of_mem hd' (h.mem_iff.1 (mem_of_find hv))
  · intro hv
    exact find_of_mem hd (h.mem_iff.2 (mem_of_find hv))

theorem find_map (f : ν → ν') (k : κ) : ∀ d : List (κ × ν), find k (d.map (fun p => (p.1, f p.2))) = (find k d).map f
  | [] => rfl
  | p :: d => by
    rw [List.map_cons, find, find]
    dsimp only
    split
    · rfl
    · exact find_map f k d

/-- The assignments `d[k] = v` of a list of pairs, one after another. -/
def update (d : Dict κ ν) (ps : List (κ × ν)) : Dict κ ν := ps.foldl (fun d p => d.set p.1 p.2) d

theorem assoc_of_not_mem {k : κ} (v : ν) : ∀ {d : List (κ × ν)}, k ∉ d.map Prod.fst → assoc k v d = d ++ [(k, v)]
  | [], _ => rfl
  | p :: d, h => by
    rw [List.map_cons, List.mem_cons, not_or] at h
    rw [assoc, if_neg (Ne.symm h.1), assoc_of_not_mem v h.2]
    rfl

/-- New keys are appended. -/
theorem entries_update : ∀ (ps : List (κ × ν)) {d : Dict κ ν}, ((d.entries ++ ps).map Prod.fst).Nodup →
    (d.update ps).entries = d.entries ++ ps
  | [], _, _ => (List.append_nil _).symm
  | p :: ps, d, h => by
    have hnew : p.1 ∉ d.entries.map Prod.fst := by
      rw [List.map_append, List.map_cons] at h
      exact fun hmem => (List.nodup_append.1 h).2.2 _ hmem _ List.mem_cons_self rfl
    have hset : (d.set p.1 p.2).entries = d.entries ++ [p] := assoc_of_not_mem p.2 hnew
    change ((d.set p.1 p.2).update ps).entries = _
    rw [entries_update ps, hset, List.append_assoc, List.singleton_append]
    rwa [hset, List.append_assoc, List.singleton_append]

/-- **The last assignment counts.** -/
theorem get?_update (k : κ) : ∀ (ps : List (κ × ν)) (d : Dict κ ν),
    (d.update ps).get? k = (find k ps.reverse).or (d.get? k)
  | [], d => rfl
  | p :: ps, d => by
    change ((d.set p.1 p.2).update ps).get? k = _
    rw [get?_update k ps, List.reverse_cons, find_append, get?_set, Option.or_assoc]
    congr 1
    simp only [find]
    by_cases h : p.1 = k
    · rw [if_pos h, if_pos h.symm]
      rfl
    · rw [if_neg h, if_neg (Ne.symm h)]
      rfl

theorem find_erase (k k' : κ) : ∀ d : List (κ × ν),
    find k' (d.filter (fun p => p.1 ≠ k)) = if k' = k then none else find k' d
  | [] => by simp [find]
  | p :: d => by
    rw [List.filter_cons, find]
    by_cases hp : p.1 = k
    · rw [if_neg (by simpa using hp), find_erase k k' d]
      by_cases hk : k' = k
      · rw [if_pos hk, if_pos hk]
      · rw [if_neg hk, if_neg hk, if_neg fun h => hk (h.symm.trans hp)]
    · rw [if_pos (by simpa using hp), find, find_erase k k' d]
      by_cases hk : p.1 = k'
      · rw [if_pos hk, if_pos hk, if_neg fun h => hp (hk.trans h)]
      · rw [if_neg hk, if_neg hk]

theorem get?_erase (d : Dict κ ν) (k k' : κ) : (d.erase k).get? k' = if k' = k then none else d.get? k' :=
  find_erase k k' d.entries

theorem get?_of_mem_values {d : Dict κ ν} {v : ν} (h : v ∈ d.values) : ∃ k, d.get? k = some v := by
  obtain ⟨p, hp, rfl⟩ := List.mem_map.1 h
  exact ⟨p.1, find_of_mem d.nodup hp⟩

/-! ## Tallies -/

end Dict

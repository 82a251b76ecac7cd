/-
Nullsploit/ChainTable.lean

Chained hash tables: `n` buckets, each a list of entries, an entry belonging
to the bucket its key hashes to.  `Placed` is the discipline that makes such a
table a partial map: every entry is at home and no bucket repeats a key.  It
is a property of the keys alone (`Placed.of_sublist`), so dropping entries or
rewriting them in place keeps it, and it makes keys unique in the whole table
(`Placed.nodup_entries`).

`find` is the lookup along one chain.  The remaining lemmas say how it meets
the three ways a table changes: a new entry at the head of its chain
(`find_insert`), one chain rewritten (`find_update`), all chains swept by a
partial map (`find_sweep`).
-/
import Mathlib.Data.List.Nodup
import Mathlib.Data.List.OfFn
import Mathlib.Logic.Function.Basic
import Mathlib.Tactic.Common

namespace ChainTable

variable {K E : Type*} [DecidableEq K] {n : Nat}

/-- The buckets of a table. -/
abbrev Table (E : Type*) (n : Nat) := Fin n → List E

/-- All entries, bucket after bucket. -/
def entries (t : Table E n) : List E := (List.ofFn t).flatten

section Placed

omit [DecidableEq K]

/-- Every entry sits in the bucket of its key, and no bucket repeats a key. -/
structure Placed (key : E → K) (hash : K → Fin n) (t : Table E n) : Prop where
  home : ∀ i, ∀ e ∈ t i, hash (key e) = i
  distinct : ∀ i, ((t i).map key).Nodup

variable {key : E → K} {hash : K → Fin n} {t t' : Table E n}

theorem placed_empty : Placed key hash (fun _ => [] : Table E n) :=
  ⟨by simp, by simp⟩

/-- Placement depends only on the keys, and survives losing some of them. -/
theorem Placed.of_sublist (h : Placed key hash t)
    (hsub : ∀ i, ((t' i).map key).Sublist ((t i).map key)) : Placed key hash t' where
  home i e he := by
    have hk : key e ∈ (t i).map key := (hsub i).subset (List.mem_map_of_mem he)
    obtain ⟨e₀, he₀, hkey⟩ := List.mem_map.mp hk
    rw [← hkey]
    exact h.home i e₀ he₀
  distinct i := (h.distinct i).sublist (hsub i)

/-- In a placed table a key occurs at most once, over all buckets. -/
theorem Placed.nodup_entries (h : Placed key hash t) : ((entries t).map key).Nodup := by
  rw [entries, List.map_flatten, List.nodup_flatten]
  constructor
  · intro l hl
    obtain ⟨b, hb, rfl⟩ := List.mem_map.mp hl
    obtain ⟨i, rfl⟩ := (List.mem_ofFn' _ _).mp hb
    exact h.distinct i
  · rw [List.pairwise_map, List.pairwise_ofFn]
    intro i j hij k hki hkj
    -- a key shared by two buckets would hash to both
    obtain ⟨e, he, rfl⟩ := List.mem_map.mp hki
    obtain ⟨e', he', hkey⟩ := List.mem_map.mp hkj
    have hi := h.home i e he
    rw [← hkey, h.home j e' he'] at hi
    exact absurd hi hij.ne'

end Placed

/-! ### Lookup -/

/-- The first entry with key `k` in the chain of `k`. -/
def find (key : E → K) (hash : K → Fin n) (t : Table E n) (k : K) : Option E :=
  (t (hash k)).find? fun e => decide (key e = k)

variable {key : E → K} {hash : K → Fin n} {t : Table E n}

theorem find_some {k : K} {e : E} (h : find key hash t k = some e) :
    e ∈ t (hash k) ∧ key e = k :=
  ⟨List.mem_of_find?_eq_some h, by simpa using List.find?_some h⟩

/-- A new key at the head of its chain. -/
theorem Placed.insert {e : E} (h : Placed key hash t) (hnew : find key hash t (key e) = none) :
    Placed key hash (Function.update t (hash (key e)) (e :: t (hash (key e)))) where
  home i x hx := by
    by_cases hi : i = hash (key e)
    · subst hi
      rw [Function.update_self, List.mem_cons] at hx
      rcases hx with rfl | hx
      · rfl
      · exact h.home _ x hx
    · rw [Function.update_of_ne hi] at hx
      exact h.home i x hx
  distinct i := by
    by_cases hi : i = hash (key e)
    · subst hi
      rw [Function.update_self, List.map_cons, List.nodup_cons]
      refine ⟨?_, h.distinct _⟩
      intro hmem
      -- the key was not found in its chain
      obtain ⟨x, hx, hkey⟩ := List.mem_map.mp hmem
      have := List.find?_eq_none.mp hnew x hx
      simp [hkey] at this
    · rw [Function.update_of_ne hi]
      exact h.distinct i

theorem find_insert (e : E) (k : K) :
    find key hash (Function.update t (hash (key e)) (e :: t (hash (key e)))) k
      = if k = key e then some e else find key hash t k := by
  unfold find
  by_cases hk : k = key e
  · simp [hk]
  · by_cases hh : hash k = hash (key e)
    · rw [hh, Function.update_self, List.find?_cons_of_neg (by simpa using Ne.symm hk), if_neg hk]
    · rw [Function.update_of_ne hh, if_neg hk]

/-- Rewriting one chain is seen only through that chain. -/
theorem find_update {b : Fin n} {l : List E} {k : K} :
    find key hash (Function.update t b l) k
      = if hash k = b then l.find? (fun e => decide (key e = k)) else find key hash t k := by
  unfold find
  by_cases hk : hash k = b
  · simp [hk]
  · simp [hk]

omit [DecidableEq K] in
/-- Sweeping all chains with a partial map that keeps keys. -/
theorem Placed.sweep {f : E → Option E} (h : Placed key hash t)
    (hf : ∀ e e', f e = some e' → key e' = key e) :
    Placed key hash (fun i => (t i).filterMap f) := by
  refine h.of_sublist fun i => ?_
  generalize t i = l
  induction l with
  | nil => simp
  | cons e l ih =>
      rcases hfe : f e with - | e'
      · rw [List.filterMap_cons_none hfe, List.map_cons]
        exact ih.cons _
      · rw [List.filterMap_cons_some hfe, List.map_cons, List.map_cons, hf e e' hfe]
        exact ih.cons_cons _

theorem Placed.find_sweep {f : E → Option E} (h : Placed key hash t)
    (hf : ∀ e e', f e = some e' → key e' = key e) (k : K) :
    find key hash (fun i => (t i).filterMap f) k = (find key hash t k).bind f := by
  have hd := h.distinct (hash k)
  show ((t (hash k)).filterMap f).find? _ = ((t (hash k)).find? _).bind f
  generalize t (hash k) = l at hd
  induction l with
  | nil => simp
  | cons e l ih =>
      rw [List.map_cons, List.nodup_cons] at hd
      by_cases hk : key e = k
      · rw [List.find?_cons_of_pos (by simpa using hk), Option.bind_some]
        rcases hfe : f e with - | e'
        · -- the only entry under `k` is dropped
          rw [List.filterMap_cons_none hfe, List.find?_eq_none]
          intro x hx
          obtain ⟨y, hy, hfy⟩ := List.mem_filterMap.mp hx
          have hxy := hf y x hfy
          have hy' := List.mem_map_of_mem (f := key) hy
          have : key x ≠ k := fun hxk => hd.1 (by rw [hk, ← hxk, hxy]; exact hy')
          simpa using this
        · have hk' : key e' = k := by rw [hf e e' hfe, hk]
          rw [List.filterMap_cons_some hfe, List.find?_cons_of_pos (by simpa using hk')]
      · rw [List.find?_cons_of_neg (by simpa using hk), ← ih hd.2]
        rcases hfe : f e with - | e'
        · rw [List.filterMap_cons_none hfe]
        · have hk' : key e' ≠ k := by rw [hf e e' hfe]; exact hk
          rw [List.filterMap_cons_some hfe, List.find?_cons_of_neg (by simpa using hk')]

end ChainTable

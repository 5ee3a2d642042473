import Mathlib.Data.List.Basic
import Mathlib.Data.List.Nodup
import Mathlib.Order.Basic
import Mathlib.Order.Lattice
import Mathlib.Tactic.Common

/-! # Radix trees stored in a pool of numbered nodes

Interior nodes are named by their path from the root and numbered in the order
in which they were allocated. `Represents` says what every cell of every node
of the pool holds: a link to the child, a leaf at the last level, or nothing.
Allocating a child and storing a leaf each change one cell.
-/
namespace PiPervisor.Library

/-- A tree of fixed depth. The list position of a path is its node number. -/
structure RadixTree (K W : Type*) (depth : ℕ) (empty : W) where
  nodes : List (List K)
  leaf : List K → W
  root : nodes[0]? = some []
  nodup : nodes.Nodup
  parent : ∀ p k, p ++ [k] ∈ nodes → p ∈ nodes
  short : ∀ p ∈ nodes, p.length < depth
  bare : ∀ p k, p ∉ nodes → leaf (p ++ [k]) = empty

namespace RadixTree

variable {K W : Type*} {depth : ℕ} {empty : W}

theorem nodes_inj (t : RadixTree K W depth empty) {n m : ℕ} {p : List K}
    (hn : t.nodes[n]? = some p) (hm : t.nodes[m]? = some p) : n = m :=
  (List.getElem?_inj (List.getElem?_eq_some_iff.mp hn).1 t.nodup).mp (hn.trans hm.symm)

theorem lt_length (t : RadixTree K W depth empty) {n : ℕ} {p : List K}
    (hn : t.nodes[n]? = some p) : n < t.nodes.length :=
  (List.getElem?_eq_some_iff.mp hn).1

theorem mem_nodes (t : RadixTree K W depth empty) {n : ℕ} {p : List K}
    (hn : t.nodes[n]? = some p) : p ∈ t.nodes := List.mem_of_getElem? hn

/-- A node with a name that ends in `k` is the child `k` of an interior node. -/
theorem exists_parent (t : RadixTree K W depth empty) {n : ℕ} {p : List K} {k : K}
    (hn : t.nodes[n]? = some (p ++ [k])) :
    ∃ m : ℕ, t.nodes[m]? = some p ∧ p.length + 1 < depth := by
  have hmem := t.mem_nodes hn
  have hshort := t.short _ hmem
  rw [List.length_append, List.length_singleton] at hshort
  obtain ⟨m, hm⟩ := List.getElem?_of_mem (t.parent p k hmem)
  exact ⟨m, hm, hshort⟩

/-- A root alone, with no leaf stored. -/
def bareRoot (depth : ℕ) (empty : W) (hd : 0 < depth) : RadixTree K W depth empty where
  nodes := [[]]
  leaf := fun _ => empty
  root := rfl
  nodup := by simp
  parent := by simp
  short := by simpa using hd
  bare := by simp

/-- Allocate the child `k` of the interior node `p`. -/
def addNode (t : RadixTree K W depth empty) (p : List K) (k : K) (hp : p ∈ t.nodes)
    (hk : p ++ [k] ∉ t.nodes) (hd : p.length + 1 < depth) : RadixTree K W depth empty where
  nodes := t.nodes ++ [p ++ [k]]
  leaf := t.leaf
  root := by
    have h := (List.getElem?_eq_some_iff.mp t.root).1
    rw [List.getElem?_append_left h, t.root]
  nodup := by
    rw [List.nodup_append]
    refine ⟨t.nodup, by simp, ?_⟩
    intro a ha b hb hab
    rw [List.mem_singleton] at hb
    exact hk (hb ▸ hab ▸ ha)
  parent := by
    intro q j hq
    rw [List.mem_append, List.mem_singleton] at hq
    rw [List.mem_append]
    rcases hq with hq | hq
    · exact .inl (t.parent q j hq)
    · exact .inl ((List.append_inj' hq rfl).1 ▸ hp)
  short := by
    intro q hq
    rw [List.mem_append, List.mem_singleton] at hq
    rcases hq with hq | rfl
    · exact t.short q hq
    · simpa using hd
  bare := by
    intro q j hq
    exact t.bare q j (fun h => hq (List.mem_append_left _ h))

/-- The cells of a pool of `capacity` nodes hold exactly the tree. -/
structure Represents (link : ℕ → W) (capacity : ℕ) (cell : ℕ → K → W)
    (t : RadixTree K W depth empty) : Prop where
  fits : t.nodes.length ≤ capacity
  leaves : ∀ n p k, t.nodes[n]? = some p → p.length + 1 = depth → cell n k = t.leaf (p ++ [k])
  links : ∀ n m p k, t.nodes[n]? = some p → t.nodes[m]? = some (p ++ [k]) → cell n k = link m
  holes : ∀ n p k, t.nodes[n]? = some p → p ++ [k] ∉ t.nodes → p.length + 1 < depth →
    cell n k = empty
  unused : ∀ n k, t.nodes.length ≤ n → n < capacity → cell n k = empty

variable {link : ℕ → W} {capacity : ℕ} {cell cell' : ℕ → K → W} {t : RadixTree K W depth empty}

theorem represents_bareRoot (hd : 0 < depth) (hc : 0 < capacity)
    (h : ∀ n k, n < capacity → cell n k = empty) :
    Represents link capacity cell (bareRoot (K := K) depth empty hd) where
  fits := hc
  leaves n p k hn _ := h n k (lt_of_lt_of_le (lt_length _ hn) hc)
  links n m p k hn hm := by
    have := mem_nodes _ hm
    simp [bareRoot] at this
  holes n p k hn _ _ := h n k (lt_of_lt_of_le (lt_length _ hn) hc)
  unused n k _ hn := h n k hn

/-- The pool is determined on the tree's cells, whatever else the memory holds. -/
theorem Represents.congr (h : Represents link capacity cell t)
    (hc : ∀ n k, n < capacity → cell' n k = cell n k) : Represents link capacity cell' t where
  fits := h.fits
  leaves n p k hn hp :=
    (hc n k (lt_of_lt_of_le (t.lt_length hn) h.fits)).trans (h.leaves n p k hn hp)
  links n m p k hn hm :=
    (hc n k (lt_of_lt_of_le (t.lt_length hn) h.fits)).trans (h.links n m p k hn hm)
  holes n p k hn hk hp :=
    (hc n k (lt_of_lt_of_le (t.lt_length hn) h.fits)).trans (h.holes n p k hn hk hp)
  unused n k hn hk := (hc n k hk).trans (h.unused n k hn hk)

/-- A cell of an interior level holds a link exactly to the child's node, or nothing. -/
theorem Represents.interior (h : Represents link capacity cell t) {n : ℕ} {p : List K} (k : K)
    (hn : t.nodes[n]? = some p) (hd : p.length + 1 < depth) :
    (∃ m, t.nodes[m]? = some (p ++ [k]) ∧ cell n k = link m) ∨
      (p ++ [k] ∉ t.nodes ∧ cell n k = empty) := by
  by_cases hk : p ++ [k] ∈ t.nodes
  · obtain ⟨m, hm⟩ := List.getElem?_of_mem hk
    exact .inl ⟨m, hm, h.links n m p k hn hm⟩
  · exact .inr ⟨hk, h.holes n p k hn hk hd⟩

variable [DecidableEq K]

/-- Store `v` as the leaf `k` of the node `p` of the last level. -/
def setLeaf (t : RadixTree K W depth empty) (p : List K) (k : K) (v : W) (hp : p ∈ t.nodes) :
    RadixTree K W depth empty where
  nodes := t.nodes
  leaf := Function.update t.leaf (p ++ [k]) v
  root := t.root
  nodup := t.nodup
  parent := t.parent
  short := t.short
  bare := by
    intro q j hq
    rw [Function.update_of_ne]
    · exact t.bare q j hq
    · intro h
      exact hq ((List.append_inj' h rfl).1 ▸ hp)

/-- Linking the first unused node into an empty cell allocates the child. -/
theorem Represents.addNode (h : Represents link capacity cell t) {n : ℕ} {p : List K} {k : K}
    (hn : t.nodes[n]? = some p) (hk : p ++ [k] ∉ t.nodes) (hd : p.length + 1 < depth)
    (hc : t.nodes.length < capacity)
    (hcell : ∀ m j, m < capacity → cell' m j =
      if m = n ∧ j = k then link t.nodes.length else cell m j) :
    Represents link capacity cell' (t.addNode p k (t.mem_nodes hn) hk hd) := by
  have hold (m q) (hm : (t.nodes ++ [p ++ [k]])[m]? = some q) :
      t.nodes[m]? = some q ∨ (m = t.nodes.length ∧ q = p ++ [k]) := by
    by_cases hlt : m < t.nodes.length
    · exact .inl (by rwa [List.getElem?_append_left hlt] at hm)
    · have hlen := (List.getElem?_eq_some_iff.mp hm).1
      have he : m = t.nodes.length := by
        simp only [List.length_append, List.length_singleton] at hlen
        omega
      rw [he, List.getElem?_concat_length] at hm
      exact .inr ⟨he, (Option.some.inj hm).symm⟩
  have hnew (j) : p ++ [k] ++ [j] ∉ t.nodes := fun hj => hk (t.parent _ _ hj)
  have hlt {m q} (hm : t.nodes[m]? = some q) : m < capacity :=
    lt_of_lt_of_le (t.lt_length hm) h.fits
  have hsame {m q j} (hm : t.nodes[m]? = some q) (hne : q ++ [j] ≠ p ++ [k]) :
      cell' m j = cell m j := by
    rw [hcell m j (hlt hm), if_neg]
    rintro ⟨rfl, rfl⟩
    exact hne (by rw [Option.some.inj (hm.symm.trans hn)])
  have hfresh (j) : cell' t.nodes.length j = empty := by
    rw [hcell _ j hc, if_neg]
    · exact h.unused _ j le_rfl hc
    · rintro ⟨he, _⟩
      exact absurd (t.lt_length hn) (by omega)
  refine ⟨?_, ?_, ?_, ?_, ?_⟩
  · change (t.nodes ++ [p ++ [k]]).length ≤ capacity
    rw [List.length_append, List.length_singleton]
    exact hc
  · intro m q j hm hq
    rcases hold m q hm with ho | ⟨rfl, rfl⟩
    · have hne : q ++ [j] ≠ p ++ [k] := by
        intro he
        rw [(List.append_inj' he rfl).1] at hq
        omega
      rw [hsame ho hne]
      exact h.leaves m q j ho hq
    · rw [hfresh j]
      exact (t.bare _ _ hk).symm
  · intro m m' q j hm hm'
    rcases hold m q hm with ho | ⟨rfl, rfl⟩
    · rcases hold m' _ hm' with ho' | ⟨rfl, he⟩
      · rw [hsame ho (fun he => hk (he ▸ t.mem_nodes ho'))]
        exact h.links m m' q j ho ho'
      · have hqp := (List.append_inj' he rfl).1
        have hjk := (List.cons.inj (List.append_inj' he rfl).2).1
        rw [hcell m j (hlt ho), if_pos ⟨t.nodes_inj ho (hqp ▸ hn), hjk⟩]
    · rcases hold m' _ hm' with ho' | ⟨_, he⟩
      · exact absurd (t.mem_nodes ho') (hnew j)
      · exact absurd (congrArg List.length he) (by simp)
  · intro m q j hm hj hq
    have hj' : q ++ [j] ∉ t.nodes := fun h' => hj (List.mem_append_left _ h')
    rcases hold m q hm with ho | ⟨rfl, rfl⟩
    · rw [hsame ho (fun he => hj (List.mem_append_right _ (List.mem_singleton.mpr he)))]
      exact h.holes m q j ho hj' hq
    · exact hfresh j
  · intro m j hm hmc
    change (t.nodes ++ [p ++ [k]]).length ≤ m at hm
    rw [List.length_append, List.length_singleton] at hm
    rw [hcell m j hmc, if_neg]
    · exact h.unused m j (by omega) hmc
    · rintro ⟨rfl, _⟩
      exact absurd (t.lt_length hn) (by omega)

/-- Writing one cell of a node of the last level stores one leaf. -/
theorem Represents.setLeaf (h : Represents link capacity cell t) {n : ℕ} {p : List K} {k : K}
    (v : W) (hn : t.nodes[n]? = some p) (hd : p.length + 1 = depth)
    (hcell : ∀ m j, m < capacity → cell' m j = if m = n ∧ j = k then v else cell m j) :
    Represents link capacity cell' (t.setLeaf p k v (t.mem_nodes hn)) := by
  have hlt {m q} (hm : t.nodes[m]? = some q) : m < capacity :=
    lt_of_lt_of_le (t.lt_length hm) h.fits
  have hother {m q j} (hm : t.nodes[m]? = some q) (hq : q.length + 1 < depth) :
      cell' m j = cell m j := by
    rw [hcell m j (hlt hm), if_neg]
    rintro ⟨rfl, _⟩
    rw [hn] at hm
    obtain rfl := Option.some.inj hm
    omega
  refine ⟨h.fits, ?_, ?_, ?_, ?_⟩
  · intro m q j hm hq
    change t.nodes[m]? = some q at hm
    rw [hcell m j (hlt hm)]
    change _ = Function.update t.leaf (p ++ [k]) v (q ++ [j])
    by_cases he : m = n ∧ j = k
    · obtain ⟨rfl, rfl⟩ := he
      rw [if_pos ⟨rfl, rfl⟩, Option.some.inj (hm.symm.trans hn), Function.update_self]
    · rw [if_neg he, Function.update_of_ne, h.leaves m q j hm hq]
      intro heq
      obtain ⟨rfl, hj⟩ := List.append_inj' heq rfl
      exact he ⟨t.nodes_inj hm hn, List.cons.inj hj |>.1⟩
  · intro m m' q j hm hm'
    have hq := t.short _ (t.mem_nodes hm')
    rw [hother hm (by simpa using hq)]
    exact h.links m m' q j hm hm'
  · intro m q j hm hj hq
    rw [hother hm hq]
    exact h.holes m q j hm hj hq
  · intro m j hm hmc
    change t.nodes.length ≤ m at hm
    rw [hcell m j hmc, if_neg]
    · exact h.unused m j hm hmc
    · rintro ⟨rfl, _⟩
      have := t.lt_length hn
      omega

end RadixTree
end PiPervisor.Library

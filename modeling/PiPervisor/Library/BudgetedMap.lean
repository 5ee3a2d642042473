import Mathlib.Data.List.Nodup
import Mathlib.Logic.Function.Basic
import Mathlib.Order.Basic
import Mathlib.Order.Lattice
import Mathlib.Algebra.Order.Group.Nat
import Mathlib.Tactic.Common

/-! # Finite maps whose keys draw on a bounded stock

Storing a key first acquires, in order, the resources the key needs and that
are not held yet. A resource once acquired is never given back, also when a
later one is refused. A list of keys is stored up to the first refusal.
-/
namespace PiPervisor.Library

structure BudgetedMap (K V R : Type*) where
  entry : K → Option V
  held : List R

namespace BudgetedMap

inductive Outcome where
  | inserted
  | present
  | exhausted
  deriving DecidableEq, Repr

variable {K V R : Type*} [DecidableEq K] [DecidableEq R]

def empty : BudgetedMap K V R := ⟨fun _ => none, []⟩

/-- The resources held after those of the list have all been granted. -/
def acquire (held : List R) : List R → List R
  | [] => held
  | r :: rs => acquire (if r ∈ held then held else held ++ [r]) rs

/-- Acquire in order; a refusal keeps what was granted before it. -/
def reserve (cap : ℕ) (m : BudgetedMap K V R) : List R → Bool × BudgetedMap K V R
  | [] => (true, m)
  | r :: rs =>
    if r ∈ m.held then reserve cap m rs
    else if m.held.length < cap then reserve cap { m with held := m.held ++ [r] } rs
    else (false, m)

def insert (cap : ℕ) (needs : K → List R) (m : BudgetedMap K V R) (k : K) (v : V) :
    Outcome × BudgetedMap K V R :=
  match reserve cap m (needs k) with
  | (false, m') => (.exhausted, m')
  | (true, m') =>
    match m'.entry k with
    | some _ => (.present, m')
    | none => (.inserted, { m' with entry := Function.update m'.entry k (some v) })

/-- Store the pairs in order, up to the first one that is refused. -/
def insertAll (cap : ℕ) (needs : K → List R) :
    BudgetedMap K V R → List (K × V) → Outcome × BudgetedMap K V R
  | m, [] => (.inserted, m)
  | m, (k, v) :: ps =>
    match insert cap needs m k v with
    | (.inserted, m') => insertAll cap needs m' ps
    | (o, m') => (o, m')

def erase (m : BudgetedMap K V R) (k : K) : BudgetedMap K V R :=
  { m with entry := Function.update m.entry k none }

variable (cap : ℕ) (needs : K → List R)

omit [DecidableEq K] in
theorem length_le_acquire (held rs : List R) : held.length ≤ (acquire held rs).length := by
  induction rs generalizing held with
  | nil => exact le_rfl
  | cons r rs ih =>
    rw [acquire]
    refine le_trans ?_ (ih _)
    split
    · exact le_rfl
    · simp

omit [DecidableEq K] in
theorem reserve_entry (m : BudgetedMap K V R) (rs : List R) :
    (reserve cap m rs).2.entry = m.entry := by
  induction rs generalizing m with
  | nil => rfl
  | cons r rs ih =>
    rw [reserve]
    split
    · exact ih m
    · split
      · exact ih _
      · rfl

omit [DecidableEq K] in
/-- Acquiring a list is acquiring its first resource and then the rest. -/
theorem reserve_cons (m : BudgetedMap K V R) (r : R) (rs : List R) :
    reserve cap m (r :: rs) =
      if (reserve cap m [r]).1 = true then reserve cap (reserve cap m [r]).2 rs
      else (false, (reserve cap m [r]).2) := by
  rw [reserve, reserve]
  split
  · rfl
  · split <;> rfl

omit [DecidableEq K] in
/-- Acquisition succeeds exactly if everything together fits the stock. -/
theorem reserve_eq (m : BudgetedMap K V R) (rs : List R) (h : m.held.length ≤ cap) :
    ((reserve cap m rs).1 = true ↔ (acquire m.held rs).length ≤ cap) ∧
      ((reserve cap m rs).1 = true →
        (reserve cap m rs).2 = { m with held := acquire m.held rs }) := by
  induction rs generalizing m with
  | nil => exact ⟨by simpa [reserve, acquire] using h, fun _ => rfl⟩
  | cons r rs ih =>
    rw [reserve, acquire]
    by_cases hr : r ∈ m.held
    · simp only [if_pos hr]
      exact ih m h
    · simp only [if_neg hr]
      by_cases hc : m.held.length < cap
      · simp only [if_pos hc]
        exact ih { m with held := m.held ++ [r] } (by simpa using Nat.succ_le_of_lt hc)
      · simp only [if_neg hc, Bool.false_eq_true, false_iff, false_implies, and_true]
        have := length_le_acquire (m.held ++ [r]) rs
        simp only [List.length_append, List.length_singleton] at this
        omega

/-- One insertion changes at most its own entry, and only from absent. -/
theorem insert_entry (m : BudgetedMap K V R) (k : K) (v : V) :
    (insert cap needs m k v).2.entry =
      if (insert cap needs m k v).1 = .inserted then Function.update m.entry k (some v)
      else m.entry := by
  have he := reserve_entry cap m (needs k)
  unfold insert
  cases hr : reserve cap m (needs k) with
  | mk ok m' =>
    rw [hr] at he
    cases ok with
    | false => simpa using he
    | true =>
      cases hk : m'.entry k with
      | some x => simpa [hk] using he
      | none => simp only [hk, if_true, ← he]

theorem insert_inserted_iff (m : BudgetedMap K V R) (k : K) (v : V) (h : m.held.length ≤ cap) :
    (insert cap needs m k v).1 = .inserted ↔
      (acquire m.held (needs k)).length ≤ cap ∧ m.entry k = none := by
  have he := reserve_entry cap m (needs k)
  have hs := (reserve_eq cap m (needs k) h).1
  unfold insert
  cases hr : reserve cap m (needs k) with
  | mk ok m' =>
    rw [hr] at he hs
    rw [← hs]
    cases ok with
    | false => simp
    | true =>
      rw [← he]
      cases hk : m'.entry k <;> simp [hk]

theorem insert_held (m : BudgetedMap K V R) (k : K) (v : V) (h : m.held.length ≤ cap)
    (hi : (insert cap needs m k v).1 = .inserted) :
    (insert cap needs m k v).2.held = acquire m.held (needs k) := by
  have hs := (reserve_eq cap m (needs k) h).2
  unfold insert at hi ⊢
  cases hr : reserve cap m (needs k) with
  | mk ok m' =>
    rw [hr] at hs hi
    cases ok with
    | false => simp at hi
    | true =>
      have hm' : m' = { m with held := acquire m.held (needs k) } := hs rfl
      subst hm'
      cases hk : m.entry k <;> simp_all

/-- Whatever is stored after an insertion was stored before or is one of the pairs. -/
theorem insertAll_entry (ps : List (K × V)) (m : BudgetedMap K V R) (k : K) :
    (insertAll cap needs m ps).2.entry k = m.entry k ∨
      ∃ v, (k, v) ∈ ps ∧ (insertAll cap needs m ps).2.entry k = some v := by
  induction ps generalizing m with
  | nil => exact .inl rfl
  | cons p ps ih =>
    obtain ⟨k₀, v₀⟩ := p
    have he := insert_entry cap needs m k₀ v₀
    rw [insertAll]
    cases hi : insert cap needs m k₀ v₀ with
    | mk o m' =>
      rw [hi] at he
      cases o with
      | inserted =>
        rw [if_pos rfl] at he
        dsimp only at he ⊢
        rcases ih m' with h | ⟨v, hv, h⟩
        · rw [he] at h
          by_cases hk : k = k₀
          · subst hk
            rw [Function.update_self] at h
            exact .inr ⟨v₀, List.mem_cons_self, h⟩
          · rw [Function.update_of_ne hk] at h
            exact .inl h
        · exact .inr ⟨v, List.mem_cons_of_mem _ hv, h⟩
      | present =>
        rw [if_neg (by simp)] at he
        exact .inl (congrFun he k)
      | exhausted =>
        rw [if_neg (by simp)] at he
        exact .inl (congrFun he k)

/-- The resources held once all keys of a list have been stored. -/
def demand (needs : K → List R) : List R → List K → List R
  | held, [] => held
  | held, k :: ks => demand needs (acquire held (needs k)) ks

omit [DecidableEq K] in
theorem length_le_demand (held : List R) (ks : List K) :
    held.length ≤ (demand needs held ks).length := by
  induction ks generalizing held with
  | nil => exact le_rfl
  | cons k ks ih => exact (length_le_acquire held (needs k)).trans (ih _)

/-- A whole list goes in exactly if its keys are distinct and absent and everything
it needs fits the stock together. -/
theorem insertAll_inserted_iff (ps : List (K × V)) (m : BudgetedMap K V R)
    (h : m.held.length ≤ cap) :
    (insertAll cap needs m ps).1 = .inserted ↔
      (ps.map Prod.fst).Nodup ∧ (∀ p ∈ ps, m.entry p.1 = none) ∧
        (demand needs m.held (ps.map Prod.fst)).length ≤ cap := by
  induction ps generalizing m with
  | nil => simpa [insertAll, demand] using h
  | cons p ps ih =>
    obtain ⟨k₀, v₀⟩ := p
    have he := insert_entry cap needs m k₀ v₀
    have hiff := insert_inserted_iff cap needs m k₀ v₀ h
    have hheld := insert_held cap needs m k₀ v₀ h
    have hmono := length_le_demand needs (acquire m.held (needs k₀)) (ps.map Prod.fst)
    simp only [List.map_cons, List.nodup_cons, List.forall_mem_cons, demand]
    rw [insertAll]
    cases hi : insert cap needs m k₀ v₀ with
    | mk o m' =>
      rw [hi] at he hiff hheld
      by_cases ho : o = .inserted
      · subst ho
        have hcap := (hiff.mp rfl).1
        have hnone := (hiff.mp rfl).2
        have hm' : m'.held = acquire m.held (needs k₀) := hheld rfl
        rw [if_pos rfl] at he
        dsimp only at he ⊢
        rw [ih m' (by rw [hm']; exact hcap), hm', he]
        constructor
        · rintro ⟨hn, ha, hc⟩
          have hk₀ : k₀ ∉ ps.map Prod.fst := by
            intro hk
            obtain ⟨p, hp, rfl⟩ := List.mem_map.mp hk
            have := ha p hp
            rw [Function.update_self] at this
            cases this
          refine ⟨⟨hk₀, hn⟩, ⟨hnone, fun p hp => ?_⟩, hc⟩
          have := ha p hp
          rwa [Function.update_of_ne] at this
          rintro rfl
          exact hk₀ (List.mem_map_of_mem hp)
        · rintro ⟨⟨hk₀, hn⟩, ⟨_, ha⟩, hc⟩
          refine ⟨hn, fun p hp => ?_, hc⟩
          rw [Function.update_of_ne]
          · exact ha p hp
          · rintro rfl
            exact hk₀ (List.mem_map_of_mem hp)
      · have hno : ¬ ((acquire m.held (needs k₀)).length ≤ cap ∧ m.entry k₀ = none) :=
          fun hh => ho (hiff.mpr hh)
        have hstop : (match ((o, m') : Outcome × BudgetedMap K V R) with
            | (.inserted, m') => insertAll cap needs m' ps
            | (o, m') => (o, m')).1 ≠ .inserted := by
          cases o <;> simp_all
        apply iff_of_false hstop
        rintro ⟨_, ⟨hnone, _⟩, hc⟩
        exact hno ⟨hmono.trans hc, hnone⟩

/-- After a whole list went in, its pairs are stored and nothing else changed. -/
theorem insertAll_entry_of_inserted (ps : List (K × V)) (m : BudgetedMap K V R)
    (h : m.held.length ≤ cap) (hi : (insertAll cap needs m ps).1 = .inserted) :
    (∀ p ∈ ps, (insertAll cap needs m ps).2.entry p.1 = some p.2) ∧
      ∀ k, k ∉ ps.map Prod.fst → (insertAll cap needs m ps).2.entry k = m.entry k := by
  constructor
  · induction ps generalizing m with
    | nil => simp
    | cons p ps ih =>
      obtain ⟨k₀, v₀⟩ := p
      have hall := (insertAll_inserted_iff cap needs _ m h).mp hi
      have hmono := length_le_demand needs (acquire m.held (needs k₀)) (ps.map Prod.fst)
      have hins : (insert cap needs m k₀ v₀).1 = .inserted :=
        (insert_inserted_iff cap needs m k₀ v₀ h).mpr
          ⟨hmono.trans hall.2.2, hall.2.1 _ List.mem_cons_self⟩
      have he := insert_entry cap needs m k₀ v₀
      have hheld := insert_held cap needs m k₀ v₀ h hins
      rw [if_pos hins] at he
      have hlen : (insert cap needs m k₀ v₀).2.held.length ≤ cap := by
        rw [hheld]; exact hmono.trans hall.2.2
      rw [insertAll] at hi ⊢
      obtain ⟨o, m', hom⟩ : ∃ o m', insert cap needs m k₀ v₀ = (o, m') := ⟨_, _, rfl⟩
      rw [hom] at hi hins he hlen ⊢
      dsimp only at hins he hlen
      subst hins
      dsimp only at hi ⊢
      rw [List.forall_mem_cons]
      refine ⟨?_, ih m' hlen hi⟩
      have hk₀ := (List.nodup_cons.mp hall.1).1
      rcases insertAll_entry cap needs ps m' k₀ with hsame | ⟨v, hv, _⟩
      · rw [hsame, he, Function.update_self]
      · exact absurd (List.mem_map_of_mem (f := Prod.fst) hv) hk₀
  · intro k hk
    rcases insertAll_entry cap needs ps m k with hsame | ⟨v, hv, _⟩
    · exact hsame
    · exact absurd (List.mem_map_of_mem (f := Prod.fst) hv) hk

/-- A list that is refused has a pair whose key was taken before or is still absent. -/
theorem insertAll_refused (ps : List (K × V)) (m : BudgetedMap K V R)
    (hn : (ps.map Prod.fst).Nodup) (hi : (insertAll cap needs m ps).1 ≠ .inserted) :
    ∃ p ∈ ps, m.entry p.1 ≠ none ∨ (insertAll cap needs m ps).2.entry p.1 = none := by
  induction ps generalizing m with
  | nil => exact absurd rfl hi
  | cons p ps ih =>
    obtain ⟨k₀, v₀⟩ := p
    rw [List.map_cons, List.nodup_cons] at hn
    have he := insert_entry cap needs m k₀ v₀
    by_cases hk₀ : m.entry k₀ = none
    · rw [insertAll] at hi ⊢
      rcases hins : insert cap needs m k₀ v₀ with ⟨o, m'⟩
      rw [hins] at he hi
      cases o with
      | inserted =>
        rw [if_pos rfl] at he
        dsimp only at he hi ⊢
        obtain ⟨p, hp, hcase⟩ := ih m' hn.2 hi
        have hne : p.1 ≠ k₀ := by
          rintro rfl
          exact hn.1 (List.mem_map.mpr ⟨p, hp, rfl⟩)
        rw [he, Function.update_of_ne hne] at hcase
        exact ⟨p, List.mem_cons_of_mem _ hp, hcase⟩
      | present =>
        rw [if_neg (by simp)] at he
        exact ⟨_, List.mem_cons_self, .inr ((congrFun he k₀).trans hk₀)⟩
      | exhausted =>
        rw [if_neg (by simp)] at he
        exact ⟨_, List.mem_cons_self, .inr ((congrFun he k₀).trans hk₀)⟩
    · exact ⟨_, List.mem_cons_self, .inl hk₀⟩

/-- Storing a list of distinct keys succeeds exactly if every pair was absent and is stored. -/
theorem insertAll_inserted_iff_stored (ps : List (K × V)) (m : BudgetedMap K V R)
    (h : m.held.length ≤ cap) (hn : (ps.map Prod.fst).Nodup) :
    (insertAll cap needs m ps).1 = .inserted ↔ ∀ p ∈ ps,
      m.entry p.1 = none ∧ (insertAll cap needs m ps).2.entry p.1 = some p.2 := by
  constructor
  · intro hi p hp
    exact ⟨((insertAll_inserted_iff cap needs ps m h).mp hi).2.1 p hp,
      (insertAll_entry_of_inserted cap needs ps m h hi).1 p hp⟩
  · intro hall
    by_contra hi
    obtain ⟨p, hp, hcase⟩ := insertAll_refused cap needs ps m hn hi
    rcases hcase with hc | hc
    · exact hc (hall p hp).1
    · rw [(hall p hp).2] at hc
      cases hc

/-- Storing one list after another is storing them together, up to the first refusal. -/
theorem insertAll_append (ps qs : List (K × V)) (m : BudgetedMap K V R) :
    insertAll cap needs m (ps ++ qs) =
      if (insertAll cap needs m ps).1 = .inserted then
        insertAll cap needs (insertAll cap needs m ps).2 qs
      else insertAll cap needs m ps := by
  induction ps generalizing m with
  | nil => rfl
  | cons p ps ih =>
    obtain ⟨k, v⟩ := p
    rw [List.cons_append, insertAll, insertAll]
    cases hi : insert cap needs m k v with
    | mk o m' =>
      cases o with
      | inserted => exact ih m'
      | present => rfl
      | exhausted => rfl

/-- Distinct absent keys are only ever refused for want of resources. -/
theorem insertAll_ne_present (ps : List (K × V)) (m : BudgetedMap K V R)
    (hn : (ps.map Prod.fst).Nodup) (ha : ∀ p ∈ ps, m.entry p.1 = none) :
    (insertAll cap needs m ps).1 ≠ .present := by
  induction ps generalizing m with
  | nil => exact nofun
  | cons p ps ih =>
    obtain ⟨k, v⟩ := p
    rw [List.map_cons, List.nodup_cons] at hn
    have he := insert_entry cap needs m k v
    have hk : m.entry k = none := ha _ List.mem_cons_self
    have hpresent : (insert cap needs m k v).1 ≠ .present := by
      have hr := reserve_entry cap m (needs k)
      rw [insert]
      rcases hres : reserve cap m (needs k) with ⟨ok, m'⟩
      rw [hres] at hr
      cases ok with
      | false => exact nofun
      | true =>
        have hnone : m'.entry k = none := (congrFun hr k).trans hk
        dsimp only
        rw [hnone]
        exact nofun
    rw [insertAll]
    rcases hi : insert cap needs m k v with ⟨o, m'⟩
    rw [hi] at he hpresent
    cases o with
    | inserted =>
      rw [if_pos rfl] at he
      apply ih m' hn.2
      intro p hp
      dsimp only at he
      rw [he, Function.update_of_ne]
      · exact ha p (List.mem_cons_of_mem _ hp)
      · intro hpk
        exact hn.1 (List.mem_map.mpr ⟨p, hp, hpk⟩)
    | present => exact absurd rfl hpresent
    | exhausted => exact nofun

/-- A refused list went in up to one pair, and the refusal is that pair's. -/
theorem insertAll_stops (ps : List (K × V)) (m : BudgetedMap K V R)
    (hi : (insertAll cap needs m ps).1 ≠ .inserted) :
    ∃ done k v rest, ps = done ++ (k, v) :: rest ∧ (insertAll cap needs m done).1 = .inserted ∧
      insertAll cap needs m ps = insert cap needs (insertAll cap needs m done).2 k v := by
  induction ps generalizing m with
  | nil => exact absurd rfl hi
  | cons p ps ih =>
    obtain ⟨k, v⟩ := p
    rw [insertAll] at hi ⊢
    rcases hins : insert cap needs m k v with ⟨o, m'⟩
    rw [hins] at hi
    cases o with
    | inserted =>
      dsimp only at hi ⊢
      obtain ⟨done, k', v', rest, rfl, hdone, hlast⟩ := ih m' hi
      refine ⟨(k, v) :: done, k', v', rest, rfl, ?_⟩
      rw [insertAll, hins]
      exact ⟨hdone, hlast⟩
    | present => exact ⟨[], k, v, ps, rfl, rfl, hins.symm⟩
    | exhausted => exact ⟨[], k, v, ps, rfl, rfl, hins.symm⟩

omit [DecidableEq K] in
/-- What a refused acquisition was refused is not held afterwards. -/
theorem reserve_refused (m : BudgetedMap K V R) (rs : List R)
    (h : (reserve cap m rs).1 = false) : ∃ r ∈ rs, r ∉ (reserve cap m rs).2.held := by
  induction rs generalizing m with
  | nil => cases h
  | cons r rs ih =>
    rw [reserve] at h ⊢
    split at h
    · rename_i hr
      rw [if_pos hr]
      obtain ⟨r', hr', hn⟩ := ih m h
      exact ⟨r', List.mem_cons_of_mem _ hr', hn⟩
    · rename_i hr
      rw [if_neg hr]
      split at h
      · rename_i hc
        rw [if_pos hc]
        obtain ⟨r', hr', hn⟩ := ih _ h
        exact ⟨r', List.mem_cons_of_mem _ hr', hn⟩
      · rename_i hc
        rw [if_neg hc]
        exact ⟨r, List.mem_cons_self, hr⟩

theorem insert_present {m : BudgetedMap K V R} {k : K} {v : V}
    (h : (insert cap needs m k v).1 = .present) : m.entry k ≠ none := by
  have he := reserve_entry cap m (needs k)
  rw [insert] at h
  rcases hr : reserve cap m (needs k) with ⟨ok, m'⟩
  rw [hr] at h he
  cases ok with
  | false => cases h
  | true =>
    rw [← he]
    cases hk : m'.entry k with
    | none => simp [hk] at h
    | some e => exact nofun

theorem insert_exhausted {m : BudgetedMap K V R} {k : K} {v : V}
    (h : (insert cap needs m k v).1 = .exhausted) :
    ∃ r ∈ needs k, r ∉ (insert cap needs m k v).2.held := by
  have hf := reserve_refused cap m (needs k)
  rw [insert] at h ⊢
  rcases hr : reserve cap m (needs k) with ⟨ok, m'⟩
  rw [hr] at h hf
  cases ok with
  | false => exact hf rfl
  | true => cases hk : m'.entry k <;> simp [hk] at h

omit [DecidableEq K] in
theorem mem_acquire {held rs : List R} {r : R} : r ∈ acquire held rs ↔ r ∈ held ∨ r ∈ rs := by
  induction rs generalizing held with
  | nil => simp [acquire]
  | cons a rs ih =>
    rw [acquire, ih]
    split
    · rename_i ha
      rw [List.mem_cons]
      constructor
      · tauto
      · rintro (h | rfl | h)
        · exact .inl h
        · exact .inl ha
        · exact .inr h
    · rw [List.mem_append, List.mem_singleton, List.mem_cons, or_assoc]

omit [DecidableEq K] in
theorem nodup_acquire {held : List R} (h : held.Nodup) (rs : List R) : (acquire held rs).Nodup := by
  induction rs generalizing held with
  | nil => exact h
  | cons a rs ih =>
    rw [acquire]
    split
    · exact ih h
    · rename_i ha
      refine ih (List.nodup_append.mpr ⟨h, List.nodup_singleton a, ?_⟩)
      rintro b hb c hc rfl
      exact ha (List.mem_singleton.mp hc ▸ hb)

omit [DecidableEq K] in
theorem mem_demand {held : List R} {ks : List K} {r : R} :
    r ∈ demand needs held ks ↔ r ∈ held ∨ ∃ k ∈ ks, r ∈ needs k := by
  induction ks generalizing held with
  | nil => simp [demand]
  | cons k ks ih =>
    rw [demand, ih, mem_acquire, or_assoc, List.exists_mem_cons_iff]

omit [DecidableEq K] in
theorem nodup_demand {held : List R} (h : held.Nodup) (ks : List K) :
    (demand needs held ks).Nodup := by
  induction ks generalizing held with
  | nil => exact h
  | cons k ks ih => exact ih (nodup_acquire h _)

omit [DecidableEq K] in
theorem mem_reserve_held {m : BudgetedMap K V R} {rs : List R} {r : R}
    (h : r ∈ (reserve cap m rs).2.held) : r ∈ m.held ∨ r ∈ rs := by
  induction rs generalizing m with
  | nil => exact .inl h
  | cons a rs ih =>
    rw [reserve] at h
    split at h
    · exact (ih h).imp_right (List.mem_cons_of_mem a)
    · split at h
      · rcases ih h with h | h
        · rw [List.mem_append, List.mem_singleton] at h
          rcases h with h | rfl
          · exact .inl h
          · exact .inr List.mem_cons_self
        · exact .inr (List.mem_cons_of_mem a h)
      · exact .inl h

omit [DecidableEq K] in
/-- What is held already takes nothing from the stock. -/
theorem reserve_of_held {m : BudgetedMap K V R} {rs : List R} (h : ∀ r ∈ rs, r ∈ m.held) :
    reserve cap m rs = (true, m) := by
  induction rs with
  | nil => rfl
  | cons r rs ih =>
    rw [reserve, if_pos (h r List.mem_cons_self)]
    exact ih fun r' hr' => h r' (List.mem_cons_of_mem r hr')

theorem insert_held_eq (m : BudgetedMap K V R) (k : K) (v : V) :
    (insert cap needs m k v).2.held = (reserve cap m (needs k)).2.held := by
  rw [insert]
  rcases reserve cap m (needs k) with ⟨ok, m'⟩
  cases ok with
  | false => rfl
  | true => cases h : m'.entry k <;> simp only [h]

/-- The induction rule for what a list holds: it is enough to look at one reservation. -/
theorem insertAll_held_induction {ps : List (K × V)} {Q : List R → Prop}
    (hstep : ∀ m : BudgetedMap K V R, ∀ p ∈ ps, Q m.held → Q (reserve cap m (needs p.1)).2.held)
    {m : BudgetedMap K V R} (h : Q m.held) : Q (insertAll cap needs m ps).2.held := by
  induction ps generalizing m with
  | nil => exact h
  | cons p ps ih =>
    obtain ⟨k, v⟩ := p
    have hone := hstep m (k, v) List.mem_cons_self h
    rw [← insert_held_eq cap needs m k v] at hone
    rw [insertAll]
    rcases hi : insert cap needs m k v with ⟨o, m'⟩
    rw [hi] at hone
    cases o with
    | inserted => exact ih (fun m p hp => hstep m p (List.mem_cons_of_mem _ hp)) hone
    | present => exact hone
    | exhausted => exact hone

theorem mem_insertAll_held {ps : List (K × V)} {m : BudgetedMap K V R} {r : R}
    (h : r ∈ (insertAll cap needs m ps).2.held) :
    r ∈ m.held ∨ ∃ k ∈ ps.map Prod.fst, r ∈ needs k := by
  refine insertAll_held_induction cap needs
    (Q := fun held => ∀ r ∈ held, r ∈ m.held ∨ ∃ k ∈ ps.map Prod.fst, r ∈ needs k) ?_
    (fun r hr => .inl hr) r h
  intro m' p hp hheld r hr
  rcases mem_reserve_held cap hr with hr | hr
  · exact hheld r hr
  · exact .inr ⟨p.1, List.mem_map_of_mem hp, hr⟩

/-- A list whose keys need nothing new draws nothing from the stock. -/
theorem insertAll_held_eq {ps : List (K × V)} {m : BudgetedMap K V R}
    (h : ∀ k ∈ ps.map Prod.fst, ∀ r ∈ needs k, r ∈ m.held) :
    (insertAll cap needs m ps).2.held = m.held := by
  refine insertAll_held_induction cap needs (Q := (· = m.held)) ?_ rfl
  intro m' p hp hheld
  rw [reserve_of_held cap (hheld ▸ h p.1 (List.mem_map_of_mem hp))]
  exact hheld

end BudgetedMap
end PiPervisor.Library

/-
  FINITE TABLES: the keyed maps of a program (`HashMap`, a partition of a key-value store) as
  Mathlib's association lists `AList`, in which a key cannot occur twice by construction.

  Mathlib has lookup, insertion and erasure.  A program also walks its maps — it updates one entry
  in place, rewrites every value, keeps the entries that satisfy a test, erases a batch of keys —
  and each walk needs its one lookup equation.  The order in which a walk meets the entries is NOT
  part of a hash map: `IterOrder` is an arbitrary rearrangement of the entries, passed to every
  operation whose result can depend on it.
-/
import Mathlib.Data.List.AList
import Mathlib.Data.List.Perm.Subperm
import Smppd.Lib.Select

namespace Table

variable {κ ν : Type*}

/-- A table from `κ` to `ν`. -/
abbrev Tbl (κ ν : Type*) := AList (fun _ : κ => ν)

/-- An iteration order: some rearrangement of the entries, whichever they are. -/
structure IterOrder (α : Type*) where
  /-- The entries in the order the walk meets them. -/
  arrange : List α → List α
  perm : ∀ l, (arrange l).Perm l

/-- The order in which the entries happen to be listed. -/
def IterOrder.listed {α : Type*} : IterOrder α := ⟨fun l => l, fun l => List.Perm.refl l⟩

/-- The order that meets the entries satisfying `q` first. -/
def IterOrder.putFirst {α : Type*} (q : α → Bool) : IterOrder α :=
  ⟨Select.putFirst q, Select.putFirst_perm q⟩

theorem IterOrder.mem_arrange {α : Type*} (o : IterOrder α) {l : List α} {x : α} :
    x ∈ o.arrange l ↔ x ∈ l :=
  (o.perm l).mem_iff

/-! ## Rewriting values -/

theorem keys_map_snd (f : κ → ν → ν) (l : List (Sigma fun _ : κ => ν)) :
    (l.map fun p => (⟨p.1, f p.1 p.2⟩ : Sigma fun _ : κ => ν)).keys = l.keys := by
  simp only [List.keys, List.map_map]
  rfl

/-- Rewrite every value. -/
def mapVals (f : κ → ν → ν) (t : Tbl κ ν) : Tbl κ ν :=
  ⟨t.entries.map fun p => ⟨p.1, f p.1 p.2⟩, by
    have h := t.nodupKeys
    rw [List.NodupKeys] at h ⊢
    rw [keys_map_snd]
    exact h⟩

variable [DecidableEq κ]

theorem dlookup_map (f : κ → ν → ν) (k : κ) (l : List (Sigma fun _ : κ => ν)) :
    (l.map fun p => (⟨p.1, f p.1 p.2⟩ : Sigma fun _ : κ => ν)).dlookup k
      = (l.dlookup k).map (f k) := by
  induction l with
  | nil => rfl
  | cons p l ih =>
    obtain ⟨k', v⟩ := p
    by_cases h : k = k'
    · subst h
      simp only [List.map_cons, List.dlookup_cons_eq, Option.map_some]
    · rw [List.map_cons, List.dlookup_cons_ne _ _ h, List.dlookup_cons_ne _ _ h]
      exact ih

@[simp] theorem lookup_mapVals (f : κ → ν → ν) (t : Tbl κ ν) (k : κ) :
    (mapVals f t).lookup k = (t.lookup k).map (f k) :=
  dlookup_map f k t.entries

/-- Rewrite the value under one key, if there is one. -/
def modify (k : κ) (f : ν → ν) (t : Tbl κ ν) : Tbl κ ν :=
  mapVals (fun k' v => if k' = k then f v else v) t

@[simp] theorem lookup_modify_self (k : κ) (f : ν → ν) (t : Tbl κ ν) :
    (modify k f t).lookup k = (t.lookup k).map f := by
  rw [modify, lookup_mapVals]
  simp only [if_pos]

theorem lookup_modify_ne {k k' : κ} (f : ν → ν) (t : Tbl κ ν) (h : k' ≠ k) :
    (modify k f t).lookup k' = t.lookup k' := by
  rw [modify, lookup_mapVals]
  simp only [if_neg h, Option.map_id']

/-! ## Keeping some of the entries -/

/-- Erase a batch of keys, one after the other. -/
def eraseAll (ks : List κ) (t : Tbl κ ν) : Tbl κ ν :=
  ks.foldl (fun t k => t.erase k) t

theorem lookup_eraseAll (ks : List κ) (t : Tbl κ ν) (k : κ) :
    (eraseAll ks t).lookup k = if k ∈ ks then none else t.lookup k := by
  induction ks generalizing t with
  | nil => rfl
  | cons k' ks ih =>
    rw [eraseAll, List.foldl_cons]
    refine (ih (t.erase k')).trans ?_
    by_cases h : k = k'
    · subst h
      simp only [AList.lookup_erase, ite_self, List.mem_cons_self, if_true]
    · rw [AList.lookup_erase_ne h]
      simp only [List.mem_cons, h, false_or]

/-- The values of a table are the ones found under its keys. -/
theorem mem_entries {t : Tbl κ ν} {k : κ} {v : ν} :
    (⟨k, v⟩ : Sigma fun _ : κ => ν) ∈ t.entries ↔ t.lookup k = some v :=
  AList.mem_lookup_iff.symm

/-- What is found after one entry is put in: that entry, or what was there under another key. -/
theorem lookup_insert_eq_some {t : Tbl κ ν} {k k' : κ} {v v' : ν} :
    (t.insert k v).lookup k' = some v' ↔ (k' = k ∧ v' = v) ∨ (k' ≠ k ∧ t.lookup k' = some v') := by
  by_cases h : k' = k
  · subst h
    rw [AList.lookup_insert, Option.some.injEq, eq_comm]
    simp only [true_and, ne_eq, not_true_eq_false, false_and, or_false]
  · rw [AList.lookup_insert_ne h]
    simp only [h, false_and, ne_eq, not_false_eq_true, true_and, false_or]

/-- What is found after one key is erased: what was there under another key. -/
theorem lookup_erase_eq_some {t : Tbl κ ν} {k k' : κ} {v : ν} :
    (t.erase k).lookup k' = some v ↔ k' ≠ k ∧ t.lookup k' = some v := by
  by_cases h : k' = k
  · subst h
    rw [AList.lookup_erase]
    simp only [reduceCtorEq, ne_eq, not_true_eq_false, false_and]
  · rw [AList.lookup_erase_ne h]
    simp only [h, ne_eq, not_false_eq_true, true_and]

/-- There is nothing to erase. -/
theorem erase_of_lookup_eq_none {t : Tbl κ ν} {k : κ} (h : t.lookup k = none) : t.erase k = t :=
  AList.ext (List.kerase_of_notMem_keys (AList.lookup_eq_none.mp h))

/-- Keep the entries whose value passes the test. -/
def retain (keep : ν → Bool) (t : Tbl κ ν) : Tbl κ ν :=
  eraseAll ((t.entries.filter fun e => !keep e.2).map Sigma.fst) t

theorem lookup_retain_eq_some {keep : ν → Bool} {t : Tbl κ ν} {k : κ} {v : ν} :
    (retain keep t).lookup k = some v ↔ t.lookup k = some v ∧ keep v = true := by
  rw [retain, lookup_eraseAll]
  have hmem : k ∈ (t.entries.filter fun e => !keep e.2).map Sigma.fst ↔
      ∃ w, t.lookup k = some w ∧ keep w = false := by
    rw [List.mem_map]
    constructor
    · rintro ⟨⟨k', w⟩, he, rfl⟩
      obtain ⟨hin, hkeep⟩ := List.mem_filter.mp he
      exact ⟨w, mem_entries.mp hin, by simpa using hkeep⟩
    · rintro ⟨w, hw, hkeep⟩
      exact ⟨⟨k, w⟩, List.mem_filter.mpr ⟨mem_entries.mpr hw, by simpa using hkeep⟩, rfl⟩
  split
  · next hout =>
    obtain ⟨w, hw, hkeep⟩ := hmem.mp hout
    refine iff_of_false (Option.some_ne_none v).symm ?_
    rintro ⟨hv, hkept⟩
    obtain rfl : w = v := Option.some.inj (hw.symm.trans hv)
    rw [hkeep] at hkept
    cases hkept
  · next hin =>
    refine ⟨fun hv => ⟨hv, ?_⟩, fun hv => hv.1⟩
    cases hkeep : keep v with
    | true => rfl
    | false => exact absurd (hmem.mpr ⟨v, hv, hkeep⟩) hin

/-- `entry(k).or_insert(v)`: put the value in where there is none. -/
def orInsert (k : κ) (v : ν) (t : Tbl κ ν) : Tbl κ ν :=
  if (t.lookup k).isSome then t else t.insert k v

@[simp] theorem lookup_orInsert_self (k : κ) (v : ν) (t : Tbl κ ν) :
    (orInsert k v t).lookup k = some ((t.lookup k).getD v) := by
  unfold orInsert
  cases h : t.lookup k with
  | none =>
    rw [if_neg (by simp)]
    exact AList.lookup_insert t
  | some w =>
    rw [if_pos (by simp), h]
    rfl

theorem lookup_orInsert_ne {k k' : κ} (v : ν) (t : Tbl κ ν) (h : k' ≠ k) :
    (orInsert k v t).lookup k' = t.lookup k' := by
  unfold orInsert
  split
  · rfl
  · exact AList.lookup_insert_ne h

/-- An entry stays when one is rewritten. -/
theorem exists_lookup_modify {t : Tbl κ ν} {k : κ} (h : ∃ v, t.lookup k = some v) (k' : κ) (f : ν → ν) :
    ∃ v, (modify k' f t).lookup k = some v := by
  obtain ⟨v, hv⟩ := h
  rw [modify, lookup_mapVals, hv]
  exact ⟨_, rfl⟩

/-- There is an entry where one was, and where one is put in. -/
theorem exists_lookup_orInsert {t : Tbl κ ν} {k k' : κ} (h : k = k' ∨ ∃ v, t.lookup k = some v) (v : ν) :
    ∃ w, (orInsert k' v t).lookup k = some w := by
  by_cases hk : k = k'
  · rw [hk, lookup_orInsert_self]
    exact ⟨_, rfl⟩
  · rw [lookup_orInsert_ne v t hk]
    exact h.resolve_left hk

/-! ## Filling a table -/

section Fill

variable {α : Type*} {key : α → κ} {val : α → ν}

/-- What is found in a table that a list was inserted into comes from the list, or was there before. -/
theorem lookup_foldl_insert {l : List α} {t : Tbl κ ν} {k : κ} {v : ν}
    (h : (l.foldl (fun t a => t.insert (key a) (val a)) t).lookup k = some v) :
    t.lookup k = some v ∨ ∃ a ∈ l, key a = k ∧ v = val a := by
  induction l generalizing t with
  | nil => exact Or.inl h
  | cons a l ih =>
    rcases ih h with hold | ⟨a', hmem, ha'⟩
    · by_cases hk : k = key a
      · subst hk
        rw [AList.lookup_insert] at hold
        cases hold
        exact Or.inr ⟨a, List.mem_cons_self, rfl, rfl⟩
      · rw [AList.lookup_insert_ne hk] at hold
        exact Or.inl hold
    · exact Or.inr ⟨a', List.mem_cons_of_mem _ hmem, ha'⟩

/-- A key that is not inserted keeps its value. -/
theorem lookup_foldl_insert_of_notMem {l : List α} {t : Tbl κ ν} {k : κ} (h : k ∉ l.map key) :
    (l.foldl (fun t a => t.insert (key a) (val a)) t).lookup k = t.lookup k := by
  induction l generalizing t with
  | nil => rfl
  | cons a l ih =>
    rw [List.map_cons, List.mem_cons, not_or] at h
    rw [List.foldl_cons, ih h.2, AList.lookup_insert_ne h.1]

/-- Where keys are inserted once, each is found with its value. -/
theorem lookup_foldl_insert_of_mem {l : List α} {t : Tbl κ ν} (hunique : (l.map key).Nodup) {a : α}
    (hmem : a ∈ l) : (l.foldl (fun t a => t.insert (key a) (val a)) t).lookup (key a) = some (val a) := by
  induction l generalizing t with
  | nil => cases hmem
  | cons b l ih =>
    rw [List.map_cons, List.nodup_cons] at hunique
    rw [List.foldl_cons]
    rcases List.mem_cons.mp hmem with rfl | hlater
    · rw [lookup_foldl_insert_of_notMem hunique.1, AList.lookup_insert]
    · exact ih hunique.2 hlater

end Fill

/-! ## A walk and one key -/

section Walk

variable {σ β : Type*} (k : κ) (observe : σ → β) (change : ν → β → β) {step : σ → (Sigma fun _ : κ => ν) → σ}

theorem observe_foldl (hother : ∀ s p, p.1 ≠ k → observe (step s p) = observe s)
    (hself : ∀ s v, observe (step s ⟨k, v⟩) = change v (observe s)) {l : List (Sigma fun _ : κ => ν)}
    (hunique : l.NodupKeys) (s : σ) :
    observe (l.foldl step s) = (l.dlookup k).elim (observe s) fun v => change v (observe s) := by
  induction l generalizing s with
  | nil => rfl
  | cons p l ih =>
    obtain ⟨k', v⟩ := p
    obtain ⟨hnew, hrest⟩ := List.nodupKeys_cons.mp hunique
    rw [List.foldl_cons, ih hrest]
    by_cases hk : k = k'
    · subst hk
      rw [List.dlookup_cons_eq, List.dlookup_eq_none.mpr hnew]
      exact hself s v
    · rw [List.dlookup_cons_ne _ _ hk, hother s _ (Ne.symm hk)]

/-- **What a walk changes**: where only the entry of one key changes what is observed, that is changed once if
    the key is there, in whatever order the entries are met. -/
theorem observe_walk (hother : ∀ s p, p.1 ≠ k → observe (step s p) = observe s)
    (hself : ∀ s v, observe (step s ⟨k, v⟩) = change v (observe s)) (o : IterOrder (Sigma fun _ : κ => ν))
    (t : Tbl κ ν) (s : σ) :
    observe ((o.arrange t.entries).foldl step s) =
      (t.lookup k).elim (observe s) fun v => change v (observe s) := by
  have hunique : (o.arrange t.entries).NodupKeys := (List.perm_nodupKeys (o.perm t.entries)).mpr t.nodupKeys
  rw [observe_foldl k observe change hother hself hunique, List.perm_dlookup k hunique (o.perm t.entries)]
  rfl

end Walk

/-! ## Values under keys of their own -/

/-- The values of a table. -/
def vals (t : Tbl κ ν) : List ν := t.entries.map Sigma.snd

/-- Put in values one after the other, each under its key. -/
def insertAll (key : ν → κ) (vs : List ν) (t : Tbl κ ν) : Tbl κ ν := vs.foldl (fun t v => t.insert (key v) v) t

theorem insertAll_cons (key : ν → κ) (v : ν) (vs : List ν) (t : Tbl κ ν) :
    insertAll key (v :: vs) t = insertAll key vs (t.insert (key v) v) := rfl

/-- Each key was there before, or is that of a value put in. -/
theorem mem_insertAll {key : ν → κ} {vs : List ν} {t : Tbl κ ν} {k : κ} (h : k ∈ insertAll key vs t) :
    k ∈ t ∨ k ∈ vs.map key := by
  induction vs generalizing t with
  | nil => exact Or.inl h
  | cons v vs ih =>
    rw [List.map_cons, List.mem_cons]
    rcases ih h with hold | hlater
    · rcases (AList.mem_insert _).mp hold with hk | hold
      · exact Or.inr (Or.inl hk)
      · exact Or.inl hold
    · exact Or.inr (Or.inr hlater)

/-- Values under new keys, no two of them equal, come to those that are there. -/
theorem vals_insertAll {key : ν → κ} {vs : List ν} {t : Tbl κ ν} (hunique : (vs.map key).Nodup)
    (hnew : ∀ v ∈ vs, key v ∉ t) : (vals (insertAll key vs t)).Perm (vs ++ vals t) := by
  induction vs generalizing t with
  | nil => exact List.Perm.refl _
  | cons v vs ih =>
    rw [List.map_cons, List.nodup_cons] at hunique
    have hv : key v ∉ t := hnew v List.mem_cons_self
    have hlater : ∀ w ∈ vs, key w ∉ t.insert (key v) v := by
      intro w hw hmem
      rcases (AList.mem_insert _).mp hmem with heq | hold
      · exact hunique.1 (heq ▸ List.mem_map_of_mem hw)
      · exact hnew w (List.mem_cons_of_mem v hw) hold
    have hvals : vals (t.insert (key v) v) = v :: vals t := by
      rw [vals, AList.entries_insert_of_notMem hv]
      rfl
    rw [insertAll_cons]
    refine (ih hunique.2 hlater).trans ?_
    rw [hvals]
    exact List.perm_middle

/-- **All values are kept just when no two have one key.** -/
theorem vals_insertAll_perm_iff (key : ν → κ) (vs : List ν) :
    (vals (insertAll key vs ∅)).Perm vs ↔ (vs.map key).Nodup := by
  constructor
  · intro hperm
    have hsub : (insertAll key vs ∅).keys ⊆ vs.map key := by
      intro k hk
      rcases mem_insertAll hk with hnone | hmem
      · exact absurd hnone (AList.notMem_empty k)
      · exact hmem
    have hlength : (vs.map key).length ≤ (insertAll key vs ∅).keys.length := by
      have hvals := hperm.length_eq
      rw [vals, List.length_map] at hvals
      rw [List.length_map, ← hvals]
      exact (List.length_map _).ge
    -- Keys are distinct: as many as there are values, they are the keys of the values.
    have hkeys := List.Nodup.subperm (AList.keys_nodup (insertAll key vs ∅)) hsub
    exact (hkeys.perm_of_length_le hlength).nodup_iff.mp (AList.keys_nodup _)
  · intro hunique
    have hall := vals_insertAll hunique fun v _ => AList.notMem_empty (key v)
    rwa [show vals (∅ : Tbl κ ν) = [] from rfl, List.append_nil] at hall

end Table

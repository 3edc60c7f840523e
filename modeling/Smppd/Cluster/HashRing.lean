/-
  THE HASH RING: which endpoint `ConsistentHash::select_by_key` gives a key.

  The ring holds the hashes of the virtual nodes in order, so the binary search with its return to the start
  finds the next hash from the key's on (`selectByKey_eq_some_iff`).  Taking an endpoint away takes its virtual
  nodes off the ring and leaves the others where they were; a key whose next hash is still there keeps its
  endpoint (`removal_moves_only_its_keys`).
-/
import Mathlib.Data.List.Flatten
import Smppd.Cluster.Balancers

set_option linter.dupNamespace false

namespace Smppd.Cluster.ConsistentHash

open BinarySearch

/-! ## The nodes of a ring -/

/-- The number of virtual nodes an endpoint gets. -/
def replicasOf (replicas : Nat) : Nat := if replicas = 0 then 100 else replicas

/-- The hashes of the virtual nodes of all endpoints. -/
def hashes (endpoints : List EndpointConfig) (replicas : Nat) : List UInt64 :=
  (nodes endpoints (replicasOf replicas)).map Prod.fst

theorem mem_nodes {endpoints : List EndpointConfig} {replicas : Nat} {h : UInt64} {idx : Nat} :
    (h, idx) ∈ nodes endpoints replicas ↔
      ∃ ep, endpoints[idx]? = some ep ∧ ∃ i < replicas, h = hash s!"{ep.address}:{i}" := by
  unfold nodes virtualNodes
  rw [List.mem_flatMap]
  constructor
  · rintro ⟨⟨ep, idx'⟩, hmem, hnode⟩
    obtain ⟨i, hi, heq⟩ := List.mem_map.mp hnode
    cases heq
    exact ⟨ep, List.mk_mem_zipIdx_iff_getElem?.mp hmem, i, List.mem_range.mp hi, rfl⟩
  · rintro ⟨ep, hep, i, hi, rfl⟩
    exact ⟨(ep, idx), List.mk_mem_zipIdx_iff_getElem?.mpr hep,
      List.mem_map.mpr ⟨i, List.mem_range.mpr hi, rfl⟩⟩

/-- Hashes do not depend on the positions of the endpoints. -/
theorem hashes_eq (endpoints : List EndpointConfig) (replicas : Nat) : hashes endpoints replicas =
    endpoints.flatMap fun ep => (List.range (replicasOf replicas)).map fun i => hash s!"{ep.address}:{i}" := by
  unfold hashes nodes
  have hfst : ∀ e : EndpointConfig × Nat, (virtualNodes (replicasOf replicas) e.1 e.2).map Prod.fst =
      (List.range (replicasOf replicas)).map fun i => hash s!"{e.1.address}:{i}" := fun e => List.map_map
  have hlist : endpoints = endpoints.zipIdx.map Prod.fst := (List.zipIdx_map_fst 0 endpoints).symm
  rw [List.map_flatMap]
  simp only [hfst]
  conv_rhs => rw [hlist, List.flatMap_map]

theorem perm_ring (endpoints : List EndpointConfig) (replicas : Nat) :
    (new endpoints replicas).ring.Perm (nodes endpoints (replicasOf replicas)) :=
  List.perm_insertionSort _ _

theorem sorted_ring (endpoints : List EndpointConfig) (replicas : Nat) :
    (new endpoints replicas).ring.Pairwise fun a b => a.1.toNat ≤ b.1.toNat := by
  have htotal : Std.Total fun a b : UInt64 × Nat => a.1 ≤ b.1 := ⟨fun a b => UInt64.le_total a.1 b.1⟩
  have htrans : IsTrans (UInt64 × Nat) fun a b => a.1 ≤ b.1 := ⟨fun a b c => UInt64.le_trans⟩
  exact (List.pairwise_insertionSort _ _).imp fun h => UInt64.le_iff_toNat_le.mp h

/-! ## The endpoint of a key -/

section Keys

variable {endpoints : List EndpointConfig} {replicas : Nat}

/-- What a search leads to is the owner of the next hash. -/
theorem next_of_selectByKey {key : String} {idx : Nat} (h : (new endpoints replicas).selectByKey key = some idx) :
    ∃ p, Next ((hashes endpoints replicas).map UInt64.toNat) (hash key).toNat p.toNat ∧
      (p, idx) ∈ nodes endpoints (replicasOf replicas) := by
  unfold selectByKey at h
  split at h
  · cases h
  · rename_i hempty
    have hne : (new endpoints replicas).ring ≠ [] := fun hnil => hempty (List.isEmpty_iff.mpr hnil)
    have hperm := perm_ring endpoints replicas
    obtain ⟨node, hnode, hnext⟩ : ∃ node, (new endpoints replicas).ring[atOrAfter
        (fun node => compare node.1.toNat (hash key).toNat) (new endpoints replicas).ring]? = some node ∧
          Next ((new endpoints replicas).ring.map fun node => node.1.toNat) (hash key).toNat node.1.toNat :=
      next_atOrAfter (fun _ => rfl) (sorted_ring endpoints replicas) hne
    have hidx : ((new endpoints replicas).ring[atOrAfter
        (fun node => compare node.1.toNat (hash key).toNat) (new endpoints replicas).ring]?).map Prod.snd =
          some idx := h
    rw [hnode] at hidx
    obtain rfl : node.2 = idx := Option.some.inj hidx
    refine ⟨node.1, ?_, hperm.mem_iff.mp (List.mem_of_getElem? hnode)⟩
    have hpoints : ∀ q, q ∈ (new endpoints replicas).ring.map (fun node => node.1.toNat) ↔
        q ∈ (hashes endpoints replicas).map UInt64.toNat := by
      intro q
      unfold hashes
      rw [List.map_map]
      exact (hperm.map _).mem_iff
    exact hnext.of_subset (fun q hq => (hpoints q).mpr hq) ((hpoints _).mp hnext.1)

/-- With an endpoint there is a ring, and a search leads somewhere. -/
theorem exists_selectByKey (hsome : endpoints ≠ []) (replicas : Nat) (key : String) :
    ∃ idx, (new endpoints replicas).selectByKey key = some idx := by
  have hreplicas : 0 < replicasOf replicas := by
    unfold replicasOf
    split
    · omega
    · omega
  obtain ⟨ep, rest, rfl⟩ := List.exists_cons_of_ne_nil hsome
  have hmem : (hash s!"{ep.address}:{0}", 0) ∈ (new (ep :: rest) replicas).ring :=
    (perm_ring _ _).mem_iff.mpr (mem_nodes.mpr ⟨ep, rfl, 0, hreplicas, rfl⟩)
  have hne : (new (ep :: rest) replicas).ring ≠ [] := List.ne_nil_of_mem hmem
  obtain ⟨node, hnode, -⟩ : ∃ node, (new (ep :: rest) replicas).ring[atOrAfter
      (fun node => compare node.1.toNat (hash key).toNat) (new (ep :: rest) replicas).ring]? = some node ∧
        Next ((new (ep :: rest) replicas).ring.map fun node => node.1.toNat) (hash key).toNat node.1.toNat :=
    next_atOrAfter (fun _ => rfl) (sorted_ring _ _) hne
  refine ⟨node.2, ?_⟩
  unfold selectByKey
  rw [if_neg (mt List.isEmpty_iff.mp hne)]
  exact congrArg (Option.map Prod.snd) hnode

/-- Where the hashes are distinct, the owner of the next hash is what is selected. -/
theorem selectByKey_eq_some_iff (hdistinct : (hashes endpoints replicas).Nodup) {key : String} {idx : Nat} :
    (new endpoints replicas).selectByKey key = some idx ↔
      ∃ p, Next ((hashes endpoints replicas).map UInt64.toNat) (hash key).toNat p.toNat ∧
        (p, idx) ∈ nodes endpoints (replicasOf replicas) := by
  refine ⟨next_of_selectByKey, ?_⟩
  rintro ⟨p, hnext, hmem⟩
  have hsome : endpoints ≠ [] := by
    rintro rfl
    exact absurd hmem List.not_mem_nil
  obtain ⟨idx', hselect⟩ := exists_selectByKey hsome replicas key
  obtain ⟨p', hnext', hmem'⟩ := next_of_selectByKey hselect
  obtain rfl : p = p' := UInt64.toNat_inj.mp (hnext.unique hnext')
  -- a hash has one owner
  have hsame : (p, idx) = (p, idx') := List.inj_on_of_nodup_map hdistinct hmem hmem' rfl
  obtain ⟨-, rfl⟩ := Prod.mk.inj hsame
  exact hselect

end Keys

/-! ## Taking an endpoint away -/

/-- The address of the endpoint that a key is given. -/
def addressFor (endpoints : List EndpointConfig) (replicas : Nat) (key : String) : Option String :=
  ((new endpoints replicas).selectByKey key).bind fun idx => endpoints[idx]?.map fun ep => ep.address

/-- Without an endpoint the ring has its other hashes. -/
theorem hashes_eraseIdx (endpoints : List EndpointConfig) (replicas removed : Nat) :
    (hashes (endpoints.eraseIdx removed) replicas).Sublist (hashes endpoints replicas) := by
  rw [hashes_eq, hashes_eq]
  exact (List.eraseIdx_sublist endpoints removed).flatMap _

/-- A node of another endpoint stays, and its endpoint is found at a place of the shorter list. -/
theorem mem_nodes_eraseIdx {endpoints : List EndpointConfig} {replicas removed idx : Nat} {ep : EndpointConfig}
    {p : UInt64} (hep : endpoints[idx]? = some ep) (hne : idx ≠ removed) (hmem : (p, idx) ∈ nodes endpoints replicas) :
    ∃ idx' : Nat, (endpoints.eraseIdx removed)[idx']? = some ep ∧
      (p, idx') ∈ nodes (endpoints.eraseIdx removed) replicas := by
  obtain ⟨ep', hep', i, hi, hp⟩ := mem_nodes.mp hmem
  obtain rfl : ep = ep' := Option.some.inj (hep.symm.trans hep')
  have hplace : ∃ idx' : Nat, (endpoints.eraseIdx removed)[idx']? = some ep := by
    rcases Nat.lt_or_gt_of_ne hne with hlt | hgt
    · refine ⟨idx, ?_⟩
      rw [List.getElem?_eraseIdx, if_pos hlt, hep]
    · refine ⟨idx - 1, ?_⟩
      have hback : idx - 1 + 1 = idx := by omega
      rw [List.getElem?_eraseIdx, if_neg (by omega), hback, hep]
  obtain ⟨idx', hidx'⟩ := hplace
  exact ⟨idx', hidx', mem_nodes.mpr ⟨ep, hidx', i, hi, hp⟩⟩

/-- **Consistent hashing.**  A key is given the owner of the least hash that is not below its own, or of the
    least hash of the ring; and taking an endpoint away moves only the keys that it was given. -/
theorem consistent_hashing (endpoints : List EndpointConfig) (replicas : Nat)
    (hdistinct : (hashes endpoints replicas).Nodup) (key : String) :
    (endpoints ≠ [] → ∃ idx, (new endpoints replicas).selectByKey key = some idx) ∧
      (∀ idx, (new endpoints replicas).selectByKey key = some idx ↔
        ∃ p, Next ((hashes endpoints replicas).map UInt64.toNat) (hash key).toNat p.toNat ∧
          (p, idx) ∈ nodes endpoints (replicasOf replicas)) ∧
      ∀ (removed : Nat) (e : EndpointConfig), endpoints[removed]? = some e →
        addressFor endpoints replicas key ≠ some e.address →
          addressFor (endpoints.eraseIdx removed) replicas key = addressFor endpoints replicas key := by
  refine ⟨fun hsome => exists_selectByKey hsome replicas key, fun idx => selectByKey_eq_some_iff hdistinct,
    fun removed e he hother => ?_⟩
  have hsome : endpoints ≠ [] := List.ne_nil_of_mem (List.mem_of_getElem? he)
  obtain ⟨idx, hselect⟩ := exists_selectByKey hsome replicas key
  obtain ⟨p, hnext, hmem⟩ := next_of_selectByKey hselect
  obtain ⟨ep, hep, -⟩ := mem_nodes.mp hmem
  have haddress : addressFor endpoints replicas key = some ep.address := by
    unfold addressFor
    rw [hselect, Option.bind_some, hep]
    rfl
  rw [haddress] at hother ⊢
  have hne : idx ≠ removed := by
    rintro rfl
    exact hother (congrArg (fun ep => some ep.address) (Option.some.inj (hep.symm.trans he)))
  -- the next hash is on the shorter ring too, and it is next there
  obtain ⟨idx', hep', hmem'⟩ := mem_nodes_eraseIdx hep hne hmem
  have hsub := hashes_eraseIdx endpoints replicas removed
  have hnext' : Next ((hashes (endpoints.eraseIdx removed) replicas).map UInt64.toNat) (hash key).toNat p.toNat :=
    hnext.of_subset (fun q hq => (hsub.map UInt64.toNat).subset hq)
      (List.mem_map_of_mem (List.mem_map.mpr ⟨(p, idx'), hmem', rfl⟩))
  have hselect' := (selectByKey_eq_some_iff (hsub.nodup hdistinct)).mpr ⟨p, hnext', hmem'⟩
  unfold addressFor
  rw [hselect', Option.bind_some, hep']
  rfl

/-- Two endpoints with two virtual nodes each: a key that the second is not given keeps its endpoint when the
    second goes. -/
theorem consistent_hashing_of_two :
    (hashes [⟨"a:1", "id", "pw", "", 1⟩, ⟨"b:1", "id", "pw", "", 1⟩] 2).Nodup ∧ ∀ key,
      addressFor [⟨"a:1", "id", "pw", "", 1⟩, ⟨"b:1", "id", "pw", "", 1⟩] 2 key ≠ some "b:1" →
        addressFor [⟨"a:1", "id", "pw", "", 1⟩] 2 key =
          addressFor [⟨"a:1", "id", "pw", "", 1⟩, ⟨"b:1", "id", "pw", "", 1⟩] 2 key := by
  have hdistinct : (hashes [⟨"a:1", "id", "pw", "", 1⟩, ⟨"b:1", "id", "pw", "", 1⟩] 2).Nodup := by decide +kernel
  exact ⟨hdistinct, fun key => (consistent_hashing _ 2 hdistinct key).2.2 1 _ rfl⟩

end Smppd.Cluster.ConsistentHash

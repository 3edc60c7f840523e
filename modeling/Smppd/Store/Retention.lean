/-
  RETENTION: `MemoryStorage` never loses a live message.

  Three paths remove messages from the map — the capacity pruning inside `store`, the age pruning
  of `prune_terminal` and an explicit `delete` — and an expiry pass rewrites it in place.  The
  machine below runs any sequence of the operations (`store` only with an id not currently stored);
  `contentAfter` is what the sequence has written to one message, computed with no store at all.

  * `step_get` — ONE operation either leaves a message present with the content it wrote, or removes
    it while it is terminal, or is a `delete` of it;
  * `run_get` — hence along every run, by induction, a message not passed to `delete` is present with
    the content last written until the moment it is removed, and is terminal at that moment;
  * `victims_spec` — what the pruning inside `store` removes: as many terminal messages as the
    percentage says (all of them if there are fewer), the longest not updated first.
-/
import Smppd.Lib.Machine
import Smppd.Store.Memory

namespace Smppd.Store.Retention

open Table Machine MemoryStorage

/-! ## The machine of store operations -/

/-- One call on the store, with what it reads from its environment. -/
inductive Op where
  | store (order : IterOrder Entry) (message : StoredMessage)
  | update (id : MessageId) (f : StoredMessage → StoredMessage)
  | delete (id : MessageId)
  | expireOld (clock : Clock) (ttl : Duration)
  | pruneTerminal (clock : Clock) (maxAge : Duration)

/-- One operation; a `store` is enabled when its id is not currently stored. -/
def step (s : MemoryStorage) : Op → Option MemoryStorage
  | .store order message =>
    match s.get message.id with
    | some _ => none
    | none => some (s.store order message)
  | .update id f => some (s.update id f).1
  | .delete id => some (s.delete id).1
  | .expireOld clock ttl => some (s.expireOld clock ttl).1
  | .pruneTerminal clock maxAge => some (s.pruneTerminal clock maxAge).1

/-- The operation is `delete(id)`. -/
def Op.Deletes (id : MessageId) : Op → Prop
  | .delete id' => id' = id
  | _ => False

/-- What one operation writes to the message stored under `id`. -/
def touch (id : MessageId) (m : StoredMessage) : Op → StoredMessage
  | .update id' f => if id' = id then f m else m
  | .expireOld clock ttl => expireOne clock ttl m
  | _ => m

/-- The content of a message as last updated, from what the operations wrote to it. -/
def contentAfter (id : MessageId) (m : StoredMessage) (ops : List Op) : StoredMessage :=
  ops.foldl (touch id) m

/-! ## One operation -/

/-- When a `store` is enabled, and what it does. -/
theorem step_store_eq_some {s s' : MemoryStorage} {order : IterOrder Entry} {m : StoredMessage} :
    step s (.store order m) = some s' ↔ s.get m.id = none ∧ s.store order m = s' := by
  simp only [step]
  cases s.get m.id with
  | some x => exact ⟨nofun, fun h => nomatch h.1⟩
  | none => exact ⟨fun h => ⟨rfl, Option.some.inj h⟩, fun h => congrArg some h.2⟩

/-- **The step lemma.**  An operation other than `delete(id)` keeps the message with the content it
    wrote, or removes it while it is terminal. -/
theorem step_get {s s' : MemoryStorage} {op : Op} {id : MessageId} {m : StoredMessage}
    (hstep : step s op = some s') (hget : s.get id = some m) (hdel : ¬ op.Deletes id) :
    s'.get id = some (touch id m op) ∨
      (s'.get id = none ∧ m.state.isTerminal = true) := by
  cases op with
  | store order message =>
    obtain ⟨hfree, rfl⟩ := step_store_eq_some.mp hstep
    have hne : id ≠ message.id := by
      rintro rfl
      rw [hget] at hfree
      cases hfree
    rw [get_store, if_neg hne]
    by_cases hv : s.atLimit = true ∧ id ∈ s.victims order
    · obtain ⟨m', hget', hterm⟩ := terminal_of_mem_victims hv.2
      obtain rfl : m = m' := Option.some.inj (hget.symm.trans hget')
      exact Or.inr ⟨if_pos hv, hterm⟩
    · exact Or.inl ((if_neg hv).trans hget)
  | update id' f =>
    obtain rfl : (s.update id' f).1 = s' := Option.some.inj hstep
    left
    rw [get_update, hget]
    by_cases h : id = id'
    · subst h; simp only [touch, if_true, Option.map_some]
    · simp only [touch, if_neg h, if_neg (Ne.symm h)]
  | delete id' =>
    obtain rfl : (s.delete id').1 = s' := Option.some.inj hstep
    have hne : id ≠ id' := fun h => hdel h.symm
    left
    rw [get_delete, if_neg hne, hget]
    rfl
  | expireOld clock ttl =>
    obtain rfl : (s.expireOld clock ttl).1 = s' := Option.some.inj hstep
    left
    rw [get_expireOld, hget]
    rfl
  | pruneTerminal clock maxAge =>
    obtain rfl : (s.pruneTerminal clock maxAge).1 = s' := Option.some.inj hstep
    rw [get_pruneTerminal]
    by_cases hv : id ∈ s.outdated clock maxAge
    · obtain ⟨m', hget', hterm, -⟩ := mem_outdated.mp hv
      obtain rfl : m = m' := Option.some.inj (hget.symm.trans hget')
      exact Or.inr ⟨if_pos hv, hterm⟩
    · exact Or.inl ((if_neg hv).trans hget)

/-! ## Every run -/

/-- The message was removed by some operation of `ops`, run from `s`: it was present with the
    content written so far, it was terminal, and that operation removed it. -/
def RemovedTerminal (s : MemoryStorage) (id : MessageId) (m : StoredMessage) (ops : List Op) :
    Prop :=
  ∃ done op rest s₁ s₂, ops = done ++ op :: rest ∧ run step s done = some s₁ ∧
    step s₁ op = some s₂ ∧ s₁.get id = some (contentAfter id m done) ∧
    (contentAfter id m done).state.isTerminal = true ∧ s₂.get id = none

/-- **The run lemma**, by induction on the operations. -/
theorem run_get {s s' : MemoryStorage} {ops : List Op} {id : MessageId} {m : StoredMessage}
    (hrun : run step s ops = some s') (hget : s.get id = some m)
    (hdel : ∀ op ∈ ops, ¬ op.Deletes id) :
    s'.get id = some (contentAfter id m ops) ∨ RemovedTerminal s id m ops := by
  induction ops generalizing s m with
  | nil => cases hrun; exact Or.inl hget
  | cons op ops ih =>
    obtain ⟨t, ht, hrest⟩ := run_cons_eq_some.mp hrun
    rcases step_get ht hget (hdel op List.mem_cons_self) with hkeep | ⟨hgone, hterm⟩
    · rcases ih hrest hkeep (fun o ho => hdel o (List.mem_cons_of_mem op ho)) with h | h
      · exact Or.inl h
      · right
        obtain ⟨done, o, rest, s₁, s₂, rfl, hrun₁, hstep, hget₁, hterm₁, hnone⟩ := h
        exact ⟨op :: done, o, rest, s₁, s₂, rfl, run_cons_eq_some.mpr ⟨t, ht, hrun₁⟩, hstep,
          hget₁, hterm₁, hnone⟩
    · exact Or.inr ⟨[], op, ops, s, t, rfl, rfl, ht, hget, hterm, hgone⟩

/-! ## What the capacity pruning removes -/

/-- The number of stored messages in a terminal state. -/
def terminalCount (s : MemoryStorage) : Nat :=
  s.messages.entries.countP fun e => e.2.state.isTerminal

theorem terminals_length (order : IterOrder Entry) (s : MemoryStorage) :
    (s.terminals order).length = terminalCount s := by
  rw [terminals, List.length_map, ← List.countP_eq_length_filter]
  exact (order.perm s.messages.entries).countP_eq _

/-- The ids in the terminal listing are distinct. -/
theorem terminals_keys_nodup (order : IterOrder Entry) (s : MemoryStorage) :
    ((s.terminals order).map Prod.fst).Nodup := by
  have hkeys : (s.messages.entries.map Sigma.fst).Nodup := s.messages.nodupKeys
  have harr : ((order.arrange s.messages.entries).map Sigma.fst).Nodup :=
    ((order.perm s.messages.entries).map Sigma.fst).nodup_iff.mpr hkeys
  rw [terminals, List.map_map]
  exact harr.sublist (List.filter_sublist.map Sigma.fst)

/-- `removed` is what pruning for capacity takes out of `s`: so many terminal messages, and none of
    those it leaves has gone longer without an update. -/
structure PrunedFrom (s : MemoryStorage) (removed : List MessageId) : Prop where
  nodup : removed.Nodup
  count : removed.length =
    min (max 1 (s.messages.entries.length * s.config.prunePercent.toNat / 100)) (terminalCount s)
  terminal : ∀ id ∈ removed, ∃ m, s.get id = some m ∧ m.state.isTerminal = true
  oldest : ∀ id ∈ removed, ∀ m, s.get id = some m → ∀ id' m', s.get id' = some m' →
    m'.state.isTerminal = true → id' ∉ removed → m.updatedAt ≤ m'.updatedAt

theorem victims_spec (order : IterOrder Entry) (s : MemoryStorage) :
    PrunedFrom s (s.victims order) where
  nodup := by
    have hnd := terminals_keys_nodup order s
    exact (((List.mergeSort_perm (s.terminals order) _).map Prod.fst).nodup_iff.mpr hnd).sublist
      ((List.take_sublist _ _).map Prod.fst)
  count := by
    rw [victims, List.length_map, Select.length_oldest, terminals_length]
    rfl
  terminal := fun id h => terminal_of_mem_victims h
  oldest := by
    intro id hid m hm id' m' hm' hterm' hkept
    obtain ⟨⟨k, t⟩, hp, rfl⟩ := List.mem_map.mp hid
    obtain ⟨x, hx, -, hupd⟩ := mem_terminals.mp (Select.mem_of_mem_oldest hp)
    obtain rfl : m = x := Option.some.inj (hm.symm.trans hx)
    have hin : (id', m'.updatedAt) ∈ s.terminals order :=
      mem_terminals.mpr ⟨m', hm', hterm', rfl⟩
    have hout : (id', m'.updatedAt) ∉ Select.oldest Prod.snd s.pruneCount (s.terminals order) :=
      fun h => hkept (List.mem_map.mpr ⟨_, h, rfl⟩)
    have hle := Select.oldest_le hp hin hout
    rw [hupd]
    exact hle

/-- At the limit, a `store` under a new id removes exactly the victims. -/
theorem mem_victims_iff {order : IterOrder Entry} {s : MemoryStorage} {message : StoredMessage}
    (hlim : s.atLimit = true) (hfree : s.get message.id = none) (id : MessageId) :
    id ∈ s.victims order ↔
      (s.get id).isSome = true ∧ (s.store order message).get id = none := by
  constructor
  · intro hv
    obtain ⟨m, hget, -⟩ := terminal_of_mem_victims hv
    have hne : id ≠ message.id := by
      rintro rfl
      rw [hget] at hfree
      cases hfree
    refine ⟨by rw [hget]; rfl, ?_⟩
    rw [get_store, if_neg hne, if_pos ⟨hlim, hv⟩]
  · rintro ⟨hsome, hnone⟩
    have hne : id ≠ message.id := by
      rintro rfl
      rw [hfree] at hsome
      cases hsome
    rw [get_store, if_neg hne] at hnone
    by_contra hv
    rw [if_neg fun h => hv h.2] at hnone
    rw [hnone] at hsome
    cases hsome

/-! ## The retention theorem -/

/-- **No live message is lost.**  Along every run from an empty store, under every configuration, a
    message that was stored and never passed to `delete` is present with its content as last
    updated, unless it was removed while terminal; and when a `store` finds the store at its limit,
    the messages it removes are the ones `PrunedFrom` describes. -/
theorem live_messages_kept (config : MemoryStoreConfig) :
    (∀ (before after : List Op) (order : IterOrder Entry) (m : StoredMessage)
        (s₀ s : MemoryStorage),
      run step (withConfig config) (before ++ [.store order m]) = some s₀ →
      run step s₀ after = some s → (∀ op ∈ after, ¬ op.Deletes m.id) →
      s.get m.id = some (contentAfter m.id m after) ∨ RemovedTerminal s₀ m.id m after) ∧
    (∀ (before : List Op) (order : IterOrder Entry) (m : StoredMessage) (s s' : MemoryStorage),
      run step (withConfig config) before = some s → step s (.store order m) = some s' →
      s.atLimit = true →
      ∃ removed, PrunedFrom s removed ∧
        ∀ id, id ∈ removed ↔ (s.get id).isSome = true ∧ s'.get id = none) := by
  refine ⟨?_, ?_⟩
  · intro before after order m s₀ s h0 hrun hdel
    rw [run_append] at h0
    obtain ⟨t, -, hstore⟩ := Option.bind_eq_some_iff.mp h0
    obtain ⟨t', hstep, hnil⟩ := run_cons_eq_some.mp hstore
    cases hnil
    obtain ⟨-, rfl⟩ := step_store_eq_some.mp hstep
    exact run_get hrun (get_store_self order m t) hdel
  · intro before order m s s' _ hstep hlim
    obtain ⟨hfree, rfl⟩ := step_store_eq_some.mp hstep
    exact ⟨s.victims order, victims_spec order s, mem_victims_iff hlim hfree⟩

/-- A store with room for one message: the message expires, and is what a second `store` prunes. -/
theorem live_messages_kept_at_capacity :
    let one : MemoryStoreConfig := ⟨1, 512, 10⟩
    let s₀ := (withConfig one).store .listed (.sample 0)
    let s₁ := (s₀.expireOld ⟨1, 1⟩ 0).1
    (s₁.get (StoredMessage.sample 0).id =
        some (contentAfter (StoredMessage.sample 0).id (.sample 0) [.expireOld ⟨1, 1⟩ 0]) ∨
      RemovedTerminal s₀ (StoredMessage.sample 0).id (.sample 0) [.expireOld ⟨1, 1⟩ 0]) ∧
    ∃ removed, PrunedFrom s₁ removed ∧
      ∀ id, id ∈ removed ↔
        (s₁.get id).isSome = true ∧ (s₁.store .listed (.sample 1)).get id = none := by
  intro one s₀ s₁
  refine ⟨(live_messages_kept one).1 [] [.expireOld ⟨1, 1⟩ 0] .listed (.sample 0) s₀ s₁ rfl rfl ?_,
    (live_messages_kept one).2 [.store .listed (.sample 0), .expireOld ⟨1, 1⟩ 0] .listed (.sample 1)
      s₁ _ rfl (step_store_eq_some.mpr ⟨by decide, rfl⟩) (by decide)⟩
  intro op hop
  rw [List.mem_singleton] at hop
  subst hop
  exact fun h => h

end Smppd.Store.Retention

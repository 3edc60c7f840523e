/-
  TERMINAL STATES along the runs of the gateway over the in-memory store.

  The machine: any number of request tasks, the one retry task, the one receipt task, each making one
  call at a time, and the maintenance calls `expire_old` and `prune_terminal` at any moment.

  The bodies keep the ownership discipline, and different roles take hold of messages in different
  states, so no two tasks can own one message: while a task is bound to write a message, no other
  task writes it.  `expire_old` is outside the discipline.  It rewrites every overdue message that is
  not terminal yet, also one that a task has checked and is about to write; then the task's write
  takes the message out of `Expired` again.

  * `Inv` — what the store and the holdings of all tasks have to do with each other;
  * `step_pledged` — every step keeps it, an expiry as long as it spares the messages some task is
    bound to write;
  * `terminal_states_absorbing` — in every run whose expiries do, a terminal state is never left.
-/
import Smppd.Lib.Machine
import Smppd.Forwarder.RetryBound
import Smppd.Forwarder.Ownership

set_option linter.unusedVariables false

namespace Smppd.Forwarder

open Smppd.Store Smppd.Gateway Prog Machine Table

variable {D : Type}

/-! ## The machine -/

/-- The tasks of the forwarder. -/
inductive Tid where
  | request (n : Nat)
  | retry
  | dlr
  deriving DecidableEq

def Tid.role : Tid → Role
  | .request _ => .request
  | .retry => .retry
  | .dlr => .dlr

/-- The gateway: the shared state and what is left of each task. -/
abbrev Gateway (D : Type) := Pool (Op (Output D)) Op.Res Tid (MemWorld D)

/-- Start a body in a free slot. -/
def launch (c : Gateway D) (t : Tid) (p : Body (Output D) Unit) : Option (Gateway D) :=
  if idle (c.task t) then some { c with task := Function.update c.task t p } else none

/-- What can happen next. -/
inductive Label (D : Type) where
  /-- The forwarder spawns a task for a request. -/
  | spawn (n : Nat) (request : ForwardRequest)
  /-- The interval of the retry processor fires. -/
  | retryTick
  /-- The receipt processor takes the next event. -/
  | dlrRecv (event : DlrEvent D)
  /-- A task makes its next call. -/
  | advance (t : Tid) (env : Env)
  | expireOld (clock : Clock) (ttl : Duration)
  | pruneTerminal (clock : Clock) (maxAge : Duration)

/-- One step of the gateway. -/
def step (config : RetryConfig) (codec : DlrCodec D) (c : Gateway D) : Label D → Option (Gateway D)
  | .spawn n request => launch c (.request n) (processRequest request)
  | .retryTick => launch c .retry (processRetries config)
  | .dlrRecv event => launch c .dlr (processDlr codec event)
  | .advance t env => c.advance handle t env
  | .expireOld clock ttl =>
    some { c with state := { c.state with storage := (c.state.storage.expireOld clock ttl).1 } }
  | .pruneTerminal clock maxAge =>
    some { c with state := { c.state with storage := (c.state.storage.pruneTerminal clock maxAge).1 } }

/-- A gateway that has just been started. -/
def boot (config : MemoryStoreConfig) : Gateway D := ⟨⟨.withConfig config, 0, []⟩, fun _ => .ret ()⟩

/-- The step spares the messages in somebody's hands: `expire_old` finds none of the messages overdue
    that a task is bound to write, and `MESSAGE_COUNTER` has not gone round. -/
def Spares (c : Gateway D) : Label D → Prop
  | .expireOld clock ttl =>
    ∀ t id m, Bound id (c.task t) → c.state.storage.get id = some m →
      MemoryStorage.overdue clock ttl m = false
  | .advance _ _ => c.state.counter < 2 ^ 64
  | _ => True

/-! ## The invariant -/

/-- What the store looks like. -/
structure Shape (w : MemWorld D) : Prop where
  keyed : MemoryStorage.Keyed w.storage
  sane : ∀ id m, w.storage.get id = some m → Sane m
  /-- The ids in use come from the counter, which has not gone round. -/
  below : ∀ id m, w.storage.get id = some m → id.val.toNat < w.counter

/-- What a task of the role may count on, for what it holds. -/
def Holding (w : MemWorld D) (role : Role) : Hold → Prop
  | .nothing | .closed => True
  | .drawn id => id.val.toNat < w.counter ∧ w.storage.get id = none
  | .owns id => ∃ m, w.storage.get id = some m ∧ m.state = role.state

/-- The task with these holdings is the next to store or to write the message. -/
def Hold.on (id : MessageId) (g : Hold) : Prop := g = .drawn id ∨ g = .owns id

/-- A message seen in a terminal state is in that state, or gone. -/
structure Kept (w : MemWorld D) (id : MessageId) (state : MessageState) : Prop where
  terminal : state.isTerminal = true
  below : id.val.toNat < w.counter
  state : ∀ m, w.storage.get id = some m → m.state = state

/-- The invariant; `settled` lists messages seen in a terminal state, with that state. -/
structure Inv (settled : MessageId → MessageState → Prop) (w : MemWorld D) (γ : Tid → Hold) :
    Prop where
  shape : Shape w
  holding : ∀ t, Holding w t.role (γ t)
  /-- No two tasks hold one message. -/
  apart : ∀ t t' id, (γ t).on id → (γ t').on id → t = t'
  kept : ∀ id state, settled id state → Kept w id state
  /-- Nobody is about to store a settled message anew. -/
  undrawn : ∀ id state t, settled id state → γ t ≠ .drawn id

section Invariant

variable {settled : MessageId → MessageState → Prop} {w w' : MemWorld D} {γ : Tid → Hold}

/-- The states in which tasks hold messages are not terminal. -/
theorem role_state_not_terminal (role : Role) : role.state.isTerminal = false := by
  cases role <;> rfl

/-- The roles own messages in different states. -/
theorem Role.state_injective {role role' : Role} (h : role.state = role'.state) : role = role' := by
  cases role <;> cases role' <;> first | rfl | cases h

/-- There is one task of each role that looks for messages. -/
theorem Tid.eq_of_role {t t' : Tid} (hrole : t.role ≠ .request) (h : t.role = t'.role) : t = t' := by
  cases t with
  | request n => exact absurd rfl hrole
  | retry => cases t' <;> first | rfl | cases h
  | dlr => cases t' <;> first | rfl | cases h

/-- A message in somebody's hands has not been settled. -/
theorem Inv.not_settled (h : Inv settled w γ) {t : Tid} {id : MessageId} (ho : γ t = .owns id)
    (state : MessageState) : ¬ settled id state := by
  intro hs
  have hholding := h.holding t
  rw [ho] at hholding
  obtain ⟨m, hget, hst⟩ := hholding
  have hfalse := role_state_not_terminal t.role
  rw [← hst, (h.kept id state hs).state m hget, (h.kept id state hs).terminal] at hfalse
  cases hfalse

/-- **Changing the store and the holdings of one task**: what is to be shown. -/
theorem Inv.set (h : Inv settled w γ) (t : Tid) (g : Hold) (hshape : Shape w')
    (hothers : ∀ t', t' ≠ t → Holding w' t'.role (γ t')) (hown : Holding w' t.role g)
    (hapart : ∀ t' id, t' ≠ t → g.on id → ¬ (γ t').on id)
    (hkept : ∀ id state, settled id state → Kept w' id state ∧ g ≠ .drawn id) :
    Inv settled w' (Function.update γ t g) := by
  refine ⟨hshape, fun t' => ?_, fun t₁ t₂ id h₁ h₂ => ?_, fun id state hs => (hkept id state hs).1,
    fun id state t' hs => ?_⟩
  · by_cases htt : t' = t
    · subst htt
      rw [Function.update_self]
      exact hown
    · rw [Function.update_of_ne htt]
      exact hothers t' htt
  · by_cases ht₁ : t₁ = t
    · by_cases ht₂ : t₂ = t
      · rw [ht₁, ht₂]
      · rw [ht₁, Function.update_self] at h₁
        rw [Function.update_of_ne ht₂] at h₂
        exact absurd h₂ (hapart t₂ id ht₂ h₁)
    · rw [Function.update_of_ne ht₁] at h₁
      by_cases ht₂ : t₂ = t
      · rw [ht₂, Function.update_self] at h₂
        exact absurd h₁ (hapart t₁ id ht₁ h₂)
      · rw [Function.update_of_ne ht₂] at h₂
        exact h.apart t₁ t₂ id h₁ h₂
  · by_cases htt : t' = t
    · subst htt
      rw [Function.update_self]
      exact (hkept id state hs).2
    · rw [Function.update_of_ne htt]
      exact h.undrawn id state t' hs

/-- Changing the store only. -/
theorem Inv.same (h : Inv settled w γ) (hshape : Shape w')
    (hholding : ∀ t, Holding w' t.role (γ t))
    (hkept : ∀ id state, settled id state → Kept w' id state) : Inv settled w' γ :=
  ⟨hshape, hholding, h.apart, hkept, h.undrawn⟩

/-- What has been sent out plays no part. -/
theorem Inv.sent (h : Inv settled w γ) (sent : List (Output D)) :
    Inv settled { w with sent := sent } γ :=
  h.same ⟨h.shape.keyed, h.shape.sane, h.shape.below⟩ h.holding fun id state hs =>
    ⟨(h.kept id state hs).terminal, (h.kept id state hs).below, (h.kept id state hs).state⟩

/-- A free task holds no message. -/
theorem Hold.Free.holding {g : Hold} (hg : g.Free) (w : MemWorld D) (role : Role) :
    Holding w role g := by
  rcases hg with rfl | rfl <;> trivial

theorem Hold.Free.not_on {g : Hold} (hg : g.Free) (id : MessageId) : ¬ g.on id := by
  rcases hg with rfl | rfl <;> rintro (h | h) <;> cases h

/-- A task lets go of what it holds. -/
theorem Inv.release (h : Inv settled w γ) (t : Tid) {g : Hold} (hg : g.Free) :
    Inv settled w (Function.update γ t g) :=
  h.set t g h.shape (fun t' _ => h.holding t') (hg.holding w t.role)
    (fun t' id _ hon => absurd hon (hg.not_on id))
    fun id state hs => ⟨h.kept id state hs, fun hd => hg.not_on id (Or.inl hd)⟩

/-- A task draws an id: it is above everything there is. -/
theorem Inv.draw (h : Inv settled w γ) (t : Tid) (hlt : w.counter < 2 ^ 64) :
    Inv settled { w with counter := w.counter + 1 }
      (Function.update γ t (.drawn (MessageId.new w.counter).1)) := by
  have hnew := MessageId.new_toNat hlt
  have hfree : w.storage.get (MessageId.new w.counter).1 = none := by
    cases hget : w.storage.get (MessageId.new w.counter).1 with
    | none => rfl
    | some m =>
      have := h.shape.below _ m hget
      omega
  have hmono : ∀ role g, Holding w role g → Holding { w with counter := w.counter + 1 } role g := by
    intro role g hg
    cases g with
    | nothing | closed => trivial
    | drawn id => exact ⟨Nat.lt_succ_of_lt hg.1, hg.2⟩
    | owns id => exact hg
  refine h.set t _ ⟨h.shape.keyed, h.shape.sane, fun id m hget => ?_⟩
    (fun t' _ => hmono _ _ (h.holding t')) ⟨?_, hfree⟩ (fun t' id _ hon hon' => ?_)
    fun id state hs => ⟨⟨(h.kept id state hs).terminal, ?_, (h.kept id state hs).state⟩, ?_⟩
  · exact Nat.lt_succ_of_lt (h.shape.below id m hget)
  · show (MessageId.new w.counter).1.val.toNat < w.counter + 1
    omega
  · obtain rfl : id = (MessageId.new w.counter).1 := by
      rcases hon with hon | hon <;> cases hon
      rfl
    have hholding := h.holding t'
    rcases hon' with hd | ho
    · rw [hd] at hholding
      have := hholding.1
      omega
    · rw [ho] at hholding
      obtain ⟨m, hget, -⟩ := hholding
      rw [hfree] at hget
      cases hget
  · exact Nat.lt_succ_of_lt (h.kept id state hs).below
  · intro hd
    cases hd
    have := (h.kept _ state hs).below
    omega

/-- A task takes hold of a message it has found in the state of its role. -/
theorem Inv.acquire (h : Inv settled w γ) {t : Tid} (hrole : t.role ≠ .request) {id : MessageId}
    {m : StoredMessage} (hget : w.storage.get id = some m) (hst : m.state = t.role.state) :
    Inv settled w (Function.update γ t (.owns id)) := by
  refine h.set t _ h.shape (fun t' _ => h.holding t') ⟨m, hget, hst⟩ (fun t' id' hne hon hon' => ?_)
    fun id' state hs => ⟨h.kept id' state hs, nofun⟩
  obtain rfl : id = id' := by
    rcases hon with hon | hon <;> cases hon
    rfl
  -- whoever else held it would own it in the state of another role
  have hholding := h.holding t'
  rcases hon' with hd | ho
  · rw [hd] at hholding
    rw [hholding.2] at hget
    cases hget
  · rw [ho] at hholding
    obtain ⟨m', hget', hst'⟩ := hholding
    obtain rfl : m = m' := Option.some.inj (hget.symm.trans hget')
    exact hne (Tid.eq_of_role hrole (Role.state_injective (hst.symm.trans hst'))).symm

/-- A task stores the message whose id it has drawn; what the store prunes for it is terminal. -/
theorem Inv.store (h : Inv settled w γ) {t : Tid} (ht : t.role = .request) {m : StoredMessage}
    (hdrawn : γ t = .drawn m.id) (hst : m.state = .pending) (hsmsc : m.smscMessageId = none)
    (order : IterOrder Entry) :
    Inv settled { w with storage := w.storage.store order m } (Function.update γ t (.owns m.id)) := by
  have hown := h.holding t
  rw [hdrawn] at hown
  obtain ⟨hbelow, hfree⟩ := hown
  have hget' : ∀ id m', (w.storage.store order m).get id = some m' →
      (id = m.id ∧ m' = m) ∨ w.storage.get id = some m' := by
    intro id m' hget
    rw [MemoryStorage.get_store] at hget
    split at hget
    · rename_i hid
      exact Or.inl ⟨hid, (Option.some.inj hget).symm⟩
    · split at hget
      · cases hget
      · exact Or.inr hget
  refine h.set t _ ⟨MemoryStorage.keyed_store h.shape.keyed order m, fun id m' hget => ?_,
    fun id m' hget => ?_⟩ (fun t' hne => ?_) ⟨m, MemoryStorage.get_store_self order m _, ?_⟩
    (fun t' id hne hon hon' => ?_) fun id state hs => ⟨⟨(h.kept id state hs).terminal,
      (h.kept id state hs).below, fun m' hget => ?_⟩, nofun⟩
  · rcases hget' id m' hget with ⟨-, rfl⟩ | hold
    · exact fun _ => hsmsc
    · exact h.shape.sane id m' hold
  · rcases hget' id m' hget with ⟨rfl, -⟩ | hold
    · exact hbelow
    · exact h.shape.below id m' hold
  · have hholding := h.holding t'
    cases hg : γ t' with
    | nothing | closed => trivial
    | drawn id =>
      rw [hg] at hholding
      refine ⟨hholding.1, ?_⟩
      have hid : id ≠ m.id := fun hid =>
        hne (h.apart t' t m.id (Or.inl (hid ▸ hg)) (Or.inl hdrawn))
      show (w.storage.store order m).get id = none
      rw [MemoryStorage.get_store, if_neg hid, hholding.2]
      split <;> rfl
    | owns id =>
      rw [hg] at hholding
      obtain ⟨m', hget, hst'⟩ := hholding
      have hid : id ≠ m.id := by
        rintro rfl
        rw [hfree] at hget
        cases hget
      refine ⟨m', ?_, hst'⟩
      show (w.storage.store order m).get id = some m'
      rw [MemoryStorage.get_store, if_neg hid, if_neg ?_]
      · exact hget
      · rintro ⟨-, hvictim⟩
        obtain ⟨m'', hget'', hterm⟩ := MemoryStorage.terminal_of_mem_victims hvictim
        obtain rfl : m' = m'' := Option.some.inj (hget.symm.trans hget'')
        rw [hst', role_state_not_terminal] at hterm
        cases hterm
  · rw [ht]
    exact hst
  · obtain rfl : m.id = id := by
      rcases hon with hon | hon <;> cases hon
      rfl
    exact hne (h.apart t' t m.id hon' (Or.inl hdrawn))
  · rcases hget' id m' hget with ⟨rfl, -⟩ | hold
    · exact absurd hdrawn (h.undrawn m.id state t hs)
    · exact (h.kept id state hs).state m' hold

/-- The owner writes the message: it lets go of it, or has left the state as it was. -/
theorem Inv.write (h : Inv settled w γ) {t : Tid} {id : MessageId} (ho : γ t = .owns id)
    {f : StoredMessage → StoredMessage} (hid : ∀ m, (f m).id = m.id)
    (hsane : ∀ m, Sane m → m.state = t.role.state → Sane (f m)) {g : Hold}
    (hg : g.Free ∨ (g = .owns id ∧ ∀ m, (f m).state = m.state)) :
    Inv settled { w with storage := (w.storage.update id f).1 } (Function.update γ t g) := by
  have hown := h.holding t
  rw [ho] at hown
  obtain ⟨m₀, hget₀, hst₀⟩ := hown
  have hself : (w.storage.update id f).1.get id = some (f m₀) := by
    rw [MemoryStorage.get_update, if_pos rfl, hget₀]
    rfl
  have hother : ∀ id', id' ≠ id → (w.storage.update id f).1.get id' = w.storage.get id' := by
    intro id' hne
    rw [MemoryStorage.get_update, if_neg hne]
  refine h.set t g ⟨MemoryStorage.keyed_update h.shape.keyed id hid, fun id' m hget => ?_,
    fun id' m hget => ?_⟩ (fun t' hne => ?_) ?_ (fun t' id' hne hon hon' => ?_)
    fun id' state hs => ⟨⟨(h.kept id' state hs).terminal, (h.kept id' state hs).below,
      fun m hget => ?_⟩, ?_⟩
  · by_cases hk : id' = id
    · subst hk
      cases hself.symm.trans hget
      exact hsane m₀ (h.shape.sane id' m₀ hget₀) hst₀
    · exact h.shape.sane id' m ((hother id' hk).symm.trans hget)
  · by_cases hk : id' = id
    · subst hk
      exact h.shape.below id' m₀ hget₀
    · exact h.shape.below id' m ((hother id' hk).symm.trans hget)
  · have hholding := h.holding t'
    have hne' : ∀ id', (γ t').on id' → id' ≠ id := by
      rintro id' hon rfl
      exact hne (h.apart t' t id' hon (Or.inr ho))
    cases hg' : γ t' with
    | nothing | closed => trivial
    | drawn id' =>
      rw [hg'] at hholding
      exact ⟨hholding.1, (hother id' (hne' id' (Or.inl hg'))).trans hholding.2⟩
    | owns id' =>
      rw [hg'] at hholding
      obtain ⟨m, hget, hst⟩ := hholding
      exact ⟨m, (hother id' (hne' id' (Or.inr hg'))).trans hget, hst⟩
  · rcases hg with hfree | ⟨rfl, hstate⟩
    · exact hfree.holding _ _
    · exact ⟨f m₀, hself, (hstate m₀).trans hst₀⟩
  · rcases hg with hfree | ⟨rfl, -⟩
    · exact hfree.not_on id' hon
    · rcases hon with hon | hon <;> cases hon
      exact hne (h.apart t' t id hon' (Or.inr ho))
  · have hk : id' ≠ id := by
      rintro rfl
      exact h.not_settled ho state hs
    exact (h.kept id' state hs).state m ((hother id' hk).symm.trans hget)
  · rcases hg with hfree | ⟨rfl, -⟩
    · exact fun hd => hfree.not_on id' (Or.inl hd)
    · nofun

/-- An expiry that spares the messages in somebody's hands. -/
theorem Inv.expire (h : Inv settled w γ) (clock : Clock) (ttl : Duration)
    (hspare : ∀ t id m, γ t = .owns id → w.storage.get id = some m →
      MemoryStorage.overdue clock ttl m = false) :
    Inv settled { w with storage := (w.storage.expireOld clock ttl).1 } γ := by
  have hget' : ∀ id m', (w.storage.expireOld clock ttl).1.get id = some m' →
      ∃ m, w.storage.get id = some m ∧ m' = MemoryStorage.expireOne clock ttl m := by
    intro id m' hget
    rw [MemoryStorage.get_expireOld] at hget
    obtain ⟨m, hm, rfl⟩ := Option.map_eq_some_iff.mp hget
    exact ⟨m, hm, rfl⟩
  refine h.same ⟨MemoryStorage.keyed_expireOld h.shape.keyed clock ttl, fun id m' hget => ?_,
    fun id m' hget => ?_⟩ (fun t => ?_) fun id state hs => ⟨(h.kept id state hs).terminal,
      (h.kept id state hs).below, fun m' hget => ?_⟩
  · obtain ⟨m, hm, rfl⟩ := hget' id m' hget
    unfold MemoryStorage.expireOne
    split
    · intro hwaits
      rcases hwaits with hw | hw <;> cases hw
    · exact h.shape.sane id m hm
  · obtain ⟨m, hm, -⟩ := hget' id m' hget
    exact h.shape.below id m hm
  · have hholding := h.holding t
    cases hg : γ t with
    | nothing | closed => trivial
    | drawn id =>
      rw [hg] at hholding
      refine ⟨hholding.1, ?_⟩
      show (w.storage.expireOld clock ttl).1.get id = none
      rw [MemoryStorage.get_expireOld, hholding.2]
      rfl
    | owns id =>
      rw [hg] at hholding
      obtain ⟨m, hget, hst⟩ := hholding
      refine ⟨m, ?_, hst⟩
      show (w.storage.expireOld clock ttl).1.get id = some m
      rw [MemoryStorage.get_expireOld, hget, Option.map_some, MemoryStorage.expireOne,
        if_neg (by rw [hspare t id m hg hget]; decide)]
  · obtain ⟨m, hm, rfl⟩ := hget' id m' hget
    have hst := (h.kept id state hs).state m hm
    -- `expire_old` leaves terminal messages alone
    have hnot : MemoryStorage.overdue clock ttl m = false := by
      unfold MemoryStorage.overdue
      rw [hst, (h.kept id state hs).terminal]
      rfl
    rw [MemoryStorage.expireOne, if_neg (by rw [hnot]; decide)]
    exact hst

/-- Age pruning takes terminal messages only. -/
theorem Inv.prune (h : Inv settled w γ) (clock : Clock) (maxAge : Duration) :
    Inv settled { w with storage := (w.storage.pruneTerminal clock maxAge).1 } γ := by
  have hget' : ∀ id m, (w.storage.pruneTerminal clock maxAge).1.get id = some m →
      w.storage.get id = some m := by
    intro id m hget
    rw [MemoryStorage.get_pruneTerminal] at hget
    split at hget
    · cases hget
    · exact hget
  refine h.same ⟨MemoryStorage.keyed_pruneTerminal h.shape.keyed clock maxAge,
    fun id m hget => h.shape.sane id m (hget' id m hget),
    fun id m hget => h.shape.below id m (hget' id m hget)⟩ (fun t => ?_)
    fun id state hs => ⟨(h.kept id state hs).terminal, (h.kept id state hs).below,
      fun m hget => (h.kept id state hs).state m (hget' id m hget)⟩
  have hholding := h.holding t
  cases hg : γ t with
  | nothing | closed => trivial
  | drawn id =>
    rw [hg] at hholding
    refine ⟨hholding.1, ?_⟩
    show (w.storage.pruneTerminal clock maxAge).1.get id = none
    rw [MemoryStorage.get_pruneTerminal, hholding.2]
    split <;> rfl
  | owns id =>
    rw [hg] at hholding
    obtain ⟨m, hget, hst⟩ := hholding
    refine ⟨m, ?_, hst⟩
    show (w.storage.pruneTerminal clock maxAge).1.get id = some m
    rw [MemoryStorage.get_pruneTerminal, if_neg ?_]
    · exact hget
    · intro hold
      obtain ⟨m', hget', hterm, -⟩ := MemoryStorage.mem_outdated.mp hold
      obtain rfl : m = m' := Option.some.inj (hget.symm.trans hget')
      rw [hst, role_state_not_terminal] at hterm
      cases hterm

end Invariant

/-! ## Every step keeps the invariant -/

section Steps

variable {settled : MessageId → MessageState → Prop}

/-- What a query by state returns. -/
theorem query_sane {w : MemWorld D} {γ : Tid → Hold} (h : Inv settled w γ) (env : StoreEnv)
    (state : MessageState) (n : Nat) :
    ∀ m ∈ w.storage.query env.order (.byState state n), Sane m ∧ m.state = state := by
  intro m hm
  obtain ⟨id, hget, hsel⟩ := MemoryStorage.mem_query hm
  refine ⟨h.shape.sane id m hget, ?_⟩
  have hst : (MessageQuery.byState state n).state.all fun st => m.state = st := by
    unfold MemoryStorage.selects at hsel
    simp only [Bool.and_eq_true] at hsel
    exact hsel.1.1.1.1
  exact of_decide_eq_true hst

/-- **One call of a task**: the handler answers as the discipline expects, and keeps the invariant. -/
theorem handle_sound {w : MemWorld D} {γ : Tid → Hold} (h : Inv settled w γ) (t : Tid) (env : Env)
    (hlt : w.counter < 2 ^ 64) (op : Op (Output D)) (post : op.Res → Hold → Prop)
    (hpre : ownSpec t.role op post (γ t)) :
    ∃ g', post (handle env op w).1 g' ∧ Inv settled (handle env op w).2 (Function.update γ t g') := by
  have hsame : Function.update γ t (γ t) = γ := Function.update_eq_self t γ
  cases op with
  | newMessage src dst payload sys seq =>
    obtain ⟨-, -, hpost⟩ := hpre
    exact ⟨_, hpost _ rfl rfl, h.draw t hlt⟩
  | store m =>
    obtain ⟨hrole, hg, hst, hsmsc, hpost⟩ := hpre
    exact ⟨_, hpost, h.store hrole hg hst hsmsc env.store.order⟩
  | get id =>
    rcases hpre with ⟨-, hpost⟩ | ⟨hg, hpost⟩
    · exact ⟨γ t, hpost _, by rw [hsame]; exact h⟩
    · rcases hpost (w.storage.get id) with hpost | ⟨hrole, m, hget, hst, hpost⟩
      · exact ⟨.nothing, hpost, h.release t (Or.inl rfl)⟩
      · exact ⟨.owns id, hpost, h.acquire (by rw [hrole]; decide) hget hst⟩
  | query q =>
    obtain ⟨hrole, hg, state, n, rfl, hpost⟩ := hpre
    rcases hpost _ (query_sane h env.store state n) with hpost | ⟨m, hm, hst, hpost⟩
    · exact ⟨.nothing, hpost, h.release t (Or.inl rfl)⟩
    · obtain ⟨id, hget, -⟩ := MemoryStorage.mem_query hm
      have hid := h.shape.keyed id m hget
      exact ⟨.owns m.id, hpost, h.acquire (by rw [hrole]; decide) (by rw [hid]; exact hget) hst⟩
  | update id f =>
    obtain ⟨hg, ⟨hann, hpost⟩ | ⟨htrans, hpost⟩⟩ := hpre
    · refine ⟨.owns id, hpost _, h.write hg (hann.id _) (fun m hsane hst hwaits => ?_)
        (Or.inr ⟨rfl, hann.state _⟩)⟩
      rw [hann.state] at hwaits
      rw [hann.smsc]
      exact hsane hwaits
    · exact ⟨t.role.released, hpost _,
        h.write hg (htrans.id _) (htrans.sane _) (Or.inl t.role.released_free)⟩
  | emit o => exact ⟨γ t, hpre _, by rw [hsame]; exact h.sent _⟩
  | tryEmit o => exact ⟨γ t, hpre _, by rw [hsame]; exact h.sent _⟩
  | _ => exact ⟨γ t, hpre _, by rw [hsame]; exact h⟩

/-- The tasks keep the discipline, and the invariant holds. -/
def Keeping (settled : MessageId → MessageState → Prop) (c : Gateway D) : Prop :=
  ∃ γ, Pledged (fun t => ownSpec t.role) (fun _ g => g.Free) (Inv settled) c γ

/-- Starting a body that keeps the discipline. -/
theorem launch_keeping {c c' : Gateway D} (t : Tid) {p : Body (Output D) Unit}
    (hp : p.wp (ownSpec t.role) (fun _ g => g.Free) .nothing) (h : Keeping settled c)
    (hlaunch : launch c t p = some c') : Keeping settled c' := by
  obtain ⟨γ, hγ⟩ := h
  unfold launch at hlaunch
  split at hlaunch
  · obtain rfl := Option.some.inj hlaunch
    exact ⟨_, hγ.set t (hγ.inv.release t (Or.inl rfl)) hp⟩
  · cases hlaunch

/-- **The step lemma**: every step that spares the messages in somebody's hands. -/
theorem step_keeping (config : RetryConfig) (codec : DlrCodec D) (c : Gateway D) (a : Label D)
    (c' : Gateway D) (h : Keeping settled c) (hspare : Spares c a)
    (hstep : step config codec c a = some c') : Keeping settled c' := by
  cases a with
  | spawn n request => exact launch_keeping (.request n) (wp_processRequest request) h hstep
  | retryTick => exact launch_keeping .retry (wp_processRetries config) h hstep
  | dlrRecv event => exact launch_keeping .dlr (wp_processDlr codec event) h hstep
  | advance t env =>
    obtain ⟨γ, hγ⟩ := h
    obtain ⟨g', hγ'⟩ := hγ.advance hstep fun op k _ post hpre =>
      handle_sound hγ.inv t env hspare op post hpre
    exact ⟨_, hγ'⟩
  | expireOld clock ttl =>
    obtain ⟨γ, hγ⟩ := h
    obtain rfl := Option.some.inj hstep
    refine ⟨γ, hγ.inv.expire clock ttl fun t id m ho hget => ?_, hγ.each⟩
    have hwp := hγ.each t
    rw [ho] at hwp
    exact hspare t id m (bound_of_owns hwp) hget
  | pruneTerminal clock maxAge =>
    obtain ⟨γ, hγ⟩ := h
    obtain rfl := Option.some.inj hstep
    exact ⟨γ, hγ.inv.prune clock maxAge, hγ.each⟩

theorem keeping_boot (config : MemoryStoreConfig) :
    Keeping (fun _ _ => False) (boot config : Gateway D) := by
  refine ⟨fun _ => .nothing, ⟨⟨?_, ?_, ?_⟩, fun _ => trivial, ?_, nofun, nofun⟩, fun _ => Or.inl rfl⟩
  · exact fun id m hget => nomatch hget
  · exact fun id m hget => nomatch hget
  · exact fun id m hget => nomatch hget
  · rintro t t' id (h | h) <;> cases h

/-- A message found in a terminal state is settled from then on. -/
theorem Keeping.settle {c : Gateway D} (h : Keeping (fun _ _ => False) c) {id : MessageId}
    {m : StoredMessage} (hget : c.state.storage.get id = some m)
    (hterm : m.state.isTerminal = true) :
    Keeping (fun id' state => id' = id ∧ state = m.state) c := by
  obtain ⟨γ, ⟨hshape, hholding, hapart, -, -⟩, heach⟩ := h
  refine ⟨γ, ⟨hshape, hholding, hapart, ?_, ?_⟩, heach⟩
  · rintro id' state ⟨rfl, rfl⟩
    refine ⟨hterm, hshape.below id' m hget, fun m' hget' => ?_⟩
    rw [Option.some.inj (hget.symm.trans hget')]
  · rintro id' state t ⟨rfl, rfl⟩ hd
    have := hholding t
    rw [hd] at this
    rw [this.2] at hget
    cases hget

end Steps

/-- **Terminal states are absorbing** in every run of the gateway whose expiries spare the messages a
    task is bound to write: a message once `Delivered`, `Failed` or `Expired` is in that state for as
    long as it is stored. -/
theorem terminal_states_absorbing (memory : MemoryStoreConfig) (config : RetryConfig)
    (codec : DlrCodec D) (before after : List (Label D)) (c c' : Gateway D) (id : MessageId)
    (m m' : StoredMessage) (hbefore : run (step config codec) (boot memory) before = some c)
    (hafter : run (step config codec) c after = some c')
    (hspare : Meets (step config codec) Spares (boot memory) (before ++ after))
    (hget : c.state.storage.get id = some m) (hterm : m.state.isTerminal = true)
    (hget' : c'.state.storage.get id = some m') : m'.state = m.state := by
  obtain ⟨hspare₁, hspare₂⟩ := (meets_append hbefore).mp hspare
  have hc : Keeping (fun _ _ => False) c :=
    meets_inv (step_keeping config codec) (keeping_boot memory) hspare₁ hbefore
  obtain ⟨γ, hγ⟩ := meets_inv (step_keeping config codec) (hc.settle hget hterm) hspare₂ hafter
  exact (hγ.inv.kept id m.state ⟨rfl, rfl⟩).state m' hget'

/-- The surroundings of a call at time `now`: the route given, every cluster a mock. -/
def mockEnv (now : Int) (route : Option RouteResult) : Env :=
  ⟨⟨⟨now, now⟩, .listed⟩, route, some true, false, .timeout, false, false⟩

/-- The first call of the sample request's task up to its update, in surroundings `env`. -/
def calls (env : Env) (n : Nat) : List (Label Unit) := List.replicate n (.advance (.request 0) env)

/-- No receipt of this codec is one. -/
def noReceipts : DlrCodec Unit := ⟨fun _ => false, fun _ => none, fun _ _ => none, fun _ _ => none⟩

theorem spares_advance {c : Gateway D} {t : Tid} {env : Env} (n : Nat) (hn : c.state.counter = n)
    (hlt : n < 2 ^ 64) : Spares c (.advance t env) := by
  show c.state.counter < 2 ^ 64
  rw [hn]
  exact hlt

/-- A request without a route fails, and stays failed through an expiry. -/
theorem failed_stays_failed :
    ∃ c c' m m', run (step ⟨1, 60⟩ noReceipts) (boot ⟨1000, 512, 10⟩)
        (.spawn 0 sampleRequest :: calls (mockEnv 0 none) 5) = some c ∧
      run (step ⟨1, 60⟩ noReceipts) c [.expireOld ⟨1, 1⟩ 0] = some c' ∧
      c.state.storage.get ⟨0⟩ = some m ∧ m.state = .failed ∧
      c'.state.storage.get ⟨0⟩ = some m' ∧ m'.state = m.state := by
  refine ⟨_, _, _, _, rfl, rfl, rfl, rfl, rfl, ?_⟩
  refine terminal_states_absorbing ⟨1000, 512, 10⟩ ⟨1, 60⟩ noReceipts
    (.spawn 0 sampleRequest :: calls (mockEnv 0 none) 5) [.expireOld ⟨1, 1⟩ 0] _ _ ⟨0⟩ _ _
    rfl rfl ?_ rfl rfl rfl
  have h0 : (0 : Nat) < 2 ^ 64 := by decide
  have h1 : (1 : Nat) < 2 ^ 64 := by decide
  refine (meets_cons rfl).mpr ⟨trivial, (meets_cons rfl).mpr ⟨spares_advance 0 rfl h0, ?_⟩⟩
  refine (meets_cons rfl).mpr ⟨spares_advance 1 rfl h1, (meets_cons rfl).mpr
    ⟨spares_advance 1 rfl h1, (meets_cons rfl).mpr ⟨spares_advance 1 rfl h1, ?_⟩⟩⟩
  refine (meets_cons rfl).mpr ⟨spares_advance 1 rfl h1, (meets_cons rfl).mpr ⟨?_, trivial⟩⟩
  -- every task has returned, so none is bound to write anything
  intro t id m hbound
  rcases t with (_ | n) | _ | _ <;> exact False.elim hbound

/-- An expiry that lands while a task waits for its cluster: the message is `Expired`, and then
    `InFlight`. -/
theorem expired_then_in_flight :
    ∃ c c' m m', run (step ⟨1, 60⟩ noReceipts) (boot ⟨1000, 512, 10⟩)
        (.spawn 0 sampleRequest :: calls (mockEnv 0 (some ⟨"route", "cluster", []⟩)) 3 ++
          [.expireOld ⟨1, 1⟩ 0]) = some c ∧
      run (step ⟨1, 60⟩ noReceipts) c (calls (mockEnv 1 none) 2) = some c' ∧
      c.state.storage.get ⟨0⟩ = some m ∧ m.state = .expired ∧
      c'.state.storage.get ⟨0⟩ = some m' ∧ m'.state = .inFlight :=
  ⟨_, _, _, _, rfl, rfl, rfl, rfl, rfl, rfl⟩

end Smppd.Forwarder

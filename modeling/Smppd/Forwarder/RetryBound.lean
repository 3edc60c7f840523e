/-
  WHEN RETRIES END.

  `retry_message` gives up once the attempt counter has reached `MAX_RETRIES`.  The counter is
  advanced by `mark_in_flight`, that is by a pass in which a cluster ACCEPTS; a pass in which every
  cluster fails writes the message back with `mark_retry`, which leaves the counter alone.  So along
  a run of failing passes nothing the gateway does changes what the next pass decides: it ends for
  the reasons it could have ended at the start (the counter, the time to live, the routing table),
  or not at all.

  * `pass_gives_up`, `pass_marks` — the one update of a failing pass;
  * `passes_going_on` — as long as no pass gives up, the message has the chances it had;
  * `passes_end_iff` — it leaves `Retrying` within `MAX_RETRIES + 1` failing passes exactly when one of them
    has such a reason, in either back end;
  * `retries_end_iff` — the same of the in-memory store, where the message itself says so.
-/
import Smppd.Store.Chances
import Smppd.Forwarder.Retry

set_option linter.unusedVariables false

namespace Smppd.Forwarder

open Smppd.Store Smppd.Gateway Prog

variable {D S : Type}

/-- The gateway over the in-memory store. -/
abbrev MemWorld (D : Type) := World MemoryStorage (Output D)

/-! ## One pass -/

/-- The reasons a pass has to give up on a message, as they stand when it looks. -/
def GivesUp (env : Nat → Env) (m : StoredMessage) : Prop :=
  maxRetries ≤ m.attempts ∨ m.isExpired (env 1).store.clock = true ∨ (env 2).route = none

section Pass

variable [Storage S]

/-- One pass of `retry_message` over a message, with the environment of each of its calls. -/
def pass (config : RetryConfig) (id : MessageId) (env : Nat → Env) (w : World S (Output D)) : World S (Output D) :=
  ((retryMessage config id).exec handle env w).2.1

/-- The clusters are tried from the fourth call on; every attempt of this pass fails. -/
def AttemptsFail (id : MessageId) (env : Nat → Env) (w : World S (Output D)) : Prop :=
  ∀ current route, Storage.get (env 0).store id w.storage = some current → (env 2).route = some route →
    ((retryClusters current route.clustersToTry).exec handle (fun i => env (i + 3)) w).1 = none

/-- Trying clusters does not touch the store. -/
theorem tryForwardRetry_storage (msg : StoredMessage) (name : String) (env : Nat → Env) (w : World S (Output D)) :
    ((tryForwardRetry msg name : Body (Output D) _).exec handle env w).2.1 = w := by
  unfold tryForwardRetry
  simp only [request_bind, exec_call, handle]
  cases (env 0).cluster with
  | none => rfl
  | some mock =>
    cases mock with
    | true => rfl
    | false =>
      simp only [exec_call, handle]
      cases (env 1).connection with
      | false => rfl
      | true =>
        simp only [exec_call, handle]
        cases (env 2).reply with
        | submitSmResp status messageId => simp only; split <;> rfl
        | _ => rfl

theorem retryClusters_storage (msg : StoredMessage) (names : List String) (env : Nat → Env)
    (w : World S (Output D)) : ((retryClusters msg names : Body (Output D) _).exec handle env w).2.1 = w := by
  induction names generalizing env with
  | nil => rfl
  | cons name rest ih =>
    rw [retryClusters, exec_bind, tryForwardRetry_storage]
    generalize ((tryForwardRetry msg name : Body (Output D) _).exec handle env w).1 = r
    cases r with
    | ok upstreamId => rfl
    | error e => exact ih _

variable (config : RetryConfig) {id : MessageId} {env : Nat → Env} {w : World S (Output D)} {m : StoredMessage}

/-- **A pass with a reason to give up** writes another state. -/
theorem pass_gives_up (hget : Storage.get (env 0).store id w.storage = some m) (hst : m.state = .retrying)
    (hup : GivesUp env m) :
    ∃ storeEnv f state, (∀ m, (f m).id = m.id) ∧ (∀ m, (f m).state = state) ∧ (state = .failed ∨ state = .expired) ∧
      (pass config id env w).storage = (Storage.update storeEnv id f w.storage).1 := by
  unfold pass retryMessage
  simp only [request_bind, exec_call, handle, hget, if_neg (not_not.mpr hst)]
  by_cases hmax : maxRetries ≤ m.attempts
  · rw [if_pos hmax]
    exact ⟨_, StoredMessage.markFailed _ _ _, .failed, fun _ => rfl, fun _ => rfl, Or.inl rfl, rfl⟩
  · rw [if_neg hmax]
    simp only [exec_call, handle, Nat.reduceAdd]
    cases hexp : m.isExpired (env 1).store.clock with
    | true => exact ⟨_, StoredMessage.markExpired _, .expired, fun _ => rfl, fun _ => rfl, Or.inr rfl, rfl⟩
    | false =>
      have hroute : (env 2).route = none := by
        rcases hup with h | h | h
        · exact absurd h hmax
        · rw [hexp] at h
          cases h
        · exact h
      simp only [exec_call, handle, Nat.reduceAdd, hroute]
      exact ⟨_, StoredMessage.markFailed _ _ _, .failed, fun _ => rfl, fun _ => rfl, Or.inl rfl, rfl⟩

/-- **A failing pass with no reason to give up** marks the message for the next one. -/
theorem pass_marks (hget : Storage.get (env 0).store id w.storage = some m) (hst : m.state = .retrying)
    (hfail : AttemptsFail id env w) (hup : ¬ GivesUp env m) :
    ∃ storeEnv : StoreEnv, (pass config id env w).storage = (Storage.update storeEnv id
      (StoredMessage.markRetry storeEnv.clock (config.calculateBackoff m.attempts) (some 0x58) "all clusters failed")
      w.storage).1 := by
  have hmax : ¬ maxRetries ≤ m.attempts := fun h => hup (Or.inl h)
  have hexp : m.isExpired (env 1).store.clock = false :=
    Bool.eq_false_iff.mpr fun h => hup (Or.inr (Or.inl h))
  obtain ⟨route, hroute⟩ : ∃ route, (env 2).route = some route := by
    cases hr : (env 2).route with
    | none => exact absurd (Or.inr (Or.inr hr)) hup
    | some route => exact ⟨route, rfl⟩
  have hnone := hfail m route hget hroute
  have hstore := retryClusters_storage m route.clustersToTry (fun i => env (i + 3)) w
  unfold pass retryMessage
  simp only [request_bind, exec_call, handle, hget, if_neg (not_not.mpr hst),
    if_neg hmax, Nat.reduceAdd, hexp, hroute]
  rw [exec_bind]
  simp only [Nat.add_assoc, Nat.reduceAdd]
  rw [hnone, hstore]
  exact ⟨_, rfl⟩

end Pass

/-! ## A sequence of passes -/

/-- The state after the first `n` passes. -/
def passes [Storage S] (config : RetryConfig) (id : MessageId) (envs : Nat → Nat → Env) (w : World S (Output D)) :
    Nat → World S (Output D)
  | 0 => w
  | n + 1 => pass config id (envs n) (passes config id envs w n)

/-- The message waits for its next pass, with these chances. -/
structure Retries [Storage S] [ChanceStorage S] (id : MessageId) (c : Chances) (s : S) : Prop where
  holds : ChanceStorage.Holds s id c
  state : HasState id .retrying s

/-- The retry processor has given it up. -/
def GivenUp [Storage S] (id : MessageId) (s : S) : Prop := HasState id .failed s ∨ HasState id .expired s

/-- A pass that finds a message with these chances has a reason to give up. -/
def Chances.GoneIn (S : Type) [Storage S] [ChanceStorage S] (c : Chances) (env : Nat → Env) : Prop :=
  maxRetries ≤ c.attempts ∨
    c.ttl < elapsed (env 1).store.clock (ChanceStorage.since S c.createdAt (env 0).store.clock) ∨ (env 2).route = none

section Sequence

variable [Storage S] [ChanceStorage S] (config : RetryConfig) {id : MessageId} {w : World S (Output D)} {c : Chances}

/-- What a pass finds. -/
theorem Retries.found {s : S} (h : Retries id c s) (env : Nat → Env) :
    ∃ m, Storage.get (env 0).store id s = some m ∧ m.state = .retrying ∧ m.attempts = c.attempts ∧
      (GivesUp env m ↔ Chances.GoneIn S c env) := by
  obtain ⟨m, hget, hchances⟩ := ChanceStorage.get_of_holds (env 0).store id s c h.holds
  obtain ⟨m', hget', hstate⟩ := h.state (env 0).store
  obtain rfl : m = m' := Option.some.inj (hget.symm.trans hget')
  obtain ⟨hattempts, -, httl, hcreated⟩ := Chances.mk.inj hchances
  refine ⟨m, hget, hstate, hattempts, ?_⟩
  unfold GivesUp Chances.GoneIn StoredMessage.isExpired
  rw [hattempts, httl, hcreated, decide_eq_true_eq]

/-- **One failing pass**: it gives the message up, or leaves it with the chances it had. -/
theorem Retries.pass {env : Nat → Env} (h : Retries id c w.storage) (hfail : AttemptsFail id env w) :
    (Chances.GoneIn S c env → GivenUp id (pass config id env w).storage) ∧
      (¬ Chances.GoneIn S c env → Retries id c (pass config id env w).storage) := by
  obtain ⟨m, hget, hst, -, hgone⟩ := h.found env
  constructor
  · intro hgives
    obtain ⟨storeEnv, f, state, hid, hstate, hout, heq⟩ := pass_gives_up config hget hst (hgone.mpr hgives)
    have hhas := ChanceStorage.state_update storeEnv id f w.storage c state hid hstate h.holds
    rw [GivenUp, heq]
    rcases hout with rfl | rfl
    · exact Or.inl hhas
    · exact Or.inr hhas
  · intro hgoes
    obtain ⟨storeEnv, heq⟩ := pass_marks config hget hst hfail fun hup => hgoes (hgone.mp hup)
    rw [heq]
    exact ⟨ChanceStorage.holds_update storeEnv id _ w.storage c ⟨fun _ => rfl, fun _ => rfl⟩ h.holds,
      ChanceStorage.state_update storeEnv id _ w.storage c .retrying (fun _ => rfl) (fun _ => rfl) h.holds⟩

variable {envs : Nat → Nat → Env}

/-- As long as no pass gives up, the next one finds the message as the first one did. -/
theorem passes_going_on (h : Retries id c w.storage) (n : Nat)
    (hfail : ∀ i < n, AttemptsFail id (envs i) (passes config id envs w i))
    (hgo : ∀ i < n, ¬ Chances.GoneIn S c (envs i)) : Retries id c (passes config id envs w n).storage := by
  induction n with
  | zero => exact h
  | succ n ih =>
    have hbefore := ih (fun i hi => hfail i (by omega)) fun i hi => hgo i (by omega)
    exact (hbefore.pass config (hfail n (by omega))).2 (hgo n (by omega))

/-- The first pass with a reason takes the message out. -/
theorem passes_end (h : Retries id c w.storage) (n : Nat)
    (hfail : ∀ i ≤ n, AttemptsFail id (envs i) (passes config id envs w i)) (hgone : Chances.GoneIn S c (envs n)) :
    ∃ k ≤ n + 1, GivenUp id (passes config id envs w k).storage := by
  -- strong induction: if an earlier pass has a reason, it is the one
  induction n using Nat.strongRecOn with
  | _ n ih =>
    by_cases hbefore : ∃ i, i < n ∧ Chances.GoneIn S c (envs i)
    · obtain ⟨i, hi, hgonei⟩ := hbefore
      obtain ⟨k, hk, hout⟩ := ih i hi (fun j hj => hfail j (by omega)) hgonei
      exact ⟨k, by omega, hout⟩
    · have hgoes := passes_going_on config h n (fun i hi => hfail i (by omega)) fun i hi hgonei => hbefore ⟨i, hi, hgonei⟩
      exact ⟨n + 1, Nat.le_refl _, (hgoes.pass config (hfail n (Nat.le_refl n))).1 hgone⟩

/-- **Retries end within `MAX_RETRIES + 1` failing passes exactly when one of these passes finds a reason** in the
    chances that the message had at the start, over either back end. -/
theorem passes_end_iff (h : Retries id c w.storage)
    (hfail : ∀ i, AttemptsFail id (envs i) (passes config id envs w i)) :
    (∃ k ≤ maxRetries.toNat + 1, GivenUp id (passes config id envs w k).storage) ↔
      ∃ n ≤ maxRetries.toNat, Chances.GoneIn S c (envs n) := by
  constructor
  · rintro ⟨k, hk, hout⟩
    by_contra hnone
    have hgo : ∀ i < k, ¬ Chances.GoneIn S c (envs i) := fun i hi hgone => hnone ⟨i, by omega, hgone⟩
    have hretries := passes_going_on config h k (fun i _ => hfail i) hgo
    rcases hout with hfailed | hexpired
    · cases hfailed.unique hretries.state
    · cases hexpired.unique hretries.state
  · rintro ⟨n, hn, hgone⟩
    obtain ⟨k, hk, hout⟩ := passes_end config h n (fun i _ => hfail i) hgone
    exact ⟨k, by omega, hout⟩

end Sequence

/-! ## The in-memory back end -/

section Memory

variable {id : MessageId} {s : MemoryStorage} {m : StoredMessage}

theorem retries_of_get (hget : s.get id = some m) (hst : m.state = .retrying) : Retries id m.chances s :=
  ⟨⟨m, hget, rfl⟩, fun _ => ⟨m, hget, hst⟩⟩

/-- The message says itself when it is given up. -/
theorem goneIn_iff (m : StoredMessage) (env : Nat → Env) : Chances.GoneIn MemoryStorage m.chances env ↔ GivesUp env m := by
  unfold GivesUp Chances.GoneIn StoredMessage.isExpired
  rw [decide_eq_true_eq]
  rfl

theorem givenUp_iff : GivenUp id s ↔ ∃ m, s.get id = some m ∧ (m.state = .failed ∨ m.state = .expired) := by
  constructor
  · rintro (h | h)
    · obtain ⟨m, hget, hstate⟩ := h ⟨⟨0, 0⟩, .listed⟩
      exact ⟨m, hget, Or.inl hstate⟩
    · obtain ⟨m, hget, hstate⟩ := h ⟨⟨0, 0⟩, .listed⟩
      exact ⟨m, hget, Or.inr hstate⟩
  · rintro ⟨m, hget, hstate | hstate⟩
    · exact Or.inl fun _ => ⟨m, hget, hstate⟩
    · exact Or.inr fun _ => ⟨m, hget, hstate⟩

end Memory

/-- **Retries end within `MAX_RETRIES + 1` failing passes exactly when one of these passes finds the
    counter at its bound, the time to live gone or no route**: the passes themselves never bring the
    counter there. -/
theorem retries_end_iff (config : RetryConfig) (id : MessageId) (envs : Nat → Nat → Env)
    (w : MemWorld D) (m : StoredMessage) (hget : w.storage.get id = some m)
    (hst : m.state = .retrying)
    (hfail : ∀ i, AttemptsFail id (envs i) (passes config id envs w i)) :
    (∃ k ≤ maxRetries.toNat + 1, ∃ m', (passes config id envs w k).storage.get id = some m' ∧
      (m'.state = .failed ∨ m'.state = .expired)) ↔
    ∃ n ≤ maxRetries.toNat, GivesUp (envs n) m := by
  have hend := passes_end_iff config (retries_of_get hget hst) hfail
  simp only [givenUp_iff, goneIn_iff] at hend
  exact hend

/-! ## A message that is retried for ever, and one that is not -/

/-- With no cluster configured every attempt fails. -/
theorem attemptsFail_of_no_cluster [Storage S] {id : MessageId} {env : Nat → Env} (w : World S (Output D))
    (hdown : ∀ i, (env i).cluster = none) : AttemptsFail id env w := by
  have hall : ∀ (msg : StoredMessage) (names : List String) (env : Nat → Env),
      (∀ i, (env i).cluster = none) →
        ((retryClusters msg names : Body (Output D) _).exec handle env w).1 = none := by
    intro msg names
    induction names with
    | nil => intro env _; rfl
    | cons name rest ih =>
      intro env henv
      have htry : (tryForwardRetry msg name : Body (Output D) _).exec handle env w =
          (.error (.clusterNotFound name), w, fun i => env (i + 1)) := by
        unfold tryForwardRetry
        simp only [request_bind, exec_call, handle, henv 0]
        rfl
      rw [retryClusters, exec_bind, htry]
      exact ih _ fun i => henv (i + 1)
  intro current route _ _
  exact hall current route.clustersToTry _ fun i => hdown (i + 3)

/-- The sample message after a first round of failures. -/
def waiting : StoredMessage :=
  (StoredMessage.sample 0).markRetry ⟨0, 0⟩ (fromSecs 1) (some 0x58) "all clusters failed"

/-- A gateway that holds it. -/
def waitingWorld : MemWorld Unit :=
  ⟨(MemoryStorage.withConfig ⟨1000, 512, 10⟩).store .listed waiting, 1, []⟩

/-- No cluster is there, the clock stands, the routing table answers `route`. -/
def down (route : Option RouteResult) : Env :=
  ⟨⟨⟨0, 0⟩, .listed⟩, route, none, false, .timeout, false, false⟩

theorem waitingWorld_get : waitingWorld.storage.get ⟨0⟩ = some waiting :=
  MemoryStorage.get_store_self .listed waiting _

/-- When the routing table forgets the destination, the sixth pass at the latest ends the retries. -/
theorem retries_end_without_route :
    ∃ k ≤ maxRetries.toNat + 1, ∃ m',
      (passes ⟨1, 60⟩ ⟨0⟩ (fun _ _ => down none) waitingWorld k).storage.get ⟨0⟩ = some m' ∧
        (m'.state = .failed ∨ m'.state = .expired) :=
  (retries_end_iff ⟨1, 60⟩ ⟨0⟩ (fun _ _ => down none) waitingWorld waiting waitingWorld_get rfl
    fun i => attemptsFail_of_no_cluster _ fun _ => rfl).mpr
    ⟨0, Nat.zero_le _, Or.inr (Or.inr rfl)⟩

/-- With a route and a live message the retries do not end: every attempt of six passes fails, and the
    message is `Retrying` with the attempt counter it had. -/
theorem retries_do_not_end :
    let envs : Nat → Nat → Env := fun _ _ => down (some ⟨"route", "cluster", []⟩)
    (∀ i, AttemptsFail ⟨0⟩ (envs i) (passes ⟨1, 60⟩ ⟨0⟩ envs waitingWorld i)) ∧
      ¬ ∃ k ≤ maxRetries.toNat + 1, ∃ m',
        (passes ⟨1, 60⟩ ⟨0⟩ envs waitingWorld k).storage.get ⟨0⟩ = some m' ∧
          (m'.state = .failed ∨ m'.state = .expired) := by
  intro envs
  have hfail : ∀ i, AttemptsFail ⟨0⟩ (envs i) (passes ⟨1, 60⟩ ⟨0⟩ envs waitingWorld i) :=
    fun i => attemptsFail_of_no_cluster _ fun _ => rfl
  have hgo : ∀ i, ¬ GivesUp (envs i) waiting := by
    rintro i (h | h | h)
    · exact absurd h (by decide)
    · exact absurd h (by decide)
    · cases h
  refine ⟨hfail, fun hend => ?_⟩
  obtain ⟨k, -, hout⟩ := hend
  have hretries := passes_going_on ⟨1, 60⟩ (retries_of_get waitingWorld_get rfl) k (fun i _ => hfail i)
    fun i _ hgone => hgo i ((goneIn_iff waiting (envs i)).mp hgone)
  rcases givenUp_iff.mpr hout with hfailed | hexpired
  · cases hfailed.unique hretries.state
  · cases hexpired.unique hretries.state

end Smppd.Forwarder

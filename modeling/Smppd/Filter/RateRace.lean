/-
  RATE LIMITS UNDER RACES (`src/filter/ratelimit.rs`): any number of calls of `RateLimiterStore::try_acquire` at
  once, interleaved at their accesses to what they share.

  Two things that belong together are apart.

  * `get_bucket` looks for the client's bucket under one lock and puts a new one in under another: a call that
    has found none REPLACES the bucket that a faster one has put in, and every bucket starts full.
  * A call refills under a lock, for the time at which it has read the clock, and takes its token later by
    compare-and-swap.  A call that was held up takes from a bucket for which MORE HAS BECOME DUE in the
    meantime, and the next refill puts that in as if nothing had been taken; a refill is itself a `load` and a
    `store`, and what is taken between the two is put back.

  `Undisturbed` excludes the two, a bucket that is replaced and a token that is taken while a whole token is due,
  and then the bound of the sequential bucket holds (`concurrent_grants_bounded`).  In particular nothing is taken
  between `load` and `store`.  Each of the two breaks the bound without the other: three first calls for a client
  with a burst of one, or two calls that were held up and a third.

  Writing `last_refill` and releasing its lock are taken with the store before them: nobody sees that time but
  under the lock.
-/
import Mathlib.Logic.Function.Basic
import Smppd.Lib.Machine
import Smppd.Lib.Prog
import Smppd.Filter.RateLimit

set_option linter.unusedVariables false

namespace Smppd.Filter.RateRace

open Smppd.Store Machine Prog Table Bucket

/-! ## The calls and what they share -/

/-- The bucket behind an `Arc<TokenBucket>`. -/
abbrev BucketId := Nat

/-- Where a call of `try_acquire` is: what it does next. -/
inductive CallState where
  /-- Look the client up. -/
  | lookup
  /-- `TokenBucket::new`. -/
  | create
  /-- Put the new bucket into the map. -/
  | insert (bucket : BucketId)
  /-- `Instant::now()`. -/
  | clock (bucket : BucketId)
  /-- Take the lock of `last_refill`, and see what is due. -/
  | lock (bucket : BucketId) (now : Instant)
  /-- `self.tokens.load`, with the lock. -/
  | load (bucket : BucketId) (now : Instant) (due : UInt64)
  /-- `self.tokens.store` and `*last = now`; the lock is released. -/
  | store (bucket : BucketId) (now : Instant) (due current : UInt64)
  /-- `self.tokens.load`, in the loop. -/
  | consume (bucket : BucketId)
  /-- `compare_exchange`. -/
  | swap (bucket : BucketId) (current : UInt64)
  | done (granted : Bool)
  deriving DecidableEq

variable {ι : Type} [DecidableEq ι]

/-- A `RateLimiterStore` with calls under way, and who was granted a token when. -/
structure Race (ι : Type) where
  config : RateLimitConfig
  heap : BucketId → TokenBucket
  /-- Somebody has the lock of `last_refill`. -/
  locked : BucketId → Bool
  allocated : Nat
  buckets : Tbl String BucketId
  calls : ι → CallState
  time : Instant
  grants : List (String × Instant)

namespace Race

/-- An empty store, and calls that are about to begin. -/
def new (config : RateLimitConfig) (time : Instant) : Race ι :=
  { config, heap := fun _ => .new time config.requestsPerSecond config.burstSize, locked := fun _ => false,
    allocated := 0, buckets := ∅, calls := fun _ => .lookup, time, grants := [] }

/-- When a client was granted tokens. -/
def grantsTo (client : String) (s : Race ι) : List Instant :=
  (s.grants.filter fun g => g.1 = client).map Prod.snd

/-- A call goes on to its next access. -/
def move (i : ι) (call : CallState) (s : Race ι) : Race ι := { s with calls := Function.update s.calls i call }

/-- A bucket is written. -/
def write (b : BucketId) (bucket : TokenBucket) (s : Race ι) : Race ι :=
  { s with heap := Function.update s.heap b bucket }

/-- The lock of a bucket is taken or released. -/
def setLock (b : BucketId) (locked : Bool) (s : Race ι) : Race ι :=
  { s with locked := Function.update s.locked b locked }

end Race

variable (client : ι → String)

/-- The next access of a call; `none` when it waits for a lock, and when it has returned. -/
def access (i : ι) (s : Race ι) : Option (Race ι) :=
  match s.calls i with
  | .lookup =>
    match s.buckets.lookup (client i) with
    | some b => some (s.move i (.clock b))
    | none => some (s.move i .create)
  | .create =>
    let bucket := TokenBucket.new s.time s.config.requestsPerSecond s.config.burstSize
    some ({ s.write s.allocated bucket with allocated := s.allocated + 1 }.move i (.insert s.allocated))
  | .insert b => some ({ s with buckets := s.buckets.insert (client i) b }.move i (.clock b))
  | .clock b => some (s.move i (.lock b s.time))
  | .lock b now =>
    if s.locked b then none
    else
      let due := newTokens (s.heap b).rate (durationSince now (s.heap b).lastRefill)
      if 0 < due then some ((s.setLock b true).move i (.load b now due)) else some (s.move i (.consume b))
  | .load b now due => some (s.move i (.store b now due (s.heap b).tokens))
  | .store b now due current =>
    let bucket := { s.heap b with tokens := newTotal (s.heap b).capacity current due, lastRefill := now }
    some (((s.write b bucket).setLock b false).move i (.consume b))
  | .consume b => if (s.heap b).tokens = 0 then some (s.move i (.done false)) else some (s.move i (.swap b (s.heap b).tokens))
  | .swap b current =>
    if (s.heap b).tokens = current then
      let bucket := { s.heap b with tokens := current - 1 }
      some ({ s.write b bucket with grants := s.grants ++ [(client i, s.time)] }.move i (.done true))
    else some (s.move i (.consume b))
  | .done _ => none

/-- One access of one call, at a time that is not before the last one. -/
def step (s : Race ι) (label : ι × Instant) : Option (Race ι) :=
  if s.time ≤ label.2 then access client label.1 { s with time := label.2 } else none

/-- What a call may do where it is: it does not replace a bucket, nor take a token from one for which a whole
    token is due. -/
def Allowed (s : Race ι) (c : String) (now : Instant) : CallState → Prop
  | .insert _ => s.buckets.lookup c = none
  | .swap b current => (s.heap b).tokens = current → (s.heap b).UpToDate now
  | _ => True

instance (s : Race ι) (c : String) (now : Instant) : (call : CallState) → Decidable (Allowed s c now call)
  | .insert _ => inferInstanceAs (Decidable (_ = _))
  | .swap _ _ => inferInstanceAs (Decidable (_ = _ → _))
  | .lookup | .create | .clock _ | .lock _ _ | .load _ _ _ | .store _ _ _ _ | .consume _ | .done _ =>
    isTrue trivial

/-- **An access that nothing disturbs.** -/
def Undisturbed (s : Race ι) (label : ι × Instant) : Prop := Allowed s (client label.1) label.2 (s.calls label.1)

instance (s : Race ι) (label : ι × Instant) : Decidable (Undisturbed client s label) :=
  inferInstanceAs (Decidable (Allowed _ _ _ _))

/-! ## The invariant -/

/-- The bucket that the call alone may touch in some way: it has made it, or has its lock. -/
def CallState.claims : CallState → Option BucketId
  | .insert b | .load b _ _ | .store b _ _ _ => some b
  | _ => none

/-- What a refill under way has read: a time that is past, and what was due at it. -/
def Due (s : Race ι) (b : BucketId) (now : Instant) (due : UInt64) : Prop :=
  now ≤ s.time ∧ due = newTokens (s.heap b).rate (durationSince now (s.heap b).lastRefill) ∧ 0 < due ∧
    s.locked b = true

/-- What a call knows of the bucket it is at. -/
def Local (s : Race ι) (c : String) : CallState → Prop
  | .insert b =>
    b < s.allocated ∧ s.locked b = false ∧ (∀ c', s.buckets.lookup c' ≠ some b) ∧
      ∃ made, (s.heap b).Bounded s.config.requestsPerSecond s.config.burstSize made [] s.time
  | .clock b | .consume b => s.buckets.lookup c = some b
  | .lock b now => s.buckets.lookup c = some b ∧ now ≤ s.time
  | .load b now due => s.buckets.lookup c = some b ∧ Due s b now due
  | .store b now due current => s.buckets.lookup c = some b ∧ Due s b now due ∧ (s.heap b).tokens = current
  | .swap b current => s.buckets.lookup c = some b ∧ current ≠ 0
  | _ => True

/-- **The invariant** of a store whose calls nothing disturbs: each client has one bucket, all that it was granted
    came from there, and the history of the bucket is metered. -/
structure Sound (s : Race ι) : Prop where
  allocated : ∀ c b, s.buckets.lookup c = some b → b < s.allocated
  unlocked : ∀ b, s.allocated ≤ b → s.locked b = false
  apart : ∀ c c' b, s.buckets.lookup c = some b → s.buckets.lookup c' = some b → c = c'
  bounded : ∀ c b, s.buckets.lookup c = some b →
    ∃ made, (s.heap b).Bounded s.config.requestsPerSecond s.config.burstSize made (s.grantsTo c) s.time
  nothing : ∀ c, s.buckets.lookup c = none → s.grantsTo c = []
  each : ∀ i, Local s (client i) (s.calls i)
  exclusive : ∀ b i j, (s.calls i).claims = some b → (s.calls j).claims = some b → i = j

variable {client}

omit [DecidableEq ι] in
theorem sound_new (config : RateLimitConfig) (time : Instant) : Sound client (Race.new config time) where
  allocated := fun c b h => nomatch h
  unlocked := fun b h => rfl
  apart := fun c c' b h => nomatch h
  bounded := fun c b h => nomatch h
  nothing := fun c h => rfl
  each := fun i => trivial
  exclusive := fun b i j h => nomatch h

variable {s s' : Race ι} {i : ι}

omit [DecidableEq ι] in
/-- **The frame of a call**: what it knows is about its own client's entry, and about the bucket that it claims. -/
theorem Local.frame {c : String} {call : CallState} (h : Local s c call) (hconfig : s'.config = s.config)
    (hentry : ∀ b, s.buckets.lookup c = some b → s'.buckets.lookup c = some b)
    (hunmapped : ∀ b, call.claims = some b → (∀ c', s.buckets.lookup c' ≠ some b) → ∀ c', s'.buckets.lookup c' ≠ some b)
    (htime : s.time ≤ s'.time) (hallocated : s.allocated ≤ s'.allocated)
    (hclaimed : ∀ b, call.claims = some b → s'.heap b = s.heap b ∧ s'.locked b = s.locked b) : Local s' c call := by
  have hdue : ∀ b now due, call.claims = some b → Due s b now due → Due s' b now due := by
    rintro b now due hb ⟨hnow, hd⟩
    rw [Due, (hclaimed b hb).1, (hclaimed b hb).2]
    exact ⟨hnow.trans htime, hd⟩
  cases call with
  | insert b =>
    obtain ⟨hlt, hfree, hnobody, made, hbounded⟩ := h
    obtain ⟨hheap, hlocked⟩ := hclaimed b rfl
    refine ⟨hlt.trans_le hallocated, hlocked.trans hfree, hunmapped b rfl hnobody, made, ?_⟩
    rw [hheap, hconfig]
    exact hbounded.wait htime
  | clock b => exact hentry b h
  | lock b now => exact ⟨hentry b h.1, h.2.trans htime⟩
  | load b now due => exact ⟨hentry b h.1, hdue b now due rfl h.2⟩
  | store b now due current =>
    refine ⟨hentry b h.1, hdue b now due rfl h.2.1, ?_⟩
    rw [(hclaimed b rfl).1]
    exact h.2.2
  | consume b => exact hentry b h
  | swap b current => exact ⟨hentry b h.1, h.2⟩
  | lookup => trivial
  | create => trivial
  | done granted => trivial

omit [DecidableEq ι] in
/-- Time passes. -/
theorem Sound.wait (h : Sound client s) {now : Instant} (hnow : s.time ≤ now) :
    Sound client { s with time := now } where
  allocated := h.allocated
  unlocked := h.unlocked
  apart := h.apart
  bounded := fun c b hb => by
    obtain ⟨made, hbounded⟩ := h.bounded c b hb
    exact ⟨made, hbounded.wait hnow⟩
  nothing := h.nothing
  each := fun i =>
    (h.each i).frame rfl (fun _ hb => hb) (fun _ _ hb => hb) hnow (Nat.le_refl _) fun _ _ => ⟨rfl, rfl⟩
  exclusive := h.exclusive

/-- A call goes on, and nothing else changes. -/
theorem Sound.move (h : Sound client s) {call : CallState} (hlocal : Local s (client i) call)
    (hclaims : ∀ b, call.claims = some b → ∀ j, j ≠ i → (s.calls j).claims ≠ some b) :
    Sound client (s.move i call) where
  allocated := h.allocated
  unlocked := h.unlocked
  apart := h.apart
  bounded := h.bounded
  nothing := h.nothing
  each := fun j => by
    show Local s (client j) (Function.update s.calls i call j)
    by_cases hj : j = i
    · subst hj
      rw [Function.update_self]
      exact hlocal
    · rw [Function.update_of_ne hj]
      exact h.each j
  exclusive := fun b => unique_update (P := fun c : CallState => c.claims = some b) (h.exclusive b) (hclaims b)

omit [DecidableEq ι] in
/-- What a call claims is a bucket that it has made, or one that it refills. -/
theorem Sound.claimed (h : Sound client s) {b : BucketId} (hclaims : (s.calls i).claims = some b) :
    (b < s.allocated ∧ ∀ c, s.buckets.lookup c ≠ some b) ∨
      (s.buckets.lookup (client i) = some b ∧ ∃ now due, Due s b now due) := by
  have hlocal := h.each i
  cases hcall : s.calls i with
  | insert b' =>
    rw [hcall] at hclaims hlocal
    obtain rfl : b' = b := Option.some.inj hclaims
    exact .inl ⟨hlocal.1, hlocal.2.2.1⟩
  | load b' now due =>
    rw [hcall] at hclaims hlocal
    obtain rfl : b' = b := Option.some.inj hclaims
    exact .inr ⟨hlocal.1, now, due, hlocal.2⟩
  | store b' now due current =>
    rw [hcall] at hclaims hlocal
    obtain rfl : b' = b := Option.some.inj hclaims
    exact .inr ⟨hlocal.1, now, due, hlocal.2.1⟩
  | _ =>
    rw [hcall] at hclaims
    cases hclaims

omit [DecidableEq ι] in
/-- What is claimed has been allocated. -/
theorem Sound.claims_lt (h : Sound client s) {b : BucketId} (hclaims : (s.calls i).claims = some b) : b < s.allocated := by
  rcases h.claimed hclaims with ⟨hlt, -⟩ | ⟨hmapped, -⟩
  · exact hlt
  · exact h.allocated _ _ hmapped

omit [DecidableEq ι] in
/-- A bucket in the map is claimed by refills only. -/
theorem Sound.refilling (h : Sound client s) {c : String} {b : BucketId} (hmapped : s.buckets.lookup c = some b)
    (hclaims : (s.calls i).claims = some b) : ∃ now due, Due s b now due := by
  rcases h.claimed hclaims with ⟨-, hnobody⟩ | ⟨-, hdue⟩
  · exact absurd hmapped (hnobody c)
  · exact hdue

omit [DecidableEq ι] in
/-- A bucket in the map that is not locked is claimed by nobody. -/
theorem Sound.unclaimed (h : Sound client s) {c : String} {b : BucketId} (hmapped : s.buckets.lookup c = some b)
    (hfree : s.locked b = false) : (s.calls i).claims ≠ some b := by
  intro hclaims
  obtain ⟨now, due, -, -, -, hlocked⟩ := h.refilling hmapped hclaims
  rw [hfree] at hlocked
  cases hlocked

omit [DecidableEq ι] in
/-- Nor is one that is up to date. -/
theorem Sound.idle (h : Sound client s) {c : String} {b : BucketId} (hmapped : s.buckets.lookup c = some b)
    (hfresh : (s.heap b).UpToDate s.time) : (s.calls i).claims ≠ some b := by
  intro hclaims
  obtain ⟨now, due, hnow, rfl, hdue, -⟩ := h.refilling hmapped hclaims
  have hmore := newTokens_mono (s.heap b).rate (s.heap b).lastRefill hnow
  rw [hfresh] at hmore
  exact absurd hdue (UInt64.not_lt.mpr hmore)

/-- **One call moves to where it claims nothing, and leaves what the others know as it is.** -/
theorem Sound.leave (h : Sound client s) (i : ι) (call : CallState) (hcalls : s'.calls = Function.update s.calls i call)
    (hnone : call.claims = none) (hconfig : s'.config = s.config) (hbuckets : s'.buckets = s.buckets)
    (htime : s'.time = s.time) (hallocated : s'.allocated = s.allocated)
    (hunlocked : ∀ b, s.allocated ≤ b → s'.locked b = false) (hlocal : Local s' (client i) call)
    (hframe : ∀ j b, j ≠ i → (s.calls j).claims = some b → s'.heap b = s.heap b ∧ s'.locked b = s.locked b)
    (hbounded : ∀ c b, s.buckets.lookup c = some b →
      ∃ made, (s'.heap b).Bounded s.config.requestsPerSecond s.config.burstSize made (s'.grantsTo c) s.time)
    (hnothing : ∀ c, s.buckets.lookup c = none → s'.grantsTo c = []) : Sound client s' where
  allocated := by
    rw [hbuckets, hallocated]
    exact h.allocated
  unlocked := by
    rw [hallocated]
    exact hunlocked
  apart := by
    rw [hbuckets]
    exact h.apart
  bounded := by
    rw [hbuckets, hconfig, htime]
    exact hbounded
  nothing := by
    rw [hbuckets]
    exact hnothing
  each := fun j => by
    rw [hcalls]
    by_cases hj : j = i
    · subst hj
      rw [Function.update_self]
      exact hlocal
    · rw [Function.update_of_ne hj]
      refine (h.each j).frame hconfig ?_ ?_ htime.ge hallocated.ge fun b hb => hframe j b hj hb
      · rw [hbuckets]
        exact fun b hb => hb
      · rw [hbuckets]
        exact fun b _ hb => hb
  exclusive := fun b => by
    rw [hcalls]
    refine unique_update (P := fun c : CallState => c.claims = some b) (h.exclusive b) ?_
    intro hclaims
    rw [hnone] at hclaims
    cases hclaims

/-! ## What each access keeps -/

/-- A new bucket is nobody else's, and full. -/
theorem Sound.create (h : Sound client s) :
    Sound client ({ s.write s.allocated (.new s.time s.config.requestsPerSecond s.config.burstSize) with
      allocated := s.allocated + 1 }.move i (.insert s.allocated)) := by
  have hother : ∀ b, b < s.allocated → Function.update s.heap s.allocated
      (.new s.time s.config.requestsPerSecond s.config.burstSize) b = s.heap b :=
    fun b hb => Function.update_of_ne (Nat.ne_of_lt hb) _ _
  have hbigger : Sound client { s.write s.allocated (.new s.time s.config.requestsPerSecond s.config.burstSize) with
      allocated := s.allocated + 1 } :=
    { allocated := fun c b hb => Nat.lt_succ_of_lt (h.allocated c b hb)
      unlocked := fun b hb => h.unlocked b (Nat.le_of_succ_le hb)
      apart := h.apart
      bounded := fun c b hb => by
        obtain ⟨made, hbounded⟩ := h.bounded c b hb
        refine ⟨made, ?_⟩
        show (Function.update s.heap s.allocated _ b).Bounded _ _ made _ _
        rw [hother b (h.allocated c b hb)]
        exact hbounded
      nothing := h.nothing
      each := fun j => by
        exact (h.each j).frame rfl (fun _ hb => hb) (fun _ _ hb => hb) (le_refl _) (Nat.le_succ _) fun b hb =>
          ⟨hother b (h.claims_lt hb), rfl⟩
      exclusive := h.exclusive }
  refine hbigger.move ⟨Nat.lt_succ_self _, h.unlocked _ (Nat.le_refl _), ?_, s.time, ?_⟩ ?_
  · intro c hc
    exact absurd (h.allocated c _ hc) (Nat.lt_irrefl _)
  · show (Function.update s.heap s.allocated _ s.allocated).Bounded _ _ _ _ _
    rw [Function.update_self]
    exact TokenBucket.bounded_new _ _ _
  · rintro b hb j hj hclaims
    obtain rfl : s.allocated = b := Option.some.inj hb
    exact absurd (h.claims_lt hclaims) (Nat.lt_irrefl _)

/-- The first bucket of a client is put into the map. -/
theorem Sound.insert (h : Sound client s) {b : BucketId} (hcall : s.calls i = .insert b)
    (hnew : s.buckets.lookup (client i) = none) :
    Sound client ({ s with buckets := s.buckets.insert (client i) b }.move i (.clock b)) := by
  have hmine := h.each i
  rw [hcall] at hmine
  obtain ⟨hlt, hfree, hunmapped, hbounded⟩ := hmine
  have hlookup : ∀ c b', (s.buckets.insert (client i) b).lookup c = some b' →
      (c = client i ∧ b' = b) ∨ (c ≠ client i ∧ s.buckets.lookup c = some b') :=
    fun c b' hb' => lookup_insert_eq_some.mp hb'
  have hothers : ∀ j b', s.buckets.lookup (client j) = some b' →
      (s.buckets.insert (client i) b).lookup (client j) = some b' := by
    intro j b' hb'
    refine lookup_insert_eq_some.mpr (Or.inr ⟨fun heq => ?_, hb'⟩)
    rw [heq, hnew] at hb'
    cases hb'
  refine
    { allocated := ?_, unlocked := h.unlocked, apart := ?_, bounded := ?_, nothing := ?_, each := ?_, exclusive := ?_ }
  · intro c b' hb'
    rcases hlookup c b' hb' with ⟨-, rfl⟩ | ⟨-, hold⟩
    · exact hlt
    · exact h.allocated c b' hold
  · intro c c' b' hc hc'
    rcases hlookup c b' hc with ⟨rfl, rfl⟩ | ⟨-, hold⟩
    · rcases hlookup c' b' hc' with ⟨rfl, -⟩ | ⟨-, hold'⟩
      · rfl
      · exact absurd hold' (hunmapped c')
    · rcases hlookup c' b' hc' with ⟨-, rfl⟩ | ⟨-, hold'⟩
      · exact absurd hold (hunmapped c)
      · exact h.apart c c' b' hold hold'
  · intro c b' hb'
    rcases hlookup c b' hb' with ⟨rfl, rfl⟩ | ⟨-, hold⟩
    · obtain ⟨made, hmade⟩ := hbounded
      refine ⟨made, ?_⟩
      show (s.heap b').Bounded _ _ made (s.grantsTo (client i)) s.time
      rw [h.nothing _ hnew]
      exact hmade
    · exact h.bounded c b' hold
  · intro c hc
    refine h.nothing c ?_
    by_cases hci : c = client i
    · rw [hci]
      exact hnew
    · have hsame : (s.buckets.insert (client i) b).lookup c = s.buckets.lookup c := AList.lookup_insert_ne hci
      exact hsame.symm.trans hc
  · intro j
    show Local _ (client j) (Function.update s.calls i (.clock b) j)
    by_cases hj : j = i
    · subst hj
      rw [Function.update_self]
      exact AList.lookup_insert s.buckets
    · rw [Function.update_of_ne hj]
      refine (h.each j).frame rfl (hothers j) ?_ (le_refl _) (Nat.le_refl _) fun _ _ => ⟨rfl, rfl⟩
      intro b' hb' hnobody c hc
      rcases hlookup c b' hc with ⟨-, rfl⟩ | ⟨-, hold⟩
      · exact hj (h.exclusive b' j i hb' (by rw [hcall]; rfl))
      · exact hnobody c hold
  · intro b'
    exact unique_update (P := fun c : CallState => c.claims = some b') (h.exclusive b') fun hb' => nomatch hb'

/-- A refill takes the lock, because something is due. -/
theorem Sound.lock (h : Sound client s) {b : BucketId} {now : Instant} (hcall : s.calls i = .lock b now)
    (hfree : s.locked b = false) (hdue : 0 < newTokens (s.heap b).rate (durationSince now (s.heap b).lastRefill)) :
    Sound client ((s.setLock b true).move i
      (.load b now (newTokens (s.heap b).rate (durationSince now (s.heap b).lastRefill)))) := by
  have hmine := h.each i
  rw [hcall] at hmine
  obtain ⟨hmapped, hnow⟩ := hmine
  have hlocked : Sound client (s.setLock b true) :=
    { h with
      unlocked := fun b' hb' => by
        have hne : b' ≠ b := fun heq => absurd (h.allocated _ _ hmapped) (not_lt.mpr (heq ▸ hb'))
        show Function.update s.locked b true b' = false
        rw [Function.update_of_ne hne]
        exact h.unlocked b' hb'
      each := fun j => by
        refine (h.each j).frame rfl (fun _ hb => hb) (fun _ _ hb => hb) (le_refl _) (Nat.le_refl _) fun b' hb' =>
          ⟨rfl, ?_⟩
        have hne : b' ≠ b := fun heq => h.unclaimed hmapped hfree (heq ▸ hb')
        exact Function.update_of_ne hne _ _ }
  refine hlocked.move ⟨hmapped, hnow, rfl, hdue, Function.update_self _ _ _⟩ ?_
  intro b' hb' j hj
  obtain rfl : b = b' := Option.some.inj hb'
  exact h.unclaimed hmapped hfree

/-- A refill puts in what was due, and nothing was taken since it has looked. -/
theorem Sound.store (h : Sound client s) {b : BucketId} {now : Instant} {due current : UInt64}
    (hcall : s.calls i = .store b now due current) :
    Sound client (((s.write b
      { s.heap b with tokens := newTotal (s.heap b).capacity current due, lastRefill := now }).setLock b false).move i
        (.consume b)) := by
  have hmine := h.each i
  rw [hcall] at hmine
  obtain ⟨hmapped, ⟨hnow, hread, hdue, -⟩, hsame⟩ := hmine
  have hclaimed : (s.calls i).claims = some b := by rw [hcall]; rfl
  refine h.leave i (.consume b) rfl rfl rfl rfl rfl rfl ?_ hmapped ?_ ?_ h.nothing
  · intro b' hb'
    show Function.update s.locked b false b' = false
    by_cases hb : b' = b
    · rw [hb, Function.update_self]
    · rw [Function.update_of_ne hb]
      exact h.unlocked b' hb'
  · intro j b' hj hb'
    have hne : b' ≠ b := fun heq => hj (h.exclusive b j i (heq ▸ hb') hclaimed)
    exact ⟨Function.update_of_ne hne _ _, Function.update_of_ne hne _ _⟩
  · intro c b' hb'
    obtain ⟨made, hbounded⟩ := h.bounded c b' hb'
    refine ⟨made, ?_⟩
    show (Function.update s.heap b _ b').Bounded _ _ made (s.grantsTo c) s.time
    by_cases hb : b' = b
    · subst hb
      rw [Function.update_self, ← hsame, hread, hbounded.sameRate]
      rw [hread, hbounded.sameRate] at hdue
      have hrefilled := hbounded.refilled hnow hdue
      exact hrefilled
    · rw [Function.update_of_ne hb]
      exact hbounded

omit [DecidableEq ι] in
theorem grantsTo_append (s : Race ι) (c d : String) (time : Instant) :
    Race.grantsTo c { s with grants := s.grants ++ [(d, time)] } =
      if d = c then s.grantsTo c ++ [time] else s.grantsTo c := by
  unfold Race.grantsTo
  rw [List.filter_append, List.map_append]
  by_cases hd : d = c
  · simp [hd]
  · simp [hd]

/-- **A token is taken** from a bucket that is up to date. -/
theorem Sound.swap (h : Sound client s) {b : BucketId} {current : UInt64} (hcall : s.calls i = .swap b current)
    (hsame : (s.heap b).tokens = current) (hfresh : (s.heap b).UpToDate s.time) :
    Sound client ({ s.write b { s.heap b with tokens := current - 1 } with
      grants := s.grants ++ [(client i, s.time)] }.move i (.done true)) := by
  have hmine := h.each i
  rw [hcall] at hmine
  obtain ⟨hmapped, hcurrent⟩ := hmine
  have hgrants : ∀ c, Race.grantsTo c ({ s.write b { s.heap b with tokens := current - 1 } with
      grants := s.grants ++ [(client i, s.time)] }.move i (.done true)) =
        if client i = c then s.grantsTo c ++ [s.time] else s.grantsTo c :=
    fun c => grantsTo_append s c (client i) s.time
  refine h.leave i (.done true) rfl rfl rfl rfl rfl rfl h.unlocked trivial ?_ ?_ ?_
  · intro j b' hj hb'
    have hne : b' ≠ b := fun heq => h.idle hmapped hfresh (heq ▸ hb')
    exact ⟨Function.update_of_ne hne _ _, rfl⟩
  · intro c b' hb'
    obtain ⟨made, hbounded⟩ := h.bounded c b' hb'
    refine ⟨made, ?_⟩
    rw [hgrants]
    show (Function.update s.heap b _ b').Bounded _ _ made _ s.time
    by_cases hb : b' = b
    · subst hb
      rw [Function.update_self, if_pos (h.apart _ _ _ hmapped hb'), ← hsame]
      exact hbounded.taken (hsame ▸ hcurrent) hfresh
    · have hne : client i ≠ c := by
        rintro rfl
        exact hb (Option.some.inj (hb'.symm.trans hmapped))
      rw [Function.update_of_ne hb, if_neg hne]
      exact hbounded
  · intro c hc
    have hne : client i ≠ c := by
      rintro rfl
      rw [hmapped] at hc
      cases hc
    rw [hgrants, if_neg hne]
    exact h.nothing c hc

/-- **The step lemma.** -/
theorem Sound.access (h : Sound client s) (hok : Undisturbed client s (i, s.time)) (haccess : access client i s = some s') :
    Sound client s' := by
  have hmine := h.each i
  unfold RateRace.access at haccess
  unfold Undisturbed at hok
  cases hcall : s.calls i with
  | lookup =>
    rw [hcall] at haccess
    cases hlookup : s.buckets.lookup (client i) with
    | some b =>
      simp only [hlookup] at haccess
      cases haccess
      exact h.move hlookup fun b' hb' => nomatch hb'
    | none =>
      simp only [hlookup] at haccess
      cases haccess
      exact h.move trivial fun b' hb' => nomatch hb'
  | create =>
    rw [hcall] at haccess
    cases haccess
    exact h.create
  | insert b =>
    rw [hcall] at haccess
    rw [hcall] at hok
    cases haccess
    exact h.insert hcall hok
  | clock b =>
    rw [hcall] at haccess hmine
    cases haccess
    exact h.move ⟨hmine, le_refl _⟩ fun b' hb' => nomatch hb'
  | lock b now =>
    rw [hcall] at haccess hmine
    simp only at haccess
    cases hlock : s.locked b with
    | true =>
      rw [if_pos hlock] at haccess
      cases haccess
    | false =>
      rw [hlock, if_neg Bool.false_ne_true] at haccess
      by_cases hdue : 0 < newTokens (s.heap b).rate (durationSince now (s.heap b).lastRefill)
      · rw [if_pos hdue] at haccess
        cases haccess
        exact h.lock hcall hlock hdue
      · rw [if_neg hdue] at haccess
        cases haccess
        exact h.move hmine.1 fun b' hb' => nomatch hb'
  | load b now due =>
    rw [hcall] at haccess hmine
    cases haccess
    refine h.move ⟨hmine.1, hmine.2, rfl⟩ fun b' hb' j hj hclaims => hj ?_
    exact h.exclusive b' j i hclaims (by rw [hcall]; exact hb')
  | store b now due current =>
    rw [hcall] at haccess
    cases haccess
    exact h.store hcall
  | consume b =>
    rw [hcall] at haccess hmine
    simp only at haccess
    by_cases hzero : (s.heap b).tokens = 0
    · rw [if_pos hzero] at haccess
      cases haccess
      exact h.move trivial fun b' hb' => nomatch hb'
    · rw [if_neg hzero] at haccess
      cases haccess
      exact h.move ⟨hmine, hzero⟩ fun b' hb' => nomatch hb'
  | swap b current =>
    rw [hcall] at haccess hmine
    rw [hcall] at hok
    simp only at haccess
    by_cases hsame : (s.heap b).tokens = current
    · rw [if_pos hsame] at haccess
      cases haccess
      exact h.swap hcall hsame (hok hsame)
    · rw [if_neg hsame] at haccess
      cases haccess
      exact h.move hmine.1 fun b' hb' => nomatch hb'
  | done granted =>
    rw [hcall] at haccess
    cases haccess

theorem Sound.step (h : Sound client s) {label : ι × Instant} (hok : Undisturbed client s label)
    (hstep : step client s label = some s') : Sound client s' := by
  obtain ⟨hnow, haccess⟩ := Option.ite_none_right_eq_some.mp hstep
  exact (h.wait hnow).access hok haccess

/-- Nobody changes the configuration. -/
theorem access_config (haccess : access client i s = some s') : s'.config = s.config := by
  unfold access at haccess
  cases hcall : s.calls i with
  | lookup =>
    rw [hcall] at haccess
    cases hlookup : s.buckets.lookup (client i) with
    | some b => simp only [hlookup] at haccess; cases haccess; rfl
    | none => simp only [hlookup] at haccess; cases haccess; rfl
  | lock b now =>
    rw [hcall] at haccess
    simp only at haccess
    split at haccess
    · cases haccess
    · split at haccess
      all_goals
        cases haccess
        rfl
  | consume b | swap b current =>
    rw [hcall] at haccess
    simp only at haccess
    split at haccess
    all_goals
      cases haccess
      rfl
  | _ =>
    rw [hcall] at haccess
    cases haccess <;> rfl

/-! ## A call alone -/

/-- A step at the present time is an access. -/
theorem step_now (s : Race ι) (i : ι) : step client s (i, s.time) = access client i s := if_pos (le_refl _)

/-- An access of a call that runs alone, and the rest of its run. -/
theorem run_access {n : Nat} {t : Race ι} (haccess : access client i s = some t) (htime : t.time = s.time)
    (hrest : run (step client) t (List.replicate n (i, t.time)) = some s') :
    run (step client) s (List.replicate (n + 1) (i, s.time)) = some s' := by
  rw [List.replicate_succ, run_cons, step_now, haccess, Option.bind_some, ← htime]
  exact hrest

variable (client) {b : BucketId}

/-- A call alone in the loop: the first exchange succeeds. -/
theorem alone_consume (hcall : s.calls i = .consume b) :
    ∃ n s', run (step client) s (List.replicate n (i, s.time)) = some s' ∧
      s'.calls i = .done (s.heap b).consume.1 ∧ s'.heap b = (s.heap b).consume.2 := by
  rw [TokenBucket.consume]
  by_cases hzero : (s.heap b).tokens = 0
  · have haccess : access client i s = some (s.move i (.done false)) := by
      unfold access
      rw [hcall]
      exact if_pos hzero
    rw [if_pos hzero]
    exact ⟨0 + 1, _, run_access haccess rfl rfl, Function.update_self _ _ _, rfl⟩
  · have haccess : access client i s = some (s.move i (.swap b (s.heap b).tokens)) := by
      unfold access
      rw [hcall]
      exact if_neg hzero
    have hat : (s.move i (.swap b (s.heap b).tokens)).calls i = .swap b (s.heap b).tokens := Function.update_self _ _ _
    have hswap : access client i (s.move i (.swap b (s.heap b).tokens)) =
        some ({ (s.move i (.swap b (s.heap b).tokens)).write b { s.heap b with tokens := (s.heap b).tokens - 1 } with
          grants := s.grants ++ [(client i, s.time)] }.move i (.done true)) := by
      unfold access
      rw [hat]
      exact if_pos rfl
    rw [if_neg hzero]
    exact ⟨0 + 1 + 1, _, run_access haccess rfl (run_access hswap rfl rfl), Function.update_self _ _ _,
      Function.update_self _ _ _⟩

/-- A call alone in a refill that has something to put in. -/
theorem alone_load {due : UInt64} (hcall : s.calls i = .load b s.time due)
    (hread : newTokens (s.heap b).rate (durationSince s.time (s.heap b).lastRefill) = due) (hdue : 0 < due) :
    ∃ n s', run (step client) s (List.replicate n (i, s.time)) = some s' ∧
      s'.calls i = .done ((s.heap b).tryAcquire s.time).1 ∧ s'.heap b = ((s.heap b).tryAcquire s.time).2 := by
  have hload : access client i s = some (s.move i (.store b s.time due (s.heap b).tokens)) := by
    unfold access
    rw [hcall]
  have hat : (s.move i (.store b s.time due (s.heap b).tokens)).calls i = .store b s.time due (s.heap b).tokens :=
    Function.update_self _ _ _
  have hstore : access client i (s.move i (.store b s.time due (s.heap b).tokens)) =
      some ((((s.move i (.store b s.time due (s.heap b).tokens)).write b ((s.heap b).refill s.time)).setLock b false).move
        i (.consume b)) := by
    unfold access
    rw [hat, TokenBucket.refill, hread, if_pos hdue]
    rfl
  obtain ⟨n, s', hrun, hdone, hheap⟩ := alone_consume client
    (s := (((s.move i (.store b s.time due (s.heap b).tokens)).write b ((s.heap b).refill s.time)).setLock b false).move
      i (.consume b)) (i := i) (b := b) (Function.update_self _ _ _)
  have hrefilled : ((((s.move i (.store b s.time due (s.heap b).tokens)).write b ((s.heap b).refill s.time)).setLock b
      false).move i (.consume b)).heap b = (s.heap b).refill s.time := Function.update_self _ _ _
  rw [hrefilled] at hdone hheap
  exact ⟨n + 1 + 1, s', run_access hload rfl (run_access hstore rfl hrun), hdone, hheap⟩

/-- **A call alone**: with its bucket to itself it does what the sequential bucket does. -/
theorem alone_tryAcquire (hcall : s.calls i = .clock b) (hfree : s.locked b = false) :
    ∃ n s', run (step client) s (List.replicate n (i, s.time)) = some s' ∧
      s'.calls i = .done ((s.heap b).tryAcquire s.time).1 ∧ s'.heap b = ((s.heap b).tryAcquire s.time).2 := by
  have hclock : access client i s = some (s.move i (.lock b s.time)) := by
    unfold access
    rw [hcall]
  have hat : (s.move i (.lock b s.time)).calls i = .lock b s.time := Function.update_self _ _ _
  have hlock : access client i (s.move i (.lock b s.time)) =
      if 0 < newTokens (s.heap b).rate (durationSince s.time (s.heap b).lastRefill) then
        some (((s.move i (.lock b s.time)).setLock b true).move i
          (.load b s.time (newTokens (s.heap b).rate (durationSince s.time (s.heap b).lastRefill))))
      else some ((s.move i (.lock b s.time)).move i (.consume b)) := by
    unfold access
    rw [hat]
    show (if s.locked b then none else _) = _
    rw [hfree, if_neg Bool.false_ne_true]
    rfl
  by_cases hdue : 0 < newTokens (s.heap b).rate (durationSince s.time (s.heap b).lastRefill)
  · rw [if_pos hdue] at hlock
    obtain ⟨n, s', hrun, hdone, hheap⟩ := alone_load client
      (s := ((s.move i (.lock b s.time)).setLock b true).move i
        (.load b s.time (newTokens (s.heap b).rate (durationSince s.time (s.heap b).lastRefill))))
      (i := i) (b := b) (Function.update_self _ _ _) rfl hdue
    exact ⟨n + 1 + 1, s', run_access hclock rfl (run_access hlock rfl hrun), hdone, hheap⟩
  · rw [if_neg hdue] at hlock
    obtain ⟨n, s', hrun, hdone, hheap⟩ := alone_consume client (s := (s.move i (.lock b s.time)).move i (.consume b))
      (i := i) (b := b) (Function.update_self _ _ _)
    rw [TokenBucket.tryAcquire, TokenBucket.refill, if_neg hdue]
    exact ⟨n + 1 + 1, s', run_access hclock rfl (run_access hlock rfl hrun), hdone, hheap⟩

/-! ## The bound -/

/-- **The bound under races.**  In any run of any number of calls that nothing disturbs, in any stretch of time,
    every client is granted at most the burst, what becomes due in the stretch, and one more. -/
theorem concurrent_grants_bounded (client : ι → String) (config : RateLimitConfig) (start : Instant)
    {labels : List (ι × Instant)} (hrun : run (step client) (Race.new config start) labels = some s)
    (hundisturbed : Meets (step client) (Undisturbed client) (Race.new config start) labels)
    (c : String) (since : Instant) (span : Duration) :
    (within since (since + span) (s.grantsTo c) : ℚ) ≤
      config.burstSize.toNat + config.requestsPerSecond.toNat * (span / 1000000000 : ℚ) + 1 := by
  have hend : s.config = config ∧ Sound client s := by
    have hkept : ∀ (t : Race ι) label t', t.config = config ∧ Sound client t → Undisturbed client t label →
        step client t label = some t' → t'.config = config ∧ Sound client t' := by
      rintro t label t' ⟨hconfig, hsound⟩ hok hstep
      obtain ⟨-, haccess⟩ := Option.ite_none_right_eq_some.mp hstep
      exact ⟨(access_config haccess).trans hconfig, hsound.step hok hstep⟩
    exact meets_inv hkept ⟨rfl, sound_new config start⟩ hundisturbed hrun
  obtain ⟨hconfig, hsound⟩ := hend
  cases hlookup : s.buckets.lookup c with
  | none =>
    -- the client has no bucket, and was granted nothing
    rw [hsound.nothing c hlookup]
    simp only [within, List.countP_nil, Nat.cast_zero]
    positivity
  | some b =>
    obtain ⟨made, hbounded⟩ := hsound.bounded c b hlookup
    rw [hconfig] at hbounded
    have hwindow := hbounded.metered.window_le since span
    rw [accrued_terms] at hwindow
    exact hwindow

/-- Calls for one client. -/
def ofOne {n : Nat} : Fin n → String := fun _ => "client"

/-- One call after the other, from a new bucket for five. -/
theorem concurrent_grants_bounded_in_turn :
    ∃ s, run (step ofOne) (Race.new ⟨10, 5⟩ 0) (List.replicate 7 ((0 : Fin 2), 0) ++ List.replicate 5 (1, 0)) = some s ∧
      s.grantsTo "client" = [0, 0] ∧
      (within 0 (0 + (0 : Nat)) (s.grantsTo "client") : ℚ) ≤
        (5 : UInt32).toNat + (10 : UInt32).toNat * ((0 : Nat) / 1000000000 : ℚ) + 1 := by
  have hrun : run (step ofOne) (Race.new ⟨10, 5⟩ 0) (List.replicate 7 ((0 : Fin 2), 0) ++ List.replicate 5 (1, 0)) =
      some _ := rfl
  refine ⟨_, hrun, rfl, ?_⟩
  exact concurrent_grants_bounded ofOne ⟨10, 5⟩ 0 hrun (by decide) "client" 0 0

/-! ## Calls that are disturbed -/

/-- Three first calls of a client with a burst of one, all of which find no bucket: each has a full one. -/
theorem three_first_calls :
    ∃ s, run (step ofOne) (Race.new ⟨1, 1⟩ 0) (List.replicate 7 [((0 : Fin 3), 0), (1, 0), (2, 0)]).flatten = some s ∧
      s.grantsTo "client" = [0, 0, 0] ∧
      ¬ (within 0 (0 + (0 : Nat)) (s.grantsTo "client") : ℚ) ≤
        (1 : UInt32).toNat + (1 : UInt32).toNat * ((0 : Nat) / 1000000000 : ℚ) + 1 := by
  have hrun : run (step ofOne) (Race.new ⟨1, 1⟩ 0) (List.replicate 7 [((0 : Fin 3), 0), (1, 0), (2, 0)]).flatten =
      some _ := rfl
  refine ⟨_, hrun, rfl, ?_⟩
  have hcount : within 0 (0 + (0 : Nat)) [0, 0, 0] = 3 := by decide
  show ¬ (within 0 (0 + (0 : Nat)) [0, 0, 0] : ℚ) ≤ (1 : Nat) + (1 : Nat) * _ + 1
  rw [hcount]
  norm_num

/-- Two calls that are held up and a third, all with one bucket: the first takes ten seconds after it has read the
    clock, the second puts in what was due after one second, and the third what was due after ten. -/
theorem calls_held_up :
    ∃ s, run (step ofOne) (Race.new ⟨1, 1⟩ 0) (List.replicate 5 ((0 : Fin 3), 0) ++ List.replicate 2 (1, 1000000000) ++
        List.replicate 2 (0, 10000000000) ++ List.replicate 5 (1, 10000000000) ++ List.replicate 7 (2, 10000000000)) =
          some s ∧ s.allocated = 1 ∧ s.grantsTo "client" = [10000000000, 10000000000, 10000000000] :=
  ⟨_, rfl, rfl, rfl⟩

end Smppd.Filter.RateRace

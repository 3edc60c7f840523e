/-
  FILTER CHAINS (`src/filter/chain.rs`, with the filters of `auth.rs` and `ratelimit.rs`): the services that a
  builder puts together, and what they answer when the requests are spread over a chain and its clones.

  A service is what it answers, and what it does to the stores behind its `Arc`s.  `build` never looks at the
  store that `with_auth` has left it, and the clone of a chain is a chain built from nothing: a request to the
  chain is not authenticated, and a request to a clone is neither authenticated nor limited.
  `chain_answers_iff` says for which requests nobody sees the difference.

  A request is answered before the next one comes.  No service here fails (`Infallible`), and what they write to
  the trace is left out.
-/
import Smppd.Lib.Transducer
import Smppd.Filter.RateLimit
import Smppd.Listener.Session

set_option linter.unusedVariables false

namespace Smppd.Filter

open Smppd.Store Table Transducer
open Listener (Pdu)

/-! ## Requests and responses -/

/-- Metadata attached to a request. -/
structure RequestMeta where
  startTime : Option Instant := none
  systemId : Option String := none
  sourceAddr : Option String := none
  attributes : Tbl String String := ∅

/-- SMPP request wrapper for filter chain. -/
structure SmppRequest where
  pdu : Pdu
  sequence : UInt32
  metadata : RequestMeta

/-- `smpp::pdu::Status`: those that the filters of a chain reject with. -/
inductive RejectStatus where
  | invalidBindStatus
  | systemError

/-- SMPP response from filter chain. -/
inductive SmppResponse where
  /-- Pass to next filter or upstream. -/
  | continue_ (request : SmppRequest)
  | reject (sequence : UInt32) (status : RejectStatus) (reason : Option String)
  /-- Return a successful response (skip upstream). -/
  | success (sequence : UInt32) (pdu : Pdu)

/-- The client that a request is counted for. -/
def SmppRequest.clientId (request : SmppRequest) : String := request.metadata.systemId.getD "anonymous"

/-! ## Services -/

/-- The store behind an `Arc<RateLimiterStore>`. -/
abbrev Arc := Nat

/-- The stores that have been allocated, and what is in them. -/
structure Memory where
  allocated : Nat
  stores : Arc → RateLimiterStore

namespace Memory

/-- `Arc::new`. -/
def alloc (store : RateLimiterStore) (self : Memory) : Arc × Memory :=
  (self.allocated, ⟨self.allocated + 1, Function.update self.stores self.allocated store⟩)

/-- A call of `try_acquire` on the store behind an `Arc`. -/
def tryAcquire (store : Arc) (now : Instant) (clientId : String) (self : Memory) : Bool × Memory :=
  let (granted, after) := (self.stores store).tryAcquire now clientId
  (granted, { self with stores := Function.update self.stores store after })

theorem stores_tryAcquire (self : Memory) (store : Arc) (now : Instant) (clientId : String) :
    (self.tryAcquire store now clientId).2.stores store = ((self.stores store).tryAcquire now clientId).2 :=
  Function.update_self _ _ _

end Memory

/-- `Service<SmppRequest>`: the response to a request that comes at some time. -/
abbrev Service := Instant → SmppRequest → Memory → SmppResponse × Memory

/-- Terminal service that returns Continue response. -/
def passthroughService : Service := fun now request memory => (.continue_ request, memory)

/-- `RateLimitFilter::call`. -/
def rateLimitFilter (inner : Service) (store : Arc) : Service := fun now request memory =>
  let (granted, memory) := memory.tryAcquire store now request.clientId
  if !granted then (.reject request.sequence .systemError (some "rate limit exceeded"), memory)
  else inner now request memory

variable {Net : Type}

/-- `AuthFilter::call`: the store is there, and is not used. -/
def authFilter (inner : Service) (store : CredentialStore Net) : Service := fun now request memory =>
  match request.metadata.systemId with
  | none => (.reject request.sequence .invalidBindStatus none, memory)
  | some systemId => inner now request memory

/-- `RateLimitLayer::new`, the store of the layer. -/
def rateLimitLayer (config : RateLimitConfig) (memory : Memory) : Arc × Memory := memory.alloc (.new config)

/-! ## The builder -/

/-- The built filter chain. -/
structure FilterChain where
  inner : Service

/-- `FilterChain::process`. -/
def FilterChain.process (now : Instant) (request : SmppRequest) (memory : Memory) (self : FilterChain) :
    SmppResponse × Memory :=
  self.inner now request memory

/-- Filter chain configuration. -/
structure FilterChainBuilder (Net : Type) where
  /-- Enable authentication. -/
  authStore : Option (CredentialStore Net) := none
  /-- Rate limiting config. -/
  rateLimit : Option RateLimitConfig := none

namespace FilterChainBuilder

/-- `FilterChainBuilder::new`. -/
def new : FilterChainBuilder Net := {}

/-- `with_auth`. -/
def withAuth (store : CredentialStore Net) (self : FilterChainBuilder Net) : FilterChainBuilder Net :=
  { self with authStore := some store }

/-- `with_rate_limit`. -/
def withRateLimit (config : RateLimitConfig) (self : FilterChainBuilder Net) : FilterChainBuilder Net :=
  { self with rateLimit := some config }

/-- `build`. -/
def build (memory : Memory) (self : FilterChainBuilder Net) : FilterChain × Memory :=
  match self.rateLimit with
  | some config =>
    let (store, memory) := rateLimitLayer config memory
    (⟨rateLimitFilter passthroughService store⟩, memory)
  | none => (⟨passthroughService⟩, memory)

end FilterChainBuilder

/-- `Clone for FilterChain`. -/
def FilterChain.clone (memory : Memory) (self : FilterChain) : FilterChain × Memory :=
  (FilterChainBuilder.new : FilterChainBuilder Unit).build memory

/-! ## A chain and its clones -/

/-- A chain, the clones that have been made of it and of its clones, and the stores. -/
structure Chains where
  chains : List FilterChain
  memory : Memory

/-- What happens to the chains. -/
inductive ChainEvent where
  /-- One of them is cloned. -/
  | clone (chain : Nat)
  /-- One of them gets a request. -/
  | process (chain : Nat) (now : Instant) (request : SmppRequest)

namespace Chains

/-- A chain that has just been built. -/
def start (built : FilterChain × Memory) : Chains := ⟨[built.1], built.2⟩

/-- One event, and the response if it was a request. -/
def step (clone : Memory → FilterChain → FilterChain × Memory) (self : Chains) :
    ChainEvent → Option SmppResponse × Chains
  | .clone chain =>
    match self.chains[chain]? with
    | some chain =>
      let (copy, memory) := clone self.memory chain
      (none, ⟨self.chains ++ [copy], memory⟩)
    | none => (none, self)
  | .process chain now request =>
    match self.chains[chain]? with
    | some chain =>
      let (response, memory) := chain.process now request self.memory
      (some response, { self with memory })
    | none => (none, self)

/-- The responses to a sequence of events. -/
def responses (clone : Memory → FilterChain → FilterChain × Memory) (built : FilterChain × Memory)
    (events : List ChainEvent) : List (Option SmppResponse) :=
  (play (step clone) (start built) events).1

end Chains

/-! ## What the chain is for -/

/-- The composition of the three services that the builder is configured for. -/
def FilterChain.composed (store : CredentialStore Net) (config : RateLimitConfig) (memory : Memory) :
    FilterChain × Memory :=
  let (limits, memory) := rateLimitLayer config memory
  (⟨authFilter (rateLimitFilter passthroughService limits) store⟩, memory)

/-- The clone that has the filters of the original, and the stores behind their `Arc`s. -/
def FilterChain.share (memory : Memory) (self : FilterChain) : FilterChain × Memory := (self, memory)

/-- What the requests have left of two budgets. -/
structure Budgets where
  /-- The chain and its clones so far. -/
  chains : Nat := 1
  /-- Drawn on by every request. -/
  shared : RateLimiterStore
  /-- Drawn on by the requests to the original. -/
  own : RateLimiterStore

namespace Budgets

/-- Nothing has been drawn. -/
def new (config : RateLimitConfig) : Budgets := { shared := .new config, own := .new config }

/-- What an event leaves. -/
def next (self : Budgets) : ChainEvent → Budgets
  | .clone chain => if chain < self.chains then { self with chains := self.chains + 1 } else self
  | .process chain now request =>
    if chain < self.chains then
      let shared := (self.shared.tryAcquire now request.clientId).2
      if chain = 0 then { self with shared, own := (self.own.tryAcquire now request.clientId).2 }
      else { self with shared }
    else self

/-- **A request that no filter is missed by**: it has a system id; to a clone it is within the budget of all; and
    to the original it is within the budget of all just when it is within the original's own. -/
def Content (self : Budgets) : ChainEvent → Prop
  | .clone chain => True
  | .process chain now request =>
    chain < self.chains → request.metadata.systemId ≠ none ∧
      if chain = 0 then (self.own.tryAcquire now request.clientId).1 = (self.shared.tryAcquire now request.clientId).1
      else (self.shared.tryAcquire now request.clientId).1 = true

end Budgets

/-! ## When nobody sees the difference -/

/-- The response of a rate limit. -/
def limited (request : SmppRequest) (granted : Bool) : SmppResponse :=
  if granted then .continue_ request else .reject request.sequence .systemError (some "rate limit exceeded")

theorem limited_inj {request : SmppRequest} {granted granted' : Bool} :
    limited request granted = limited request granted' ↔ granted = granted' := by
  refine ⟨fun h => ?_, fun h => h ▸ rfl⟩
  cases granted <;> cases granted' <;> first | rfl | cases h

/-- What a rate limit before the passthrough does. -/
theorem rateLimitFilter_passthrough (limits : Arc) (now : Instant) (request : SmppRequest) (memory : Memory) :
    rateLimitFilter passthroughService limits now request memory =
      (limited request ((memory.stores limits).tryAcquire now request.clientId).1,
        (memory.tryAcquire limits now request.clientId).2) := by
  unfold rateLimitFilter
  show (if !((memory.stores limits).tryAcquire now request.clientId).1 then _ else _) = _
  cases ((memory.stores limits).tryAcquire now request.clientId).1 <;> rfl

/-- What authentication before it does. -/
theorem authFilter_limited (store : CredentialStore Net) (limits : Arc) (now : Instant) (request : SmppRequest)
    (memory : Memory) :
    authFilter (rateLimitFilter passthroughService limits) store now request memory =
      if request.metadata.systemId = none then (.reject request.sequence .invalidBindStatus none, memory)
      else (limited request ((memory.stores limits).tryAcquire now request.clientId).1,
        (memory.tryAcquire limits now request.clientId).2) := by
  unfold authFilter
  cases request.metadata.systemId with
  | none => rfl
  | some systemId => exact rateLimitFilter_passthrough limits now request memory

/-- How the chains stand to the composition, and to the two budgets: the original has the rate limit only, and the
    clones have nothing. -/
structure Related (store : CredentialStore Net) (limits : Arc) (s t : Chains) (k : Budgets) : Prop where
  length : s.chains.length = k.chains
  length' : t.chains.length = k.chains
  original : s.chains[0]? = some ⟨rateLimitFilter passthroughService limits⟩
  clones : ∀ (n : Nat) (chain : FilterChain), s.chains[n + 1]? = some chain → chain = ⟨passthroughService⟩
  composed : ∀ (n : Nat) (chain : FilterChain), t.chains[n]? = some chain →
    chain = ⟨authFilter (rateLimitFilter passthroughService limits) store⟩
  own : s.memory.stores limits = k.own
  shared : t.memory.stores limits = k.shared

variable {store : CredentialStore Net} {limits : Arc} {s t : Chains} {k : Budgets} {n : Nat}

namespace Related

theorem start (store : CredentialStore Net) (config : RateLimitConfig) (memory : Memory) :
    Related store memory.allocated (.start ((FilterChainBuilder.build memory) ⟨some store, some config⟩))
      (.start (FilterChain.composed store config memory)) (.new config) where
  length := rfl
  length' := rfl
  original := rfl
  clones := fun n chain h => nomatch h
  composed := fun n chain h => by
    cases n with
    | zero => exact (Option.some.inj h).symm
    | succ n => cases h
  own := Function.update_self _ _ _
  shared := Function.update_self _ _ _

/-- A chain that has not been made. -/
theorem missing (h : Related store limits s t k) (hn : ¬ n < k.chains) : s.chains[n]? = none ∧ t.chains[n]? = none :=
  ⟨List.getElem?_eq_none (h.length ▸ Nat.not_lt.mp hn), List.getElem?_eq_none (h.length' ▸ Nat.not_lt.mp hn)⟩

/-- A chain that has been made. -/
theorem present (h : Related store limits s t k) (hn : n < k.chains) :
    s.chains[n]? = some ⟨if n = 0 then rateLimitFilter passthroughService limits else passthroughService⟩ ∧
      t.chains[n]? = some ⟨authFilter (rateLimitFilter passthroughService limits) store⟩ := by
  have hs := List.getElem?_eq_getElem (h.length ▸ hn)
  have ht := List.getElem?_eq_getElem (h.length' ▸ hn)
  refine ⟨?_, ht.trans (congrArg some (h.composed n _ ht))⟩
  cases n with
  | zero => exact h.original
  | succ n => exact hs.trans (congrArg some (h.clones n _ hs))

/-- The responses agree just when no filter is missed. -/
theorem answer (h : Related store limits s t k) (event : ChainEvent) :
    (s.step FilterChain.clone event).1 = (t.step FilterChain.share event).1 ↔ k.Content event := by
  cases event with
  | clone n =>
    refine iff_of_true ?_ trivial
    by_cases hn : n < k.chains
    · obtain ⟨hs, ht⟩ := h.present hn
      simp only [Chains.step, hs, ht]
    · obtain ⟨hs, ht⟩ := h.missing hn
      simp only [Chains.step, hs, ht]
  | process n now request =>
    by_cases hn : n < k.chains
    · obtain ⟨hs, ht⟩ := h.present hn
      simp only [Chains.step, hs, ht, Budgets.Content, hn, forall_const, Option.some.injEq, FilterChain.process,
        authFilter_limited, h.shared]
      by_cases hid : request.metadata.systemId = none
      · -- it is counted as anonymous, or passed on
        rw [if_pos hid]
        refine iff_of_false ?_ fun hcontent => hcontent.1 hid
        by_cases hzero : n = 0
        · rw [if_pos hzero, rateLimitFilter_passthrough, limited]
          split <;> nofun
        · rw [if_neg hzero]
          nofun
      · rw [if_neg hid]
        by_cases hzero : n = 0
        · rw [if_pos hzero, if_pos hzero, rateLimitFilter_passthrough, h.own]
          exact limited_inj.trans (and_iff_right hid).symm
        · rw [if_neg hzero, if_neg hzero]
          show limited request true = _ ↔ _
          rw [limited_inj, eq_comm]
          exact (and_iff_right hid).symm
    · obtain ⟨hs, ht⟩ := h.missing hn
      simp only [Chains.step, hs, ht, Budgets.Content, hn, false_implies]

/-- Then the budgets are left as the two have drawn on them. -/
theorem next (h : Related store limits s t k) {event : ChainEvent} (hcontent : k.Content event) :
    Related store limits (s.step FilterChain.clone event).2 (t.step FilterChain.share event).2 (k.next event) := by
  cases event with
  | clone n =>
    by_cases hn : n < k.chains
    · obtain ⟨hs, ht⟩ := h.present hn
      simp only [Chains.step, hs, ht, Budgets.next, hn, if_true]
      exact {
        length := by rw [List.length_append, h.length]; rfl
        length' := by rw [List.length_append, h.length']; rfl
        original := List.getElem?_append_left (h.length ▸ Nat.zero_lt_of_lt hn) ▸ h.original
        clones := fun m chain hm => by
          rcases lt_trichotomy (m + 1) s.chains.length with hlt | heq | hgt
          · exact h.clones m chain (List.getElem?_append_left hlt ▸ hm)
          · rw [List.getElem?_append_right heq.ge, heq, Nat.sub_self] at hm
            exact (Option.some.inj hm).symm
          · rw [List.getElem?_eq_none (by rw [List.length_append]; exact hgt)] at hm
            cases hm
        composed := fun m chain hm => by
          rcases List.mem_append.mp (List.mem_of_getElem? hm) with hold | hnew
          · obtain ⟨i, hi⟩ := List.getElem?_of_mem hold
            exact h.composed i chain hi
          · exact List.mem_singleton.mp hnew
        own := h.own
        shared := h.shared }
    · obtain ⟨hs, ht⟩ := h.missing hn
      simp only [Chains.step, hs, ht, Budgets.next, hn, if_false]
      exact h
  | process n now request =>
    by_cases hn : n < k.chains
    · obtain ⟨hs, ht⟩ := h.present hn
      have hid := (hcontent hn).1
      simp only [Chains.step, hs, ht, Budgets.next, hn, if_true, FilterChain.process, authFilter_limited, if_neg hid]
      by_cases hzero : n = 0
      · rw [if_pos hzero, if_pos hzero, rateLimitFilter_passthrough]
        exact { h with
          own := by rw [Memory.stores_tryAcquire, h.own]
          shared := by rw [Memory.stores_tryAcquire, h.shared] }
      · rw [if_neg hzero, if_neg hzero]
        exact { h with shared := by rw [Memory.stores_tryAcquire, h.shared] }
    · obtain ⟨hs, ht⟩ := h.missing hn
      simp only [Chains.step, hs, ht, Budgets.next, hn, if_false]
      exact h

end Related

/-- **The exact condition.**  A chain that was built with a credential store and a rate limit answers, together
    with its clones, as the composition of the services does, just when none of the requests misses a filter. -/
theorem chain_answers_iff (store : CredentialStore Net) (config : RateLimitConfig) (memory : Memory)
    (events : List ChainEvent) :
    Chains.responses FilterChain.clone (FilterChainBuilder.build memory ⟨some store, some config⟩) events =
        Chains.responses FilterChain.share (FilterChain.composed store config memory) events ↔
      Along Budgets.next Budgets.Content (.new config) events :=
  play_eq_iff_along (fun s t k event h => h.answer event) (fun s t k event h hcontent => h.next hcontent)
    (Related.start store config memory) events

/-! ## Requests that miss a filter -/

/-- A store that knows nobody. -/
def nobody : CredentialStore Unit := ⟨fun _ _ => none, fun _ => none⟩

/-- Nothing has been allocated. -/
def Memory.empty : Memory := ⟨0, fun _ => .new {}⟩

/-- A request without a system id is passed on by the chain; and a request beyond the budget is passed on by a
    clone, here of a chain that grants nothing. -/
theorem chain_misses_its_filters :
    Chains.responses FilterChain.clone (((FilterChainBuilder.new.withAuth nobody).withRateLimit {}).build .empty)
        [.process 0 0 ⟨.enquireLink, 1, {}⟩] ≠
      Chains.responses FilterChain.share (FilterChain.composed nobody {} .empty)
        [.process 0 0 ⟨.enquireLink, 1, {}⟩] ∧
    Chains.responses FilterChain.clone (((FilterChainBuilder.new.withAuth nobody).withRateLimit ⟨1, 0⟩).build .empty)
        [.clone 0, .process 1 0 ⟨.enquireLink, 1, { systemId := some "client" }⟩] ≠
      Chains.responses FilterChain.share (FilterChain.composed nobody ⟨1, 0⟩ .empty)
        [.clone 0, .process 1 0 ⟨.enquireLink, 1, { systemId := some "client" }⟩] := by
  constructor
  · intro h
    cases h
  · intro h
    cases h

end Smppd.Filter

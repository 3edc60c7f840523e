/-
  EARLIEST FIRST: in which order the scheduler hands out what is due.

  The queue is a heap with the earliest schedule in front, and the comparison is written for that.  But
  `get_due` never pops: it drains the heap, which yields the array as it stands, and takes the first `limit`
  due schedules it meets there.  Of the array only the FRONT is where the order puts it.

  `heapOrder` is the order in which the drain of the real heap meets the schedules: every call but `schedule`
  drains the queue and pushes back, so the list of the model is what was pushed since the last drain.  What is
  proved about `get_due` holds for any order.

  * `dueLoop_ready` — the loop takes the first `limit` of those that are due and Pending, and leaves the rest;
  * `earliest_first_iff` — which ready schedules are handed out earliest first, whatever else is in the queue: those
    that fit into one batch, and those that are all for one time.  Of any others the latest can be met first and
    the earliest last, when enough schedules that are NOT ready stand in front of them, such as some that were
    handed out long ago and never marked;
  * `front_returned` — what the heap does promise.
-/
import Smppd.Lib.Heap
import Smppd.Store.Delivery

set_option linter.unusedVariables false

namespace Smppd.Store

open Table

/-- `is_ready`, at a reading of the clock. -/
def ScheduledMessage.isReady (now : SystemTime) (self : ScheduledMessage) : Bool :=
  self.status = .pending ∧ self.scheduledAt ≤ now

theorem ScheduledMessage.isReady_iff {now : SystemTime} {self : ScheduledMessage} :
    self.isReady now = true ↔ self.status = .pending ∧ self.scheduledAt ≤ now := decide_eq_true_iff

/-- What is being delivered is not ready. -/
theorem ScheduledMessage.not_isReady_delivering (now : SystemTime) (self : ScheduledMessage) :
    ¬ self.delivering.isReady now = true := fun h => nomatch (isReady_iff.mp h).1

namespace Scheduler

/-- The drain of the heap. -/
def heapOrder : IterOrder ScheduledMessage := Heap.order ScheduledMessage.scheduledAt

/-- The schedules that are ready, as the drain meets them. -/
def ready (order : IterOrder ScheduledMessage) (now : SystemTime) (self : Scheduler) : List ScheduledMessage :=
  (order.arrange self.queue).filter fun msg => msg.isReady now

/-- What is returned is scheduled no later than anything ready that is left behind. -/
def EarliestFirst (order : IterOrder ScheduledMessage) (now : SystemTime) (limit : Nat) (self : Scheduler) : Prop :=
  ∀ msg ∈ (self.getDue order now limit).1, ∀ left ∈ (self.getDue order now limit).2.queue,
    left.isReady now = true → msg.scheduledAt ≤ left.scheduledAt

/-- **The loop of `get_due`**: it takes the first of those that are ready, and leaves the others. -/
theorem dueLoop_ready (now : SystemTime) (limit found : Nat) (messages : List ScheduledMessage) :
    (dueLoop now limit found messages).1 =
        ((messages.filter fun msg => msg.isReady now).take (limit - found)).map ScheduledMessage.delivering ∧
      ((dueLoop now limit found messages).2.filter fun msg => msg.isReady now) =
        (messages.filter fun msg => msg.isReady now).drop (limit - found) := by
  induction messages generalizing found with
  | nil => exact ⟨by rw [List.filter_nil, List.take_nil]; rfl, by rw [List.filter_nil, List.drop_nil]; rfl⟩
  | cons msg messages ih =>
    rw [dueLoop]
    by_cases hready : msg.isReady now = true
    · obtain ⟨hpending, hdue⟩ := ScheduledMessage.isReady_iff.mp hready
      rw [List.filter_cons_of_pos hready]
      by_cases hfound : found < limit
      · obtain ⟨htaken, hleft⟩ := ih (found + 1)
        have hone : limit - found = limit - (found + 1) + 1 := by omega
        rw [if_pos ⟨hfound, hdue, hpending⟩, hone, List.take_succ_cons, List.drop_succ_cons]
        refine ⟨?_, ?_⟩
        · show msg.delivering :: (dueLoop now limit (found + 1) messages).1 = _
          rw [htaken, List.map_cons]
        · show List.filter _ (msg.delivering :: (dueLoop now limit (found + 1) messages).2) = _
          rw [List.filter_cons_of_neg (msg.not_isReady_delivering now), hleft]
      · -- the batch is full, and what is ready stays
        obtain ⟨htaken, hleft⟩ := ih found
        have hnone : limit - found = 0 := by omega
        rw [if_neg fun h => hfound h.1]
        rw [hnone, List.take_zero] at htaken
        rw [hnone, List.drop_zero] at hleft
        rw [hnone, List.take_zero, List.drop_zero]
        refine ⟨htaken, ?_⟩
        show List.filter _ (msg :: (dueLoop now limit found messages).2) = _
        rw [List.filter_cons_of_pos hready, hleft]
    · obtain ⟨htaken, hleft⟩ := ih found
      rw [if_neg fun h => hready (ScheduledMessage.isReady_iff.mpr ⟨h.2.2, h.2.1⟩), List.filter_cons_of_neg hready]
      refine ⟨htaken, ?_⟩
      show List.filter _ (msg :: (dueLoop now limit found messages).2) = _
      rw [List.filter_cons_of_neg hready, hleft]

section GetDue

variable (order : IterOrder ScheduledMessage) (now : SystemTime) (limit : Nat) (self : Scheduler)

/-- What `get_due` returns. -/
theorem getDue_fst : (self.getDue order now limit).1 =
    ((self.ready order now).take limit).map ScheduledMessage.delivering :=
  (dueLoop_ready now limit 0 (order.arrange self.queue)).1

/-- What it leaves behind. -/
theorem getDue_left : ((self.getDue order now limit).2.queue.filter fun msg => msg.isReady now) =
    (self.ready order now).drop limit :=
  (dueLoop_ready now limit 0 (order.arrange self.queue)).2

/-- In terms of the array: a batch is earliest first when none of the ready schedules behind it is earlier than one
    in it. -/
theorem earliestFirst_iff_taken :
    self.EarliestFirst order now limit ↔
      ∀ msg ∈ (self.ready order now).take limit, ∀ left ∈ (self.ready order now).drop limit,
        msg.scheduledAt ≤ left.scheduledAt := by
  have hleft : ∀ left, left ∈ (self.ready order now).drop limit ↔
      left ∈ (self.getDue order now limit).2.queue ∧ left.isReady now = true := by
    intro left
    rw [← getDue_left, List.mem_filter]
  unfold EarliestFirst
  rw [getDue_fst]
  constructor
  · intro h msg hmsg left hmem
    obtain ⟨hqueue, hready⟩ := (hleft left).mp hmem
    exact h msg.delivering (List.mem_map_of_mem hmsg) left hqueue hready
  · intro h returned hreturned left hqueue hready
    obtain ⟨msg, hmsg, rfl⟩ := List.mem_map.mp hreturned
    exact h msg hmsg left ((hleft left).mpr ⟨hqueue, hready⟩)

/-- The schedules that are ready, in whatever order. -/
def readySet : List ScheduledMessage := self.queue.filter fun msg => msg.isReady now

theorem ready_perm : (self.ready order now).Perm (self.readySet now) := (order.perm self.queue).filter _

end GetDue

/-- No order matters to a batch that takes all, or none, or some of what is for one time. -/
theorem earliestFirst_of_readySet {order : IterOrder ScheduledMessage} {now : SystemTime} {limit : Nat}
    {self : Scheduler}
    (h : (self.readySet now).length ≤ limit ∨ limit = 0 ∨
      ∀ a ∈ self.readySet now, ∀ b ∈ self.readySet now, a.scheduledAt = b.scheduledAt) :
    self.EarliestFirst order now limit := by
  have hperm := self.ready_perm order now
  refine (self.earliestFirst_iff_taken order now limit).mpr fun msg hmsg left hleft => ?_
  rcases h with hall | rfl | hone
  · rw [← hperm.length_eq] at hall
    rw [List.drop_eq_nil_of_le hall] at hleft
    cases hleft
  · cases hmsg
  · exact (hone msg (hperm.mem_iff.mp (List.mem_of_mem_take hmsg)) left
      (hperm.mem_iff.mp (List.mem_of_mem_drop hleft))).le

/-! ### The latest in front, the earliest behind -/

/-- Two elements of a list, one at the front and the other at the end. -/
theorem exists_perm_ends {α : Type} {a b : α} {l : List α} (ha : a ∈ l) (hb : b ∈ l) (hne : a ≠ b) :
    ∃ mid, (a :: mid ++ [b]).Perm l := by
  obtain ⟨s, t, rfl⟩ := List.append_of_mem ha
  have hrest : b ∈ s ++ t := by
    rcases List.mem_append.mp hb with hs | ht
    · exact List.mem_append_left t hs
    · exact List.mem_append_right s ((List.mem_cons.mp ht).resolve_left hne.symm)
  obtain ⟨u, v, huv⟩ := List.append_of_mem hrest
  refine ⟨u ++ v, ?_⟩
  calc (a :: (u ++ v) ++ [b]).Perm (a :: (u ++ b :: v)) := by
        refine List.Perm.cons a ?_
        show ((u ++ v) ++ [b]).Perm _
        rw [List.append_assoc]
        exact (List.perm_append_singleton b v).append_left u
    _ = a :: (s ++ t) := by rw [huv]
    List.Perm _ (s ++ a :: t) := List.perm_middle.symm

theorem exists_le_scheduledAt (l : List ScheduledMessage) : ∃ first, ∀ m ∈ l, first ≤ m.scheduledAt := by
  induction l with
  | nil => exact ⟨0, fun m hm => absurd hm List.not_mem_nil⟩
  | cons msg l ih =>
    obtain ⟨first, hfirst⟩ := ih
    refine ⟨min first msg.scheduledAt, List.forall_mem_cons.mpr ⟨min_le_right _ _, fun m hm => ?_⟩⟩
    exact (min_le_left _ _).trans (hfirst m hm)

/-- A queue in which as many schedules are being delivered, since long ago, and the ready ones were pushed after
    them, in any order at all: the drain meets these in that order. -/
theorem ready_behind {now first : SystemTime} {msg : ScheduledMessage} {waiting : List ScheduledMessage}
    {self : Scheduler} (hready : ∀ m ∈ waiting, m.isReady now = true)
    (hfirst : ∀ m ∈ waiting, first ≤ m.scheduledAt)
    (hqueue : self.queue =
      List.replicate waiting.length { msg.delivering with scheduledAt := first } ++ waiting) :
    self.readySet now = waiting ∧ self.ready heapOrder now = waiting := by
  have hstale : ¬ ({ msg.delivering with scheduledAt := first } : ScheduledMessage).isReady now = true :=
    fun h => nomatch (ScheduledMessage.isReady_iff.mp h).1
  have hfilter : self.readySet now = waiting := by
    rw [readySet, hqueue, List.filter_append, List.filter_replicate, if_neg hstale, List.nil_append]
    exact List.filter_eq_self.mpr hready
  have hordered : Heap.Ordered ScheduledMessage.scheduledAt self.queue := by
    rw [hqueue]
    exact Heap.ordered_replicate_append hfirst
  have harrange : heapOrder.arrange self.queue = self.queue := hordered.ofPushes_eq
  refine ⟨hfilter, ?_⟩
  rw [ready, harrange]
  exact hfilter

/-- **Earliest first**, whatever else is in the queue and in whatever order it was pushed, exactly when the ready
    schedules are at most `limit`, or the limit is zero, or all of them are for one time. -/
theorem earliest_first_iff (now : SystemTime) (limit : Nat) (self : Scheduler) :
    (∀ other : Scheduler, (other.readySet now).Perm (self.readySet now) →
        other.EarliestFirst heapOrder now limit) ↔
      (self.readySet now).length ≤ limit ∨ limit = 0 ∨
        ∀ a ∈ self.readySet now, ∀ b ∈ self.readySet now, a.scheduledAt = b.scheduledAt := by
  constructor
  · intro h
    by_contra hnot
    push Not at hnot
    obtain ⟨hmany, hlimit, a, ha, b, hb, hne⟩ := hnot
    -- of two that are not for one time, one is later
    obtain ⟨late, hlate, early, hearly, hlt⟩ : ∃ late ∈ self.readySet now, ∃ early ∈ self.readySet now,
        early.scheduledAt < late.scheduledAt := by
      rcases lt_or_gt_of_ne hne with hab | hba
      · exact ⟨b, hb, a, ha, hab⟩
      · exact ⟨a, ha, b, hb, hba⟩
    obtain ⟨mid, hmid⟩ := exists_perm_ends hlate hearly fun heq => by rw [heq] at hlt; exact lt_irrefl _ hlt
    obtain ⟨first, hfirst⟩ := exists_le_scheduledAt (late :: mid ++ [early])
    have hready : ∀ m ∈ late :: mid ++ [early], m.isReady now = true := fun m hm =>
      (List.mem_filter.mp (hmid.mem_iff.mp hm)).2
    have hbehind := @ready_behind now first late _ { self with queue := _ } hready hfirst rfl
    have htaken := (earliestFirst_iff_taken heapOrder now limit _).mp (h _ (hbehind.1 ▸ hmid))
    rw [hbehind.2] at htaken
    obtain ⟨n, rfl⟩ := Nat.exists_eq_succ_of_ne_zero hlimit
    have hlength : (late :: mid).length = (self.readySet now).length - 1 := by
      rw [← hmid.length_eq, List.length_append, List.length_singleton, Nat.add_sub_cancel]
    have hback : early ∈ (late :: mid ++ [early]).drop (n + 1) := by
      rw [List.drop_append_of_le_length (by omega)]
      exact List.mem_append_right _ List.mem_cons_self
    exact absurd (htaken late List.mem_cons_self early hback) (not_le.mpr hlt)
  · intro h other hsame
    refine earliestFirst_of_readySet ?_
    rw [hsame.length_eq]
    refine h.imp_right (Or.imp_right fun hone a ha b hb => ?_)
    exact hone a (hsame.mem_iff.mp ha) b (hsame.mem_iff.mp hb)

/-- **What the heap promises**: the front of the array is scheduled no later than anything in the queue, and is
    returned when it is ready. -/
theorem front_returned {now : SystemTime} {limit : Nat} (hlimit : 0 < limit) {self : Scheduler}
    {msg : ScheduledMessage} (hfront : (heapOrder.arrange self.queue).head? = some msg) :
    (∀ m ∈ self.queue, msg.scheduledAt ≤ m.scheduledAt) ∧
      (msg.isReady now = true → msg.delivering ∈ (self.getDue heapOrder now limit).1) := by
  refine ⟨Heap.head_le hfront, fun hready => ?_⟩
  obtain ⟨rest, hrest⟩ := List.head?_eq_some_iff.mp hfront
  have hfirst : self.ready heapOrder now = msg :: rest.filter fun m => m.isReady now := by
    rw [ready, hrest, List.filter_cons_of_pos hready]
  obtain ⟨n, rfl⟩ := Nat.exists_eq_succ_of_ne_zero (Nat.ne_of_gt hlimit)
  rw [getDue_fst, hfirst, List.take_succ_cons, List.map_cons]
  exact List.mem_cons_self

/-- Three schedules, of which the second is the latest. -/
def threeCalls : List SchedulerCall :=
  [.schedule { twice with id := "sched-1", scheduledAt := 1 },
    .schedule { twice with id := "sched-3", scheduledAt := 3 },
    .schedule { twice with id := "sched-2", scheduledAt := 2 }]

/-- **Overtaken**: the heap leaves them as they were pushed, and a batch of two is the first and the latest. -/
theorem later_schedule_overtakes : ¬ (reached {} threeCalls).EarliestFirst heapOrder 10 2 := by
  intro h
  have hbehind := h { twice with id := "sched-3", scheduledAt := 3, status := .delivering } (.tail _ (.head _))
    { twice with id := "sched-2", scheduledAt := 2 } (.tail _ (.tail _ (.head _))) rfl
  exact absurd hbehind (by decide)

end Scheduler

end Smppd.Store

/-
  The SESSION REGISTRY (`src/listener/registry.rs`): the map from a session to the bounded channel its
  responses are sent through.

  A response is tagged with its position on the bus, which tells apart two responses that look alike.
  `received` keeps the books of what the session has taken from its channel.
-/
import Smppd.Bootstrap.Events

namespace Smppd.Listener

open Smppd.Bootstrap

/-- A response and the position of its event on the bus. -/
abbrev Tagged := Nat × ResponseEnvelope

/-! ## The channel of a session -/

/-- `mpsc::channel(256)`. -/
def channelCapacity : Nat := 256

/-- Entry for a registered session: its channel.  (Its listener and system id are read by nobody.) -/
structure SessionEntry where
  queue : List Tagged
  received : List Tagged
  /-- The receiving half is alive. -/
  isOpen : Bool

/-- A new channel. -/
def SessionEntry.new : SessionEntry := ⟨[], [], true⟩

/-- What comes of a `try_send`. -/
inductive TrySend where
  | ok
  | full
  | closed
  deriving DecidableEq

/-- `tx.try_send`. -/
def SessionEntry.trySend (entry : SessionEntry) (response : Tagged) : TrySend × SessionEntry :=
  if entry.isOpen = false then (.closed, entry)
  else if entry.queue.length < channelCapacity then
    (.ok, { entry with queue := entry.queue ++ [response] })
  else (.full, entry)

/-- `response_rx.recv()`, when there is something to receive. -/
def SessionEntry.recv (entry : SessionEntry) : Option SessionEntry :=
  match entry.queue with
  | [] => none
  | response :: rest => some { entry with queue := rest, received := entry.received ++ [response] }

/-- The receiving half is dropped, and what it had not received with it. -/
def SessionEntry.close (entry : SessionEntry) : SessionEntry :=
  { entry with queue := [], isOpen := false }

/-! ## The registry -/

/-- `HashMap<SessionId, SessionEntry>`. -/
abbrev SessionRegistry := SessionId → Option SessionEntry

namespace SessionRegistry

variable (sessions : SessionRegistry)

/-- `register`. -/
def register (sessionId : SessionId) : SessionRegistry :=
  Function.update sessions sessionId (some .new)

/-- `unregister`. -/
def unregister (sessionId : SessionId) : SessionRegistry := Function.update sessions sessionId none

/-- `send_response`: whether the response was sent. -/
def sendResponse (response : Tagged) : Bool × SessionRegistry :=
  match sessions response.2.sessionId with
  | some entry =>
    let r := entry.trySend response
    (r.1 = .ok, Function.update sessions response.2.sessionId (some r.2))
  | none => (false, sessions)

end SessionRegistry

/-- The channel takes the response: it is open and has room. -/
def SessionEntry.Accepts (entry : SessionEntry) : Prop :=
  entry.isOpen = true ∧ entry.queue.length < channelCapacity

theorem SessionEntry.trySend_accepts {entry : SessionEntry} (h : entry.Accepts) (response : Tagged) :
    entry.trySend response = (.ok, { entry with queue := entry.queue ++ [response] }) := by
  unfold SessionEntry.trySend
  rw [if_neg (by rw [h.1]; decide), if_pos h.2]

theorem SessionEntry.trySend_refuses {entry : SessionEntry} (h : ¬ entry.Accepts)
    (response : Tagged) : (entry.trySend response).2 = entry := by
  unfold SessionEntry.trySend
  split
  · rfl
  · rename_i hopen
    rw [if_neg fun hroom => h ⟨Bool.not_eq_false _ ▸ hopen, hroom⟩]

end Smppd.Listener

/-
  `DlrProcessor` (`src/forwarder/dlr.rs`): correlate a delivery receipt with the message it is for,
  move the message to its final state and pass the receipt on to the client.

  The PDU type and the parsers of the receipt text and of its TLVs come from the `smpp` crate, which
  is not part of the repository: they are the fields of `DlrCodec`, about which nothing is assumed.

  CORRELATION is a scan: `find_message_by_smsc_id` asks the store for up to 1000 `InFlight` messages,
  then for up to 1000 `Retrying` ones, and takes the first whose `smsc_message_id` is the receipt's.
  The cluster the receipt came from plays no part in it.
-/
import Smppd.Forwarder.Processor

set_option linter.unusedVariables false

namespace Smppd.Forwarder

open Smppd.Store Smppd.Gateway

/-! ## Receipts -/

/-- Delivery status. -/
inductive DeliveryStatus where
  | enroute
  | delivered
  | expired
  | deleted
  | undeliverable
  | accepted
  | rejected
  | skipped
  | unknown
  deriving DecidableEq

namespace DeliveryStatus

/-- `is_final`. -/
def isFinal : DeliveryStatus → Bool
  | .delivered | .expired | .deleted | .undeliverable | .rejected => true
  | _ => false

/-- `is_success`. -/
def isSuccess : DeliveryStatus → Bool
  | .delivered => true
  | _ => false

/-- `is_failure`. -/
def isFailure : DeliveryStatus → Bool
  | .expired | .deleted | .undeliverable | .rejected => true
  | _ => false

/-- `as_str`. -/
def asStr : DeliveryStatus → String
  | .enroute => "ENROUTE"
  | .delivered => "DELIVRD"
  | .expired => "EXPIRED"
  | .deleted => "DELETED"
  | .undeliverable => "UNDELIV"
  | .accepted => "ACCEPTD"
  | .rejected => "REJECTD"
  | .skipped => "SKIPPED"
  | .unknown => "UNKNOWN"

/-- `From<u8> for DeliveryStatus`. -/
def ofU8 (v : UInt8) : DeliveryStatus :=
  if v = 1 then .enroute
  else if v = 2 then .delivered
  else if v = 3 then .expired
  else if v = 4 then .deleted
  else if v = 5 then .undeliverable
  else if v = 6 then .accepted
  else if v = 8 then .rejected
  else if v = 9 then .skipped
  else .unknown

/-- A final status says how the message ended. -/
theorem isFinal_iff (s : DeliveryStatus) : s.isFinal = (s.isSuccess || s.isFailure) := by
  cases s <;> rfl

end DeliveryStatus

/-- What `Dlr::parse` of the `smpp` crate yields, as far as it is used; its status enum has the
    variants of `DeliveryStatus`, and `From<DlrStatus>` maps each to its namesake. -/
structure ParsedDlr where
  messageId : String
  status : DeliveryStatus
  errorCode : Option String

/-- What the `smpp` crate knows about a `deliver_sm` PDU of type `D`. -/
structure DlrCodec (D : Type) where
  /-- `is_delivery_receipt`. -/
  isDeliveryReceipt : D → Bool
  /-- `Dlr::parse` of the short message read as (lossy) UTF-8. -/
  parse : D → Option ParsedDlr
  /-- `tlvs.get_string(tag)`. -/
  tlvString : D → UInt16 → Option String
  /-- `tlvs.get_u8(tag)`. -/
  tlvU8 : D → UInt16 → Option UInt8

/-- A parsed delivery receipt: the fields `process_dlr` uses. -/
structure DeliveryReceipt where
  smscMessageId : String
  status : DeliveryStatus
  errorCode : Option UInt32

/-- `str::parse::<u32>`: decimal digits, after an optional plus sign, that fit in 32 bits. -/
def parseU32 (s : String) : Option UInt32 :=
  let digits := match s.toList with
    | '+' :: rest => rest
    | l => l
  if digits ≠ [] ∧ digits.all Char.isDigit then
    let n := digits.foldl (fun n c => n * 10 + (c.toNat - 48)) 0
    if n < 2 ^ 32 then some (UInt32.ofNat n) else none
  else none

variable {D : Type}

/-- `parse_dlr`. -/
def DlrCodec.parseDlr (codec : DlrCodec D) (deliver : D) : Option DeliveryReceipt :=
  if codec.isDeliveryReceipt deliver then
    match codec.parse deliver with
    | some dlr => some ⟨dlr.messageId, dlr.status, dlr.errorCode.bind parseU32⟩
    | none =>
      (codec.tlvString deliver 0x001E).map fun msgId =>
        ⟨msgId, .ofU8 ((codec.tlvU8 deliver 0x0427).getD 7),
          (codec.tlvU8 deliver 0x0423).map fun e => UInt32.ofNat e.toNat⟩
  else none

/-- DLR event from upstream connection. -/
structure DlrEvent (D : Type) where
  deliverSm : D
  cluster : String
  endpoint : String

/-! ## The body -/

/-- The message was sent upstream under this id. -/
def carries (smscId : String) (m : StoredMessage) : Bool := m.smscMessageId = some smscId

/-- `find_message_by_smsc_id`. -/
def findMessageBySmscId (smscId : String) : Body (Output D) (Option StoredMessage) := do
  let inFlight ← ask (.query (.byState .inFlight 1000))
  match inFlight.find? (carries smscId) with
  | some msg => pure (some msg)
  | none =>
    let retrying ← ask (.query (.byState .retrying 1000))
    pure (retrying.find? (carries smscId))

/-- The closure `process_dlr` updates the message with, for a final status. -/
def settle (dlr : DeliveryReceipt) (clock : Clock) (m : StoredMessage) : StoredMessage :=
  let m := m.recordDeliveryReceipt clock dlr.status.asStr dlr.errorCode
  if dlr.status.isSuccess then { m with state := .delivered }
  else if dlr.status.isFailure then
    { m with
      state := .failed
      lastErrorCode := dlr.errorCode
      lastError := some ("DLR: " ++ dlr.status.asStr) }
  else m

/-- `forward_to_client`. -/
def forwardToClient (systemId : String) (deliver : D) : Body (Output D) Unit := do
  match ← ask (.session systemId) with
  | true =>
    let _ ← ask (.tryEmit (.receipt systemId deliver))
    pure ()
  | false => pure ()

/-- `process_dlr`. -/
def processDlr (codec : DlrCodec D) (event : DlrEvent D) : Body (Output D) Unit :=
  match codec.parseDlr event.deliverSm with
  | none => pure ()
  | some dlr => do
    match ← findMessageBySmscId dlr.smscMessageId with
    | none => pure ()
    | some message =>
      if dlr.status.isFinal then
        let _ ← ask (.update message.id (settle dlr))
        forwardToClient message.systemId event.deliverSm
      else
        forwardToClient message.systemId event.deliverSm

end Smppd.Forwarder

/-
  The CALLS of the gateway's asynchronous bodies.

  `route_message`, `forward_message`, `process_request`, `retry_message` and `process_dlr` are async
  functions over one shared `GatewayState`.  Whatever such a body does to the outside is one of the
  calls below, and a body is a `Prog` of them: it can be run alone, or be interleaved with others at
  its calls.  A call is atomic; between two calls of a body anything may happen.

  Calls whose answer is not the gateway's to decide are answered by the environment: the clock, the
  routing table (`state.router.read().await.route(..)`, which a reload may replace at any time), the
  clusters, their connections and the upstream's reply.  So "every routing table, every upstream
  outcome" is a quantifier over environments.

  `record_decision` and `record_outcome` write the feedback store, which no modelled body reads;
  they and the telemetry counters are not calls here.
-/
import Smppd.Lib.Prog
import Smppd.Store.Trait

set_option linter.unusedVariables false

namespace Smppd.Gateway

open Smppd.Store

/-! ## What the environment answers -/

/-- Fields of a `submit_sm` PDU; a TLV is a tag and its octets. -/
structure SubmitSm where
  serviceType : String := ""
  sourceAddrTon : UInt8 := 0
  sourceAddrNpi : UInt8 := 0
  sourceAddr : String
  destAddrTon : UInt8 := 0
  destAddrNpi : UInt8 := 0
  destAddr : String
  esmClass : UInt8 := 0
  protocolId : UInt8 := 0
  priorityFlag : UInt8 := 0
  scheduleDeliveryTime : String := ""
  validityPeriod : String := ""
  registeredDelivery : UInt8 := 0
  replaceIfPresentFlag : UInt8 := 0
  dataCoding : UInt8 := 0
  smDefaultMsgId : UInt8 := 0
  shortMessage : List UInt8
  tlvs : List (UInt16 × List UInt8) := []

/-- Result of a route lookup. -/
structure RouteResult where
  routeName : String
  clusterName : String
  fallback : List String

/-- `clusters_to_try`: the primary cluster, then the fallbacks. -/
def RouteResult.clustersToTry (r : RouteResult) : List String := r.clusterName :: r.fallback

/-- What comes of `timeout(.., conn.client().send_pdu(&pdu))`. -/
inductive Reply where
  | timeout
  | ioError (e : String)
  | submitSmResp (status : UInt32) (messageId : String)
  | other (debug : String)

/-- Everything a call may read from its surroundings. -/
structure Env where
  store : StoreEnv
  route : Option RouteResult
  /-- `clusters.get(name)`, with its `is_mock` flag. -/
  cluster : Option Bool
  /-- Whether `get_connection` yields a connection. -/
  connection : Bool
  reply : Reply
  /-- Whether a client session is registered for the system id. -/
  session : Bool
  /-- Whether `try_send` finds room. -/
  accepts : Bool

/-! ## The calls -/

/-- A call of a body; `Out` is what the bodies send out (bus events, replies, receipts). -/
inductive Op (Out : Type) where
  /-- `Instant::now()`. -/
  | now
  /-- `StoredMessage::new`, which draws an id. -/
  | newMessage (source destination : String) (shortMessage : List UInt8) (systemId : String)
      (sequenceNumber : UInt32)
  | store (message : StoredMessage)
  | get (id : MessageId)
  | update (id : MessageId) (f : Clock → StoredMessage → StoredMessage)
  | query (q : MessageQuery)
  | getReadyForRetry
  | route (destination source : String)
  | cluster (name : String)
  | getConnection (name : String)
  | sendPdu (name : String) (pdu : SubmitSm)
  /-- `sessions.get(system_id)`. -/
  | session (systemId : String)
  /-- A send that cannot fail, or whose failure is ignored. -/
  | emit (o : Out)
  /-- A `try_send` on a bounded channel. -/
  | tryEmit (o : Out)

variable {Out : Type}

/-- The answer of a call. -/
abbrev Op.Res : Op Out → Type
  | .now => Clock
  | .newMessage .. => StoredMessage
  | .store _ => Unit
  | .get _ => Option StoredMessage
  | .update _ _ => Bool
  | .query _ => List StoredMessage
  | .getReadyForRetry => List StoredMessage
  | .route _ _ => Option RouteResult
  | .cluster _ => Option Bool
  | .getConnection _ => Bool
  | .sendPdu _ _ => Reply
  | .session _ => Bool
  | .emit _ => Unit
  | .tryEmit _ => Bool

/-- A body of the gateway. -/
abbrev Body (Out α : Type) := Prog (Op Out) Op.Res α

/-- One call of a body. -/
abbrev ask (op : Op Out) : Body Out op.Res := Prog.request op

/-! ## The shared state -/

/-- The storage, the id counter, and what has been sent out. -/
structure World (S Out : Type) where
  storage : S
  counter : Nat
  sent : List Out

variable {S : Type} [Storage S]

/-- What each call does. -/
def handle (env : Env) : (op : Op Out) → World S Out → op.Res × World S Out
  | .now, w => (env.store.clock, w)
  | .newMessage src dst payload sys seq, w =>
    let r := StoredMessage.new env.store.clock w.counter src dst payload sys seq
    (r.1, { w with counter := r.2 })
  | .store m, w => ((), { w with storage := Storage.store env.store m w.storage })
  | .get id, w => (Storage.get env.store id w.storage, w)
  | .update id f, w =>
    let r := Storage.update env.store id (f env.store.clock) w.storage
    (r.2, { w with storage := r.1 })
  | .query q, w => (Storage.query env.store q w.storage, w)
  | .getReadyForRetry, w => (Storage.getReadyForRetry env.store w.storage, w)
  | .route _ _, w => (env.route, w)
  | .cluster _, w => (env.cluster, w)
  | .getConnection _, w => (env.connection, w)
  | .sendPdu _ _, w => (env.reply, w)
  | .session _, w => (env.session, w)
  | .emit o, w => ((), { w with sent := w.sent ++ [o] })
  | .tryEmit o, w => (env.accepts, { w with sent := if env.accepts then w.sent ++ [o] else w.sent })

end Smppd.Gateway

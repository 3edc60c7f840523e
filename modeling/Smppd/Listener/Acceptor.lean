/-
  The ACCEPTOR (`src/listener/acceptor.rs`): from the configuration to the session that a connection
  is served by.

  `Listeners::new` builds every listener of the configuration or none; `handle_accept` takes a permit,
  configures the socket, waits for the TLS handshake and starts a session.  `Listeners` is the machine
  of all listeners together: connections arrive and finish, and somebody takes the announcement of a
  new one off the channel all listeners share.

  WHICH credential store a session checks its binds against is decided by one call: `handle_accept`
  makes the session with `SmppSession::new`, which is the store that lets everybody in, and not with
  `SmppSession::with_credentials`.  The clients of the configuration play no part in it, so
  `gateway_authenticates_iff` says that they guard the gateway only where nobody can connect at all;
  `authenticated_of_config` is what the other call would give.

  Building a TLS acceptor reads certificate files and is a parameter.  Binding the socket is left out:
  a listener that fails to bind accepts nothing.
-/
import Mathlib.Data.Fintype.EquivFin
import Smppd.Lib.Fallible
import Smppd.Listener.Dispatch

set_option linter.unusedVariables false
set_option linter.dupNamespace false

namespace Smppd.Listener

open Smppd.Store Smppd.Gateway Smppd.Bootstrap Smppd.Filter Table Machine Fallible

/-! ## Sessions -/

/-- `SmppSession::new`. -/
def SmppSession.new {Ip Net : Type} (sessionId : SessionId) (peerIp : Ip) : SmppSession Ip Net :=
  ⟨sessionId, peerIp, openCredentialStore⟩

/-- `SmppSession::with_credentials`. -/
def SmppSession.withCredentials {Ip Net : Type} (sessionId : SessionId) (peerIp : Ip)
    (credentials : CredentialStore Net) : SmppSession Ip Net :=
  ⟨sessionId, peerIp, credentials⟩

variable {Ip Net : Type}

/-! ## Listeners -/

/-- A connection as its listener keeps it, with the session it is served by. -/
structure Connection (Ip Net : Type) where
  listener : String
  idleTimeout : Duration
  requestTimeout : Duration
  session : SmppSession Ip Net

/-- A listener; of the TLS acceptor only whether there is one. -/
structure Listener (Ip Net : Type) where
  name : String
  address : String
  tlsAcceptor : Bool
  /-- `connection_limit`: the permits that are left. -/
  connectionLimit : Nat
  nextConnectionId : UInt64 := 1
  connections : Tbl UInt64 (Connection Ip Net) := ∅
  activeConnections : Nat := 0
  idleTimeout : Duration
  requestTimeout : Duration

/-- `Semaphore::MAX_PERMITS`, on 64 bits. -/
def maxPermits : Nat := 2 ^ 61 - 1

section Building

variable (buildTls : TlsConfig → Except String Unit)

/-- The TLS acceptor of a listener, if it is to have one. -/
def buildAcceptor : Option TlsConfig → Except String Bool
  | some tls => do
    buildTls tls
    pure true
  | none => pure false

/-- `Semaphore::new`, which panics when there are too many permits. -/
def newSemaphore (permits : Nat) : Except String Nat :=
  if permits ≤ maxPermits then .ok permits
  else .error "a semaphore may not have more than MAX_PERMITS permits"

/-- `Listener::new`. -/
def Listener.new (config : ListenerConfig) : Except String (Listener Ip Net) := do
  let tlsAcceptor ← buildAcceptor buildTls config.tls
  let connectionLimit ← newSemaphore config.limits.maxConnections
  pure {
    name := config.name
    address := config.address
    tlsAcceptor := tlsAcceptor
    connectionLimit := connectionLimit
    idleTimeout := config.limits.idleTimeout
    requestTimeout := config.limits.requestTimeout }

/-- All listeners, and the connections announced on the channel they share: the place of the listener
    and the id. -/
structure Listeners (Ip Net : Type) where
  listeners : List (Listener Ip Net)
  announced : List (Nat × UInt64) := []

/-- `Listeners::new`. -/
def Listeners.new (configs : List ListenerConfig) : Except String (Listeners Ip Net) := do
  let listeners ← collect (Listener.new buildTls) configs
  pure { listeners := listeners }

end Building

/-! ## Accepting -/

/-- How a TLS handshake ends. -/
inductive Handshake where
  | completed
  | failed
  | timedOut
  deriving DecidableEq

/-- A connection that arrives, what becomes of its socket, and the id its session draws. -/
structure Arrival (Ip : Type) where
  peerIp : Ip
  socketError : Option String
  handshake : Handshake
  sessionId : SessionId

/-- A connection is tracked, and holds a permit. -/
def Listener.track (self : Listener Ip Net) (connId : UInt64) (connection : Connection Ip Net) :
    Listener Ip Net :=
  { self with
    connectionLimit := self.connectionLimit - 1
    activeConnections := self.activeConnections + 1
    connections := self.connections.insert connId connection }

/-- `handle_accept`: what it leaves, and the connection whose session it has started, if any.  A
    connection that is given up hands its permit back. -/
def Listener.handleAccept (self : Listener Ip Net) (arrival : Arrival Ip) :
    Listener Ip Net × Option (UInt64 × Connection Ip Net) :=
  if self.connectionLimit = 0 then (self, none)
  else
    let connId := self.nextConnectionId
    let numbered := { self with nextConnectionId := self.nextConnectionId + 1 }
    if arrival.socketError.isSome then (numbered, none)
    else if self.tlsAcceptor && arrival.handshake ≠ .completed then (numbered, none)
    else
      let connection : Connection Ip Net :=
        ⟨self.name, self.idleTimeout, self.requestTimeout, .new arrival.sessionId arrival.peerIp⟩
      (numbered.track connId connection, some (connId, connection))

/-- What happens to the listeners. -/
inductive Happening (Ip : Type) where
  /-- A connection arrives at the listener in this place. -/
  | arrive (place : Nat) (arrival : Arrival Ip)
  /-- The session of a connection ends. -/
  | finish (place : Nat) (id : UInt64)
  /-- `Listeners::accept`: an announcement is taken off the channel. -/
  | accept

/-- The capacity of the channel. -/
def announceCapacity : Nat := 1024

/-- The last holder of a connection is gone, and its permit is free. -/
def Listeners.release (self : Listeners Ip Net) (place : Nat) : Listeners Ip Net :=
  { self with
    listeners := self.listeners.modify place fun l => { l with connectionLimit := l.connectionLimit + 1 } }

/-- One step of the listeners.  An accepted connection is announced, and `handle_accept` waits as long as
    the channel is full; a connection keeps its permit while its session or the channel holds it. -/
def Listeners.step (self : Listeners Ip Net) : Happening Ip → Option (Listeners Ip Net)
  | .arrive place arrival =>
    self.listeners[place]?.bind fun l =>
      let (l', accepted) := l.handleAccept arrival
      match accepted with
      | none => some { self with listeners := self.listeners.set place l' }
      | some (id, _) =>
        if self.announced.length < announceCapacity then
          some ⟨self.listeners.set place l', self.announced ++ [(place, id)]⟩
        else none
  | .finish place id =>
    self.listeners[place]?.bind fun l =>
      (l.connections.lookup id).map fun _ =>
        let finished : Listeners Ip Net :=
          { self with
            listeners := self.listeners.set place { l with
              connections := l.connections.erase id
              activeConnections := l.activeConnections - 1 } }
        if (place, id) ∈ self.announced then finished else finished.release place
  | .accept =>
    match self.announced with
    | [] => none
    | (place, id) :: rest =>
      let taken : Listeners Ip Net := { self with announced := rest }
      match self.listeners[place]? with
      | some l => some (if (l.connections.lookup id).isSome then taken else taken.release place)
      | none => some taken

/-! ## What is built -/

/-- The configuration of a listener that can be built. -/
def Builds (buildTls : TlsConfig → Except String Unit) (config : ListenerConfig) : Prop :=
  (∀ tls, config.tls = some tls → buildTls tls = .ok ()) ∧
    config.limits.maxConnections ≤ maxPermits

/-- The listener as it starts. -/
def Listener.started (config : ListenerConfig) : Listener Ip Net where
  name := config.name
  address := config.address
  tlsAcceptor := config.tls.isSome
  connectionLimit := config.limits.maxConnections
  idleTimeout := config.limits.idleTimeout
  requestTimeout := config.limits.requestTimeout

variable {buildTls : TlsConfig → Except String Unit}

theorem buildAcceptor_eq_ok {tls : Option TlsConfig} {acceptor : Bool} :
    buildAcceptor buildTls tls = .ok acceptor ↔
      (∀ t, tls = some t → buildTls t = .ok ()) ∧ acceptor = tls.isSome := by
  cases tls with
  | none =>
    constructor
    · intro h
      cases h
      exact ⟨nofun, rfl⟩
    · rintro ⟨-, rfl⟩
      rfl
  | some t =>
    unfold buildAcceptor
    rw [bind_eq_ok]
    constructor
    · rintro ⟨u, hbuild, h⟩
      cases h
      refine ⟨fun t' ht' => ?_, rfl⟩
      cases ht'
      exact hbuild
    · rintro ⟨hbuild, rfl⟩
      exact ⟨(), hbuild t rfl, rfl⟩

theorem newSemaphore_eq_ok {permits limit : Nat} :
    newSemaphore permits = .ok limit ↔ permits ≤ maxPermits ∧ limit = permits := by
  unfold newSemaphore
  by_cases hmax : permits ≤ maxPermits
  · rw [if_pos hmax]
    constructor
    · intro h
      cases h
      exact ⟨hmax, rfl⟩
    · rintro ⟨-, rfl⟩
      rfl
  · rw [if_neg hmax]
    constructor
    · intro h
      cases h
    · rintro ⟨hle, -⟩
      exact absurd hle hmax

/-- A listener is built from what can be built, and starts with all its permits. -/
theorem Listener.new_eq_ok (config : ListenerConfig) (listener : Listener Ip Net) :
    Listener.new buildTls config = .ok listener ↔
      Builds buildTls config ∧ listener = .started config := by
  unfold Listener.new Builds
  rw [bind_eq_ok]
  constructor
  · rintro ⟨acceptor, hacceptor, hrest⟩
    obtain ⟨limit, hlimit, hself⟩ := bind_eq_ok.mp hrest
    obtain ⟨htls, rfl⟩ := buildAcceptor_eq_ok.mp hacceptor
    obtain ⟨hmax, rfl⟩ := newSemaphore_eq_ok.mp hlimit
    cases hself
    exact ⟨⟨htls, hmax⟩, rfl⟩
  · rintro ⟨⟨htls, hmax⟩, rfl⟩
    exact ⟨_, buildAcceptor_eq_ok.mpr ⟨htls, rfl⟩,
      bind_eq_ok.mpr ⟨_, newSemaphore_eq_ok.mpr ⟨hmax, rfl⟩, rfl⟩⟩

/-- The listeners are built when each of them can be. -/
theorem Listeners.new_eq_ok {configs : List ListenerConfig} {self : Listeners Ip Net} :
    Listeners.new buildTls configs = .ok self ↔
      (∀ config ∈ configs, Builds buildTls config) ∧ self = ⟨configs.map .started, []⟩ := by
  unfold Listeners.new
  rw [bind_eq_ok]
  constructor
  · rintro ⟨listeners, hcollect, hself⟩
    obtain ⟨hall, rfl⟩ := (collect_eq_ok_iff_map Listener.new_eq_ok).mp hcollect
    cases hself
    exact ⟨hall, rfl⟩
  · rintro ⟨hall, rfl⟩
    exact ⟨_, (collect_eq_ok_iff_map Listener.new_eq_ok).mpr ⟨hall, rfl⟩, rfl⟩

/-! ## Authentication -/

/-- The client may bind so, with this password and from this address. -/
def Grants (nets : IpNets Ip Net) (client : ClientConfig) (peerIp : Ip) (kind : BindKind)
    (fields : BindFields) : Prop :=
  client.enabled = true ∧ client.systemId = fields.systemId ∧ client.password = fields.password ∧
    (Credentials.ofConfig nets client).isBindAllowed kind.bindType = true ∧
    (Credentials.ofConfig nets client).isIpAllowed nets peerIp = true

/-- Whatever PDUs come in on a new connection, it is bound only after a bind that one of the clients
    grants. -/
def Authenticated (nets : IpNets Ip Net) (clients : List ClientConfig) (session : SmppSession Ip Net) :
    Prop :=
  ∀ now inputs c, run (receive nets session) (.new now) inputs = some c → c.state.isBound = true →
    ∃ input ∈ inputs, ∃ kind fields, bindOf input.frame.pdu = some (kind, fields) ∧
      ∃ client ∈ clients, Grants nets client session.peerIp kind fields

/-- Every connection that the listeners of a configuration ever accept is guarded by its clients. -/
def GatewayAuthenticates (nets : IpNets Ip Net) (buildTls : TlsConfig → Except String Unit)
    (config : Config) : Prop :=
  ∀ start : Listeners Ip Net, Listeners.new buildTls config.listeners = .ok start →
    ∀ happenings reached, run Listeners.step start happenings = some reached →
      ∀ listener ∈ reached.listeners, ∀ id connection, listener.connections.lookup id = some connection →
        Authenticated nets config.clients connection.session

/-- A bind that has been accepted came in. -/
theorem mem_inputs_of_mem_history {nets : IpNets Ip Net} {self : SmppSession Ip Net} {kind : BindKind}
    {fields : BindFields} {inputs : List Input} {c : Conn}
    (h : Acceptance.bind kind fields ∈ history nets self c inputs) :
    ∃ input ∈ inputs, bindOf input.frame.pdu = some (kind, fields) := by
  induction inputs generalizing c with
  | nil => cases h
  | cons input inputs ih =>
    rcases List.mem_append.mp h with hnow | hlater
    · refine ⟨input, List.mem_cons_self, ?_⟩
      rw [Option.mem_toList] at hnow
      unfold acceptance at hnow
      have hdecision := react_decision nets self c.state input.frame
      cases hreact : react nets self c.state input.frame with
      | bind kind' fields' =>
        rw [hreact] at hnow hdecision
        cases hnow
        cases hdecision with
        | bind hbind => exact hbind.2.1
      | _ =>
        rw [hreact] at hnow
        cases hnow
    · obtain ⟨input', hmem, hbind⟩ := ih hlater
      exact ⟨input', List.mem_cons_of_mem _ hmem, hbind⟩

/-- A connection that is bound has accepted a bind, which came in and was validated. -/
theorem bound_of_run {nets : IpNets Ip Net} {self : SmppSession Ip Net} {now : Instant}
    {inputs : List Input} {c : Conn} (hrun : run (receive nets self) (.new now) inputs = some c)
    (hbound : c.state.isBound = true) :
    ∃ input ∈ inputs, ∃ kind fields, bindOf input.frame.pdu = some (kind, fields) ∧
      Validated nets self kind fields := by
  have hopen : Stage nets self (Conn.new now) [] := .awaiting rfl
  obtain ⟨kind, fields, -, -, hvalid, -, -, hhistory⟩ := (hopen.along hrun).of_bound hbound
  rw [List.nil_append] at hhistory
  have haccepted : Acceptance.bind kind fields ∈ history nets self (Conn.new now) inputs := by
    rw [hhistory]
    exact List.mem_singleton_self _
  obtain ⟨input, hinput, hbind⟩ := mem_inputs_of_mem_history haccepted
  exact ⟨input, hinput, kind, fields, hbind, hvalid⟩

/-- A client that `ConfigCredentialStore` validates is one of those it was made of. -/
theorem configCredentialStore_validate {nets : IpNets Ip Net} {clients : List ClientConfig}
    {systemId password : String} {creds : Credentials Net}
    (h : (configCredentialStore nets clients).validate systemId password = some creds) :
    ∃ client ∈ clients, client.enabled = true ∧ client.systemId = systemId ∧
      client.password = password ∧ creds = .ofConfig nets client := by
  obtain ⟨found, hlookup, hcheck⟩ := Option.bind_eq_some_iff.mp h
  rcases lookup_foldl_insert hlookup with hempty | ⟨client, hmem, hid, rfl⟩
  · cases hempty
  · by_cases hpass : (Credentials.ofConfig nets client).password = password ∧
        (Credentials.ofConfig nets client).enabled = true
    · rw [if_pos hpass] at hcheck
      cases hcheck
      obtain ⟨hmem', henabled⟩ := List.mem_filter.mp hmem
      exact ⟨client, hmem', henabled, hid, hpass.1, rfl⟩
    · rw [if_neg hpass] at hcheck
      cases hcheck

/-- **What `with_credentials` would give**: a session over the credential store of the configuration is
    guarded by its clients. -/
theorem authenticated_of_config (nets : IpNets Ip Net) (clients : List ClientConfig)
    (sessionId : SessionId) (peerIp : Ip) :
    Authenticated nets clients
      (.withCredentials sessionId peerIp (configCredentialStore nets clients)) := by
  intro now inputs c hrun hbound
  obtain ⟨input, hinput, kind, fields, hbind, creds, hvalidate, -, hallowed, hip⟩ :=
    bound_of_run hrun hbound
  obtain ⟨client, hclient, hon, hid, hpass, rfl⟩ := configCredentialStore_validate hvalidate
  exact ⟨input, hinput, kind, fields, hbind, client, hclient, hon, hid, hpass, hallowed, hip⟩

/-- A bind as a transmitter with some password. -/
def bindWith (password : String) : Input :=
  ⟨⟨⟨.other "bind_transmitter", 1, .ok⟩, .bindTransmitter ⟨"esme", password⟩, false⟩,
    fun _ => quietEnv⟩

/-- **A session made by `SmppSession::new` is guarded by nobody**, whoever the clients are: it binds with
    a password that none of them has. -/
theorem not_authenticated_new (nets : IpNets Ip Net) (clients : List ClientConfig)
    (sessionId : SessionId) (peerIp : Ip) :
    ¬ Authenticated nets clients (.new sessionId peerIp) := by
  intro hauth
  -- there are more passwords than clients
  obtain ⟨password, hfresh⟩ :=
    Infinite.exists_notMem_finset (clients.map fun client => client.password).toFinset
  rw [List.mem_toFinset] at hfresh
  obtain ⟨input, hinput, kind, fields, hbind, client, hclient, -, -, hpass, -, -⟩ :=
    hauth 0 [bindWith password] _ rfl rfl
  rw [List.mem_singleton.mp hinput] at hbind
  cases hbind
  exact hfresh (List.mem_map.mpr ⟨client, hclient, hpass⟩)

/-! ## Who gets in -/

/-- Nobody is connected, and nobody can be. -/
structure Shut (ls : Listeners Ip Net) : Prop where
  permits : ∀ l ∈ ls.listeners, l.connectionLimit = 0
  connections : ∀ l ∈ ls.listeners, l.connections = ∅
  announced : ls.announced = []

/-- Without permits nothing ever happens. -/
theorem Shut.step {ls ls' : Listeners Ip Net} (h : Shut ls) (happening : Happening Ip)
    (hstep : ls.step happening = some ls') : Shut ls' := by
  cases happening with
  | arrive place arrival =>
    obtain ⟨l, hl, hrest⟩ := Option.bind_eq_some_iff.mp hstep
    obtain ⟨hplace, hget⟩ := List.getElem?_eq_some_iff.mp hl
    -- no permit: the listener is put back in its place as it was
    have hrefused : l.handleAccept arrival = (l, none) :=
      if_pos (h.permits l (List.mem_of_getElem? hl))
    have hsame : ls.listeners.set place l = ls.listeners := by
      rw [← hget]
      exact List.set_getElem_self hplace
    rw [hrefused] at hrest
    dsimp only at hrest
    rw [hsame] at hrest
    cases hrest
    exact h
  | finish place id =>
    obtain ⟨l, hl, hrest⟩ := Option.bind_eq_some_iff.mp hstep
    rw [h.connections l (List.mem_of_getElem? hl)] at hrest
    cases hrest
  | accept =>
    rw [Listeners.step, h.announced] at hstep
    cases hstep

/-- Listeners without permits start shut. -/
theorem shut_started {configs : List ListenerConfig}
    (h : ∀ l ∈ configs, l.limits.maxConnections = 0) :
    Shut (⟨configs.map .started, []⟩ : Listeners Ip Net) := by
  refine ⟨fun l hl => ?_, fun l hl => ?_, rfl⟩
  · obtain ⟨config, hmem, rfl⟩ := List.mem_map.mp hl
    exact h config hmem
  · obtain ⟨config, hmem, rfl⟩ := List.mem_map.mp hl
    rfl

/-- A connection that arrives without trouble. -/
def Arrival.smooth (peerIp : Ip) : Arrival Ip := ⟨peerIp, none, .completed, ⟨1⟩⟩

/-- A listener that has a permit accepts it, and serves it by a session of `SmppSession::new`. -/
theorem handleAccept_smooth {l : Listener Ip Net} (hpermit : l.connectionLimit ≠ 0) (peerIp : Ip) :
    ∃ l' connection, l.handleAccept (.smooth peerIp) = (l', some (l.nextConnectionId, connection)) ∧
      l'.connections.lookup l.nextConnectionId = some connection ∧
      connection.session = .new ⟨1⟩ peerIp := by
  let numbered := { l with nextConnectionId := l.nextConnectionId + 1 }
  let connection : Connection Ip Net :=
    ⟨l.name, l.idleTimeout, l.requestTimeout, .new ⟨1⟩ peerIp⟩
  refine ⟨numbered.track l.nextConnectionId connection, connection, ?_, ?_, rfl⟩
  · have hsecured : (l.tlsAcceptor && decide ((Arrival.smooth peerIp).handshake ≠ .completed)) = false :=
      Bool.and_false l.tlsAcceptor
    unfold Listener.handleAccept
    rw [if_neg hpermit, hsecured]
    rfl
  · exact AList.lookup_insert l.connections

/-- Nobody can connect with a configuration: some listener cannot be built, or none has a permit. -/
def NobodyConnects (buildTls : TlsConfig → Except String Unit) (config : Config) : Prop :=
  (∃ l ∈ config.listeners, ¬ Builds buildTls l) ∨ ∀ l ∈ config.listeners, l.limits.maxConnections = 0

/-- With a listener that has a permit, somebody gets in whom no client of the configuration grants it. -/
theorem exists_unauthenticated [Inhabited Ip] (nets : IpNets Ip Net) {config : Config}
    (hbuilds : ∀ l ∈ config.listeners, Builds buildTls l) {l : ListenerConfig}
    (hl : l ∈ config.listeners) (hpermit : l.limits.maxConnections ≠ 0) :
    ¬ GatewayAuthenticates nets buildTls config := by
  intro hgateway
  obtain ⟨place, hplace, rfl⟩ := List.getElem_of_mem hl
  obtain ⟨l', connection, haccept, hlookup, hsession⟩ :=
    handleAccept_smooth (l := (Listener.started config.listeners[place] : Listener Ip Net)) hpermit
      default
  have hget : (config.listeners.map (Listener.started : ListenerConfig → Listener Ip Net))[place]? =
      some (.started config.listeners[place]) := by
    rw [List.getElem?_map, List.getElem?_eq_getElem hplace]
    rfl
  have hstep : Listeners.step (⟨config.listeners.map .started, []⟩ : Listeners Ip Net)
      (.arrive place (.smooth default)) =
      some ⟨(config.listeners.map .started).set place l', [(place, 1)]⟩ := by
    rw [Listeners.step, hget, Option.bind_some, haccept]
    rfl
  have hmem : l' ∈ (config.listeners.map (Listener.started : ListenerConfig → Listener Ip Net)).set
      place l' := List.mem_set (by rw [List.length_map]; exact hplace) l'
  have hauth := hgateway _ (Listeners.new_eq_ok.mpr ⟨hbuilds, rfl⟩) [.arrive place (.smooth default)] _
    (run_cons_eq_some.mpr ⟨_, hstep, rfl⟩) l' hmem _ connection hlookup
  rw [hsession] at hauth
  exact not_authenticated_new nets config.clients _ _ hauth

/-- **The clients of a configuration guard its gateway only where nobody can connect**: otherwise every
    connection is served by a session whose credential store lets everybody in. -/
theorem gateway_authenticates_iff [Inhabited Ip] (nets : IpNets Ip Net)
    (buildTls : TlsConfig → Except String Unit) (config : Config) :
    GatewayAuthenticates nets buildTls config ↔ NobodyConnects buildTls config := by
  constructor
  · intro hgateway
    by_contra hsomebody
    rw [NobodyConnects, not_or] at hsomebody
    obtain ⟨hbuilds, hpermits⟩ := hsomebody
    push Not at hbuilds hpermits
    obtain ⟨l, hl, hpermit⟩ := hpermits
    exact exists_unauthenticated nets hbuilds hl hpermit hgateway
  · -- no listener, or no connection in any of them, at any time
    intro hnobody start hstart happenings reached hrun listener hlistener id connection hlookup
    obtain ⟨hbuilds, rfl⟩ := Listeners.new_eq_ok.mp hstart
    rcases hnobody with ⟨l, hl, hnot⟩ | hpermits
    · exact absurd (hbuilds l hl) hnot
    · have hshut : Shut reached := run_inv (fun _ happening _ h hstep => h.step happening hstep)
        (shut_started hpermits) hrun
      rw [hshut.connections listener hlistener] at hlookup
      cases hlookup

/-- A configuration with one client, and the limits a listener has by default. -/
def oneClientConfig : Config :=
  { listeners := [{ name := "main", address := "0.0.0.0:2775" }]
    clients := [{ systemId := "client1", password := "s" }] }

/-- The gateway lets in whoever connects, although it has a client with a password. -/
theorem gateway_lets_everybody_in :
    oneClientConfig.clients ≠ [] ∧
      ¬ GatewayAuthenticates tenNet (fun _ => .ok ()) oneClientConfig := by
  have hbuilds : ∀ l ∈ oneClientConfig.listeners, Builds (fun _ => .ok ()) l := by
    intro l hl
    rw [List.mem_singleton.mp hl]
    exact ⟨nofun, by decide⟩
  exact ⟨List.cons_ne_nil _ _,
    exists_unauthenticated tenNet hbuilds List.mem_cons_self (by decide)⟩

end Smppd.Listener

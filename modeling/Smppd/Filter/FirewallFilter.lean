/-
  The firewall as a FILTER (`FirewallFilter` of `src/filter/firewall.rs`): whose settings a request is checked
  against.

  The filter builds the context of a message from the PDU.  The system id of the client is in the metadata of the
  request, and the filter does not look there ("TODO: pass from session"): the system id of the context is EMPTY.
  So every message is checked against what is configured for the client with the empty name, and what is configured
  for a client is applied to nobody.

  * `call_blind` — the metadata make no difference;
  * `check_allowed_iff` — what the decision depends on, and how much of it is the client's;
  * `restrictions_reach_iff` — when the decision is, all the same, the one for the client.

  The inner service is any service; what it answers is told apart from the rejection of the filter by a tag.  How
  bytes are read as text (`String::from_utf8_lossy`) is a parameter, about which nothing is assumed.
-/
import Smppd.Filter.Chain
import Smppd.Filter.Verdict

set_option linter.unusedVariables false

namespace Smppd.Filter

open Smppd.Store Table

variable {Rx Tz α σ : Type}

/-! ## The filter -/

/-- What a request is answered. -/
inductive FirewallAnswer (α : Type) where
  /-- By the inner service. -/
  | inner (answer : α)
  /-- `SmppResponse::Reject`. -/
  | reject (sequence : UInt32) (status : Status) (reason : Option String)

/-- Firewall filter service. -/
structure FirewallFilter (Rx Tz α σ : Type) where
  /-- What the inner service answers, and what that makes of its state. -/
  inner : SmppRequest → σ → α × σ
  firewall : Firewall Rx Tz

section Filter

variable (texts : Texts Rx Tz) (lossy : List UInt8 → String)

/-- Extract message details from PDU. -/
def messageContext (sm : Gateway.SubmitSm) : MessageContext where
  content := lossy sm.shortMessage
  senderId := sm.sourceAddr
  destination := sm.destAddr
  source := sm.sourceAddr
  systemId := ""
  protocol :=
    { esmClass := some sm.esmClass
      protocolId := some sm.protocolId
      dataCoding := some sm.dataCoding
      sourceAddrTon := some sm.sourceAddrTon
      sourceAddrNpi := some sm.sourceAddrNpi
      destAddrTon := some sm.destAddrTon
      destAddrNpi := some sm.destAddrNpi }

/-- `FirewallFilter::call`. -/
def FirewallFilter.call (clock : Clock) (request : SmppRequest) (self : FirewallFilter Rx Tz α σ) (state : σ) :
    FirewallAnswer α × FirewallFilter Rx Tz α σ × σ :=
  match request.pdu with
  | .submitSm sm =>
    let (result, firewall) := self.firewall.check texts clock (messageContext lossy sm)
    let self := { self with firewall := firewall }
    if result.allowed then
      let (answer, state) := self.inner request state
      (.inner answer, self, state)
    else
      (.reject request.sequence (result.status.getD .invalidDestAddress) result.matchedRule, self, state)
  | _ =>
    -- Non-submit PDUs pass through
    let (answer, state) := self.inner request state
    (.inner answer, self, state)

/-- The request is forwarded to the inner service. -/
def FirewallFilter.Forwards (clock : Clock) (request : SmppRequest) (self : FirewallFilter Rx Tz α σ) (state : σ) :
    Prop :=
  ∃ answer, (self.call texts lossy clock request state).1 = .inner answer

variable {texts lossy} {clock : Clock} {request : SmppRequest} {self : FirewallFilter Rx Tz α σ} {state : σ}

namespace FirewallFilter

/-- **A submit_sm**: the firewall is asked, and what it does not allow is rejected. -/
theorem call_submit {sm : Gateway.SubmitSm} (hpdu : request.pdu = .submitSm sm) :
    self.call texts lossy clock request state =
      if (self.firewall.check texts clock (messageContext lossy sm)).1.allowed then
        (.inner (self.inner request state).1,
          { self with firewall := (self.firewall.check texts clock (messageContext lossy sm)).2 },
          (self.inner request state).2)
      else
        (.reject request.sequence
            ((self.firewall.check texts clock (messageContext lossy sm)).1.status.getD .invalidDestAddress)
            (self.firewall.check texts clock (messageContext lossy sm)).1.matchedRule,
          { self with firewall := (self.firewall.check texts clock (messageContext lossy sm)).2 }, state) := by
  rw [call, hpdu]

/-- A submit_sm is forwarded when the firewall allows it for the client with the empty name. -/
theorem forwards_submit_iff {sm : Gateway.SubmitSm} (hpdu : request.pdu = .submitSm sm) :
    self.Forwards texts lossy clock request state ↔
      (self.firewall.check texts clock (messageContext lossy sm)).1.allowed = true := by
  unfold Forwards
  rw [call_submit hpdu]
  split
  · rename_i hallowed
    exact iff_of_true ⟨_, rfl⟩ hallowed
  · rename_i hblocked
    exact iff_of_false nofun hblocked

/-- **The metadata make no difference**: of whoever a submit_sm is, it is forwarded or not. -/
theorem call_blind {sm : Gateway.SubmitSm} (sequence sequence' : UInt32) (metadata metadata' : RequestMeta) :
    self.Forwards texts lossy clock ⟨.submitSm sm, sequence, metadata⟩ state ↔
      self.Forwards texts lossy clock ⟨.submitSm sm, sequence', metadata'⟩ state := by
  rw [forwards_submit_iff rfl, forwards_submit_iff rfl]

end FirewallFilter

end Filter

/-! ## What the decision depends on -/

namespace Firewall

variable {fw : Firewall Rx Tz} {ctx : MessageContext}

/-- The rules that are asked about a message and match, those of its client first. -/
def hitsFor (fw : Firewall Rx Tz) (texts : Texts Rx Tz) (clock : Clock) (ctx : MessageContext) :
    List (FirewallRule Rx Tz) :=
  hitsOf texts clock ctx (fun _ => true) (((fw.getEsmeSettings ctx.systemId).map fun s => s.rules).getD []) ++
    hitsOf texts clock ctx (FirewallRule.appliesTo ctx.systemId) fw.rules

/-- What is configured for the client lets the message through: its lists pass it, and the first decisive rule that
    matches, or else the default action, allows it. -/
structure LetsThrough (fw : Firewall Rx Tz) (texts : Texts Rx Tz) (clock : Clock) (ctx : MessageContext) : Prop where
  lists : ∀ settings ∈ fw.getEsmeSettings ctx.systemId, settings.checkLists ctx = none
  rules : ((((fw.hitsFor texts clock ctx).findSome? FirewallRule.verdict).map Verdict.result).getD
    (defaultResult fw.config.defaultAction)).allowed = true

/-- Whatever is found, it blocks. -/
def OnlyBlocks (found : Option FirewallResult) : Prop := ∀ result, found = some result → result.allowed = false

theorem onlyBlocks_blockIf (hit : Bool) (rule : String) (status : Status) : OnlyBlocks (blockIf hit rule status) := by
  intro result h
  rw [blockIf] at h
  split at h
  · obtain rfl := Option.some.inj h
    rfl
  · cases h

theorem OnlyBlocks.orElse {first rest : Option FirewallResult} (hfirst : OnlyBlocks first) (hrest : OnlyBlocks rest) :
    OnlyBlocks (first <|> rest) := by
  intro result h
  cases first with
  | some r => exact hfirst result h
  | none => exact hrest result h

theorem onlyBlocks_checkMessage : OnlyBlocks (fw.checkMessage ctx) :=
  (onlyBlocks_blockIf _ _ _).orElse <| (onlyBlocks_blockIf _ _ _).orElse <| (onlyBlocks_blockIf _ _ _).orElse <|
    (onlyBlocks_blockIf _ _ _).orElse <| (onlyBlocks_blockIf _ _ _).orElse (onlyBlocks_blockIf _ _ _)

theorem onlyBlocks_checkLists (settings : EsmeFirewallSettings Rx Tz) : OnlyBlocks (settings.checkLists ctx) := by
  rw [settings.checkLists_eq]
  exact fun result => allowed_of_firstHit

/-- What `check` finds when the message passes the checks of the message itself and the lists of its client. -/
theorem find_of_passed (texts : Texts Rx Tz) (clock : Clock) (hmessage : fw.checkMessage ctx = none)
    (hlists : ((fw.getEsmeSettings ctx.systemId).bind fun s => s.checkLists ctx) = none) :
    (fw.find texts clock ctx).1 =
      (((fw.hitsFor texts clock ctx).findSome? FirewallRule.verdict).map Verdict.result).getD
        (defaultResult fw.config.defaultAction) := by
  rw [find, hmessage]
  simp only [hlists, applyEsmeRules, applyGlobalRules, applyRules_eq, hitsFor, List.findSome?_append]
  cases (hitsOf texts clock ctx (fun _ => true)
      (((fw.getEsmeSettings ctx.systemId).map fun s => s.rules).getD [])).findSome? FirewallRule.verdict with
  | some v => rfl
  | none =>
    cases (hitsOf texts clock ctx (FirewallRule.appliesTo ctx.systemId) fw.rules).findSome? FirewallRule.verdict with
    | some v => rfl
    | none => rfl

/-- **A message is allowed** when the firewall is disabled, or the message passes the checks of the message itself and
    what is configured for its client lets it through. -/
theorem check_allowed_iff (texts : Texts Rx Tz) (clock : Clock) :
    (fw.check texts clock ctx).1.allowed = true ↔
      fw.config.enabled = false ∨ (fw.checkMessage ctx = none ∧ fw.LetsThrough texts clock ctx) := by
  rw [check]
  cases fw.config.enabled with
  | false => exact iff_of_true rfl (Or.inl rfl)
  | true =>
    show (fw.find texts clock ctx).1.allowed = true ↔ _
    rw [or_iff_right Bool.true_eq_false.mp]
    cases hmessage : fw.checkMessage ctx with
    | some result =>
      have hfound : (fw.find texts clock ctx).1 = result := by rw [find, hmessage]
      rw [hfound, onlyBlocks_checkMessage result hmessage]
      exact iff_of_false Bool.false_ne_true fun h => Option.some_ne_none result h.1
    | none =>
      rw [and_iff_right rfl]
      cases hlists : (fw.getEsmeSettings ctx.systemId).bind fun s => s.checkLists ctx with
      | some result =>
        obtain ⟨settings, hsettings, hresult⟩ := Option.bind_eq_some_iff.mp hlists
        have hfound : (fw.find texts clock ctx).1 = result := by
          rw [find, hmessage]
          simp only [hlists]
        rw [hfound, onlyBlocks_checkLists settings result hresult]
        refine iff_of_false Bool.false_ne_true fun h => ?_
        rw [h.lists settings hsettings] at hresult
        cases hresult
      | none =>
        rw [find_of_passed texts clock hmessage hlists]
        refine ⟨fun h => ⟨fun settings hsettings => ?_, h⟩, fun h => h.rules⟩
        rw [Option.mem_def.mp hsettings] at hlists
        exact hlists

end Firewall

/-! ## Whose settings -/

namespace FirewallFilter

variable {texts : Texts Rx Tz} {lossy : List UInt8 → String} {self : FirewallFilter Rx Tz α σ} {request : SmppRequest}
  {sm : Gateway.SubmitSm} {systemId : String}

/-- **The restrictions of a client reach the filter** exactly when the firewall is disabled, or the message is blocked
    whoever sends it, or what is configured for the client with the empty name and what is configured for the client
    say the same of it. -/
theorem restrictions_reach_iff (hpdu : request.pdu = .submitSm sm) (hbound : request.metadata.systemId = some systemId)
    (clock : Clock) (state : σ) :
    (self.Forwards texts lossy clock request state ↔
        (self.firewall.check texts clock { messageContext lossy sm with systemId := systemId }).1.allowed = true) ↔
      self.firewall.config.enabled = false ∨ self.firewall.checkMessage (messageContext lossy sm) ≠ none ∨
        (self.firewall.LetsThrough texts clock (messageContext lossy sm) ↔
          self.firewall.LetsThrough texts clock { messageContext lossy sm with systemId := systemId }) := by
  -- the checks of the message itself do not ask whose it is
  have hsame : self.firewall.checkMessage { messageContext lossy sm with systemId := systemId } =
      self.firewall.checkMessage (messageContext lossy sm) := rfl
  rw [forwards_submit_iff hpdu, Firewall.check_allowed_iff, Firewall.check_allowed_iff, hsame]
  by_cases hdisabled : self.firewall.config.enabled = false
  · exact iff_of_true (iff_of_true (Or.inl hdisabled) (Or.inl hdisabled)) (Or.inl hdisabled)
  · rw [or_iff_right hdisabled, or_iff_right hdisabled, or_iff_right hdisabled]
    by_cases hmessage : self.firewall.checkMessage (messageContext lossy sm) = none
    · rw [and_iff_right hmessage, and_iff_right hmessage, or_iff_right (not_not_intro hmessage)]
    · exact iff_of_true (iff_of_false (fun h => hmessage h.1) fun h => hmessage h.1) (Or.inl hmessage)

/-- A request of the client `esme1`. -/
def submitOfEsme1 : SmppRequest :=
  ⟨.submitSm { sourceAddr := "SENDER", destAddr := "258841234567", shortMessage := [] }, 1,
    { systemId := some "esme1" }⟩

/-- A firewall in front of a service that accepts everything. -/
def before (firewall : Firewall Empty Unit) : FirewallFilter Empty Unit Unit Unit := ⟨fun _ state => ((), state), firewall⟩

/-- Where nothing is configured for any client, the filter decides as it should. -/
theorem restrictions_reach_nobody :
    (before (.new {})).Forwards Texts.bare (fun _ => "") ⟨0, 0⟩ submitOfEsme1 () ↔
      ((Firewall.new {} : Firewall Empty Unit).check Texts.bare ⟨0, 0⟩
        { messageContext (fun _ => "") { sourceAddr := "SENDER", destAddr := "258841234567", shortMessage := [] } with
          systemId := "esme1" }).1.allowed = true := by
  refine (restrictions_reach_iff rfl rfl ⟨0, 0⟩ ()).mpr (Or.inr (Or.inr ?_))
  refine iff_of_true ⟨fun settings hsettings => ?_, by decide⟩ ⟨fun settings hsettings => ?_, by decide⟩
  · cases hsettings
  · cases hsettings

/-- The number is denied to `esme1`. -/
def denying : Firewall Empty Unit :=
  (Firewall.new {}).setEsmeSettings "esme1" { destinationDenyList := ["258841234567"] }

/-- **Denied, and forwarded**: the deny list of the client is not looked at. -/
theorem denied_and_forwarded :
    ¬ ((before denying).Forwards Texts.bare (fun _ => "") ⟨0, 0⟩ submitOfEsme1 () ↔
      (denying.check Texts.bare ⟨0, 0⟩
        { messageContext (fun _ => "") { sourceAddr := "SENDER", destAddr := "258841234567", shortMessage := [] } with
          systemId := "esme1" }).1.allowed = true) := by
  intro h
  exact absurd (h.mp ⟨(), rfl⟩) (by decide)

end FirewallFilter

end Smppd.Filter

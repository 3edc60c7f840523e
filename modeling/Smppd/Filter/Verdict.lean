/-
  THE VERDICT that a message deserves, and whether the firewall gives it.

  `reference` is the procedure on paper.  The barriers come first: what the configuration says about the message
  itself, then the lists of the client.  Then the rules that are enabled and meant for the client, its own in
  the order of their list, those for everyone in descending priority and, where that is equal, in the order in
  which they were added; the first that matches and has a decisive action decides.  Then the default action.
  What the firewall was told is a list of `FirewallCall`s, and the reference reads nothing else.

  `check` follows the procedure to the end of the rules (`check_eq_reference_iff`), and on the way it logs what
  it should: its events come behind those of before, and of them all the log keeps the last.  But the DEFAULT ACTION is looked at for Allow and Block only, although a rule with the action
  Quarantine or Modify is honoured: a firewall that quarantines by default lets everything through.
-/
import Smppd.Lib.Rank
import Smppd.Lib.Recent
import Smppd.Filter.Firewall

set_option linter.unusedVariables false

namespace Smppd.Filter

open Smppd.Store Table

variable {Rx Tz : Type}

/-! ## The procedure -/

/-- What becomes of a message. -/
inductive Verdict where
  | allow
  | block (rule : String) (status : Status)
  /-- Held back, by a rule or by default. -/
  | quarantine (rule : Option String)
  /-- Let through to be modified, by a rule or by default. -/
  | modify (rule : Option String)
  deriving DecidableEq

/-- How a verdict is reported. -/
def Verdict.result : Verdict → FirewallResult
  | .allow => ⟨true, .allow, none, none⟩
  | .block rule status => ⟨false, .block status, some rule, some status⟩
  | .quarantine rule => ⟨false, .quarantine, rule, some .systemError⟩
  | .modify rule => ⟨true, .modify, rule, none⟩

/-- The type of the event that tells of a verdict. -/
def Verdict.eventType : Verdict → FirewallEventType
  | .allow => .allowed
  | .block _ _ => .blocked
  | .quarantine _ => .quarantined
  | .modify _ => .allowed

theorem Verdict.eventType_result (v : Verdict) : v.result.eventType = v.eventType := by
  cases v <;> rfl

theorem Verdict.result_injective : Function.Injective Verdict.result := by
  intro v w h
  cases v <;> cases w <;> simp_all [Verdict.result]

/-- A check that can only block. -/
structure Barrier where
  hit : Bool
  rule : String
  status : Status

/-- What the configuration says about the message itself. -/
def FirewallConfig.barriers (config : FirewallConfig) (ctx : MessageContext) : List Barrier :=
  [⟨∃ max ∈ config.maxMessageLength, max < ctx.content.utf8ByteSize, "message_too_long", .invalidMessageLength⟩,
    ⟨∃ min ∈ config.minMessageLength, ctx.content.utf8ByteSize < min, "message_too_short", .invalidMessageLength⟩,
    ⟨∃ allowed ∈ config.allowedDataCoding, ∃ dcs ∈ ctx.protocol.dataCoding, dcs ∉ allowed,
      "data_coding_not_allowed", .invalidDestAddress⟩,
    ⟨∃ esm ∈ ctx.protocol.esmClass, esm ∈ config.deniedEsmClass, "esm_class_denied", .invalidDestAddress⟩,
    ⟨config.blockPremiumRate = true ∧ ∃ pre ∈ premiumPrefixes, pre.toList <+: ctx.destination.toList,
      "premium_rate_blocked", .invalidDestAddress⟩,
    ⟨config.blockInternational = true ∧ ['+'] <+: ctx.destination.toList ∧
        countryCode ctx.destination ∉ config.allowedInternational,
      "international_blocked", .invalidDestAddress⟩]

/-- What the lists of the client say. -/
def EsmeFirewallSettings.barriers (settings : EsmeFirewallSettings Rx Tz) (ctx : MessageContext) : List Barrier :=
  [⟨∃ list ∈ settings.destinationAllowList, ctx.destination ∉ list, "destination_not_in_allow_list",
      .invalidDestAddress⟩,
    ⟨ctx.destination ∈ settings.destinationDenyList, "destination_in_deny_list", .invalidDestAddress⟩,
    ⟨∃ list ∈ settings.sourceAllowList, ctx.source ∉ list, "source_not_in_allow_list", .invalidSourceAddress⟩,
    ⟨ctx.source ∈ settings.sourceDenyList, "source_in_deny_list", .invalidSourceAddress⟩,
    ⟨∃ list ∈ settings.senderAllowList, ctx.senderId ∉ list, "sender_not_in_allow_list", .invalidSourceAddress⟩,
    ⟨ctx.senderId ∈ settings.senderDenyList, "sender_in_deny_list", .invalidSourceAddress⟩]

/-- The verdict of a rule that matches; a Log or an Alarm is never decisive. -/
def FirewallRule.verdict (rule : FirewallRule Rx Tz) : Option Verdict :=
  match rule.action with
  | .allow => some .allow
  | .block status => some (.block rule.name status)
  | .log => none
  | .alarm => none
  | .quarantine => some (.quarantine (some rule.name))
  | .modify => some (.modify (some rule.name))

/-- The verdict on a message that nothing else decides: what the action says. -/
def FirewallAction.byDefault : FirewallAction → Verdict
  | .allow => .allow
  | .block status => .block "default_block" status
  | .log => .allow
  | .alarm => .allow
  | .quarantine => .quarantine none
  | .modify => .modify none

/-- In descending priority; of equal priority, in the order of the list. -/
def byPriority (rules : List (FirewallRule Rx Tz)) : List (FirewallRule Rx Tz) :=
  rules.insertionSort fun a b => b.priority ≤ a.priority

/-- The order of priority: nothing is lost, a higher priority comes first, and of two rules the one that was in
    front of another of no higher priority still is. -/
theorem byPriority_spec (rules : List (FirewallRule Rx Tz)) :
    (byPriority rules).Perm rules ∧ (byPriority rules).Pairwise (fun a b => b.priority ≤ a.priority) ∧
      ∀ a b, [a, b].Sublist rules → b.priority ≤ a.priority → [a, b].Sublist (byPriority rules) := by
  exact ⟨List.perm_insertionSort _ rules, List.pairwise_insertionSort _ rules,
    fun a b hsub hle => List.pair_sublist_insertionSort hle hsub⟩

/-- Of the rules that match, the Alarm rules before the first decisive one. -/
def alarmsBefore (hits : List (FirewallRule Rx Tz)) : List (FirewallRule Rx Tz) :=
  (hits.takeWhile fun rule => rule.verdict.isNone).filter fun rule => rule.action = .alarm

/-- What a firewall was told. -/
structure Told (Rx Tz : Type) where
  config : FirewallConfig
  /-- The rules for everyone, in the order in which they were added. -/
  added : List (FirewallRule Rx Tz)
  /-- The settings of the client in question. -/
  settings : Option (EsmeFirewallSettings Rx Tz)

namespace Told

variable (told : Told Rx Tz) (texts : Texts Rx Tz) (clock : Clock) (ctx : MessageContext)

/-- Everything that can block a message before the rules are asked. -/
def barriers : List Barrier :=
  told.config.barriers ctx ++ (told.settings.map fun s => s.barriers ctx).getD []

/-- The rules that are asked about a message, in order. -/
def candidates : List (FirewallRule Rx Tz) :=
  ((told.settings.map fun s => s.rules).getD []).filter (fun rule => rule.enabled) ++
    (byPriority told.added).filter fun rule => rule.enabled && rule.appliesTo ctx.systemId

/-- Those that match. -/
def hits : List (FirewallRule Rx Tz) :=
  (told.candidates ctx).filter fun rule => rule.ruleType.matches texts clock ctx

/-- The verdict on a message. -/
def reference : Verdict :=
  match (told.barriers ctx).find? fun b => b.hit with
  | some b => .block b.rule b.status
  | none => ((told.hits texts clock ctx).findSome? FirewallRule.verdict).getD told.config.defaultAction.byDefault

/-- The Alarm rules that match before a decisive rule does; a message that is blocked meets none. -/
def alarms : List (FirewallRule Rx Tz) :=
  if (told.barriers ctx).any fun b => b.hit then [] else alarmsBefore (told.hits texts clock ctx)

end Told

/-- The event of an Alarm rule that matches. -/
def alarmEvent (clock : Clock) (ctx : MessageContext) (rule : FirewallRule Rx Tz) : FirewallEvent :=
  .of clock ctx .alarm (some rule.name) .alarm

/-- The event that tells of a verdict. -/
def Verdict.event (v : Verdict) (clock : Clock) (ctx : MessageContext) : FirewallEvent :=
  .of clock ctx v.eventType v.result.matchedRule v.result.action

/-- The events of a check: one for each Alarm rule that comes before the verdict, and one for the verdict. -/
def Told.events (told : Told Rx Tz) (texts : Texts Rx Tz) (clock : Clock) (ctx : MessageContext) :
    List FirewallEvent :=
  (told.alarms texts clock ctx).map (alarmEvent clock ctx) ++ [(told.reference texts clock ctx).event clock ctx]

/-- The event of a result. -/
def resultEvent (clock : Clock) (ctx : MessageContext) (result : FirewallResult) : FirewallEvent :=
  .of clock ctx result.eventType result.matchedRule result.action

/-- Log events one after the other. -/
def FirewallEventLog.logAll (self : FirewallEventLog) (events : List FirewallEvent) : FirewallEventLog :=
  events.foldl FirewallEventLog.log self

/-! ## What a firewall was told -/

/-- A call on a firewall. -/
inductive FirewallCall (Rx Tz : Type) where
  | addRule (rule : FirewallRule Rx Tz)
  | withRules (rules : List (FirewallRule Rx Tz))
  | setEsmeSettings (esmeId : String) (settings : EsmeFirewallSettings Rx Tz)
  | check (clock : Clock) (ctx : MessageContext)

namespace FirewallCall

/-- What the call does to the firewall. -/
def apply (texts : Texts Rx Tz) (fw : Firewall Rx Tz) : FirewallCall Rx Tz → Firewall Rx Tz
  | .addRule rule => fw.addRule rule
  | .withRules rules => fw.withRules rules
  | .setEsmeSettings esmeId settings => fw.setEsmeSettings esmeId settings
  | .check clock ctx => (fw.check texts clock ctx).2

/-- The rules that the call adds. -/
def added : FirewallCall Rx Tz → List (FirewallRule Rx Tz)
  | .addRule rule => [rule]
  | .withRules rules => rules
  | _ => []

/-- The settings that the call gives a client. -/
def settingsFor (id : String) : FirewallCall Rx Tz → Option (EsmeFirewallSettings Rx Tz)
  | .setEsmeSettings esmeId settings => if esmeId = id then some settings else none
  | _ => none

/-- What the calls told a new firewall about a client: the settings that were set last. -/
def told (config : FirewallConfig) (calls : List (FirewallCall Rx Tz)) (id : String) : Told Rx Tz where
  config := config
  added := calls.flatMap added
  settings := calls.reverse.findSome? (settingsFor id)

/-- A new firewall after the calls. -/
def run (texts : Texts Rx Tz) (config : FirewallConfig) (calls : List (FirewallCall Rx Tz)) : Firewall Rx Tz :=
  calls.foldl (apply texts) (.new config)

end FirewallCall

/-- The firewall knows what it was told, and its log does not overflow. -/
structure Firewall.Knows (fw : Firewall Rx Tz) (told : String → Told Rx Tz) : Prop where
  config : ∀ id, (told id).config = fw.config
  rules : ∀ id, byPriority (told id).added = fw.rules
  premium : fw.premiumPrefixes = Filter.premiumPrefixes
  settings : ∀ id, (told id).settings = fw.getEsmeSettings id
  maxEvents : fw.eventLog.maxEvents = fw.config.maxLogEvents
  bounded : fw.eventLog.events.length ≤ max 1 fw.config.maxLogEvents

/-! ## The log -/

/-- The log is a ring. -/
theorem FirewallEventLog.log_events (self : FirewallEventLog) (event : FirewallEvent) :
    (self.log event).events = Recent.push (Recent.ring self.maxEvents) self.events event := by
  simp only [log, Recent.push, Recent.ring]
  split
  · rw [List.drop_one]
  · rw [List.drop_zero]

theorem FirewallEventLog.logAll_append (self : FirewallEventLog) (events more : List FirewallEvent) :
    self.logAll (events ++ more) = (self.logAll events).logAll more := List.foldl_append

@[simp] theorem FirewallEventLog.logAll_maxEvents (self : FirewallEventLog) (events : List FirewallEvent) :
    (self.logAll events).maxEvents = self.maxEvents := by
  induction events generalizing self with
  | nil => rfl
  | cons event events ih => exact ih (self.log event)

/-- **What the log holds** after some events more: the last of all that was logged, as many as it may keep. -/
theorem FirewallEventLog.logAll_events {self : FirewallEventLog}
    (h : self.events.length ≤ max 1 self.maxEvents) (events : List FirewallEvent) :
    (self.logAll events).events = (self.events ++ events).rtake (max 1 self.maxEvents) := by
  rw [← Recent.foldl_push_ring h]
  clear h
  induction events generalizing self with
  | nil => rfl
  | cons event events ih =>
    rw [List.foldl_cons, ← log_events]
    exact ih

/-! ## The barriers -/

/-- The result at the first barrier that is hit. -/
def firstHit (bs : List Barrier) : Option FirewallResult :=
  (bs.find? fun b => b.hit).map fun b => .blocked b.rule b.status

/-- One `return` more in front is one barrier more in front. -/
theorem blockIf_orElse {hit hit' : Bool} {rule : String} {status : Status} {rest : Option FirewallResult}
    {bs : List Barrier} (hhit : hit = true ↔ hit' = true) (hrest : rest = firstHit bs) :
    (blockIf hit rule status <|> rest) = firstHit (⟨hit', rule, status⟩ :: bs) := by
  obtain rfl := Bool.eq_iff_iff.mpr hhit
  rw [hrest, firstHit, firstHit, List.find?_cons, blockIf]
  cases hit <;> rfl

/-- The last of them. -/
theorem blockIf_eq {hit hit' : Bool} {rule : String} {status : Status} (hhit : hit = true ↔ hit' = true) :
    blockIf hit rule status = firstHit [⟨hit', rule, status⟩] := by
  obtain rfl := Bool.eq_iff_iff.mpr hhit
  rw [firstHit, List.find?_cons, blockIf]
  cases hit <;> rfl

theorem firstHit_append (bs more : List Barrier) : firstHit (bs ++ more) = (firstHit bs <|> firstHit more) := by
  rw [firstHit, firstHit, firstHit, List.find?_append]
  cases bs.find? fun b => b.hit <;> rfl

/-- A barrier is hit. -/
theorem firstHit_isSome {bs : List Barrier} : (firstHit bs).isSome = true ↔ ∃ b ∈ bs, b.hit = true := by
  rw [firstHit, Option.isSome_map, List.find?_isSome]

/-- A barrier that is hit blocks. -/
theorem allowed_of_firstHit {bs : List Barrier} {result : FirewallResult} (h : firstHit bs = some result) :
    result.allowed = false := by
  obtain ⟨b, -, rfl⟩ := Option.map_eq_some_iff.mp h
  rfl

/-- The checks of the message itself are the barriers of the configuration. -/
theorem Firewall.checkMessage_eq {fw : Firewall Rx Tz} (hpremium : fw.premiumPrefixes = Filter.premiumPrefixes)
    (ctx : MessageContext) : fw.checkMessage ctx = firstHit (fw.config.barriers ctx) := by
  rw [Firewall.checkMessage, FirewallConfig.barriers, hpremium]
  refine blockIf_orElse ?_ (blockIf_orElse ?_ (blockIf_orElse ?_ (blockIf_orElse ?_ (blockIf_orElse ?_
    (blockIf_eq ?_)))))
  · simp [Option.any_eq_true]
  · simp [Option.any_eq_true]
  · simp [Option.any_eq_true]
  · simp [Option.any_eq_true]
  · simp
  · simp [and_assoc]

/-- The checks of the lists of a client are the barriers of its settings. -/
theorem EsmeFirewallSettings.checkLists_eq (settings : EsmeFirewallSettings Rx Tz) (ctx : MessageContext) :
    settings.checkLists ctx = firstHit (settings.barriers ctx) := by
  rw [EsmeFirewallSettings.checkLists, EsmeFirewallSettings.barriers]
  refine blockIf_orElse ?_ (blockIf_orElse ?_ (blockIf_orElse ?_ (blockIf_orElse ?_ (blockIf_orElse ?_
    (blockIf_eq ?_)))))
  all_goals simp [Option.any_eq_true]

/-! ## The rules -/

section Rules

variable (texts : Texts Rx Tz) (clock : Clock) (ctx : MessageContext)

/-- A rule that matches reports its verdict, if it has one; an Alarm is logged. -/
theorem applyRule_eq (rule : FirewallRule Rx Tz) (log : FirewallEventLog) :
    applyRule texts clock ctx rule log =
      if rule.ruleType.matches texts clock ctx then
        (rule.verdict.map Verdict.result,
          if rule.action = .alarm then log.log (alarmEvent clock ctx rule) else log)
      else (none, log) := by
  rw [applyRule, FirewallRule.verdict, alarmEvent]
  cases rule.ruleType.matches texts clock ctx with
  | false => rfl
  | true => cases haction : rule.action <;> rfl

/-- One rule more in front of those that match. -/
theorem alarmsBefore_cons (rule : FirewallRule Rx Tz) (hits : List (FirewallRule Rx Tz)) :
    alarmsBefore (rule :: hits) =
      match rule.verdict with
      | some _ => []
      | none => if rule.action = .alarm then rule :: alarmsBefore hits else alarmsBefore hits := by
  rw [alarmsBefore, List.takeWhile_cons]
  cases rule.verdict with
  | some v => rfl
  | none =>
    show ((rule :: hits.takeWhile _).filter _) = _
    rw [List.filter_cons]
    simp only [decide_eq_true_eq]
    rfl

/-- The second of two lists is asked only when the first decides nothing. -/
theorem alarmsBefore_append (hits more : List (FirewallRule Rx Tz)) :
    alarmsBefore (hits ++ more) =
      match hits.findSome? FirewallRule.verdict with
      | some _ => alarmsBefore hits
      | none => alarmsBefore hits ++ alarmsBefore more := by
  induction hits with
  | nil => rfl
  | cons rule hits ih =>
    rw [List.cons_append, alarmsBefore_cons, alarmsBefore_cons, List.findSome?_cons, ih]
    cases rule.verdict with
    | some v => rfl
    | none =>
      cases hits.findSome? FirewallRule.verdict with
      | some v => rfl
      | none =>
        show (if rule.action = .alarm then rule :: (alarmsBefore hits ++ alarmsBefore more)
          else alarmsBefore hits ++ alarmsBefore more) =
            (if rule.action = .alarm then rule :: alarmsBefore hits else alarmsBefore hits) ++ alarmsBefore more
        split
        · rfl
        · rfl

/-- The rules of a list that are enabled, apply and match. -/
def hitsOf (applies : FirewallRule Rx Tz → Bool) (rules : List (FirewallRule Rx Tz)) : List (FirewallRule Rx Tz) :=
  (rules.filter fun rule => rule.enabled && applies rule).filter fun rule => rule.ruleType.matches texts clock ctx

theorem hitsOf_cons (applies : FirewallRule Rx Tz → Bool) (rule : FirewallRule Rx Tz)
    (rules : List (FirewallRule Rx Tz)) :
    hitsOf texts clock ctx applies (rule :: rules) =
      if rule.enabled && applies rule && rule.ruleType.matches texts clock ctx then
        rule :: hitsOf texts clock ctx applies rules
      else hitsOf texts clock ctx applies rules := by
  rw [hitsOf, List.filter_cons]
  by_cases hasked : (rule.enabled && applies rule) = true
  · rw [if_pos hasked, List.filter_cons, hasked, Bool.true_and]
    rfl
  · rw [if_neg hasked, Bool.eq_false_of_not_eq_true hasked]
    rfl

/-- **A loop over rules** returns the verdict of the first decisive one that matches, and logs the alarms
    before it. -/
theorem applyRules_eq (applies : FirewallRule Rx Tz → Bool) (rules : List (FirewallRule Rx Tz))
    (log : FirewallEventLog) :
    applyRules texts clock ctx applies rules log =
      (((hitsOf texts clock ctx applies rules).findSome? FirewallRule.verdict).map Verdict.result,
        log.logAll ((alarmsBefore (hitsOf texts clock ctx applies rules)).map (alarmEvent clock ctx))) := by
  induction rules generalizing log with
  | nil => rfl
  | cons rule rules ih =>
    rw [applyRules, hitsOf_cons, applyRule_eq]
    cases rule.enabled with
    | false => exact ih log
    | true =>
      cases applies rule with
      | false => exact ih log
      | true =>
        cases rule.ruleType.matches texts clock ctx with
        | false => exact ih log
        | true =>
          simp only [Bool.not_true, Bool.false_eq_true, if_false, Bool.and_true, if_true]
          rw [List.findSome?_cons, alarmsBefore_cons]
          cases hverdict : rule.verdict with
          | some v =>
            -- a decisive rule is no Alarm
            have hquiet : rule.action ≠ .alarm := by
              intro halarm
              rw [FirewallRule.verdict, halarm] at hverdict
              cases hverdict
            rw [if_neg hquiet]
            rfl
          | none =>
            show applyRules texts clock ctx applies rules _ = _
            rw [ih]
            by_cases halarm : rule.action = .alarm
            · simp only [if_pos halarm]
              rfl
            · simp only [if_neg halarm]

end Rules

/-! ## One check -/

namespace Told

variable (told : Told Rx Tz) (texts : Texts Rx Tz) (clock : Clock) (ctx : MessageContext)

theorem hits_eq :
    told.hits texts clock ctx =
      hitsOf texts clock ctx (fun _ => true) ((told.settings.map fun s => s.rules).getD []) ++
        hitsOf texts clock ctx (FirewallRule.appliesTo ctx.systemId) (byPriority told.added) := by
  rw [hits, candidates, List.filter_append, hitsOf, hitsOf]
  simp only [Bool.and_true]

/-- What is found before the default action is looked at. -/
def found : Option FirewallResult :=
  firstHit (told.barriers ctx) <|>
    ((told.hits texts clock ctx).findSome? FirewallRule.verdict).map Verdict.result

theorem reference_result :
    (told.reference texts clock ctx).result =
      (told.found texts clock ctx).getD told.config.defaultAction.byDefault.result := by
  rw [reference, found, firstHit]
  cases (told.barriers ctx).find? fun b => b.hit with
  | some b => rfl
  | none =>
    cases (told.hits texts clock ctx).findSome? FirewallRule.verdict with
    | some v => rfl
    | none => rfl

/-- Something decides: a barrier is hit, or a rule that matches has a decisive action. -/
theorem found_isSome :
    (told.found texts clock ctx).isSome = true ↔
      (∃ b ∈ told.barriers ctx, b.hit = true) ∨
        ∃ rule ∈ told.hits texts clock ctx, rule.verdict.isSome = true := by
  rw [← firstHit_isSome, ← List.findSome?_isSome_iff, found]
  cases firstHit (told.barriers ctx) with
  | some result => exact iff_of_true rfl (Or.inl rfl)
  | none =>
    show (Option.map Verdict.result _).isSome = true ↔ _
    rw [Option.isSome_map]
    exact ⟨Or.inr, fun h => h.resolve_left nofun⟩

/-- A client without settings has no barriers of its own. -/
theorem firstHit_settings (settings : Option (EsmeFirewallSettings Rx Tz)) :
    (settings.bind fun s => s.checkLists ctx) = firstHit ((settings.map fun s => s.barriers ctx).getD []) := by
  cases settings with
  | none => rfl
  | some s => exact s.checkLists_eq ctx

theorem alarms_of_blocked {result : FirewallResult} (h : firstHit (told.barriers ctx) = some result) :
    told.alarms texts clock ctx = [] := by
  have hhit : ∃ b ∈ told.barriers ctx, b.hit = true := firstHit_isSome.mp (Option.isSome_of_eq_some h)
  rw [alarms, if_pos (List.any_eq_true.mpr hhit)]

theorem alarms_of_passed (h : firstHit (told.barriers ctx) = none) :
    told.alarms texts clock ctx = alarmsBefore (told.hits texts clock ctx) := by
  rw [alarms, if_neg]
  intro hany
  have hsome := firstHit_isSome.mpr (List.any_eq_true.mp hany)
  rw [h] at hsome
  exact nomatch hsome

end Told

/-- **What `check` finds**: the procedure, but for its last step. -/
theorem Firewall.find_eq {fw : Firewall Rx Tz} {told : String → Told Rx Tz} (h : fw.Knows told)
    (texts : Texts Rx Tz) (clock : Clock) (ctx : MessageContext) :
    fw.find texts clock ctx =
      (((told ctx.systemId).found texts clock ctx).getD (defaultResult fw.config.defaultAction),
        fw.eventLog.logAll (((told ctx.systemId).alarms texts clock ctx).map (alarmEvent clock ctx))) := by
  have hbarriers : firstHit ((told ctx.systemId).barriers ctx) =
      (fw.checkMessage ctx <|> (fw.getEsmeSettings ctx.systemId).bind fun s => s.checkLists ctx) := by
    rw [Told.barriers, firstHit_append, Told.firstHit_settings, fw.checkMessage_eq h.premium, h.config, h.settings]
  rw [Firewall.find]
  cases hmessage : fw.checkMessage ctx with
  | some result =>
    rw [hmessage] at hbarriers
    rw [Told.alarms_of_blocked _ _ _ _ hbarriers, Told.found, hbarriers]
    rfl
  | none =>
    cases hlists : (fw.getEsmeSettings ctx.systemId).bind fun s => s.checkLists ctx with
    | some result =>
      rw [hmessage, hlists] at hbarriers
      rw [Told.alarms_of_blocked _ _ _ _ hbarriers, Told.found, hbarriers]
      simp only [hlists]
      rfl
    | none =>
      rw [hmessage, hlists] at hbarriers
      rw [Told.alarms_of_passed _ _ _ _ hbarriers, Told.found, hbarriers, Told.hits_eq, alarmsBefore_append,
        List.findSome?_append, h.settings, h.rules]
      simp only [hlists, applyEsmeRules, applyGlobalRules, applyRules_eq]
      -- the rules of the client come first
      cases (hitsOf texts clock ctx (fun _ => true)
        (((fw.getEsmeSettings ctx.systemId).map fun s => s.rules).getD [])).findSome? FirewallRule.verdict with
      | some v => rfl
      | none =>
        simp only [List.map_append, FirewallEventLog.logAll_append]
        cases (hitsOf texts clock ctx (FirewallRule.appliesTo ctx.systemId) fw.rules).findSome?
          FirewallRule.verdict with
        | some v => rfl
        | none => rfl

/-- What its log holds after some events more. -/
theorem Firewall.Knows.logAll_events {fw : Firewall Rx Tz} {told : String → Told Rx Tz} (h : fw.Knows told)
    (events : List FirewallEvent) :
    (fw.eventLog.logAll events).events = (fw.eventLog.events ++ events).rtake (max 1 fw.config.maxLogEvents) := by
  have hbounded := h.bounded
  rw [← h.maxEvents] at hbounded ⊢
  exact FirewallEventLog.logAll_events hbounded events

/-- The events that a check logs for a message with a result. -/
def Told.eventsOf (told : Told Rx Tz) (texts : Texts Rx Tz) (clock : Clock) (ctx : MessageContext)
    (result : FirewallResult) : List FirewallEvent :=
  (told.alarms texts clock ctx).map (alarmEvent clock ctx) ++ [resultEvent clock ctx result]

/-- For the verdict that the message deserves they are those expected. -/
theorem Told.events_eq (told : Told Rx Tz) (texts : Texts Rx Tz) (clock : Clock) (ctx : MessageContext) :
    told.events texts clock ctx = told.eventsOf texts clock ctx (told.reference texts clock ctx).result := by
  rw [events, eventsOf, resultEvent, Verdict.eventType_result, Verdict.event]

/-- A check of an enabled firewall logs its alarms and its result, and changes nothing else. -/
theorem Firewall.check_eq {fw : Firewall Rx Tz} {told : String → Told Rx Tz} (h : fw.Knows told)
    (henabled : fw.config.enabled = true) (texts : Texts Rx Tz) (clock : Clock) (ctx : MessageContext) :
    fw.check texts clock ctx =
      (((told ctx.systemId).found texts clock ctx).getD (defaultResult fw.config.defaultAction),
        { fw with
          eventLog := fw.eventLog.logAll ((told ctx.systemId).eventsOf texts clock ctx
            (((told ctx.systemId).found texts clock ctx).getD (defaultResult fw.config.defaultAction))) }) := by
  rw [Firewall.check, henabled, Firewall.find_eq h, Told.eventsOf, FirewallEventLog.logAll_append]
  rfl

/-! ## Every firewall knows what it was told -/

theorem Firewall.withRules_eq {rules : List (FirewallRule Rx Tz)} (fw : Firewall Rx Tz)
    (more : List (FirewallRule Rx Tz)) (h : fw.rules = byPriority rules) :
    fw.withRules more = { fw with rules := byPriority (rules ++ more) } := by
  induction more generalizing rules fw with
  | nil =>
    rw [List.append_nil, ← h]
    rfl
  | cons rule more ih =>
    -- sorting again after every rule is sorting once
    have hadd : (fw.addRule rule).rules = byPriority (rules ++ [rule]) := by
      show (fw.rules ++ [rule]).insertionSort _ = _
      rw [h, byPriority, Rank.insertionSort_append_insertionSort, byPriority]
    have hrest := ih (fw.addRule rule) hadd
    rw [List.append_assoc, List.singleton_append] at hrest
    exact hrest

namespace FirewallCall

variable {texts : Texts Rx Tz} {config : FirewallConfig}

theorem told_added (calls : List (FirewallCall Rx Tz)) (c : FirewallCall Rx Tz) (id : String) :
    (told config (calls ++ [c]) id).added = (told config calls id).added ++ c.added := by
  show (calls ++ [c]).flatMap added = calls.flatMap added ++ _
  rw [List.flatMap_append, List.flatMap_singleton]

theorem told_settings (calls : List (FirewallCall Rx Tz)) (c : FirewallCall Rx Tz) (id : String) :
    (told config (calls ++ [c]) id).settings = (c.settingsFor id <|> (told config calls id).settings) := by
  show (calls ++ [c]).reverse.findSome? _ = _
  rw [List.reverse_append, List.reverse_singleton, List.singleton_append, List.findSome?_cons]
  cases c.settingsFor id <;> rfl

/-- **One call more.** -/
theorem knows_apply {fw : Firewall Rx Tz} {calls : List (FirewallCall Rx Tz)}
    (h : fw.Knows (told config calls)) (c : FirewallCall Rx Tz) :
    (c.apply texts fw).Knows (told config (calls ++ [c])) := by
  have hadded (more : List (FirewallRule Rx Tz)) (id : String) :
      (fw.withRules more) = { fw with rules := byPriority ((told config calls id).added ++ more) } :=
    fw.withRules_eq more (h.rules id).symm
  have hrules (id : String) : byPriority ((told config calls id).added ++ []) = fw.rules := by
    rw [List.append_nil, h.rules]
  cases c with
  | addRule rule =>
    have hone : apply texts fw (.addRule rule) = fw.withRules [rule] := rfl
    refine ⟨h.config, fun id => ?_, h.premium, fun id => ?_, h.maxEvents, h.bounded⟩
    · rw [told_added, hone, hadded [rule] id]
      rfl
    · rw [told_settings]
      exact h.settings id
  | withRules rules =>
    have hmany : apply texts fw (.withRules rules) = fw.withRules rules := rfl
    rw [hmany, hadded rules ""]
    refine ⟨h.config, fun id => ?_, h.premium, fun id => ?_, h.maxEvents, h.bounded⟩
    · rw [told_added]
      rfl
    · rw [told_settings]
      exact h.settings id
  | setEsmeSettings esmeId settings =>
    refine ⟨h.config, fun id => ?_, h.premium, fun id => ?_, h.maxEvents, h.bounded⟩
    · rw [told_added]
      exact hrules id
    · rw [told_settings, settingsFor, h.settings]
      show _ = (fw.esmeSettings.insert esmeId settings).lookup id
      by_cases hid : esmeId = id
      · rw [if_pos hid, hid, AList.lookup_insert]
        rfl
      · rw [if_neg hid, AList.lookup_insert_ne (Ne.symm hid)]
        rfl
  | check clock ctx =>
    have hsettings (id : String) : (told config (calls ++ [.check clock ctx]) id).settings = fw.getEsmeSettings id := by
      rw [told_settings]
      exact h.settings id
    have hsorted (id : String) : byPriority (told config (calls ++ [.check clock ctx]) id).added = fw.rules := by
      rw [told_added]
      exact hrules id
    have hsame : apply texts fw (.check clock ctx) = (fw.check texts clock ctx).2 := rfl
    rw [hsame]
    cases henabled : fw.config.enabled with
    | false =>
      rw [Firewall.check, henabled]
      exact ⟨h.config, hsorted, h.premium, hsettings, h.maxEvents, h.bounded⟩
    | true =>
      rw [Firewall.check_eq h henabled]
      refine ⟨h.config, hsorted, h.premium, hsettings, ?_, ?_⟩
      · rw [FirewallEventLog.logAll_maxEvents]
        exact h.maxEvents
      · show (FirewallEventLog.logAll _ _).events.length ≤ max 1 fw.config.maxLogEvents
        rw [h.logAll_events, List.rtake, List.length_drop]
        omega

/-- **A firewall knows what it was told**, whatever the calls were. -/
theorem knows_run (calls : List (FirewallCall Rx Tz)) :
    (run texts config calls).Knows (told config calls) := by
  induction calls using List.reverseRecOn with
  | nil =>
    exact ⟨fun _ => rfl, fun _ => rfl, rfl, fun _ => rfl, rfl, Nat.zero_le _⟩
  | append_singleton calls c ih =>
    rw [run, List.foldl_append]
    exact knows_apply ih c

end FirewallCall

/-! ## The verdict is the one the message deserves -/

/-- What is expected of a check: the verdict, the events behind those of before, of which the log keeps the last
    `max_log_events` (and one if that is 0), and that a message that is hit by a barrier is blocked whatever the
    rules are. -/
structure Firewall.Deserved (fw : Firewall Rx Tz) (told : Told Rx Tz) (texts : Texts Rx Tz) (clock : Clock)
    (ctx : MessageContext) : Prop where
  verdict : (fw.check texts clock ctx).1 = (told.reference texts clock ctx).result
  events : (fw.check texts clock ctx).2.eventLog.events =
    (fw.eventLog.events ++ told.events texts clock ctx).rtake (max 1 told.config.maxLogEvents)
  barred : (∃ b ∈ told.barriers ctx, b.hit = true) → (fw.check texts clock ctx).1.allowed = false

/-- The default action does not come into it, or it is one that is honoured. -/
def Told.Honoured (told : Told Rx Tz) (texts : Texts Rx Tz) (clock : Clock) (ctx : MessageContext) : Prop :=
  (∃ b ∈ told.barriers ctx, b.hit = true) ∨ (∃ rule ∈ told.hits texts clock ctx, rule.verdict.isSome = true) ∨
    (told.config.defaultAction ≠ .quarantine ∧ told.config.defaultAction ≠ .modify)

theorem defaultResult_eq_iff (action : FirewallAction) :
    defaultResult action = action.byDefault.result ↔ action ≠ .quarantine ∧ action ≠ .modify := by
  cases action with
  | quarantine => exact iff_of_false nofun fun h => h.1 rfl
  | modify => exact iff_of_false nofun fun h => h.2 rfl
  | _ => exact iff_of_true rfl ⟨nofun, nofun⟩

/-- **The verdict of the firewall is the one the message deserves** exactly when the default action is not
    asked for something that the code does not do. -/
theorem check_eq_reference_iff (texts : Texts Rx Tz) (config : FirewallConfig) (henabled : config.enabled = true)
    (calls : List (FirewallCall Rx Tz)) (clock : Clock) (ctx : MessageContext) :
    (FirewallCall.run texts config calls).Deserved (FirewallCall.told config calls ctx.systemId) texts clock ctx ↔
      (FirewallCall.told config calls ctx.systemId).Honoured texts clock ctx := by
  have hknows : (FirewallCall.run texts config calls).Knows (FirewallCall.told config calls) :=
    FirewallCall.knows_run calls
  have hconfig : config = (FirewallCall.run texts config calls).config := hknows.config ctx.systemId
  have hcheck := Firewall.check_eq hknows (by rw [← hconfig]; exact henabled) texts clock ctx
  have hreference := (FirewallCall.told config calls ctx.systemId).reference_result texts clock ctx
  have hdefault : (FirewallCall.told config calls ctx.systemId).config = config := rfl
  rw [← hconfig] at hcheck
  rw [hdefault] at hreference
  rw [Told.Honoured, ← or_assoc, ← Told.found_isSome, hdefault]
  constructor
  · intro hdeserved
    have hverdict := hdeserved.verdict
    rw [hcheck, hreference] at hverdict
    cases hfound : (FirewallCall.told config calls ctx.systemId).found texts clock ctx with
    | some result => exact Or.inl rfl
    | none =>
      rw [hfound] at hverdict
      exact Or.inr ((defaultResult_eq_iff _).mp hverdict)
  · intro hhonoured
    have hsame : (FirewallCall.run texts config calls |>.check texts clock ctx).1 =
        ((FirewallCall.told config calls ctx.systemId).reference texts clock ctx).result := by
      rw [hcheck, hreference]
      cases hfound : (FirewallCall.told config calls ctx.systemId).found texts clock ctx with
      | some result => rfl
      | none =>
        rw [hfound] at hhonoured
        exact (defaultResult_eq_iff _).mpr (hhonoured.resolve_left nofun)
    refine ⟨hsame, ?_, fun hhit => ?_⟩
    · rw [hcheck] at hsame ⊢
      dsimp only at hsame ⊢
      rw [hsame, hknows.logAll_events, ← Told.events_eq, hdefault, ← hconfig]
    · obtain ⟨result, hresult⟩ := Option.isSome_iff_exists.mp (firstHit_isSome.mpr hhit)
      rw [hcheck, Told.found, hresult]
      exact allowed_of_firstHit hresult

/-- Anything is allowed, and a message for a premium number is blocked nevertheless. -/
theorem check_eq_reference_of_premium :
    (FirewallCall.run Texts.bare {} [.addRule ⟨"vip", .destinationPrefix "", .allow, 0, true, none⟩]).Deserved
      (FirewallCall.told {} [.addRule ⟨"vip", .destinationPrefix "", .allow, 0, true, none⟩] "esme") Texts.bare ⟨0, 0⟩
      { content := "Hello", senderId := "SENDER", destination := "0900123456", source := "SENDER",
        systemId := "esme" } :=
  (check_eq_reference_iff Texts.bare {} rfl _ ⟨0, 0⟩ _).mpr (Or.inl ⟨_, .tail _ (.tail _ (.tail _ (.tail _ (.head _)))), by decide⟩)

/-- **A firewall that quarantines by default** lets through what no rule is for. -/
theorem quarantine_by_default :
    ¬ (FirewallCall.run Texts.bare { defaultAction := .quarantine } []).Deserved
      (FirewallCall.told { defaultAction := .quarantine } [] "esme") Texts.bare ⟨0, 0⟩
      { content := "Hello", senderId := "SENDER", destination := "+1234567890", source := "SENDER",
        systemId := "esme" } := by
  intro h
  exact absurd h.verdict (by decide)

end Smppd.Filter

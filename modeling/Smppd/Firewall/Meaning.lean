/-
  The MEANING of a condition: what a tree of `ConditionConfig` says about a message, with no compiling in sight.

  A matcher says something of a text, and `negate` turns that around ONCE.  A condition on a field that the
  message does not bring is false, negated or not; a list that was never loaded has nothing in it; And and Or
  are `∀` and `∃` over their parts.

  A tree compiles when none of its nodes is FAULTY (`compiles_iff`), and what it compiles to is evaluated to
  what it means (`evaluate_compiled`); `compile_preserves_meaning` puts the two together.  Trees that ask the
  clock, the rate limits or a plugin are another matter (`Plain`).
-/
import Smppd.Firewall.Engine

set_option linter.unusedVariables false

namespace Smppd.Firewall

open Smppd.Store Table Fallible

variable {Rx Tz Ip Net : Type}

/-! ## What matchers say -/

/-- A statement, turned around if the matcher is negated. -/
def Inverted (negate : Bool) (p : Prop) : Prop := if negate then ¬ p else p

/-- The entries of an external list; none, when there is no such list. -/
def listed (lists : Lists) (name : String) : List String := (lists.lookup name).getD []

/-- What a string matcher says of a value. -/
def StringMatcherConfig.Means (platform : Platform Rx Tz Ip Net) (lists : Lists) (self : StringMatcherConfig)
    (value : String) : Prop :=
  Inverted self.negate <| match self.matchType with
    | .exact => self.value = some value
    | .pre => ∃ text, self.value = some text ∧ text.toList <+: value.toList
    | .suffix => ∃ text, self.value = some text ∧ text.toList <:+ value.toList
    | .contains => ∃ text, self.value = some text ∧ text.toList <:+: value.toList
    | .regex => ∃ pattern rx, self.pattern = some pattern ∧ platform.regexes.compile pattern = .ok rx ∧
        platform.regexes.isMatch rx value = true
    | .list => ∃ name, self.list = some name ∧ value ∈ listed lists name

/-- What a content matcher says of a content. -/
def ContentMatcherConfig.Means (platform : Platform Rx Tz Ip Net) (lists : Lists) (self : ContentMatcherConfig)
    (content : String) : Prop :=
  let fold := folded platform self.caseInsensitive
  Inverted self.negate <| match self.matchType with
    | .contains => ∃ text, self.value = some text ∧ (fold text).toList <:+: (fold content).toList
    | .exact => ∃ text, self.value = some text ∧ fold content = fold text
    | .regex => ∃ pattern rx, self.pattern = some pattern ∧
        platform.regexes.compile (contentPattern self.caseInsensitive pattern) = .ok rx ∧
        platform.regexes.isMatch rx content = true
    | .keywords => ∃ name, self.list = some name ∧
        ∃ kw ∈ listed lists name, (fold kw).toList <:+: (fold content).toList

/-- What an address matcher says of an address. -/
def IpMatcherConfig.Means (platform : Platform Rx Tz Ip Net) (lists : Lists) (self : IpMatcherConfig)
    (ip : Ip) : Prop :=
  Inverted self.negate <| match self.matchType with
    | .exact => ∃ text, self.value = some text ∧ platform.parseIp text = some ip
    | .cidr => ∃ text network, self.value = some text ∧ platform.nets.parse text = some network ∧
        platform.nets.contains network ip = true
    | .list => ∃ name, self.list = some name ∧ platform.ipText ip ∈ listed lists name

/-! ## What is wrong with a matcher -/

/-- There is no pattern, or it does not compile. -/
def FaultyPattern (platform : Platform Rx Tz Ip Net) (pattern : Option String) : Prop :=
  pattern = none ∨ ∃ text error, pattern = some text ∧ platform.regexes.compile text = .error error

/-- There is no value, or it does not parse. -/
def FaultyValue {α : Type} (parse : String → Option α) (value : Option String) : Prop :=
  value = none ∨ ∃ text, value = some text ∧ parse text = none

def StringMatcherConfig.Faulty (platform : Platform Rx Tz Ip Net) (self : StringMatcherConfig) : Prop :=
  match self.matchType with
  | .exact | .pre | .suffix | .contains => self.value = none
  | .regex => FaultyPattern platform self.pattern
  | .list => self.list = none

def ContentMatcherConfig.Faulty (platform : Platform Rx Tz Ip Net) (self : ContentMatcherConfig) : Prop :=
  match self.matchType with
  | .contains | .exact => self.value = none
  | .regex => FaultyPattern platform (self.pattern.map (contentPattern self.caseInsensitive))
  | .keywords => self.list = none

def IpMatcherConfig.Faulty (platform : Platform Rx Tz Ip Net) (self : IpMatcherConfig) : Prop :=
  match self.matchType with
  | .exact => FaultyValue platform.parseIp self.value
  | .cidr => FaultyValue platform.nets.parse self.value
  | .list => self.list = none

/-! ## Trees -/

namespace ConditionConfig

/-- A node whose matcher lacks what it needs, or has something that is invalid. -/
def Faulty (platform : Platform Rx Tz Ip Net) : ConditionConfig → Prop
  | .source matcher | .destination matcher | .senderId matcher | .systemId matcher => matcher.Faulty platform
  | .content matcher => matcher.Faulty platform
  | .clientIp matcher => matcher.Faulty platform
  | _ => False

/-- A node that does not ask for the time, the rate limits or a plugin. -/
def Timeless : ConditionConfig → Prop
  | .rate _ _ _ | .time _ _ _ | .dayOfWeek _ | .plugin _ => False
  | _ => True

mutual

/-- The nodes of a tree. -/
def nodes : ConditionConfig → List ConditionConfig
  | .not condition => .not condition :: nodes condition
  | .and conditions => .and conditions :: nodesOfAll conditions
  | .or conditions => .or conditions :: nodesOfAll conditions
  | leaf => [leaf]

def nodesOfAll : List ConditionConfig → List ConditionConfig
  | [] => []
  | condition :: conditions => nodes condition ++ nodesOfAll conditions

end

/-- A tree without rate, time, day-of-week and plugin nodes. -/
def Plain (condition : ConditionConfig) : Prop := ∀ node ∈ condition.nodes, node.Timeless

section Means

variable (platform : Platform Rx Tz Ip Net) (lists : Lists) (ctx : EvaluationContext Ip)

mutual

/-- What a tree says of a message. -/
def Means : ConditionConfig → Prop
  | .source matcher => matcher.Means platform lists ctx.source
  | .destination matcher => matcher.Means platform lists ctx.destination
  | .senderId matcher => ∃ senderId, ctx.senderId = some senderId ∧ matcher.Means platform lists senderId
  | .systemId matcher => matcher.Means platform lists ctx.systemId
  | .content matcher => matcher.Means platform lists ctx.content
  | .contentLength min max negate =>
    Inverted negate ((∀ m, min = some m → m ≤ ctx.contentLength) ∧ ∀ m, max = some m → ctx.contentLength ≤ m)
  | .esmClass value (some mask) => ctx.esmClass &&& mask = value &&& mask
  | .esmClass value none => ctx.esmClass = value
  | .protocolId value => ctx.protocolId = value
  | .dataCoding value => ctx.dataCoding = value
  | .clientIp matcher => ∃ ip, ctx.clientIp = some ip ∧ matcher.Means platform lists ip
  | .tlsEnabled value => ctx.tlsEnabled = value
  | .not condition => ¬ Means condition
  | .and conditions => AllMean conditions
  | .or conditions => SomeMeans conditions
  | .rate _ _ _ | .time _ _ _ | .dayOfWeek _ | .plugin _ => False

def AllMean : List ConditionConfig → Prop
  | [] => True
  | condition :: conditions => Means condition ∧ AllMean conditions

def SomeMeans : List ConditionConfig → Prop
  | [] => False
  | condition :: conditions => Means condition ∨ SomeMeans conditions

end

/-- And says that all of its parts hold. -/
theorem means_and (conditions : List ConditionConfig) :
    Means platform lists ctx (.and conditions) ↔ ∀ c ∈ conditions, Means platform lists ctx c := by
  show AllMean platform lists ctx conditions ↔ _
  induction conditions with
  | nil => simp [AllMean]
  | cons c cs ih => rw [AllMean, ih, List.forall_mem_cons]

/-- Or says that one of its parts holds. -/
theorem means_or (conditions : List ConditionConfig) :
    Means platform lists ctx (.or conditions) ↔ ∃ c ∈ conditions, Means platform lists ctx c := by
  show SomeMeans platform lists ctx conditions ↔ _
  induction conditions with
  | nil => simp [SomeMeans]
  | cons c cs ih => rw [SomeMeans, ih, List.exists_mem_cons_iff]

end Means

end ConditionConfig

/-! ## What compiles -/

theorem compileRegex_eq_ok {platform : Platform Rx Tz Ip Net} {pattern : String} {rx : Rx} :
    compileRegex platform pattern = .ok rx ↔ platform.regexes.compile pattern = .ok rx := by
  unfold compileRegex
  cases platform.regexes.compile pattern with
  | error e => exact iff_of_false (fun h => nomatch h) (fun h => nomatch h)
  | ok r =>
    constructor
    · intro h
      cases h
      rfl
    · intro h
      cases h
      rfl

/-- A matcher that needs one text. -/
theorem exists_required_eq_ok {α : Type} {text : String} {o : Option String} {make : String → α} :
    (∃ a, (orInvalid text o >>= fun value => pure (make value)) = Except.ok a) ↔ o ≠ none := by
  constructor
  · rintro ⟨a, h⟩ rfl
    obtain ⟨v, hv, -⟩ := bind_eq_ok.mp h
    cases orInvalid_eq_ok.mp hv
  · intro h
    obtain ⟨v, rfl⟩ := Option.ne_none_iff_exists'.mp h
    exact ⟨make v, rfl⟩

/-- A matcher that needs a pattern. -/
theorem exists_pattern_eq_ok {α : Type} {platform : Platform Rx Tz Ip Net} {text : String} {o : Option String}
    {amend : String → String} {make : Rx → α} :
    (∃ a, (orInvalid text o >>= fun pattern => compileRegex platform (amend pattern) >>= fun rx => pure (make rx)) =
      Except.ok a) ↔ ¬ FaultyPattern platform (o.map amend) := by
  cases o with
  | none =>
    refine iff_of_false ?_ (not_not.mpr (Or.inl rfl))
    rintro ⟨a, h⟩
    obtain ⟨v, hv, -⟩ := bind_eq_ok.mp h
    cases orInvalid_eq_ok.mp hv
  | some pattern =>
    cases hrx : platform.regexes.compile (amend pattern) with
    | error e =>
      refine iff_of_false ?_ (not_not.mpr (Or.inr ⟨amend pattern, e, rfl, hrx⟩))
      rintro ⟨a, h⟩
      obtain ⟨v, hv, hrest⟩ := bind_eq_ok.mp h
      cases hv
      obtain ⟨rx, hcompile, -⟩ := bind_eq_ok.mp hrest
      rw [compileRegex_eq_ok, hrx] at hcompile
      cases hcompile
    | ok rx =>
      refine iff_of_true ⟨make rx, ?_⟩ ?_
      · refine bind_eq_ok.mpr ⟨pattern, rfl, bind_eq_ok.mpr ⟨rx, compileRegex_eq_ok.mpr hrx, rfl⟩⟩
      · rintro (hnone | ⟨text, e, htext, herror⟩)
        · cases hnone
        · obtain rfl := Option.some.inj htext
          rw [hrx] at herror
          cases herror

/-- A matcher that needs a value that parses. -/
theorem exists_parsed_eq_ok {α β : Type} {text : String} {error : String → String} {o : Option String}
    {parse : String → Option α} {make : α → β} :
    (∃ b, (orInvalid text o >>= fun value => orInvalid (error value) (parse value) >>= fun a => pure (make a)) =
      Except.ok b) ↔ ¬ FaultyValue parse o := by
  cases o with
  | none =>
    refine iff_of_false ?_ (not_not.mpr (Or.inl rfl))
    rintro ⟨b, h⟩
    obtain ⟨v, hv, -⟩ := bind_eq_ok.mp h
    cases orInvalid_eq_ok.mp hv
  | some value =>
    cases hparse : parse value with
    | none =>
      refine iff_of_false ?_ (not_not.mpr (Or.inr ⟨value, rfl, hparse⟩))
      rintro ⟨b, h⟩
      obtain ⟨v, hv, hrest⟩ := bind_eq_ok.mp h
      cases hv
      obtain ⟨a, ha, -⟩ := bind_eq_ok.mp hrest
      rw [orInvalid_eq_ok, hparse] at ha
      cases ha
    | some a =>
      refine iff_of_true ⟨make a, ?_⟩ ?_
      · refine bind_eq_ok.mpr ⟨value, rfl, bind_eq_ok.mpr ⟨a, orInvalid_eq_ok.mpr hparse, rfl⟩⟩
      · rintro (hnone | ⟨v, hv, hfails⟩)
        · cases hnone
        · obtain rfl := Option.some.inj hv
          rw [hparse] at hfails
          cases hfails

section Compiles

variable (platform : Platform Rx Tz Ip Net)

theorem stringMatcher_compiles_iff (config : StringMatcherConfig) :
    (∃ matcher, compileStringMatcher platform config = .ok matcher) ↔ ¬ config.Faulty platform := by
  unfold compileStringMatcher StringMatcherConfig.Faulty
  cases config.matchType with
  | regex =>
    have hpattern : (∃ a, (orInvalid "regex match requires pattern" config.pattern >>= fun pattern =>
        compileRegex platform pattern >>= fun rx => pure (StringMatcher.regex rx config.negate)) = Except.ok a) ↔
          ¬ FaultyPattern platform (config.pattern.map fun pattern => pattern) := exists_pattern_eq_ok
    rw [Option.map_id'] at hpattern
    exact hpattern
  | _ => exact exists_required_eq_ok

theorem contentMatcher_compiles_iff (config : ContentMatcherConfig) :
    (∃ matcher, compileContentMatcher platform config = .ok matcher) ↔ ¬ config.Faulty platform := by
  unfold compileContentMatcher ContentMatcherConfig.Faulty
  cases config.matchType with
  | regex => exact exists_pattern_eq_ok
  | _ => exact exists_required_eq_ok

theorem ipMatcher_compiles_iff (config : IpMatcherConfig) :
    (∃ matcher, compileIpMatcher platform config = .ok matcher) ↔ ¬ config.Faulty platform := by
  unfold compileIpMatcher IpMatcherConfig.Faulty
  cases config.matchType with
  | list => exact exists_required_eq_ok
  | _ => exact exists_parsed_eq_ok

/-- A node that is a tree of its own. -/
theorem forall_mem_leaf {c : ConditionConfig} (hleaf : c.nodes = [c]) :
    (∀ node ∈ c.nodes, ¬ node.Faulty platform) ↔ ¬ c.Faulty platform := by
  rw [hleaf, List.forall_mem_singleton]

/-- A connective is not faulty itself. -/
theorem forall_mem_inner {c : ConditionConfig} {inner : List ConditionConfig} (hinner : c.nodes = c :: inner)
    (hself : ¬ c.Faulty platform) :
    (∀ node ∈ c.nodes, ¬ node.Faulty platform) ↔ ∀ node ∈ inner, ¬ node.Faulty platform := by
  rw [hinner, List.forall_mem_cons, and_iff_right hself]

/-- A leaf that needs nothing compiles. -/
theorem compiles_of_ok {c : ConditionConfig} {compiled : CompiledCondition Rx Ip Net} (hleaf : c.nodes = [c])
    (hself : ¬ c.Faulty platform) (hok : compileCondition platform c = .ok compiled) :
    (∃ compiled, compileCondition platform c = .ok compiled) ↔ ∀ node ∈ c.nodes, ¬ node.Faulty platform := by
  rw [forall_mem_leaf platform hleaf]
  exact iff_of_true ⟨compiled, hok⟩ hself

mutual

/-- **A tree compiles** exactly when none of its nodes is faulty. -/
theorem compiles_iff : (c : ConditionConfig) → c.Plain →
    ((∃ compiled, compileCondition platform c = .ok compiled) ↔ ∀ node ∈ c.nodes, ¬ node.Faulty platform)
  | .source matcher, _ => by
    rw [forall_mem_leaf platform rfl]
    exact exists_bind_pure_eq_ok.trans (stringMatcher_compiles_iff platform matcher)
  | .destination matcher, _ => by
    rw [forall_mem_leaf platform rfl]
    exact exists_bind_pure_eq_ok.trans (stringMatcher_compiles_iff platform matcher)
  | .senderId matcher, _ => by
    rw [forall_mem_leaf platform rfl]
    exact exists_bind_pure_eq_ok.trans (stringMatcher_compiles_iff platform matcher)
  | .systemId matcher, _ => by
    rw [forall_mem_leaf platform rfl]
    exact exists_bind_pure_eq_ok.trans (stringMatcher_compiles_iff platform matcher)
  | .content matcher, _ => by
    rw [forall_mem_leaf platform rfl]
    exact exists_bind_pure_eq_ok.trans (contentMatcher_compiles_iff platform matcher)
  | .clientIp matcher, _ => by
    rw [forall_mem_leaf platform rfl]
    exact exists_bind_pure_eq_ok.trans (ipMatcher_compiles_iff platform matcher)
  | .contentLength _ _ _, _ => compiles_of_ok platform rfl (fun h => h) rfl
  | .esmClass _ _, _ => compiles_of_ok platform rfl (fun h => h) rfl
  | .protocolId _, _ => compiles_of_ok platform rfl (fun h => h) rfl
  | .dataCoding _, _ => compiles_of_ok platform rfl (fun h => h) rfl
  | .tlsEnabled _, _ => compiles_of_ok platform rfl (fun h => h) rfl
  | .rate key window threshold, hplain => (hplain _ (List.mem_singleton_self _)).elim
  | .time start stop timezone, hplain => (hplain _ (List.mem_singleton_self _)).elim
  | .dayOfWeek days, hplain => (hplain _ (List.mem_singleton_self _)).elim
  | .plugin name, hplain => (hplain _ (List.mem_singleton_self _)).elim
  | .not c, hplain => by
    rw [forall_mem_inner platform (c := .not c) rfl (fun h => h)]
    have hinner : c.Plain := fun node hnode => hplain node (List.mem_cons_of_mem _ hnode)
    exact exists_bind_pure_eq_ok.trans (compiles_iff c hinner)
  | .and cs, hplain => by
    rw [forall_mem_inner platform (c := .and cs) rfl (fun h => h)]
    exact exists_bind_pure_eq_ok.trans
      (allCompile_iff cs fun node hnode => hplain node (List.mem_cons_of_mem _ hnode))
  | .or cs, hplain => by
    rw [forall_mem_inner platform (c := .or cs) rfl (fun h => h)]
    exact exists_bind_pure_eq_ok.trans
      (allCompile_iff cs fun node hnode => hplain node (List.mem_cons_of_mem _ hnode))

theorem allCompile_iff : (cs : List ConditionConfig) → (∀ node ∈ ConditionConfig.nodesOfAll cs, node.Timeless) →
    ((∃ compiled, compileConditions platform cs = .ok compiled) ↔
      ∀ node ∈ ConditionConfig.nodesOfAll cs, ¬ node.Faulty platform)
  | [], _ => iff_of_true ⟨[], rfl⟩ fun _ h => absurd h List.not_mem_nil
  | c :: cs, hplain => by
    have hfirst := compiles_iff c fun node hnode => hplain node (List.mem_append_left _ hnode)
    have hrest := allCompile_iff cs fun node hnode => hplain node (List.mem_append_right _ hnode)
    rw [ConditionConfig.nodesOfAll, List.forall_mem_append, ← hfirst, ← hrest]
    constructor
    · rintro ⟨compiled, h⟩
      obtain ⟨first, hfirst, h⟩ := bind_eq_ok.mp h
      obtain ⟨rest, hrest, -⟩ := bind_eq_ok.mp h
      exact ⟨⟨first, hfirst⟩, rest, hrest⟩
    · rintro ⟨⟨first, hfirst⟩, rest, hrest⟩
      exact ⟨first :: rest, bind_eq_ok.mpr ⟨first, hfirst, bind_eq_ok.mpr ⟨rest, hrest, rfl⟩⟩⟩

end

end Compiles

/-! ## What is evaluated -/

theorem negated_eq_true {negate matches_ : Bool} {p : Prop} (h : matches_ = true ↔ p) :
    negated negate matches_ = true ↔ Inverted negate p := by
  unfold negated Inverted
  cases negate with
  | true => simp [← h]
  | false => simp [← h]

/-- A look into a list: what was never loaded has no entries. -/
theorem any_listed {lists : Lists} {name : String} {test : String → Bool} :
    ((lists.lookup name).map fun list => list.any test).getD false = true ↔
      ∃ entry ∈ listed lists name, test entry = true := by
  unfold listed
  cases lists.lookup name with
  | none => simp
  | some entries => simp

/-- A value that is there. -/
theorem exists_of_some {α : Type} {o : Option α} {a : α} (h : o = some a) {p : α → Prop} :
    (∃ b, o = some b ∧ p b) ↔ p a := by
  subst h
  simp

section Evaluates

variable (platform : Platform Rx Tz Ip Net) (lists : Lists)

theorem matchString_compiled {config : StringMatcherConfig} {matcher : StringMatcher Rx}
    (h : compileStringMatcher platform config = .ok matcher) (value : String) :
    matchString platform lists matcher value = true ↔ config.Means platform lists value := by
  unfold compileStringMatcher at h
  unfold StringMatcherConfig.Means
  cases hkind : config.matchType with
  | regex =>
    rw [hkind] at h
    obtain ⟨pattern, hpattern, h⟩ := bind_eq_ok.mp h
    obtain ⟨rx, hrx, h⟩ := bind_eq_ok.mp h
    cases h
    have hpattern := orInvalid_eq_ok.mp hpattern
    have hrx := compileRegex_eq_ok.mp hrx
    refine negated_eq_true ?_
    simp only [hpattern, Option.some.injEq, exists_eq_left', exists_and_left, hrx, Except.ok.injEq]
  | list =>
    rw [hkind] at h
    obtain ⟨name, hname, h⟩ := bind_eq_ok.mp h
    cases h
    refine negated_eq_true ?_
    rw [any_listed, exists_of_some (orInvalid_eq_ok.mp hname)]
    simp
  | exact =>
    rw [hkind] at h
    obtain ⟨text, htext, h⟩ := bind_eq_ok.mp h
    cases h
    refine negated_eq_true ?_
    rw [orInvalid_eq_ok.mp htext, decide_eq_true_iff, Option.some.injEq, eq_comm]
  | _ =>
    rw [hkind] at h
    obtain ⟨text, htext, h⟩ := bind_eq_ok.mp h
    cases h
    have htext := orInvalid_eq_ok.mp htext
    refine negated_eq_true ?_
    simp [htext, containsText]

theorem matchContent_compiled {config : ContentMatcherConfig} {matcher : ContentMatcher Rx}
    (h : compileContentMatcher platform config = .ok matcher) (content : String) :
    matchContent platform lists matcher content = true ↔ config.Means platform lists content := by
  unfold compileContentMatcher at h
  unfold ContentMatcherConfig.Means
  cases hkind : config.matchType with
  | regex =>
    rw [hkind] at h
    obtain ⟨pattern, hpattern, h⟩ := bind_eq_ok.mp h
    obtain ⟨rx, hrx, h⟩ := bind_eq_ok.mp h
    cases h
    have hpattern := orInvalid_eq_ok.mp hpattern
    have hrx := compileRegex_eq_ok.mp hrx
    refine negated_eq_true ?_
    simp only [hpattern, Option.some.injEq, exists_eq_left', exists_and_left, hrx, Except.ok.injEq]
  | keywords =>
    rw [hkind] at h
    obtain ⟨name, hname, h⟩ := bind_eq_ok.mp h
    cases h
    refine negated_eq_true ?_
    rw [any_listed, exists_of_some (orInvalid_eq_ok.mp hname)]
    simp [containsText]
  | _ =>
    rw [hkind] at h
    obtain ⟨text, htext, h⟩ := bind_eq_ok.mp h
    cases h
    have htext := orInvalid_eq_ok.mp htext
    refine negated_eq_true ?_
    simp [htext, containsText]

theorem matchIp_compiled [DecidableEq Ip] {config : IpMatcherConfig} {matcher : IpMatcher Ip Net}
    (h : compileIpMatcher platform config = .ok matcher) (ip : Ip) :
    matchIp platform lists matcher ip = true ↔ config.Means platform lists ip := by
  unfold compileIpMatcher at h
  unfold IpMatcherConfig.Means
  cases hkind : config.matchType with
  | exact =>
    rw [hkind] at h
    obtain ⟨text, htext, h⟩ := bind_eq_ok.mp h
    obtain ⟨expected, hexpected, h⟩ := bind_eq_ok.mp h
    cases h
    refine negated_eq_true ?_
    rw [exists_of_some (orInvalid_eq_ok.mp htext), orInvalid_eq_ok.mp hexpected]
    simp [eq_comm]
  | cidr =>
    rw [hkind] at h
    obtain ⟨text, htext, h⟩ := bind_eq_ok.mp h
    obtain ⟨network, hnetwork, h⟩ := bind_eq_ok.mp h
    cases h
    have htext := orInvalid_eq_ok.mp htext
    have hnetwork := orInvalid_eq_ok.mp hnetwork
    refine negated_eq_true ?_
    simp only [htext, Option.some.injEq, exists_eq_left', exists_and_left, hnetwork]
  | list =>
    rw [hkind] at h
    obtain ⟨name, hname, h⟩ := bind_eq_ok.mp h
    cases h
    refine negated_eq_true ?_
    rw [any_listed, exists_of_some (orInvalid_eq_ok.mp hname)]
    simp

variable [DecidableEq Ip] (clock : Clock) (ctx : EvaluationContext Ip)

mutual

/-- **What a tree compiles to is evaluated to what it means.** -/
theorem evaluate_compiled : (c : ConditionConfig) → c.Plain → (compiled : CompiledCondition Rx Ip Net) →
    compileCondition platform c = .ok compiled → (rates : RateLimits) →
      ((evaluateCondition platform lists clock ctx compiled rates).1 = true ↔ c.Means platform lists ctx)
  | .source _, _, _, h, _ => by
    obtain ⟨matcher, hmatcher, h⟩ := bind_eq_ok.mp h
    cases h
    exact matchString_compiled platform lists hmatcher ctx.source
  | .destination _, _, _, h, _ => by
    obtain ⟨matcher, hmatcher, h⟩ := bind_eq_ok.mp h
    cases h
    exact matchString_compiled platform lists hmatcher ctx.destination
  | .senderId config, _, _, h, _ => by
    obtain ⟨matcher, hmatcher, h⟩ := bind_eq_ok.mp h
    cases h
    show _ ↔ ∃ senderId, ctx.senderId = some senderId ∧ config.Means platform lists senderId
    unfold evaluateCondition
    cases ctx.senderId with
    | none => simp
    | some senderId =>
      rw [exists_of_some rfl]
      exact matchString_compiled platform lists hmatcher senderId
  | .systemId _, _, _, h, _ => by
    obtain ⟨matcher, hmatcher, h⟩ := bind_eq_ok.mp h
    cases h
    exact matchString_compiled platform lists hmatcher ctx.systemId
  | .content _, _, _, h, _ => by
    obtain ⟨matcher, hmatcher, h⟩ := bind_eq_ok.mp h
    cases h
    exact matchContent_compiled platform lists hmatcher ctx.content
  | .clientIp config, _, _, h, _ => by
    obtain ⟨matcher, hmatcher, h⟩ := bind_eq_ok.mp h
    cases h
    show _ ↔ ∃ ip, ctx.clientIp = some ip ∧ config.Means platform lists ip
    unfold evaluateCondition
    cases ctx.clientIp with
    | none => simp
    | some ip =>
      rw [exists_of_some rfl]
      exact matchIp_compiled platform lists hmatcher ip
  | .contentLength min max negate, _, _, h, _ => by
    cases h
    refine negated_eq_true ?_
    simp [Option.all_eq_true]
  | .esmClass value mask, _, _, h, _ => by
    cases h
    cases mask with
    | none => exact decide_eq_true_iff
    | some m => exact decide_eq_true_iff
  | .protocolId _, _, _, h, _ => by
    cases h
    exact decide_eq_true_iff
  | .dataCoding _, _, _, h, _ => by
    cases h
    exact decide_eq_true_iff
  | .tlsEnabled _, _, _, h, _ => by
    cases h
    exact decide_eq_true_iff
  | .rate key window threshold, hplain, _, _, _ => (hplain _ (List.mem_singleton_self _)).elim
  | .time start stop timezone, hplain, _, _, _ => (hplain _ (List.mem_singleton_self _)).elim
  | .dayOfWeek days, hplain, _, _, _ => (hplain _ (List.mem_singleton_self _)).elim
  | .plugin name, hplain, _, _, _ => (hplain _ (List.mem_singleton_self _)).elim
  | .not c, hplain, _, h, rates => by
    obtain ⟨compiled, hcompiled, h⟩ := bind_eq_ok.mp h
    cases h
    have hinner : c.Plain := fun node hnode => hplain node (List.mem_cons_of_mem _ hnode)
    have ih := evaluate_compiled c hinner compiled hcompiled rates
    show (!(evaluateCondition platform lists clock ctx compiled rates).1) = true ↔ ¬ c.Means platform lists ctx
    rw [← ih, Bool.not_eq_true', Bool.not_eq_true]
  | .and cs, hplain, _, h, rates => by
    obtain ⟨compiled, hcompiled, h⟩ := bind_eq_ok.mp h
    cases h
    exact evaluate_allCompiled cs (fun node hnode => hplain node (List.mem_cons_of_mem _ hnode)) compiled
      hcompiled rates
  | .or cs, hplain, _, h, rates => by
    obtain ⟨compiled, hcompiled, h⟩ := bind_eq_ok.mp h
    cases h
    exact evaluate_anyCompiled cs (fun node hnode => hplain node (List.mem_cons_of_mem _ hnode)) compiled
      hcompiled rates

theorem evaluate_allCompiled : (cs : List ConditionConfig) →
    (∀ node ∈ ConditionConfig.nodesOfAll cs, node.Timeless) → (compiled : List (CompiledCondition Rx Ip Net)) →
    compileConditions platform cs = .ok compiled → (rates : RateLimits) →
      ((evaluateConditions platform lists clock ctx compiled rates).1 = true ↔
        ConditionConfig.AllMean platform lists ctx cs)
  | [], _, _, h, _ => by
    cases h
    exact iff_of_true rfl trivial
  | c :: cs, hplain, _, h, rates => by
    obtain ⟨first, hfirst, h⟩ := bind_eq_ok.mp h
    obtain ⟨rest, hrest, h⟩ := bind_eq_ok.mp h
    cases h
    have ih := evaluate_compiled c (fun node hnode => hplain node (List.mem_append_left _ hnode)) first hfirst rates
    have ihRest := evaluate_allCompiled cs (fun node hnode => hplain node (List.mem_append_right _ hnode)) rest hrest
    rw [ConditionConfig.AllMean, ← ih, evaluateConditions]
    -- the loop goes on where the first condition holds
    obtain ⟨holds, rates'⟩ := evaluateCondition platform lists clock ctx first rates
    cases holds with
    | true => exact (ihRest rates').trans (and_iff_right rfl).symm
    | false => simp

theorem evaluate_anyCompiled : (cs : List ConditionConfig) →
    (∀ node ∈ ConditionConfig.nodesOfAll cs, node.Timeless) → (compiled : List (CompiledCondition Rx Ip Net)) →
    compileConditions platform cs = .ok compiled → (rates : RateLimits) →
      ((evaluateAny platform lists clock ctx compiled rates).1 = true ↔
        ConditionConfig.SomeMeans platform lists ctx cs)
  | [], _, _, h, _ => by
    cases h
    exact iff_of_false (fun h => nomatch h) id
  | c :: cs, hplain, _, h, rates => by
    obtain ⟨first, hfirst, h⟩ := bind_eq_ok.mp h
    obtain ⟨rest, hrest, h⟩ := bind_eq_ok.mp h
    cases h
    have ih := evaluate_compiled c (fun node hnode => hplain node (List.mem_append_left _ hnode)) first hfirst rates
    have ihRest := evaluate_anyCompiled cs (fun node hnode => hplain node (List.mem_append_right _ hnode)) rest hrest
    rw [ConditionConfig.SomeMeans, ← ih, evaluateAny]
    obtain ⟨holds, rates'⟩ := evaluateCondition platform lists clock ctx first rates
    cases holds with
    | true => simp
    | false => exact (ihRest rates').trans (by simp)

end

end Evaluates

end Smppd.Firewall

/-
  PRIORITIES among the rules of a client.

  A rule has a priority, "higher = checked first".  `add_rule` sorts the rules for everyone by it; the rules of a
  client come in with its settings, as a list, and `set_esme_settings` stores them as they are.  So the rule that
  decides is the FIRST LISTED decisive one that matches, whatever its priority.

  * `check_of_decisive` — which rule decides;
  * `priorities_hold_iff` — when that is one of the highest priority, for one list and for a list in any order.
-/
import Smppd.Filter.Verdict

set_option linter.unusedVariables false

namespace Smppd.Filter

open Smppd.Store Table

variable {Rx Tz : Type}

/-- The first verdict is that of the first rule that has one. -/
theorem findSome?_verdict (hits : List (FirewallRule Rx Tz)) :
    hits.findSome? FirewallRule.verdict =
      (hits.filter fun rule => rule.verdict.isSome).head?.bind FirewallRule.verdict := by
  induction hits with
  | nil => rfl
  | cons rule hits ih =>
    rw [List.findSome?_cons]
    cases hverdict : rule.verdict with
    | none =>
      rw [List.filter_cons_of_neg (by rw [hverdict]; exact Bool.false_ne_true)]
      exact ih
    | some v =>
      rw [List.filter_cons_of_pos (by rw [hverdict]; rfl)]
      exact hverdict.symm

/-- A rule of the highest priority among some. -/
structure Highest (rules : List (FirewallRule Rx Tz)) (rule : FirewallRule Rx Tz) : Prop where
  mem : rule ∈ rules
  top : ∀ other ∈ rules, other.priority ≤ rule.priority

/-- The order in which the rules are listed does not matter. -/
theorem Highest.of_perm {rules rules' : List (FirewallRule Rx Tz)} (h : rules.Perm rules')
    {rule : FirewallRule Rx Tz} (htop : Highest rules rule) : Highest rules' rule :=
  ⟨h.mem_iff.mp htop.mem, fun other hother => htop.top other (h.mem_iff.mpr hother)⟩

/-- It reports what a rule of the highest priority reports. -/
def AsHighest (rules : List (FirewallRule Rx Tz)) (rule : FirewallRule Rx Tz) : Prop :=
  ∃ top, Highest rules top ∧ rule.verdict = top.verdict

theorem AsHighest.of_perm {rules rules' : List (FirewallRule Rx Tz)} (h : rules.Perm rules')
    {rule : FirewallRule Rx Tz} (htop : AsHighest rules rule) : AsHighest rules' rule := by
  obtain ⟨top, hhighest, hverdict⟩ := htop
  exact ⟨top, hhighest.of_perm h, hverdict⟩

section Decisive

variable (texts : Texts Rx Tz) (clock : Clock) (ctx : MessageContext)

/-- The rules that are enabled, match and have a decisive action, as they are listed. -/
def decisive (rules : List (FirewallRule Rx Tz)) : List (FirewallRule Rx Tz) :=
  (hitsOf texts clock ctx (fun _ => true) rules).filter fun rule => rule.verdict.isSome

theorem decisive_perm {rules rules' : List (FirewallRule Rx Tz)} (h : rules.Perm rules') :
    (decisive texts clock ctx rules).Perm (decisive texts clock ctx rules') :=
  ((h.filter _).filter _).filter _

/-- What is decisive is the first that is, when it is listed first. -/
theorem exists_head_decisive {rules : List (FirewallRule Rx Tz)} {rule : FirewallRule Rx Tz}
    (h : rule ∈ decisive texts clock ctx rules) :
    ∃ rules', rules'.Perm rules ∧ (decisive texts clock ctx rules').head? = some rule := by
  obtain ⟨hhits, hdecisive⟩ := List.mem_filter.mp h
  obtain ⟨hasked, hmatches⟩ := List.mem_filter.mp hhits
  obtain ⟨hmem, henabled⟩ := List.mem_filter.mp hasked
  obtain ⟨before, after, rfl⟩ := List.append_of_mem hmem
  refine ⟨rule :: (before ++ after), List.perm_middle.symm, ?_⟩
  rw [decisive, hitsOf_cons, henabled, hmatches]
  show (List.filter _ (rule :: _)).head? = some rule
  rw [List.filter_cons, if_pos hdecisive, List.head?_cons]

end Decisive

namespace Firewall

variable {fw : Firewall Rx Tz} {ctx : MessageContext} {settings : EsmeFirewallSettings Rx Tz}

/-- The firewall asks the rules of the client about the message: it is enabled, and the message passes the checks of
    the message itself and the lists of the client. -/
structure AsksRules (fw : Firewall Rx Tz) (settings : EsmeFirewallSettings Rx Tz) (ctx : MessageContext) : Prop where
  enabled : fw.config.enabled = true
  message : fw.checkMessage ctx = none
  lists : settings.checkLists ctx = none

/-- **The first listed decisive rule decides.** -/
theorem check_of_decisive (h : fw.AsksRules settings ctx) (texts : Texts Rx Tz) (clock : Clock)
    {rule : FirewallRule Rx Tz} (hfirst : (decisive texts clock ctx settings.rules).head? = some rule) :
    ((fw.setEsmeSettings ctx.systemId settings).check texts clock ctx).1 ∈ rule.verdict.map Verdict.result := by
  have hsettings : (fw.setEsmeSettings ctx.systemId settings).getEsmeSettings ctx.systemId = some settings :=
    AList.lookup_insert _
  have hmessage : (fw.setEsmeSettings ctx.systemId settings).checkMessage ctx = none := h.message
  have henabled : (fw.setEsmeSettings ctx.systemId settings).config.enabled = true := h.enabled
  have hrules := applyRules_eq texts clock ctx (fun _ => true) settings.rules
    (fw.setEsmeSettings ctx.systemId settings).eventLog
  rw [findSome?_verdict] at hrules
  have hhead : (((hitsOf texts clock ctx (fun _ => true) settings.rules).filter fun r => r.verdict.isSome).head?.bind
      FirewallRule.verdict) = rule.verdict := by
    show (decisive texts clock ctx settings.rules).head?.bind _ = _
    rw [hfirst, Option.bind_some]
  rw [hhead] at hrules
  have hdecisive : rule.verdict.isSome = true := (List.mem_filter.mp (List.mem_of_mem_head? hfirst)).2
  obtain ⟨v, hv⟩ := Option.isSome_iff_exists.mp hdecisive
  rw [hv] at hrules ⊢
  rw [check, henabled, find, hmessage, hsettings]
  simp only [Option.bind_some, h.lists, Option.map_some, Option.getD_some, applyEsmeRules, hrules]
  rfl

/-- The verdict is that of a decisive rule of the highest priority, if any rule is decisive. -/
def FollowsPriority (fw : Firewall Rx Tz) (texts : Texts Rx Tz) (clock : Clock) (ctx : MessageContext)
    (rules : List (FirewallRule Rx Tz)) : Prop :=
  decisive texts clock ctx rules ≠ [] →
    ∃ top, Highest (decisive texts clock ctx rules) top ∧
      (fw.check texts clock ctx).1 ∈ top.verdict.map Verdict.result

/-- **One list**: the verdict follows the priorities exactly when the first listed decisive rule reports what one of the
    highest priority does. -/
theorem followsPriority_iff (h : fw.AsksRules settings ctx) (texts : Texts Rx Tz) (clock : Clock) :
    (fw.setEsmeSettings ctx.systemId settings).FollowsPriority texts clock ctx settings.rules ↔
      ∀ rule ∈ (decisive texts clock ctx settings.rules).head?,
        AsHighest (decisive texts clock ctx settings.rules) rule := by
  constructor
  · intro hfollows rule hfirst
    have hsome : decisive texts clock ctx settings.rules ≠ [] := by
      intro hnone
      rw [hnone] at hfirst
      cases hfirst
    obtain ⟨top, htop, hresult⟩ := hfollows hsome
    refine ⟨top, htop, ?_⟩
    obtain ⟨v, hv, hsame⟩ := Option.mem_map.mp (check_of_decisive h texts clock hfirst)
    obtain ⟨w, hw, hsame'⟩ := Option.mem_map.mp hresult
    obtain rfl : v = w := Verdict.result_injective (hsame.trans hsame'.symm)
    exact (Option.mem_def.mp hv).trans (Option.mem_def.mp hw).symm
  · intro hfirst hsome
    obtain ⟨rule, rest, hlist⟩ := List.exists_cons_of_ne_nil hsome
    have hhead : (decisive texts clock ctx settings.rules).head? = some rule := by rw [hlist, List.head?_cons]
    obtain ⟨top, htop, hverdict⟩ := hfirst rule hhead
    refine ⟨top, htop, ?_⟩
    rw [← hverdict]
    exact check_of_decisive h texts clock hhead

/-- **Priorities hold for the rules of a client**: for one list, exactly when the first listed decisive rule reports
    what one of the highest priority does; for the list in any order, exactly when all decisive rules do. -/
theorem priorities_hold_iff (h : fw.AsksRules settings ctx) (texts : Texts Rx Tz) (clock : Clock) :
    ((fw.setEsmeSettings ctx.systemId settings).FollowsPriority texts clock ctx settings.rules ↔
        ∀ rule ∈ (decisive texts clock ctx settings.rules).head?,
          AsHighest (decisive texts clock ctx settings.rules) rule) ∧
      ((∀ rules, rules.Perm settings.rules →
          (fw.setEsmeSettings ctx.systemId { settings with rules := rules }).FollowsPriority texts clock ctx rules) ↔
        ∀ rule ∈ decisive texts clock ctx settings.rules,
          AsHighest (decisive texts clock ctx settings.rules) rule) := by
  refine ⟨followsPriority_iff h texts clock, fun hall rule hmem => ?_, fun hall rules hperm => ?_⟩
  · obtain ⟨rules, hperm, hhead⟩ := exists_head_decisive texts clock ctx hmem
    have hasks : fw.AsksRules { settings with rules := rules } ctx := ⟨h.enabled, h.message, h.lists⟩
    exact ((followsPriority_iff hasks texts clock).mp (hall rules hperm) rule hhead).of_perm
      (decisive_perm texts clock ctx hperm)
  · have hasks : fw.AsksRules { settings with rules := rules } ctx := ⟨h.enabled, h.message, h.lists⟩
    refine (followsPriority_iff hasks texts clock).mpr fun rule hfirst => ?_
    have hdecisive := decisive_perm texts clock ctx hperm
    exact (hall rule (hdecisive.mem_iff.mp (List.mem_of_mem_head? hfirst))).of_perm hdecisive.symm

end Firewall

/-- Two rules that match everything: one lets through, and one of a higher priority blocks. -/
def allowThenBlock : List (FirewallRule Empty Unit) :=
  [⟨"any", .destinationPrefix "", .allow, 1, true, none⟩, ⟨"none", .destinationPrefix "", .block .systemError, 2, true, none⟩]

/-- A message of a client. -/
def messageOfClient : MessageContext :=
  { content := "Hello", senderId := "SENDER", destination := "258841234567", source := "SENDER", systemId := "esme" }

/-- Listed by priority, the rules hold. -/
theorem priorities_hold_when_sorted :
    ((Firewall.new {}).setEsmeSettings "esme" { rules := allowThenBlock.reverse }).FollowsPriority Texts.bare ⟨0, 0⟩
      messageOfClient allowThenBlock.reverse := by
  have hasks : (Firewall.new {}).AsksRules { rules := allowThenBlock.reverse } messageOfClient :=
    ⟨rfl, by decide, by decide⟩
  refine (Firewall.priorities_hold_iff hasks Texts.bare ⟨0, 0⟩).1.mpr fun rule hfirst => ?_
  obtain rfl := Option.some.inj hfirst
  exact ⟨_, ⟨.head _, by decide⟩, rfl⟩

/-- **Listed the other way**, the lower priority decides, and the message goes through. -/
theorem lower_priority_decides :
    ¬ ((Firewall.new {}).setEsmeSettings "esme" { rules := allowThenBlock }).FollowsPriority Texts.bare ⟨0, 0⟩
      messageOfClient allowThenBlock := by
  intro h
  obtain ⟨top, htop, hresult⟩ := h (by decide)
  -- the one that allows is not of the highest priority, and the other one does not allow
  have hmem : top ∈ allowThenBlock := htop.mem
  rcases List.mem_cons.mp hmem with rfl | hmem
  · exact absurd (htop.top _ (.tail _ (.head _))) (by decide)
  · obtain rfl := List.mem_singleton.mp hmem
    exact absurd hresult (by decide)

end Smppd.Filter

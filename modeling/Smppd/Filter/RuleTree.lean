/-
  RULE TREES: what a rule says, and what `matches` makes of it.

  `Denotes` is the meaning of a tree: All is conjunction, Any is disjunction, keywords and senders are compared
  without regard to case, and a Protocol node holds when EVERY parameter it sets is that of the message.  Compiled
  patterns and the clock are asked, as the code asks them.

  `matches` compares three of the seven parameters of a Protocol node; the types and plans of the two numbers are
  never looked at.  Nothing in a tree negates, so the code errs on one side only: what a tree denotes it matches
  (`matches_of_denotes`), and it may match more.

  `Honest` says of a tree that it does not, on the message at hand: a Protocol node is honest when the four
  parameters that are not compared agree too wherever the three do.  In a tree the error of one node may be hidden
  by another, and the condition follows the tree (`matches_iff_denotes_iff`).
-/
import Smppd.Filter.Firewall

set_option linter.unusedVariables false

namespace Smppd.Filter

open Smppd.Store

variable {Rx Tz : Type}

/-! ## Protocol parameters -/

/-- What is set is what the message has. -/
def Sets (set actual : Option UInt8) : Prop := ∀ value ∈ set, actual = some value

theorem agrees_iff {set actual : Option UInt8} : agrees set actual = true ↔ Sets set actual := by
  rw [agrees, Option.all_eq_true]
  exact forall₂_congr fun value _ => decide_eq_true_iff

namespace ProtocolParams

/-- The parameters that `matches` compares are those of the message. -/
structure Compared (params actual : ProtocolParams) : Prop where
  esmClass : Sets params.esmClass actual.esmClass
  protocolId : Sets params.protocolId actual.protocolId
  dataCoding : Sets params.dataCoding actual.dataCoding

/-- The parameters that it does not compare are, too. -/
structure Uncompared (params actual : ProtocolParams) : Prop where
  sourceAddrTon : Sets params.sourceAddrTon actual.sourceAddrTon
  sourceAddrNpi : Sets params.sourceAddrNpi actual.sourceAddrNpi
  destAddrTon : Sets params.destAddrTon actual.destAddrTon
  destAddrNpi : Sets params.destAddrNpi actual.destAddrNpi

/-- Every parameter that is set is that of the message. -/
structure Agree (params actual : ProtocolParams) : Prop extends Compared params actual, Uncompared params actual

theorem matches_iff (params actual : ProtocolParams) : params.matches actual = true ↔ Compared params actual := by
  rw [ProtocolParams.matches, Bool.and_eq_true_iff, Bool.and_eq_true_iff, agrees_iff, agrees_iff, agrees_iff]
  exact ⟨fun h => ⟨h.1.1, h.1.2, h.2⟩, fun h => ⟨⟨h.esmClass, h.protocolId⟩, h.dataCoding⟩⟩

end ProtocolParams

/-! ## What a tree says -/

section Denotes

variable (texts : Texts Rx Tz) (clock : Clock) (ctx : MessageContext)

mutual

/-- What a tree says of a message. -/
def RuleType.Denotes : RuleType Rx Tz → Prop
  | .keyword kw => (texts.toLowercase kw).toList <:+: (texts.toLowercase ctx.content).toList
  | .pattern re => texts.regexes.isMatch re ctx.content = true
  | .senderId id => texts.toLowercase ctx.senderId = texts.toLowercase id
  | .destinationPrefix pre => pre.toList <+: ctx.destination.toList
  | .sourcePrefix pre => pre.toList <+: ctx.source.toList
  | .destinationList list => ctx.destination ∈ list
  | .sourceList list => ctx.source ∈ list
  | .protocol params => params.Agree ctx.protocol
  | .timeWindow window => window.isActive texts clock = true
  | .all rules => AllDenote rules
  | .any rules => AnyDenotes rules

/-- Conjunction. -/
def AllDenote : List (RuleType Rx Tz) → Prop
  | [] => True
  | rule :: rules => RuleType.Denotes rule ∧ AllDenote rules

/-- Disjunction. -/
def AnyDenotes : List (RuleType Rx Tz) → Prop
  | [] => False
  | rule :: rules => RuleType.Denotes rule ∨ AnyDenotes rules

end

mutual

/-- `matches` does not take the tree for more than it says. -/
def RuleType.Honest : RuleType Rx Tz → Prop
  | .protocol params => params.Compared ctx.protocol → params.Uncompared ctx.protocol
  | .all rules => AllHonest rules ∨ SomeFails rules
  | .any rules => AllHonest rules ∨ AnyDenotes texts clock ctx rules
  | _ => True

def AllHonest : List (RuleType Rx Tz) → Prop
  | [] => True
  | rule :: rules => RuleType.Honest rule ∧ AllHonest rules

/-- One of the trees is honest, and does not hold. -/
def SomeFails : List (RuleType Rx Tz) → Prop
  | [] => False
  | rule :: rules => (RuleType.Honest rule ∧ ¬ RuleType.Denotes texts clock ctx rule) ∨ SomeFails rules

end

theorem allDenote_iff (rules : List (RuleType Rx Tz)) :
    AllDenote texts clock ctx rules ↔ ∀ rule ∈ rules, rule.Denotes texts clock ctx := by
  induction rules with
  | nil => exact iff_of_true trivial fun rule hmem => absurd hmem List.not_mem_nil
  | cons rule rules ih => rw [AllDenote, ih, List.forall_mem_cons]

theorem anyDenotes_iff (rules : List (RuleType Rx Tz)) :
    AnyDenotes texts clock ctx rules ↔ ∃ rule ∈ rules, rule.Denotes texts clock ctx := by
  induction rules with
  | nil => exact iff_of_false (fun h => h) fun ⟨rule, hmem, _⟩ => List.not_mem_nil hmem
  | cons rule rules ih => rw [AnyDenotes, ih, List.exists_mem_cons_iff]

theorem allHonest_iff (rules : List (RuleType Rx Tz)) :
    AllHonest texts clock ctx rules ↔ ∀ rule ∈ rules, rule.Honest texts clock ctx := by
  induction rules with
  | nil => exact iff_of_true trivial fun rule hmem => absurd hmem List.not_mem_nil
  | cons rule rules ih => rw [AllHonest, ih, List.forall_mem_cons]

theorem someFails_iff (rules : List (RuleType Rx Tz)) :
    SomeFails texts clock ctx rules ↔
      ∃ rule ∈ rules, rule.Honest texts clock ctx ∧ ¬ rule.Denotes texts clock ctx := by
  induction rules with
  | nil => exact iff_of_false (fun h => h) fun ⟨rule, hmem, _⟩ => List.not_mem_nil hmem
  | cons rule rules ih => rw [SomeFails, ih, List.exists_mem_cons_iff]

theorem matchesAll_iff (rules : List (RuleType Rx Tz)) :
    matchesAll texts clock ctx rules = true ↔ ∀ rule ∈ rules, rule.matches texts clock ctx = true := by
  induction rules with
  | nil => exact iff_of_true rfl fun rule hmem => absurd hmem List.not_mem_nil
  | cons rule rules ih => rw [matchesAll, Bool.and_eq_true_iff, ih, List.forall_mem_cons]

theorem matchesAny_iff (rules : List (RuleType Rx Tz)) :
    matchesAny texts clock ctx rules = true ↔ ∃ rule ∈ rules, rule.matches texts clock ctx = true := by
  induction rules with
  | nil => exact iff_of_false Bool.false_ne_true fun ⟨rule, hmem, _⟩ => List.not_mem_nil hmem
  | cons rule rules ih => rw [matchesAny, Bool.or_eq_true_iff, ih, List.exists_mem_cons_iff]

/-! ## What a tree says, it matches -/

mutual

/-- **Nothing that a tree says is missed.** -/
theorem RuleType.matches_of_denotes : (rule : RuleType Rx Tz) → rule.Denotes texts clock ctx →
    rule.matches texts clock ctx = true
  | .keyword _, h => decide_eq_true h
  | .pattern _, h => h
  | .senderId _, h => decide_eq_true h
  | .destinationPrefix _, h => List.isPrefixOf_iff_prefix.mpr h
  | .sourcePrefix _, h => List.isPrefixOf_iff_prefix.mpr h
  | .destinationList _, h => List.contains_iff_mem.mpr h
  | .sourceList _, h => List.contains_iff_mem.mpr h
  | .protocol params, h => (params.matches_iff ctx.protocol).mpr h.toCompared
  | .timeWindow _, h => h
  | .all rules, h => by
    have hall := (allDenote_iff texts clock ctx rules).mp h
    exact (matchesAll_iff texts clock ctx rules).mpr fun rule hmem =>
      each_matches_of_denotes rules rule hmem (hall rule hmem)
  | .any rules, h => by
    obtain ⟨rule, hmem, hdenotes⟩ := (anyDenotes_iff texts clock ctx rules).mp h
    exact (matchesAny_iff texts clock ctx rules).mpr
      ⟨rule, hmem, each_matches_of_denotes rules rule hmem hdenotes⟩

theorem each_matches_of_denotes : (rules : List (RuleType Rx Tz)) →
    ∀ rule ∈ rules, rule.Denotes texts clock ctx → rule.matches texts clock ctx = true
  | [] => fun _ hmem => absurd hmem List.not_mem_nil
  | rule :: rules => List.forall_mem_cons.mpr ⟨rule.matches_of_denotes, each_matches_of_denotes rules⟩

end

/-- So a tree is taken for what it says exactly when it says what it is taken for. -/
theorem RuleType.iff_of_matches {rule : RuleType Rx Tz} :
    (rule.matches texts clock ctx = true ↔ rule.Denotes texts clock ctx) ↔
      (rule.matches texts clock ctx = true → rule.Denotes texts clock ctx) :=
  ⟨fun h => h.mp, fun h => ⟨h, rule.matches_of_denotes texts clock ctx⟩⟩

/-! ## When it matches no more -/

/-- A conjunction matches no more than it says when its parts do not, or when an honest part does not match. -/
theorem all_honest_iff {rules : List (RuleType Rx Tz)}
    (heach : ∀ rule ∈ rules, (rule.matches texts clock ctx = true → rule.Denotes texts clock ctx) ↔
      rule.Honest texts clock ctx) :
    ((∀ rule ∈ rules, rule.matches texts clock ctx = true) → ∀ rule ∈ rules, rule.Denotes texts clock ctx) ↔
      (∀ rule ∈ rules, rule.Honest texts clock ctx) ∨
        ∃ rule ∈ rules, rule.Honest texts clock ctx ∧ ¬ rule.Denotes texts clock ctx := by
  constructor
  · intro h
    by_cases hmatches : ∀ rule ∈ rules, rule.matches texts clock ctx = true
    · exact Or.inl fun rule hmem => (heach rule hmem).mp fun _ => h hmatches rule hmem
    · right
      push Not at hmatches
      obtain ⟨rule, hmem, hnot⟩ := hmatches
      refine ⟨rule, hmem, (heach rule hmem).mp fun hmatch => absurd hmatch hnot, fun hdenotes => ?_⟩
      exact hnot (rule.matches_of_denotes texts clock ctx hdenotes)
  · rintro (hhonest | ⟨rule, hmem, hhonest, hnot⟩) hmatches
    · exact fun rule hmem => (heach rule hmem).mpr (hhonest rule hmem) (hmatches rule hmem)
    · exact absurd ((heach rule hmem).mpr hhonest (hmatches rule hmem)) hnot

/-- A disjunction, when its parts do not, or when a part does say it. -/
theorem any_honest_iff {rules : List (RuleType Rx Tz)}
    (heach : ∀ rule ∈ rules, (rule.matches texts clock ctx = true → rule.Denotes texts clock ctx) ↔
      rule.Honest texts clock ctx) :
    ((∃ rule ∈ rules, rule.matches texts clock ctx = true) → ∃ rule ∈ rules, rule.Denotes texts clock ctx) ↔
      (∀ rule ∈ rules, rule.Honest texts clock ctx) ∨ ∃ rule ∈ rules, rule.Denotes texts clock ctx := by
  constructor
  · intro h
    by_cases hdenotes : ∃ rule ∈ rules, rule.Denotes texts clock ctx
    · exact Or.inr hdenotes
    · exact Or.inl fun rule hmem => (heach rule hmem).mp fun hmatch => absurd (h ⟨rule, hmem, hmatch⟩) hdenotes
  · rintro (hhonest | hdenotes) ⟨rule, hmem, hmatch⟩
    · exact ⟨rule, hmem, (heach rule hmem).mpr (hhonest rule hmem) hmatch⟩
    · exact hdenotes


mutual

theorem RuleType.says_iff_honest : (rule : RuleType Rx Tz) →
    ((rule.matches texts clock ctx = true → rule.Denotes texts clock ctx) ↔ rule.Honest texts clock ctx)
  | .keyword _ => iff_true_intro of_decide_eq_true
  | .pattern _ => iff_true_intro id
  | .senderId _ => iff_true_intro of_decide_eq_true
  | .destinationPrefix _ => iff_true_intro List.isPrefixOf_iff_prefix.mp
  | .sourcePrefix _ => iff_true_intro List.isPrefixOf_iff_prefix.mp
  | .destinationList _ => iff_true_intro List.contains_iff_mem.mp
  | .sourceList _ => iff_true_intro List.contains_iff_mem.mp
  | .protocol params => by
    show (params.matches ctx.protocol = true → params.Agree ctx.protocol) ↔
      (params.Compared ctx.protocol → params.Uncompared ctx.protocol)
    rw [params.matches_iff]
    exact ⟨fun h hcompared => (h hcompared).toUncompared, fun h hcompared => ⟨hcompared, h hcompared⟩⟩
  | .timeWindow _ => iff_true_intro id
  | .all rules => by
    show (matchesAll texts clock ctx rules = true → AllDenote texts clock ctx rules) ↔
      AllHonest texts clock ctx rules ∨ SomeFails texts clock ctx rules
    rw [matchesAll_iff, allDenote_iff, allHonest_iff, someFails_iff]
    exact all_honest_iff texts clock ctx (each_says_iff_honest rules)
  | .any rules => by
    show (matchesAny texts clock ctx rules = true → AnyDenotes texts clock ctx rules) ↔
      AllHonest texts clock ctx rules ∨ AnyDenotes texts clock ctx rules
    rw [matchesAny_iff, anyDenotes_iff, allHonest_iff]
    exact any_honest_iff texts clock ctx (each_says_iff_honest rules)

theorem each_says_iff_honest : (rules : List (RuleType Rx Tz)) → ∀ rule ∈ rules,
    ((rule.matches texts clock ctx = true → rule.Denotes texts clock ctx) ↔ rule.Honest texts clock ctx)
  | [] => fun _ hmem => absurd hmem List.not_mem_nil
  | rule :: rules => List.forall_mem_cons.mpr ⟨rule.says_iff_honest, each_says_iff_honest rules⟩

end

/-- **A rule tree means what it says** exactly when it is honest: no Protocol node that decides leaves a parameter
    uncompared in which the message differs. -/
theorem RuleType.matches_iff_denotes_iff (rule : RuleType Rx Tz) :
    (rule.matches texts clock ctx = true ↔ rule.Denotes texts clock ctx) ↔ rule.Honest texts clock ctx :=
  (iff_of_matches texts clock ctx).trans (rule.says_iff_honest texts clock ctx)

end Denotes

/-- A rule for alphanumeric senders. -/
def fromAlphanumeric : RuleType Empty Unit := .protocol { sourceAddrTon := some 5 }

/-- A message from an international number. -/
def fromInternational : MessageContext :=
  { content := "Hello", senderId := "258841234567", destination := "258821234567", source := "258841234567",
    systemId := "esme", protocol := { sourceAddrTon := some 1 } }

/-- **Too wide**: the type of number that the rule sets is not compared. -/
theorem type_of_number_ignored :
    ¬ (fromAlphanumeric.matches Texts.bare ⟨0, 0⟩ fromInternational = true ↔
      fromAlphanumeric.Denotes Texts.bare ⟨0, 0⟩ fromInternational) := by
  intro h
  have hagree : ProtocolParams.Agree { sourceAddrTon := some 5 } fromInternational.protocol := h.mp (by decide)
  exact absurd (hagree.sourceAddrTon 5 rfl) (by decide)

end Smppd.Filter

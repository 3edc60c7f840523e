/-
  The INTERNATIONAL check of the firewall: which country codes it knows.

  The configuration lists allowed country codes, and they have one to three digits.  `check` takes UP TO THREE digits
  behind the `+` and looks them up in the list.  So `258` is found, and `1` is not: behind the `+` of
  `+1234567890` it reads `123`.

  * `international_iff` — when the check does block;
  * `international_by_prefix_iff` — when that is the same as "no allowed code is a prefix of the digits".
-/
import Smppd.Filter.Verdict

set_option linter.unusedVariables false

namespace Smppd.Filter

open Smppd.Store Table

variable {Rx Tz : Type}

/-- The digits of the number, behind its first character. -/
def dialled (destination : String) : List Char := (destination.toList.drop 1).takeWhile Char.isDigit

/-- What is looked up is where the number begins. -/
theorem countryCode_prefix (destination : String) : (countryCode destination).toList <+: dialled destination := by
  rw [countryCode, String.toList_ofList]
  exact List.take_prefix 3 _

/-- The result of the check, when it blocks. -/
def internationalBlocked : FirewallResult := .blocked "international_blocked" .invalidDestAddress

namespace Firewall

variable (fw : Firewall Rx Tz) (ctx : MessageContext)

/-- The checks before the international one. -/
def checkBefore : Option FirewallResult :=
  ({ fw with config := { fw.config with blockInternational := false } } : Firewall Rx Tz).checkMessage ctx

variable {fw ctx}

/-- The checks of a message in two parts: those before the international one, and that one. -/
theorem checkMessage_split : fw.checkMessage ctx =
    (fw.checkBefore ctx <|>
      blockIf (fw.config.blockInternational && ['+'].isPrefixOf ctx.destination.toList &&
        !fw.config.allowedInternational.contains (countryCode ctx.destination))
      "international_blocked" .invalidDestAddress) := by
  rw [checkBefore, checkMessage, checkMessage]
  simp only [Option.orElse_eq_orElse, Option.or_assoc, Option.orElse_eq_or]
  rfl

/-- A message that a check blocks is blocked. -/
theorem check_of_checkMessage (henabled : fw.config.enabled = true) {result : FirewallResult}
    (h : fw.checkMessage ctx = some result) (texts : Texts Rx Tz) (clock : Clock) :
    (fw.check texts clock ctx).1 = result := by
  rw [check, henabled, find, h]
  rfl

/-- The message is blocked, by the international check. -/
structure BlocksAsInternational (fw : Firewall Rx Tz) (texts : Texts Rx Tz) (clock : Clock) (ctx : MessageContext) :
    Prop where
  found : fw.checkMessage ctx = some internationalBlocked
  result : (fw.check texts clock ctx).1 = internationalBlocked

/-- An allowed code is a prefix of the digits. -/
def AllowsPrefix (fw : Firewall Rx Tz) (ctx : MessageContext) : Prop :=
  ∃ code ∈ fw.config.allowedInternational, code.toList <+: dialled ctx.destination

/-- **What the check does**: it blocks when the digits it looks up are not on the list. -/
theorem international_iff (henabled : fw.config.enabled = true) (hblock : fw.config.blockInternational = true)
    (hplus : ['+'] <+: ctx.destination.toList) (hpasses : fw.checkBefore ctx = none) (texts : Texts Rx Tz)
    (clock : Clock) :
    fw.BlocksAsInternational texts clock ctx ↔ countryCode ctx.destination ∉ fw.config.allowedInternational := by
  have hstarts : ['+'].isPrefixOf ctx.destination.toList = true := List.isPrefixOf_iff_prefix.mpr hplus
  have hmessage : fw.checkMessage ctx =
      if countryCode ctx.destination ∉ fw.config.allowedInternational then some internationalBlocked else none := by
    rw [checkMessage_split, hpasses, hblock, hstarts, blockIf]
    by_cases hlisted : countryCode ctx.destination ∈ fw.config.allowedInternational
    · rw [if_neg (not_not_intro hlisted), List.contains_iff_mem.mpr hlisted]
      rfl
    · have hnot : fw.config.allowedInternational.contains (countryCode ctx.destination) = false :=
        Bool.eq_false_of_not_eq_true fun h => hlisted (List.contains_iff_mem.mp h)
      rw [if_pos hlisted, hnot]
      rfl
  constructor
  · intro hblocks hlisted
    have hfound := hblocks.found
    rw [hmessage, if_neg (not_not_intro hlisted)] at hfound
    cases hfound
  · intro hlisted
    rw [if_pos hlisted] at hmessage
    exact ⟨hmessage, check_of_checkMessage henabled hmessage texts clock⟩

/-- **The international check goes by prefixes** exactly when, wherever an allowed code is a prefix of the digits, the
    digits that are looked up are an allowed code too. -/
theorem international_by_prefix_iff (henabled : fw.config.enabled = true)
    (hblock : fw.config.blockInternational = true) (hplus : ['+'] <+: ctx.destination.toList)
    (hpasses : fw.checkBefore ctx = none) (texts : Texts Rx Tz) (clock : Clock) :
    (fw.BlocksAsInternational texts clock ctx ↔
        ∀ code ∈ fw.config.allowedInternational, ¬ code.toList <+: dialled ctx.destination) ↔
      (fw.AllowsPrefix ctx → countryCode ctx.destination ∈ fw.config.allowedInternational) := by
  have hnone : (∀ code ∈ fw.config.allowedInternational, ¬ code.toList <+: dialled ctx.destination) ↔
      ¬ fw.AllowsPrefix ctx := by
    unfold AllowsPrefix
    push Not
    exact Iff.rfl
  have hlookedUp : countryCode ctx.destination ∈ fw.config.allowedInternational → fw.AllowsPrefix ctx :=
    fun hlisted => ⟨_, hlisted, countryCode_prefix ctx.destination⟩
  rw [international_iff henabled hblock hplus hpasses, hnone, not_iff_not]
  exact ⟨fun h => h.mpr, fun h => ⟨hlookedUp, h⟩⟩

/-- A list of codes of three digits is read right. -/
theorem listed_of_three_digits (hthree : ∀ code ∈ fw.config.allowedInternational, code.toList.length = 3)
    (hallows : fw.AllowsPrefix ctx) : countryCode ctx.destination ∈ fw.config.allowedInternational := by
  obtain ⟨code, hlisted, hprefix⟩ := hallows
  have hcode : code = countryCode ctx.destination := by
    rw [← String.toList_inj, countryCode, String.toList_ofList, ← hthree code hlisted]
    exact List.prefix_iff_eq_take.mp hprefix
  rw [← hcode]
  exact hlisted

end Firewall

/-- International messages are blocked, but for Mozambique and for North America. -/
def southAndNorth : Firewall Empty Unit := .new { blockInternational := true, allowedInternational := ["258", "1"] }

/-- A message to a number. -/
def messageTo (destination : String) : MessageContext :=
  { content := "Hello", senderId := "SENDER", destination := destination, source := "SENDER", systemId := "esme" }

/-- A number in Mozambique is found. -/
theorem international_by_prefix_three_digits :
    southAndNorth.BlocksAsInternational Texts.bare ⟨0, 0⟩ (messageTo "+258841234567") ↔
      ∀ code ∈ ["258", "1"], ¬ code.toList <+: dialled "+258841234567" :=
  (Firewall.international_by_prefix_iff rfl rfl (by decide) (by decide) Texts.bare ⟨0, 0⟩).mpr fun _ => by decide

/-- **A number in North America is not**: its code has one digit, and three are looked up. -/
theorem short_code_blocked :
    ¬ (southAndNorth.BlocksAsInternational Texts.bare ⟨0, 0⟩ (messageTo "+1234567890") ↔
      ∀ code ∈ ["258", "1"], ¬ code.toList <+: dialled "+1234567890") := by
  intro h
  have hblocked : southAndNorth.BlocksAsInternational Texts.bare ⟨0, 0⟩ (messageTo "+1234567890") :=
    ⟨by decide, by decide⟩
  exact h.mp hblocked "1" (by decide) (by decide)

end Smppd.Filter

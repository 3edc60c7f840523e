/-
  WHO IS FOUND (`src/filter/esme.rs`): whether a stored ESME can bind, that is, whether its system id leads to it.

  `save` and `delete` remove an entry of the index by NAME: the entry under the system id that the ESME had.  As
  long as no two ESMEs have one system id, that is the ESME's own entry, and everybody is found.  Of two that
  share a system id the last one that was saved is found; and when one of them is renamed or deleted the entry
  goes, whosever it was, and the other one is stored under a name of its own and NOT found.

  So completeness fails just when a sharing ends (`lookup_complete_iff`, first half).  That no call makes another
  ESME unable to bind is more: then no sharing may begin.
-/
import Smppd.Filter.Esme

set_option linter.unusedVariables false

namespace Smppd.Filter

open Machine Table

/-! ## What is asked of the store -/

/-- No two stored ESMEs have the same system id. -/
def Distinct (esmes : Tbl String Esme) : Prop :=
  ∀ a b esme other, esmes.lookup a = some esme → esmes.lookup b = some other → esme.systemId = other.systemId → a = b

/-- The ESME that a call is about. -/
def EsmeCall.id : EsmeCall → String
  | .save esme => esme.id
  | .delete id => id

/-- The stored ESMEs after a call, which is what the call is for. -/
def EsmeCall.stored (esmes : Tbl String Esme) : EsmeCall → Tbl String Esme
  | .save esme => esmes.insert esme.id esme
  | .delete id => esmes.erase id

/-- **A call that ends no sharing**: it does not leave system ids that are distinct when they were not. -/
def EndsNoSharing (s : MemoryEsmeStore) (call : EsmeCall) : Prop := Distinct (call.stored s.esmes) → Distinct s.esmes

/-- **A call that begins none**: it does not save an ESME with the system id of another one. -/
def BeginsNoSharing (s : MemoryEsmeStore) : EsmeCall → Prop
  | .save esme => ∀ id other, s.esmes.lookup id = some other → other.systemId = esme.systemId → id = esme.id
  | .delete id => True

instance (esmes : Tbl String Esme) : Decidable (Distinct esmes) :=
  decidable_of_iff (∀ e ∈ esmes.entries, ∀ e' ∈ esmes.entries, e.2.systemId = e'.2.systemId → e.1 = e'.1)
    ⟨fun h a b esme other ha hb => h ⟨a, esme⟩ (mem_entries.mpr ha) ⟨b, other⟩ (mem_entries.mpr hb),
      fun h e he e' he' => h e.1 e'.1 e.2 e'.2 (mem_entries.mp he) (mem_entries.mp he')⟩

instance (s : MemoryEsmeStore) (call : EsmeCall) : Decidable (EndsNoSharing s call) :=
  inferInstanceAs (Decidable (_ → _))

instance (s : MemoryEsmeStore) : (call : EsmeCall) → Decidable (BeginsNoSharing s call)
  | .save esme =>
    decidable_of_iff (∀ e ∈ s.esmes.entries, e.2.systemId = esme.systemId → e.1 = esme.id)
      ⟨fun h id other hid => h ⟨id, other⟩ (mem_entries.mpr hid), fun h e he => h e.1 e.2 (mem_entries.mp he)⟩
  | .delete id => isTrue trivial

namespace MemoryEsmeStore

/-- An ESME can bind: it is the one that its system id leads to. -/
def Finds (s : MemoryEsmeStore) (esme : Esme) : Prop := s.getBySystemId esme.systemId = some esme

/-- Every stored ESME can bind. -/
def Complete (s : MemoryEsmeStore) : Prop := ∀ id esme, s.get id = some esme → s.Finds esme

/-- No ESME that stays as it is becomes unable to bind. -/
def Spares (s s' : MemoryEsmeStore) : Prop :=
  ∀ id esme, s.get id = some esme → s'.get id = some esme → s.Finds esme → s'.Finds esme

variable {s s' : MemoryEsmeStore} {call : EsmeCall}

/-! ## One call -/

/-- A call saves an ESME, or it deletes one, or nothing changes. -/
theorem perform_cases (hcall : call.perform s = some s') :
    (∃ esme, call = .save esme ∧ s' = s.save esme) ∨
      (∃ id esme, call = .delete id ∧ s.esmes.lookup id = some esme ∧
        s' = ⟨s.esmes.erase id, s.systemIdIndex.erase esme.systemId⟩) ∨
      (∃ id, call = .delete id ∧ s.esmes.lookup id = none ∧ s' = s) := by
  cases call with
  | save esme => exact .inl ⟨esme, rfl, (Option.some.inj hcall).symm⟩
  | delete id =>
    refine .inr ?_
    cases hcall
    unfold delete
    cases hid : s.esmes.lookup id with
    | some esme => exact .inl ⟨id, esme, rfl, hid, rfl⟩
    | none => exact .inr ⟨id, rfl, hid, rfl⟩

theorem esmes_perform (hcall : call.perform s = some s') : s'.esmes = call.stored s.esmes := by
  obtain ⟨esme, rfl, rfl⟩ | ⟨id, esme, rfl, hid, rfl⟩ | ⟨id, rfl, hid, rfl⟩ := perform_cases hcall
  · rfl
  · rfl
  · exact (erase_of_lookup_eq_none hid).symm

/-- What finding an ESME takes: the index names its id. -/
theorem Indexed.finds_iff (h : s.Indexed) {id : String} {esme : Esme} (hstored : s.esmes.lookup id = some esme) :
    s.Finds esme ↔ s.systemIdIndex.lookup esme.systemId = some id := by
  refine getBySystemId_eq_some.trans ⟨?_, fun hindex => ⟨id, hindex, hstored⟩⟩
  rintro ⟨owner, hindex, howner⟩
  rw [hindex, ← h.own id esme hstored, ← h.own owner esme howner]

/-- A call on distinct system ids that leaves them distinct leaves everybody to be found. -/
theorem Complete.perform (hcomplete : s.Complete) (h : s.Indexed) (hdistinct : Distinct s.esmes)
    (hcall : call.perform s = some s') (hdistinct' : Distinct s'.esmes) : s'.Complete := by
  have h' := h.perform hcall
  intro id esme hstored
  rw [h'.finds_iff hstored]
  obtain ⟨saved, rfl, rfl⟩ | ⟨deleted, gone, rfl, hgone, rfl⟩ | ⟨deleted, rfl, hgone, rfl⟩ := perform_cases hcall
  · rw [lookup_index_save]
    rcases lookup_esmes_save.mp hstored with ⟨rfl, rfl⟩ | ⟨hne, hold⟩
    · exact .inl ⟨rfl, rfl⟩
    · -- its name is neither the new one nor the old one of the ESME that is saved
      refine .inr ⟨?_, (h.finds_iff hold).mp (hcomplete id esme hold), ?_⟩
      · intro hname
        exact hne (hdistinct' id saved.id esme saved hstored (lookup_esmes_save.mpr (.inl ⟨rfl, rfl⟩)) hname)
      · intro existing hexisting hname
        exact hne (hdistinct id saved.id esme existing hold hexisting hname.symm)
  · obtain ⟨hne, hold⟩ := lookup_erase_eq_some.mp hstored
    refine lookup_erase_eq_some.mpr ⟨?_, (h.finds_iff hold).mp (hcomplete id esme hold)⟩
    intro hname
    exact hne (hdistinct id deleted esme gone hold hgone hname)
  · exact (h.finds_iff hstored).mp (hcomplete id esme hstored)

/-- The other ESMEs stay as they are. -/
theorem lookup_perform_of_ne (hcall : call.perform s = some s') {id : String} (hne : id ≠ call.id) :
    s'.esmes.lookup id = s.esmes.lookup id := by
  rw [esmes_perform hcall]
  cases call with
  | save esme => exact AList.lookup_insert_ne hne
  | delete deleted => exact AList.lookup_erase_ne hne

/-- The name that an ESME had leads nowhere after a call, unless it has kept it. -/
theorem lookup_index_perform (hcall : call.perform s = some s') {esme : Esme}
    (hstored : s.esmes.lookup call.id = some esme) :
    (∃ e, s'.esmes.lookup call.id = some e ∧ e.systemId = esme.systemId) ∨
      s'.systemIdIndex.lookup esme.systemId = none := by
  obtain ⟨saved, rfl, rfl⟩ | ⟨deleted, gone, rfl, hgone, rfl⟩ | ⟨deleted, rfl, hgone, rfl⟩ := perform_cases hcall
  · by_cases hname : saved.systemId = esme.systemId
    · exact .inl ⟨saved, lookup_esmes_save.mpr (.inl ⟨rfl, rfl⟩), hname⟩
    · refine .inr (Option.eq_none_iff_forall_ne_some.mpr fun owner howner => ?_)
      rcases lookup_index_save.mp howner with ⟨heq, -⟩ | ⟨-, -, hkept⟩
      · exact hname heq.symm
      · exact hkept esme hstored rfl
  · obtain rfl : gone = esme := Option.some.inj (hgone.symm.trans hstored)
    exact .inr (AList.lookup_erase _ _)
  · rw [EsmeCall.id, hgone] at hstored
    cases hstored

/-- Of two that share a name, one is changed and the names are distinct: the other one is not found. -/
theorem not_complete_of_shared (hcall : call.perform s = some s') (hdistinct' : Distinct s'.esmes) {id : String}
    {esme other : Esme} (hesme : s.esmes.lookup call.id = some esme) (hother : s.esmes.lookup id = some other)
    (hname : other.systemId = esme.systemId) (hne : id ≠ call.id) : ¬ s'.Complete := by
  intro hcomplete
  have hother' : s'.esmes.lookup id = some other := (lookup_perform_of_ne hcall hne).trans hother
  rcases lookup_index_perform hcall hesme with ⟨e, he, hkept⟩ | hgone
  · exact hne (hdistinct' id call.id other e hother' he (hname.trans hkept.symm))
  · obtain ⟨owner, howner, -⟩ := getBySystemId_eq_some.mp (hcomplete id other hother')
    rw [hname, hgone] at howner
    cases howner

/-- **A sharing that ends leaves one of the two not to be found.** -/
theorem not_complete_of_ended (hcall : call.perform s = some s') (hshared : ¬ Distinct s.esmes)
    (hdistinct' : Distinct s'.esmes) : ¬ s'.Complete := by
  simp only [Distinct, not_forall] at hshared
  obtain ⟨a, b, esme, other, hesme, hother, hname, hab⟩ := hshared
  by_cases ha : a = call.id
  · subst ha
    exact not_complete_of_shared hcall hdistinct' hesme hother hname.symm (Ne.symm hab)
  · by_cases hb : b = call.id
    · subst hb
      exact not_complete_of_shared hcall hdistinct' hother hesme hname ha
    · -- neither is changed, and they share the name still
      refine absurd (hdistinct' a b esme other ?_ ?_ hname) hab
      · exact (lookup_perform_of_ne hcall ha).trans hesme
      · exact (lookup_perform_of_ne hcall hb).trans hother

/-- As long as no sharing begins, the names stay distinct. -/
theorem distinct_perform (hcall : call.perform s = some s') (hdistinct : Distinct s.esmes)
    (hbegins : BeginsNoSharing s call) : Distinct s'.esmes := by
  intro a b esme other hesme hother hname
  obtain ⟨saved, rfl, rfl⟩ | ⟨deleted, gone, rfl, hgone, rfl⟩ | ⟨deleted, rfl, hgone, rfl⟩ := perform_cases hcall
  · rcases lookup_esmes_save.mp hesme with ⟨rfl, rfl⟩ | ⟨ha, hesme₀⟩
    · rcases lookup_esmes_save.mp hother with ⟨rfl, rfl⟩ | ⟨hb, hother₀⟩
      · rfl
      · exact (hbegins b other hother₀ hname.symm).symm
    · rcases lookup_esmes_save.mp hother with ⟨rfl, rfl⟩ | ⟨hb, hother₀⟩
      · exact hbegins a esme hesme₀ hname
      · exact hdistinct a b esme other hesme₀ hother₀ hname
  · exact hdistinct a b esme other (lookup_erase_eq_some.mp hesme).2 (lookup_erase_eq_some.mp hother).2 hname
  · exact hdistinct a b esme other hesme hother hname

/-- A sharing that begins takes the name from the one that could bind. -/
theorem beginsNoSharing_of_spares (h : s.Indexed) (hcomplete : s.Complete) (hcall : call.perform s = some s')
    (hspares : s.Spares s') : BeginsNoSharing s call := by
  cases call with
  | delete id => trivial
  | save saved =>
    cases hcall
    intro id other hother hname
    by_contra hne
    have hother' : (s.save saved).esmes.lookup id = some other := lookup_esmes_save.mpr (.inr ⟨hne, hother⟩)
    have hindex := ((h.save saved).finds_iff hother').mp (hspares id other hother hother' (hcomplete id other hother))
    rcases lookup_index_save.mp hindex with ⟨-, hid⟩ | ⟨hother, -⟩
    · exact hne hid
    · exact hother hname

/-! ## Runs -/

/-- Everybody is found, by a system id of his own. -/
structure Orderly (s : MemoryEsmeStore) : Prop where
  indexed : s.Indexed
  distinct : Distinct s.esmes
  complete : s.Complete

theorem orderly_new : new.Orderly where
  indexed := indexed_new
  distinct := fun a b esme other h => nomatch h
  complete := fun id esme h => nomatch h

theorem Orderly.perform (h : s.Orderly) (hbegins : BeginsNoSharing s call) (hcall : call.perform s = some s') :
    s'.Orderly := by
  have hdistinct' := distinct_perform hcall h.distinct hbegins
  exact ⟨h.indexed.perform hcall, hdistinct', h.complete.perform h.indexed h.distinct hcall hdistinct'⟩

/-- **Who is found, exactly.**  After any saves and deletes: that everybody is found whenever the system ids are
    distinct holds all along just when no call ends a sharing; and that every call keeps this, and makes no ESME
    unable to bind which it does not change, just when no call begins one. -/
theorem lookup_complete_iff {calls : List EsmeCall} {s : MemoryEsmeStore} (hrun : run EsmeCall.perform new calls = some s) :
    ((∀ before after t, calls = before ++ after → run EsmeCall.perform new before = some t →
        Distinct t.esmes → t.Complete) ↔ Meets EsmeCall.perform EndsNoSharing new calls) ∧
    (Steps EsmeCall.perform (fun t t' => (Distinct t'.esmes → t'.Complete) ∧ t.Spares t') new calls ↔
      Meets EsmeCall.perform BeginsNoSharing new calls) := by
  refine ⟨Iff.symm ?_, ?_⟩
  · refine meets_iff_always (fun t call t' h hcall => h.perform hcall) ?_ indexed_new (fun _ => orderly_new.complete) hrun
    intro t call t' h hsafe hcall
    rw [EndsNoSharing, ← esmes_perform hcall]
    constructor
    · intro hsafe' hdistinct'
      by_contra hshared
      exact not_complete_of_ended hcall hshared hdistinct' (hsafe' hdistinct')
    · intro hends hdistinct'
      exact (hsafe (hends hdistinct')).perform h (hends hdistinct') hcall hdistinct'
  · refine steps_iff_meets (fun t call t' h hbegins hcall => h.perform hbegins hcall) ?_ orderly_new hrun
    intro t call t' h hcall
    constructor
    · rintro ⟨-, hspares⟩
      exact beginsNoSharing_of_spares h.indexed h.complete hcall hspares
    · intro hbegins
      have h' := h.perform hbegins hcall
      exact ⟨fun _ => h'.complete, fun id esme _ hstored _ => h'.complete id esme hstored⟩

/-- One is renamed, and the name it had is taken by another one. -/
theorem lookup_complete_renamed :
    ∃ s, run EsmeCall.perform new [.save (.new "a" "x" "1"), .save (.new "a" "y" "1"), .save (.new "b" "x" "2")] = some s ∧
      Distinct s.esmes ∧ s.Complete := by
  have hrun : run EsmeCall.perform new
      [.save (.new "a" "x" "1"), .save (.new "a" "y" "1"), .save (.new "b" "x" "2")] = some _ := rfl
  refine ⟨_, hrun, by decide, ?_⟩
  exact (lookup_complete_iff hrun).1.mpr (by decide) _ [] _ (List.append_nil _).symm hrun (by decide)

/-- Two share a system id, and the first one takes another: the second one is left with it, and is not found. -/
theorem lookup_incomplete :
    ∃ s, run EsmeCall.perform new [.save (.new "a" "x" "1"), .save (.new "b" "x" "2"), .save (.new "a" "y" "1")] = some s ∧
      Distinct s.esmes ∧ s.get "b" = some (.new "b" "x" "2") ∧ s.getBySystemId "x" = none ∧ ¬ s.Complete := by
  have hrun : run EsmeCall.perform new
      [.save (.new "a" "x" "1"), .save (.new "b" "x" "2"), .save (.new "a" "y" "1")] = some _ := rfl
  refine ⟨_, hrun, by decide, rfl, rfl, fun hcomplete => ?_⟩
  exact nomatch hcomplete "b" (.new "b" "x" "2") rfl

end MemoryEsmeStore

end Smppd.Filter

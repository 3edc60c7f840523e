/-
  FILES THAT ARE REPLACED: a new text goes to a file of another name, which is renamed when it is complete.

  A name leads to a file; whoever has a file open keeps it when the name is taken away.  So a reader never sees a
  file change, as long as what is written to has the other name only: and it has, as long as no two writers share
  that other name at one time.  `whole_run` is what follows, for any number of writers and readers of any number of files,
  in whatever order they proceed and wherever they break off: a file is at any time as it was in the beginning, or
  has the whole text that was saved last; and what a reader gets is what the file was when it was opened.

  `torn_run` says what happens to two writers who do share a name: the one that succeeds may leave any beginning of
  the other's text.
-/
import Mathlib.Data.Fintype.Defs
import Mathlib.Logic.Function.Basic
import Smppd.Lib.Record

namespace Replace

open Machine Record

variable {ι π γ β : Type}

/-! ## Files and their names -/

/-- Files are numbered as they are created. -/
structure FileSystem (π β : Type) where
  dir : π → Option Nat
  data : Nat → List β
  next : Nat

namespace FileSystem

variable [DecidableEq π] (fs : FileSystem π β)

/-- What is found under a name. -/
def read (p : π) : Option (List β) := (fs.dir p).map fs.data

/-- Open a file for writing: it is truncated, or created. -/
def create (p : π) : Nat × FileSystem π β :=
  match fs.dir p with
  | some f => (f, ⟨fs.dir, Function.update fs.data f [], fs.next⟩)
  | none =>
    (fs.next, ⟨Function.update fs.dir p (some fs.next), Function.update fs.data fs.next [], fs.next + 1⟩)

/-- Write at a position; what is missing before it is filled up. -/
def writeAt [Inhabited β] (f position : Nat) (bytes : List β) : FileSystem π β :=
  let old := fs.data f
  let before := (old ++ List.replicate (position - old.length) default).take position
  { fs with data := Function.update fs.data f (before ++ bytes ++ old.drop (position + bytes.length)) }

/-- Rename a file over another one, if there is one. -/
def rename (p q : π) : Option (FileSystem π β) :=
  (fs.dir p).map fun f => { fs with dir := Function.update (Function.update fs.dir p none) q (some f) }

end FileSystem

/-- A name leads to a file that was created, and no two names to one. -/
structure Named (dir : π → Option Nat) (next : Nat) : Prop where
  lt : ∀ {p f}, dir p = some f → f < next
  inj : ∀ {p q f}, dir p = some f → dir q = some f → p = q

section Named

variable [DecidableEq π] {dir : π → Option Nat} {next next' f : Nat} {p : π}

theorem Named.insert (h : Named dir next) (hnew : ∀ q, q ≠ p → dir q ≠ some f) (hf : f < next') (hnext : next ≤ next') :
    Named (Function.update dir p (some f)) next' := by
  refine ⟨fun {q g} hq => ?_, fun {q r g} hq hr => ?_⟩
  · by_cases hqp : q = p
    · subst hqp
      rw [Function.update_self] at hq
      exact Option.some.inj hq ▸ hf
    · rw [Function.update_of_ne hqp] at hq
      exact Nat.lt_of_lt_of_le (h.lt hq) hnext
  · by_cases hqp : q = p <;> by_cases hrp : r = p
    · exact hqp.trans hrp.symm
    · rw [hqp, Function.update_self] at hq
      rw [Function.update_of_ne hrp] at hr
      exact absurd (hr.trans hq.symm) (hnew r hrp)
    · rw [hrp, Function.update_self] at hr
      rw [Function.update_of_ne hqp] at hq
      exact absurd (hq.trans hr.symm) (hnew q hqp)
    · rw [Function.update_of_ne hqp] at hq
      rw [Function.update_of_ne hrp] at hr
      exact h.inj hq hr

theorem update_none_eq_some {q : π} : Function.update dir p none q = some f ↔ q ≠ p ∧ dir q = some f := by
  by_cases hqp : q = p
  · subst hqp
    rw [Function.update_self]
    exact iff_of_false (Option.some_ne_none f).symm fun h => h.1 rfl
  · rw [Function.update_of_ne hqp, and_iff_right hqp]

theorem Named.erase (h : Named dir next) : Named (Function.update dir p none) next :=
  ⟨fun hq => h.lt (update_none_eq_some.mp hq).2,
    fun hq hr => h.inj (update_none_eq_some.mp hq).2 (update_none_eq_some.mp hr).2⟩

/-- A file gets another name. -/
theorem Named.rename (h : Named dir next) (hp : dir p = some f) (q : π) :
    Named (Function.update (Function.update dir p none) q (some f)) next := by
  refine h.erase.insert (fun r _ hr => ?_) (h.lt hp) (Nat.le_refl _)
  obtain ⟨hrp, hr⟩ := update_none_eq_some.mp hr
  exact hrp (h.inj hr hp)

end Named

namespace FileSystem

variable [DecidableEq π] {fs : FileSystem π β}

/-- What opening a file for writing does. -/
structure Created (fs : FileSystem π β) (p : π) (f : Nat) (fs' : FileSystem π β) : Prop where
  dir : fs'.dir = Function.update fs.dir p (some f)
  data : fs'.data = Function.update fs.data f []
  /-- No other file is touched. -/
  other : ∀ {g}, g < fs.next → fs.dir p ≠ some g → g ≠ f
  next : fs.next ≤ fs'.next
  named : Named fs'.dir fs'.next

theorem created (h : Named fs.dir fs.next) (p : π) : fs.Created p (fs.create p).1 (fs.create p).2 := by
  unfold FileSystem.create
  cases hp : fs.dir p with
  | some f =>
    have hdir : fs.dir = Function.update fs.dir p (some f) := by rw [← hp, Function.update_eq_self]
    exact ⟨hdir, rfl, fun _ hg heq => hg (hp.trans (congrArg some heq.symm)), Nat.le_refl _, h⟩
  | none =>
    refine ⟨rfl, rfl, fun hg _ => Nat.ne_of_lt hg, Nat.le_succ _, ?_⟩
    exact h.insert (fun q _ hq => Nat.lt_irrefl _ (h.lt hq)) (Nat.lt_succ_self _) (Nat.le_succ _)

omit [DecidableEq π] in
/-- Appending. -/
theorem data_writeAt [Inhabited β] (f : Nat) (bytes : List β) :
    (fs.writeAt f (fs.data f).length bytes).data = Function.update fs.data f (fs.data f ++ bytes) := by
  simp only [writeAt, Nat.sub_self, List.replicate_zero, List.append_nil, List.take_length]
  rw [List.drop_eq_nil_of_le (Nat.le_add_right _ _), List.append_nil]

end FileSystem

/-! ## Writers and readers -/

/-- What a task replaces and reads, the name it writes under, and what it writes for which values. -/
structure Names (ι π γ β : Type) where
  path : ι → π
  temp : ι → π
  accepts : ι → γ → Bool
  text : ι → γ → List β

inductive Task (γ β : Type) where
  | idle
  /-- So much of the text of a value is in the file. -/
  | saving (value : γ) (f written : Nat)
  | loading (f : Nat) (bytes : List β)

def Task.isSaving : Task γ β → Bool
  | .saving _ _ _ => true
  | _ => false

structure System (ι π γ β : Type) where
  files : FileSystem π β
  tasks : ι → Task γ β

inductive Event (ι γ β : Type) where
  | saved (i : ι) (value : γ)
  | notSaved (i : ι) (value : γ)
  | opened (i : ι)
  | missing (i : ι)
  | loaded (i : ι) (bytes : List β)

inductive Step (ι γ : Type) where
  /-- A task opens its own file, to save a value. -/
  | create (i : ι) (value : γ)
  /-- It writes so many bytes and one more, if there are as many. -/
  | write (i : ι) (n : Nat)
  | rename (i : ι)
  /-- A task opens a file for reading. -/
  | load (i : ι)
  /-- It reads so many bytes and one more, or finds the end. -/
  | read (i : ι) (n : Nat)
  /-- It fails, or is no more. -/
  | abandon (i : ι)

variable [DecidableEq ι] [DecidableEq π] (names : Names ι π γ β)

def System.set (self : System ι π γ β) (i : ι) (task : Task γ β) (files : FileSystem π β) : System ι π γ β :=
  ⟨files, Function.update self.tasks i task⟩

def step [Inhabited β] (self : System ι π γ β) : Step ι γ → Option (List (Event ι γ β) × System ι π γ β)
  | .create i value =>
    match self.tasks i with
    | .idle =>
      if names.accepts i value = true then
        let (f, files) := self.files.create (names.temp i)
        some ([], self.set i (.saving value f 0) files)
      else some ([.notSaved i value], self.set i .idle self.files)
    | _ => none
  | .write i n =>
    match self.tasks i with
    | .saving value f written =>
      let bytes := ((names.text i value).drop written).take (n + 1)
      if bytes = [] then none
      else some ([], self.set i (.saving value f (written + bytes.length)) (self.files.writeAt f written bytes))
    | _ => none
  | .rename i =>
    match self.tasks i with
    | .saving value _ written =>
      if written = (names.text i value).length then
        match self.files.rename (names.temp i) (names.path i) with
        | some files => some ([.saved i value], self.set i .idle files)
        | none => some ([.notSaved i value], self.set i .idle self.files)
      else none
    | _ => none
  | .load i =>
    match self.tasks i with
    | .idle =>
      match self.files.dir (names.path i) with
      | some f => some ([.opened i], self.set i (.loading f []) self.files)
      | none => some ([.missing i], self.set i .idle self.files)
    | _ => none
  | .read i n =>
    match self.tasks i with
    | .loading f bytes =>
      let more := ((self.files.data f).drop bytes.length).take (n + 1)
      if more = [] then some ([.loaded i bytes], self.set i .idle self.files)
      else some ([], self.set i (.loading f (bytes ++ more)) self.files)
    | _ => none
  | .abandon i =>
    match self.tasks i with
    | .saving value _ _ => some ([.notSaved i value], self.set i .idle self.files)
    | .loading _ _ => some ([], self.set i .idle self.files)
    | .idle => none

/-- No two writers share a name: whoever begins to save finds nobody else who saves under its name. -/
def Alone (s : System ι π γ β × List (Event ι γ β)) : Step ι γ → Prop
  | .create i _ => ∀ j, (s.1.tasks j).isSaving = true → names.temp j ≠ names.temp i
  | _ => True

instance [Fintype ι] (s : System ι π γ β × List (Event ι γ β)) (label : Step ι γ) : Decidable (Alone names s label) := by
  cases label <;> unfold Alone <;> infer_instance

/-! ## What a file is -/

/-- Who saves what under a name. -/
def savedUnder (p : π) : Event ι γ β → Option (ι × γ)
  | .saved i value => if names.path i = p then some (i, value) else none
  | _ => none

/-- What was saved last under a name. -/
def lastSaved (p : π) (events : List (Event ι γ β)) : Option (ι × γ) := (events.filterMap (savedUnder names p)).getLast?

/-- What a file should be. -/
def content (initial : FileSystem π β) (p : π) (events : List (Event ι γ β)) : Option (List β) :=
  match lastSaved names p events with
  | some (i, value) => some (names.text i value)
  | none => initial.read p

/-- A reader gets what the file was when it was opened. -/
def Loaded (initial : FileSystem π β) (before : List (Event ι γ β)) : Event ι γ β → Prop
  | .loaded i bytes => ∃ b₁ b₂, before = b₁ ++ .opened i :: b₂ ∧ .opened i ∉ b₂ ∧
      content names initial (names.path i) b₁ = some bytes
  | _ => True

/-- A task and its file. -/
def Fits (initial files : FileSystem π β) (events : List (Event ι γ β)) (i : ι) : Task γ β → Prop
  | .idle => True
  -- it has a name of its own only, and the beginning of a text that is accepted
  | .saving value f written => names.accepts i value = true ∧ files.dir (names.temp i) = some f ∧ written ≤ (names.text i value).length ∧
      files.data f = (names.text i value).take written
  -- it is nobody's to write, and is what it was
  | .loading f bytes => f < files.next ∧ (∀ j, files.dir (names.temp j) ≠ some f) ∧ bytes <+: files.data f ∧
      Loaded names initial events (.loaded i (files.data f))

/-- **The invariant** of the tasks and the files. -/
structure Whole (initial : FileSystem π β) (s : System ι π γ β × List (Event ι γ β)) : Prop where
  named : Named s.1.files.dir s.1.files.next
  fits : ∀ i, Fits names initial s.1.files s.2 i (s.1.tasks i)
  alone : ∀ i j value f written value' f' written', s.1.tasks i = .saving value f written →
    s.1.tasks j = .saving value' f' written' → names.temp i = names.temp j → i = j
  whole : ∀ i, s.1.files.read (names.path i) = content names initial (names.path i) s.2
  accepted : ∀ i value, .saved i value ∈ s.2 → names.accepts i value = true
  loaded : Backed (Loaded names initial) s.2

section Steps

variable {names} {initial : FileSystem π β} {self next : System ι π γ β} {events seen : List (Event ι γ β)} {i : ι}

omit [DecidableEq ι] in
theorem mem_of_lastSaved {p : π} {value : γ} (h : lastSaved names p events = some (i, value)) :
    .saved i value ∈ events ∧ names.path i = p := by
  obtain ⟨e, he, hsaved⟩ := List.mem_filterMap.mp (List.mem_of_getLast? h)
  unfold savedUnder at hsaved
  split at hsaved
  · obtain ⟨hpath, heq⟩ := Option.ite_none_right_eq_some.mp hsaved
    obtain ⟨rfl, rfl⟩ := Prod.mk.inj (Option.some.inj heq)
    exact ⟨he, hpath⟩
  · cases hsaved

omit [DecidableEq ι] in
theorem content_of_lastSaved {p : π} {value : γ} (h : lastSaved names p events = some (i, value)) :
    content names initial p events = some (names.text i value) := by
  rw [content, h]

omit [DecidableEq ι] in
theorem content_append {p : π} (hseen : ∀ e ∈ seen, savedUnder names p e = none) :
    content names initial p (events ++ seen) = content names initial p events := by
  have hnone : seen.filterMap (savedUnder names p) = [] := List.filterMap_eq_nil_iff.mpr hseen
  unfold content lastSaved
  rw [List.filterMap_append, hnone, List.append_nil]

omit [DecidableEq ι] in
theorem content_saved (value : γ) (p : π) :
    content names initial p (events ++ [.saved i value]) =
      if names.path i = p then some (names.text i value) else content names initial p events := by
  by_cases hp : names.path i = p
  · have hsaved : savedUnder names p (.saved i value : Event ι γ β) = some (i, value) := if_pos hp
    unfold content lastSaved
    rw [if_pos hp, List.filterMap_append, List.filterMap_cons_some hsaved, List.filterMap_nil, List.getLast?_concat]
  · rw [if_neg hp]
    exact content_append fun e he => List.mem_singleton.mp he ▸ if_neg hp

omit [DecidableEq ι] in
/-- A reader who does not open a file again. -/
theorem Loaded.append {bytes : List β} (h : Loaded names initial events (.loaded i bytes)) (hseen : .opened i ∉ seen) :
    Loaded names initial (events ++ seen) (.loaded i bytes) := by
  obtain ⟨b₁, b₂, rfl, hopened, hcontent⟩ := h
  refine ⟨b₁, b₂ ++ seen, ?_, ?_, hcontent⟩
  · rw [List.append_assoc, List.cons_append]
  · rw [List.mem_append]
    rintro (hold | hnew)
    · exact hopened hold
    · exact hseen hnew

omit [DecidableEq ι] in
/-- The others, when the files change. -/
theorem Fits.mono {files files' : FileSystem π β} {task : Task γ β} (h : Fits names initial files events i task)
    (hnext : files.next ≤ files'.next) (hseen : .opened i ∉ seen)
    (hsaving : ∀ value f written, task = .saving value f written → files.dir (names.temp i) = some f →
      files'.dir (names.temp i) = some f ∧ files'.data f = files.data f)
    (hloading : ∀ f, f < files.next → (∀ j, files.dir (names.temp j) ≠ some f) →
      (∀ j, files'.dir (names.temp j) ≠ some f) ∧ files'.data f = files.data f) :
    Fits names initial files' (events ++ seen) i task := by
  cases task with
  | idle => trivial
  | saving value f written =>
    obtain ⟨haccepts, hdir, hle, hdata⟩ := h
    obtain ⟨hdir', hdata'⟩ := hsaving value f written rfl hdir
    exact ⟨haccepts, hdir', hle, hdata'.trans hdata⟩
  | loading f bytes =>
    obtain ⟨hlt, htemps, hprefix, hloaded⟩ := h
    obtain ⟨htemps', hdata'⟩ := hloading f hlt htemps
    exact ⟨Nat.lt_of_lt_of_le hlt hnext, htemps', hdata'.symm ▸ hprefix, (hdata'.symm ▸ hloaded).append hseen⟩

/-- **One task moves.** -/
theorem Whole.move (h : Whole names initial (self, events)) {task : Task γ β} {files : FileSystem π β}
    (hnamed : Named files.dir files.next)
    (hothers : ∀ j, j ≠ i → Fits names initial files (events ++ seen) j (self.tasks j))
    (hself : Fits names initial files (events ++ seen) i task)
    (halone : ∀ value f written, task = .saving value f written → ∀ j, j ≠ i → ∀ value' f' written',
      self.tasks j = .saving value' f' written' → names.temp j ≠ names.temp i)
    (hwhole : ∀ j, files.read (names.path j) = content names initial (names.path j) (events ++ seen))
    (haccepted : ∀ j value, .saved j value ∈ seen → names.accepts j value = true)
    (hloaded : Backed (fun before => Loaded names initial (events ++ before)) seen) :
    Whole names initial (self.set i task files, events ++ seen) := by
  have htasks : ∀ j, (self.set i task files).tasks j = if j = i then task else self.tasks j :=
    fun j => Function.update_apply self.tasks i task j
  refine ⟨hnamed, fun j => ?_, ?_, hwhole, fun j value hmem => ?_, backed_append h.loaded hloaded⟩
  · show Fits names initial files _ j ((self.set i task files).tasks j)
    rw [htasks]
    split
    · rename_i hj
      exact hj ▸ hself
    · rename_i hj
      exact hothers j hj
  · intro j k value f written value' f' written' hj hk htemp
    change (self.set i task files).tasks j = _ at hj
    change (self.set i task files).tasks k = _ at hk
    rw [htasks] at hj hk
    split at hj <;> split at hk
    · rename_i hji hki
      exact hji.trans hki.symm
    · rename_i hji hki
      exact absurd (hji ▸ htemp).symm (halone value f written hj k hki _ _ _ hk)
    · rename_i hji hki
      exact absurd (hki ▸ htemp) (halone value' f' written' hk j hji _ _ _ hj)
    · exact h.alone j k value f written value' f' written' hj hk htemp
  · rcases List.mem_append.mp hmem with hold | hnew
    · exact h.accepted j value hold
    · exact haccepted j value hnew

/-- A task that stops, or reads, with the files as they are. -/
theorem Whole.stay (h : Whole names initial (self, events)) {task : Task γ β} (hsaving : ∀ value f written, task ≠ .saving value f written)
    (hself : Fits names initial self.files (events ++ seen) i task) (hopened : ∀ j, j ≠ i → .opened j ∉ seen)
    (hsaved : ∀ e ∈ seen, ∀ p, savedUnder names p e = none)
    (hloaded : Backed (fun before => Loaded names initial (events ++ before)) seen) :
    Whole names initial (self.set i task self.files, events ++ seen) := by
  refine h.move h.named (fun j hj => ?_) hself (fun value f written htask => absurd htask (hsaving value f written))
    (fun j => ?_) (fun j value hmem => ?_) hloaded
  · exact (h.fits j).mono (Nat.le_refl _) (hopened j hj) (fun _ _ _ _ hdir => ⟨hdir, rfl⟩) fun _ _ htemps => ⟨htemps, rfl⟩
  · rw [content_append fun e he => hsaved e he _]
    exact h.whole j
  · have hnone := hsaved _ hmem (names.path j)
    rw [savedUnder, if_pos rfl] at hnone
    cases hnone

/-- A task that stops, and what is seen of that. -/
theorem Whole.stop (h : Whole names initial (self, events)) {e : Event ι γ β} (hopened : ∀ j, e ≠ .opened j)
    (hsaved : ∀ p, savedUnder names p e = none) (hloaded : Loaded names initial events e) :
    Whole names initial (self.set i .idle self.files, events ++ [e]) := by
  refine h.stay (fun _ _ _ htask => by cases htask) trivial (fun j _ hmem => ?_)
    (fun e' he p => List.mem_singleton.mp he ▸ hsaved p) (backed_singleton ?_)
  · exact hopened j (List.mem_singleton.mp hmem).symm
  · rwa [List.append_nil]

/-- The end of a prefix that has been reached. -/
theorem prefix_append_take {l l' : List β} (h : l <+: l') (n : Nat) : l ++ (l'.drop l.length).take n <+: l' := by
  obtain ⟨rest, rfl⟩ := h
  rw [List.drop_left, List.prefix_append_right_inj]
  exact List.take_prefix n rest

theorem eq_of_prefix_of_take {l l' : List β} (h : l <+: l') {n : Nat} (hnil : (l'.drop l.length).take (n + 1) = []) :
    l = l' := by
  obtain ⟨rest, rfl⟩ := h
  rw [List.drop_left, List.take_eq_nil_iff] at hnil
  rcases hnil with hzero | hrest
  · cases hzero
  · rw [hrest, List.append_nil]

section Alone

variable [Inhabited β] (happart : ∀ i j, names.temp i ≠ names.path j)
include happart

/-- A writer begins. -/
theorem whole_create {value : γ} (h : Whole names initial (self, events)) (halone : Alone names (self, events) (.create i value))
    (hstep : step names self (.create i value) = some (seen, next)) : Whole names initial (next, events ++ seen) := by
  simp only [step] at hstep
  split at hstep
  · split at hstep
    · rename_i haccepts
      obtain ⟨rfl, rfl⟩ := Prod.mk.inj (Option.some.inj hstep)
      have hcreated := FileSystem.created h.named (names.temp i)
      have hdir : ∀ p, p ≠ names.temp i → (self.files.create (names.temp i)).2.dir p = self.files.dir p := by
        intro p hp
        rw [hcreated.dir, Function.update_of_ne hp]
      have hdata : ∀ f, f < self.files.next → self.files.dir (names.temp i) ≠ some f →
          (self.files.create (names.temp i)).2.data f = self.files.data f := by
        intro f hlt hf
        rw [hcreated.data, Function.update_of_ne (hcreated.other hlt hf)]
      refine h.move hcreated.named (fun j hj => ?_) ⟨haccepts, ?_, Nat.zero_le _, ?_⟩ ?_
          (fun j => ?_) (fun j value' hmem => absurd hmem List.not_mem_nil) ?_
      · refine (h.fits j).mono hcreated.next List.not_mem_nil (fun value' f written htask hf => ?_) fun f hlt htemps => ?_
        · have hne : names.temp j ≠ names.temp i := halone j (congrArg Task.isSaving htask)
          exact ⟨(hdir _ hne).trans hf, hdata f (h.named.lt hf) fun hi => hne (h.named.inj hf hi)⟩
        · refine ⟨fun k hk => ?_, hdata f hlt (htemps i)⟩
          rw [hcreated.dir] at hk
          by_cases hki : names.temp k = names.temp i
          · rw [hki, Function.update_self] at hk
            exact hcreated.other hlt (htemps i) (Option.some.inj hk).symm
          · rw [Function.update_of_ne hki] at hk
            exact htemps k hk
      · rw [hcreated.dir, Function.update_self]
      · rw [hcreated.data, Function.update_self, List.take_zero]
      · intro _ _ _ _ j _ value' f' written' htask
        exact halone j (congrArg Task.isSaving htask)
      · rw [content_append fun e he => absurd he List.not_mem_nil, ← h.whole j]
        have hpath := hdir (names.path j) (happart i j).symm
        unfold FileSystem.read
        rw [hpath]
        cases hj : self.files.dir (names.path j) with
        | none => rfl
        | some f => exact congrArg some (hdata f (h.named.lt hj) fun hi => happart i j (h.named.inj hi hj))
      · exact backed_nil
    · obtain ⟨rfl, rfl⟩ := Prod.mk.inj (Option.some.inj hstep)
      exact h.stop (fun _ he => by cases he) (fun _ => rfl) trivial
  · cases hstep

/-- A writer goes on. -/
theorem whole_write {n : Nat} (h : Whole names initial (self, events))
    (hstep : step names self (.write i n) = some (seen, next)) : Whole names initial (next, events ++ seen) := by
  simp only [step] at hstep
  split at hstep
  · rename_i value f written hsaving
    obtain ⟨-, heq⟩ := Option.ite_none_left_eq_some.mp hstep
    obtain ⟨rfl, rfl⟩ := Prod.mk.inj (Option.some.inj heq)
    obtain ⟨haccepts, hdir, hle, hdata⟩ : Fits names initial self.files events i (.saving value f written) := hsaving ▸ h.fits i
    have hlength : (self.files.data f).length = written := by rw [hdata, List.length_take_of_le hle]
    generalize hbytes : ((names.text i value).drop written).take (n + 1) = bytes
    have hprefix : self.files.data f ++ bytes <+: names.text i value := by
      rw [← hbytes, ← hlength]
      exact prefix_append_take (hdata ▸ List.take_prefix written _) (n + 1)
    have hnew : (self.files.writeAt f written bytes).data =
        Function.update self.files.data f (self.files.data f ++ bytes) := by
      rw [← hlength]
      exact FileSystem.data_writeAt f bytes
    have hother : ∀ g, g ≠ f → (self.files.writeAt f written bytes).data g = self.files.data g := by
      intro g hg
      rw [hnew, Function.update_of_ne hg]
    refine h.move h.named (fun j hj => ?_) ⟨haccepts, hdir, ?_, ?_⟩ ?_ (fun j => ?_)
      (fun j value' hmem => absurd hmem List.not_mem_nil) backed_nil
    · refine (h.fits j).mono (Nat.le_refl _) List.not_mem_nil (fun value' g written' htask hg => ⟨hg, hother g ?_⟩)
        fun g _ htemps => ⟨htemps, hother g ?_⟩
      · rintro rfl
        exact hj (h.alone j i _ _ _ _ _ _ htask hsaving (h.named.inj hg hdir))
      · rintro rfl
        exact htemps i hdir
    · rw [← hlength, ← List.length_append]
      exact hprefix.length_le
    · rw [hnew, Function.update_self, ← hlength, ← List.length_append]
      exact List.prefix_iff_eq_take.mp hprefix
    · intro _ _ _ _ j hj value' f' written' htask htemp
      exact hj (h.alone j i _ _ _ _ _ _ htask hsaving htemp)
    · rw [content_append fun e he => absurd he List.not_mem_nil, ← h.whole j]
      show (self.files.dir (names.path j)).map _ = (self.files.dir (names.path j)).map _
      cases hj : self.files.dir (names.path j) with
      | none => rfl
      | some g =>
        refine congrArg some (hother g ?_)
        rintro rfl
        exact happart i j (h.named.inj hdir hj)
  · cases hstep

/-- A writer has done. -/
theorem whole_rename (h : Whole names initial (self, events))
    (hstep : step names self (.rename i) = some (seen, next)) : Whole names initial (next, events ++ seen) := by
  simp only [step] at hstep
  split at hstep
  · rename_i value f written hsaving
    obtain ⟨hfull, heq⟩ := Option.ite_none_right_eq_some.mp hstep
    obtain ⟨haccepts, hdir, -, hdata⟩ : Fits names initial self.files events i (.saving value f written) := hsaving ▸ h.fits i
    rw [hfull, List.take_length] at hdata
    rw [FileSystem.rename, hdir] at heq
    obtain ⟨rfl, rfl⟩ := Prod.mk.inj (Option.some.inj heq)
    have hnone : ∀ j, .opened j ∉ [(.saved i value : Event ι γ β)] := fun j hj => by
      cases List.mem_singleton.mp hj
    have htemps : ∀ k, Function.update (Function.update self.files.dir (names.temp i) none) (names.path i) (some f)
        (names.temp k) = if names.temp k = names.temp i then none else self.files.dir (names.temp k) := by
      intro k
      rw [Function.update_of_ne (happart k i), Function.update_apply]
    refine h.move (h.named.rename hdir _) (fun j hj => ?_) trivial (fun _ _ _ htask => by cases htask) (fun j => ?_)
      (fun j value' hmem => ?_) ?_
    · refine (h.fits j).mono (Nat.le_refl _) (hnone j) (fun value' g written' htask hg => ⟨?_, rfl⟩)
        fun g _ hg => ⟨fun k hk => ?_, rfl⟩
      · have hne : names.temp j ≠ names.temp i := fun heq => hj (h.alone j i _ _ _ _ _ _ htask hsaving heq)
        exact (htemps j).trans ((if_neg hne).trans hg)
      · obtain ⟨-, hk⟩ := Option.ite_none_left_eq_some.mp ((htemps k).symm.trans hk)
        exact hg k hk
    · rw [content_saved]
      show (Function.update (Function.update self.files.dir (names.temp i) none) (names.path i) (some f)
        (names.path j)).map self.files.data = _
      by_cases hpath : names.path i = names.path j
      · rw [if_pos hpath, hpath, Function.update_self]
        exact congrArg some hdata
      · rw [if_neg hpath, Function.update_of_ne (Ne.symm hpath), Function.update_of_ne (happart i j).symm]
        exact h.whole j
    · cases List.mem_singleton.mp hmem
      exact haccepts
    · exact backed_of_forall fun e he _ => List.mem_singleton.mp he ▸ trivial
  · cases hstep

/-- A reader begins. -/
theorem whole_load (h : Whole names initial (self, events))
    (hstep : step names self (.load i) = some (seen, next)) : Whole names initial (next, events ++ seen) := by
  simp only [step] at hstep
  split at hstep
  · split at hstep
    · rename_i f hf
      obtain ⟨rfl, rfl⟩ := Prod.mk.inj (Option.some.inj hstep)
      refine h.stay (fun _ _ _ htask => by cases htask) ⟨h.named.lt hf, fun j hj => ?_, List.nil_prefix, ?_⟩
        (fun j hj hmem => ?_) (fun e he p => List.mem_singleton.mp he ▸ rfl)
        (backed_of_forall fun e he _ => List.mem_singleton.mp he ▸ trivial)
      · exact happart j i (h.named.inj hj hf)
      · refine ⟨events, [], rfl, List.not_mem_nil, (h.whole i).symm.trans ?_⟩
        exact congrArg (Option.map self.files.data) hf
      · cases List.mem_singleton.mp hmem
        exact hj rfl
    · obtain ⟨rfl, rfl⟩ := Prod.mk.inj (Option.some.inj hstep)
      exact h.stop (fun _ he => by cases he) (fun _ => rfl) trivial
  · cases hstep

omit happart in
/-- A reader goes on, and gets what the file was. -/
theorem whole_read {n : Nat} (h : Whole names initial (self, events))
    (hstep : step names self (.read i n) = some (seen, next)) : Whole names initial (next, events ++ seen) := by
  simp only [step] at hstep
  split at hstep
  · rename_i f bytes hloading
    obtain ⟨hlt, htemps, hprefix, hloaded⟩ : Fits names initial self.files events i (.loading f bytes) :=
      hloading ▸ h.fits i
    split at hstep
    · rename_i hend
      obtain ⟨rfl, rfl⟩ := Prod.mk.inj (Option.some.inj hstep)
      rw [← eq_of_prefix_of_take hprefix hend] at hloaded
      exact h.stop (fun _ he => by cases he) (fun _ => rfl) hloaded
    · obtain ⟨rfl, rfl⟩ := Prod.mk.inj (Option.some.inj hstep)
      refine h.stay (fun _ _ _ htask => by cases htask) ⟨hlt, htemps, prefix_append_take hprefix _, ?_⟩
        (fun _ _ => List.not_mem_nil) (fun e he => absurd he List.not_mem_nil) backed_nil
      rwa [List.append_nil]
  · cases hstep

omit happart in
/-- A task breaks off. -/
theorem whole_abandon (h : Whole names initial (self, events))
    (hstep : step names self (.abandon i) = some (seen, next)) : Whole names initial (next, events ++ seen) := by
  simp only [step] at hstep
  split at hstep
  · obtain ⟨rfl, rfl⟩ := Prod.mk.inj (Option.some.inj hstep)
    exact h.stop (fun _ he => by cases he) (fun _ => rfl) trivial
  · obtain ⟨rfl, rfl⟩ := Prod.mk.inj (Option.some.inj hstep)
    exact h.stay (fun _ _ _ htask => by cases htask) trivial (fun _ _ => List.not_mem_nil)
      (fun e he => absurd he List.not_mem_nil) backed_nil
  · cases hstep

/-- **One step**, when no two writers share a name. -/
theorem whole_step {label : Step ι γ} (h : Whole names initial (self, events)) (halone : Alone names (self, events) label)
    (hstep : step names self label = some (seen, next)) : Whole names initial (next, events ++ seen) := by
  cases label with
  | create i value => exact whole_create happart h halone hstep
  | write i n => exact whole_write happart h hstep
  | rename i => exact whole_rename happart h hstep
  | load i => exact whole_load happart h hstep
  | read i n => exact whole_read h hstep
  | abandon i => exact whole_abandon h hstep

end Alone

end Steps

/-! ## Whole runs -/

variable [Inhabited β]

/-- Everybody is idle, and there may be any files. -/
def start (files : FileSystem π β) : System ι π γ β := ⟨files, fun _ => .idle⟩

variable {names} {files : FileSystem π β} {steps : List (Step ι γ)} {s : System ι π γ β × List (Event ι γ β)}

/-- **Files are replaced as a whole**, when no two writers share a name. -/
theorem whole_run (happart : ∀ i j, names.temp i ≠ names.path j) (hnamed : Named files.dir files.next)
    (hrun : run (noted (step names)) (start files, []) steps = some s)
    (halone : Meets (noted (step names)) (Alone names) (start files, []) steps) : Whole names files s := by
  have hstart : Whole names files (start files, []) :=
    ⟨hnamed, fun _ => trivial, fun _ _ _ _ _ _ _ _ hi => (by cases hi), fun _ => rfl,
      fun _ _ hmem => absurd hmem List.not_mem_nil, backed_nil⟩
  refine meets_inv ?_ hstart halone hrun
  rintro ⟨self, events⟩ label s' h hok hstep
  obtain ⟨seen, next, hnext, rfl⟩ := noted_eq_some.mp hstep
  exact whole_step happart h hok hnext

/-! ## Writers who share a name -/

/-- So many bytes are written at once, if it is any. -/
def writes (i : ι) : Nat → List (Step ι γ)
  | 0 => []
  | n + 1 => [.write i n]

/-- A state in which one task has got on with its text. -/
structure Written (names : Names ι π γ β) (s s' : System ι π γ β) (i : ι) (value : γ) (f n : Nat) : Prop where
  dir : s'.files.dir = s.files.dir
  data : s'.files.data f = (names.text i value).take n
  tasks : s'.tasks = Function.update s.tasks i (.saving value f n)

theorem writes_run (names : Names ι π γ β) (events : List (Event ι γ β)) {self : System ι π γ β} {i : ι} {value : γ} {f n : Nat}
    (htask : self.tasks i = .saving value f 0) (hdata : self.files.data f = []) (hn : n ≤ (names.text i value).length) :
    ∃ next, run (noted (step names)) (self, events) (writes i n) = some (next, events) ∧
      Written names self next i value f n := by
  cases n with
  | zero =>
    refine ⟨self, rfl, rfl, ?_, ?_⟩
    · rw [hdata, List.take_zero]
    · rw [← htask, Function.update_eq_self]
  | succ n =>
    have hlength : ((names.text i value).take (n + 1)).length = n + 1 := List.length_take_of_le hn
    have hsome : (names.text i value).take (n + 1) ≠ [] := fun hnil => by
      rw [hnil] at hlength
      cases hlength
    have hstep : step names self (.write i n) = some ([],
        self.set i (.saving value f (n + 1)) (self.files.writeAt f 0 ((names.text i value).take (n + 1)))) := by
      simp only [step, htask, List.drop_zero, if_neg hsome, hlength, Nat.zero_add]
    refine ⟨self.set i (.saving value f (n + 1)) (self.files.writeAt f 0 ((names.text i value).take (n + 1))),
      ?_, rfl, ?_, rfl⟩
    · rw [writes, run_cons, noted, hstep]
      exact congrArg (fun events => some (_, events)) (List.append_nil events)
    · have hwrite : (self.files.writeAt f (self.files.data f).length ((names.text i value).take (n + 1))).data = _ :=
        FileSystem.data_writeAt f _
      rw [hdata, List.length_nil] at hwrite
      show (self.files.writeAt f 0 _).data f = _
      rw [hwrite, Function.update_self, List.nil_append]

/-- **A file is torn** by two writers who share a name: one of them succeeds, and leaves any beginning of the other's
    text. -/
theorem torn_run {i j : ι} (hij : i ≠ j) (htemp : names.temp i = names.temp j) {a b : γ}
    (ha : names.accepts i a = true) (hb : names.accepts j b = true) {n : Nat} (hn : n ≤ (names.text j b).length)
    (hnamed : Named files.dir files.next) :
    ∃ steps next, run (noted (step names)) (start files, []) steps = some (next, [.saved i a]) ∧
      next.files.read (names.path i) = some ((names.text j b).take n) := by
  -- one writes all of its text
  obtain ⟨f, hf⟩ : ∃ f, f = (files.create (names.temp i)).1 := ⟨_, rfl⟩
  have hcreated := FileSystem.created hnamed (names.temp i)
  rw [← hf] at hcreated
  obtain ⟨s₁, hs₁⟩ : ∃ s₁, s₁ = (start files).set i (.saving a f 0) (files.create (names.temp i)).2 := ⟨_, rfl⟩
  have hstep₁ : noted (step names) (start files, []) (.create i a) = some (s₁, []) := by
    rw [hs₁, hf]
    simp only [noted, step, start, ha, if_true, Option.map_some, List.append_nil]
  have htask₁ : s₁.tasks i = .saving a f 0 := by
    rw [hs₁]
    exact Function.update_self ..
  have hfiles₁ : s₁.files = (files.create (names.temp i)).2 := by
    rw [hs₁]
    rfl
  have hdata₁ : s₁.files.data f = [] := by
    rw [hfiles₁, hcreated.data, Function.update_self]
  obtain ⟨s₂, hrun₂, hwritten₂⟩ := writes_run names [] htask₁ hdata₁ (Nat.le_refl _)
  -- the other truncates it, and writes some of its own
  have hdir₂ : s₂.files.dir (names.temp j) = some f := by
    rw [hwritten₂.dir, hfiles₁, hcreated.dir, htemp, Function.update_self]
  have hidle₂ : s₂.tasks j = .idle := by
    rw [hwritten₂.tasks, Function.update_of_ne hij.symm, hs₁]
    exact Function.update_of_ne hij.symm _ _
  obtain ⟨s₃, hs₃⟩ : ∃ s₃, s₃ = s₂.set j (.saving b f 0)
      ⟨s₂.files.dir, Function.update s₂.files.data f [], s₂.files.next⟩ := ⟨_, rfl⟩
  have hstep₃ : noted (step names) (s₂, []) (.create j b) = some (s₃, []) := by
    rw [hs₃]
    simp only [noted, step, hidle₂, hb, if_true, FileSystem.create, hdir₂, Option.map_some, List.append_nil]
  have htask₃ : s₃.tasks j = .saving b f 0 := by
    rw [hs₃]
    exact Function.update_self ..
  have hdata₃ : s₃.files.data f = [] := by
    rw [hs₃]
    exact Function.update_self ..
  obtain ⟨s₄, hrun₄, hwritten₄⟩ := writes_run names [] htask₃ hdata₃ hn
  -- the first is done
  have hdir₄ : s₄.files.dir (names.temp i) = some f := by
    rw [hwritten₄.dir, hs₃, htemp]
    exact hdir₂
  have htask₄ : s₄.tasks i = .saving a f (names.text i a).length := by
    rw [hwritten₄.tasks, Function.update_of_ne hij, hs₃]
    show Function.update s₂.tasks j _ i = _
    rw [Function.update_of_ne hij, hwritten₂.tasks, Function.update_self]
  obtain ⟨s₅, hs₅⟩ : ∃ s₅, s₅ = s₄.set i .idle ⟨Function.update (Function.update s₄.files.dir (names.temp i) none)
      (names.path i) (some f), s₄.files.data, s₄.files.next⟩ := ⟨_, rfl⟩
  have hstep₅ : noted (step names) (s₄, []) (.rename i) = some (s₅, [.saved i a]) := by
    rw [hs₅]
    simp only [noted, step, htask₄, if_true, FileSystem.rename, hdir₄, Option.map_some, List.nil_append]
  refine ⟨.create i a :: (writes i (names.text i a).length ++ .create j b :: (writes j n ++ [.rename i])), s₅, ?_, ?_⟩
  · rw [run_cons, hstep₁, Option.bind_some, run_append, hrun₂, Option.bind_some, run_cons, hstep₃, Option.bind_some,
      run_append, hrun₄, Option.bind_some, run_cons, hstep₅, Option.bind_some, run_nil]
  · rw [hs₅]
    show (Function.update (Function.update s₄.files.dir (names.temp i) none) (names.path i) (some f)
      (names.path i)).map s₄.files.data = _
    rw [Function.update_self]
    exact congrArg some hwritten₄.data

end Replace

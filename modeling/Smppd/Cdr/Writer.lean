/-
  CDR FILES (`src/cdr/writer.rs`): a directory with one file for each day, and the writers that append to them, one
  process after the other.

  A writer that has no file yet, or whose file is that of another day, opens the file of today for APPENDING, and
  writes the CSV header.  It does not look whether the file is new.  So the file of a day on which the process was
  restarted between two records has the header in its middle; and a writer that does not rotate leaves the records
  of all days in the first day's file.  `csv_files_iff` says that nothing else goes wrong.

  The buffer of a writer is transparent: what is in it reaches the file in order, at the latest when the writer is
  dropped.  A process that is killed with a record in the buffer is not considered, and no call of the operating
  system fails.
-/
import Mathlib.Data.List.Infix
import Smppd.Lib.Machine
import Smppd.Lib.Table
import Smppd.Cdr.Types

set_option linter.unusedVariables false

namespace Smppd.Cdr

open Machine Table Csv

/-! ## The writer -/

/-- What the `chrono` crate knows about dates: how `format("%Y%m%d")` writes them, and that it writes no two alike. -/
structure Calendar (Date : Type) where
  format : Date → List Char
  injective : Function.Injective format

/-- CDR output format. -/
inductive CdrFormat where
  /-- One JSON object per line. -/
  | json
  | csv
  /-- Custom delimited format. -/
  | delimited (delim : Char)
  deriving DecidableEq

/-- CDR writer configuration. -/
structure CdrConfig where
  format : CdrFormat := .json
  /-- Rotate files daily. -/
  rotateDaily : Bool := true

variable {Date : Type}

/-- The file that a writer has open. -/
structure CurrentFile (Date : Type) where
  path : List Char
  date : Date
  records : UInt64

/-- File-based CDR writer, for one directory. -/
structure FileCdrWriter (Date : Type) where
  config : CdrConfig
  currentFile : Option (CurrentFile Date)

/-- The files of the directory. -/
abbrev Files := Tbl (List Char) (List Char)

/-- Text is appended to a file, which is created if need be. -/
def Files.append (path text : List Char) (files : Files) : Files :=
  files.insert path ((files.lookup path).getD [] ++ text)

/-- The discriminant of a CDR type. -/
def typeCode : CdrType → Nat
  | .submit => 0
  | .delivery => 1
  | .mobileOriginated => 2
  | .query => 3

namespace FileCdrWriter

/-- `FileCdrWriter::new`. -/
def new (config : CdrConfig) : FileCdrWriter Date := ⟨config, none⟩

/-- `filename_for_date`. -/
def filenameForDate (calendar : Calendar Date) (date : Date) (self : FileCdrWriter Date) : List Char :=
  let ext :=
    match self.config.format with
    | .json => "jsonl"
    | .csv => "csv"
    | .delimited _ => "txt"
  "cdr_".toList ++ calendar.format date ++ '.' :: ext.toList

variable [DecidableEq Date]

/-- `get_or_create_file`: get current file, rotating if needed. -/
def getOrCreateFile (calendar : Calendar Date) (today : Date) (files : Files) (self : FileCdrWriter Date) :
    FileCdrWriter Date × Files :=
  let needsRotation :=
    match self.currentFile with
    | some cf => self.config.rotateDaily && decide (cf.date ≠ today)
    | none => true
  if needsRotation then
    let path := self.filenameForDate calendar today
    let files := files.append path []
    let files := if self.config.format = .csv then files.append path (csvHeader ++ ['\n']) else files
    ({ self with currentFile := some ⟨path, today, 0⟩ }, files)
  else (self, files)

/-- `format_cdr`; `json` is what `serde_json` writes. -/
def formatCdr (json : Cdr → List Char) (cdr : Cdr) (self : FileCdrWriter Date) : List Char :=
  match self.config.format with
  | .json => json cdr
  | .csv => cdr.toCsvLine
  | .delimited delim =>
    cdr.timestamp.toList ++ delim :: (toString (typeCode cdr.cdrType)).toList ++ delim :: cdr.messageId.toList ++
      delim :: cdr.esmeId.toList ++ delim :: (toString cdr.statusCode).toList

/-- `write`: write a CDR record. -/
def write (calendar : Calendar Date) (json : Cdr → List Char) (today : Date) (cdr : Cdr) (files : Files)
    (self : FileCdrWriter Date) : FileCdrWriter Date × Files :=
  let (self, files) := self.getOrCreateFile calendar today files
  let line := self.formatCdr json cdr
  match self.currentFile with
  | some cf =>
    ({ self with currentFile := some { cf with records := cf.records + 1 } }, files.append cf.path (line ++ ['\n']))
  | none => (self, files)

end FileCdrWriter

/-! ## The files of one directory -/

/-- The directory, the writer that is running, and what was written on which day. -/
structure Directory (Date : Type) where
  files : Files
  writer : FileCdrWriter Date
  written : List (Date × Cdr)

/-- A process begins, or it writes a record. -/
inductive CdrEvent (Date : Type) where
  | create (rotateDaily : Bool)
  | write (today : Date) (cdr : Cdr)

/-- The name of the CSV file of a day. -/
def csvFile (calendar : Calendar Date) (date : Date) : List Char :=
  "cdr_".toList ++ calendar.format date ++ '.' :: "csv".toList

/-- What the file of a day should be: nothing, if nothing was written; else the header, and the records. -/
def csvContent (cdrs : List Cdr) : Option (List Char) :=
  if cdrs = [] then none else some (csvHeader ++ ['\n'] ++ csvText cdrs)

variable [DecidableEq Date]

namespace Directory

/-- An empty directory, and the first process. -/
def new (rotateDaily : Bool) : Directory Date := ⟨∅, .new ⟨.csv, rotateDaily⟩, []⟩

/-- What happens next. -/
def step (calendar : Calendar Date) (json : Cdr → List Char) (s : Directory Date) : CdrEvent Date → Option (Directory Date)
  | .create rotateDaily => some { s with writer := .new ⟨.csv, rotateDaily⟩ }
  | .write today cdr =>
    let (writer, files) := s.writer.write calendar json today cdr s.files
    some ⟨files, writer, s.written ++ [(today, cdr)]⟩

/-- The records that were written on a day, in their order. -/
def recordsOf (day : Date) (s : Directory Date) : List Cdr := (s.written.filter fun w => w.1 = day).map Prod.snd

/-- **The files are well formed**: that of each day is the header, once, and the records of the day. -/
def WellFormed (calendar : Calendar Date) (s : Directory Date) : Prop :=
  ∀ day, s.files.lookup (csvFile calendar day) = csvContent (s.recordsOf day)

/-- **An event that leaves them so**: a write that opens the file of today finds none, and one that does not has the
    file of today open. -/
def Apt (calendar : Calendar Date) (s : Directory Date) : CdrEvent Date → Prop
  | .create rotateDaily => True
  | .write today cdr =>
    match s.writer.currentFile with
    | none => s.files.lookup (csvFile calendar today) = none
    | some cf =>
      if s.writer.config.rotateDaily = true ∧ cf.date ≠ today then s.files.lookup (csvFile calendar today) = none
      else cf.date = today

instance (calendar : Calendar Date) (s : Directory Date) : (event : CdrEvent Date) → Decidable (Apt calendar s event)
  | .create rotateDaily => isTrue trivial
  | .write today cdr =>
    match h : s.writer.currentFile with
    | none => decidable_of_iff (s.files.lookup (csvFile calendar today) = none) (by rw [Apt, h])
    | some cf =>
      decidable_of_iff (if s.writer.config.rotateDaily = true ∧ cf.date ≠ today then
        s.files.lookup (csvFile calendar today) = none else cf.date = today) (by rw [Apt, h])

/-- The writer has a file of its day open, which is there. -/
structure Open (calendar : Calendar Date) (s : Directory Date) : Prop where
  csv : s.writer.config.format = .csv
  path : ∀ cf, s.writer.currentFile = some cf → cf.path = csvFile calendar cf.date
  present : ∀ cf, s.writer.currentFile = some cf → s.files.lookup cf.path ≠ none

end Directory

/-! ## One write -/

theorem lookup_append_self (files : Files) (path text : List Char) :
    (files.append path text).lookup path = some ((files.lookup path).getD [] ++ text) := AList.lookup_insert _

theorem lookup_append_ne_none (files : Files) (path text : List Char) : (files.append path text).lookup path ≠ none := by
  rw [lookup_append_self]
  exact Option.some_ne_none _

theorem lookup_append_of_ne {files : Files} {path path' text : List Char} (hne : path' ≠ path) :
    (files.append path text).lookup path' = files.lookup path' := AList.lookup_insert_ne hne

omit [DecidableEq Date] in
theorem csvFile_injective (calendar : Calendar Date) : Function.Injective (csvFile calendar) := by
  intro a b h
  exact calendar.injective (List.append_cancel_left (List.append_cancel_right h))

/-- The line of a record. -/
def csvLine (cdr : Cdr) : List Char := cdr.toCsvLine ++ ['\n']

theorem csvText_append (cdrs : List Cdr) (cdr : Cdr) : csvText (cdrs ++ [cdr]) = csvText cdrs ++ csvLine cdr := by
  rw [csvText, List.flatMap_append, List.flatMap_singleton]
  rfl

theorem length_csvLine_pos (cdr : Cdr) : 0 < (csvLine cdr).length := by
  rw [csvLine, List.length_append]
  exact Nat.succ_pos _

variable {calendar : Calendar Date} {json : Cdr → List Char}

/-- **What a write does**: it opens the file of today, and writes the header and the line; or it writes the line to
    the file that it has open. -/
theorem write_cases (calendar : Calendar Date) (json : Cdr → List Char) {self : FileCdrWriter Date}
    (hcsv : self.config.format = .csv) (today : Date) (cdr : Cdr) (files : Files) :
    ((∀ cf, self.currentFile = some cf → self.config.rotateDaily = true ∧ cf.date ≠ today) ∧
      self.write calendar json today cdr files =
        ({ self with currentFile := some ⟨csvFile calendar today, today, 1⟩ },
          ((files.append (csvFile calendar today) []).append (csvFile calendar today) (csvHeader ++ ['\n'])).append
            (csvFile calendar today) (csvLine cdr))) ∨
    ∃ cf, self.currentFile = some cf ∧ ¬ (self.config.rotateDaily = true ∧ cf.date ≠ today) ∧
      self.write calendar json today cdr files =
        ({ self with currentFile := some { cf with records := cf.records + 1 } }, files.append cf.path (csvLine cdr)) := by
  obtain ⟨⟨format, rotateDaily⟩, currentFile⟩ := self
  cases hcsv
  cases currentFile with
  | none => exact .inl ⟨nofun, rfl⟩
  | some cf =>
    have hneeds : (rotateDaily && decide (cf.date ≠ today)) = true ↔ rotateDaily = true ∧ cf.date ≠ today := by
      rw [Bool.and_eq_true, decide_eq_true_iff]
    by_cases hrotate : rotateDaily = true ∧ cf.date ≠ today
    · refine .inl ⟨fun cf' hcf => Option.some.inj hcf ▸ hrotate, ?_⟩
      have hopens : (FileCdrWriter.mk ⟨.csv, rotateDaily⟩ (some cf)).getOrCreateFile calendar today files =
          (⟨⟨.csv, rotateDaily⟩, some ⟨csvFile calendar today, today, 0⟩⟩,
            (files.append (csvFile calendar today) []).append (csvFile calendar today) (csvHeader ++ ['\n'])) :=
        if_pos (hneeds.mpr hrotate)
      rw [FileCdrWriter.write, hopens]
      rfl
    · refine .inr ⟨cf, rfl, hrotate, ?_⟩
      have hstays : (FileCdrWriter.mk ⟨.csv, rotateDaily⟩ (some cf)).getOrCreateFile calendar today files =
          (⟨⟨.csv, rotateDaily⟩, some cf⟩, files) :=
        if_neg fun hneeded => hrotate (hneeds.mp hneeded)
      rw [FileCdrWriter.write, hstays]
      rfl

namespace Directory

variable {s s' : Directory Date} {event : CdrEvent Date} {today : Date} {cdr : Cdr}

/-- What the file of a day should be once a record has been written. -/
theorem csvContent_append (cdrs : List Cdr) (cdr : Cdr) :
    csvContent (cdrs ++ [cdr]) = some (csvHeader ++ ['\n'] ++ csvText cdrs ++ csvLine cdr) := by
  rw [csvContent, if_neg (List.append_ne_nil_of_right_ne_nil _ (List.cons_ne_nil _ _)), csvText_append,
    ← List.append_assoc]

/-- The records of a day, after one more. -/
theorem recordsOf_append (s : Directory Date) (files : Files) (writer : FileCdrWriter Date) (day : Date) :
    recordsOf day ⟨files, writer, s.written ++ [(today, cdr)]⟩ =
      if today = day then recordsOf day s ++ [cdr] else recordsOf day s := by
  by_cases hday : today = day
  · rw [if_pos hday]
    simp only [recordsOf, List.filter_append, List.map_append, List.filter_cons, hday, decide_true, if_true,
      List.filter_nil, List.map_cons, List.map_nil]
  · rw [if_neg hday]
    simp only [recordsOf, List.filter_append, List.filter_cons, hday, decide_false, Bool.false_eq_true, if_false,
      List.filter_nil, List.append_nil]

/-- More text is not the same text. -/
theorem append_csvLine_ne (text : List Char) (cdr : Cdr) : text ++ csvLine cdr ≠ text := by
  intro heq
  have hlength := congrArg List.length heq
  rw [List.length_append] at hlength
  have hpos := length_csvLine_pos cdr
  omega

/-- The files of the other days, once a record of today has been written to them as it should. -/
theorem wellFormed_of_today {files : Files} {writer : FileCdrWriter Date} (hwell : s.WellFormed calendar)
    (hother : ∀ day, day ≠ today → files.lookup (csvFile calendar day) = s.files.lookup (csvFile calendar day))
    (htoday : files.lookup (csvFile calendar today) = csvContent (s.recordsOf today ++ [cdr])) :
    WellFormed calendar ⟨files, writer, s.written ++ [(today, cdr)]⟩ := by
  intro day
  rw [recordsOf_append]
  by_cases hday : today = day
  · subst hday
    rw [if_pos rfl]
    exact htoday
  · rw [if_neg hday]
    exact (hother day (Ne.symm hday)).trans (hwell day)

/-- **A write that opens a file**: the files stay well formed just when there was none for today. -/
theorem wellFormed_opened (hwell : s.WellFormed calendar) (writer : FileCdrWriter Date) (today : Date) (cdr : Cdr) :
    WellFormed calendar ⟨((s.files.append (csvFile calendar today) []).append (csvFile calendar today)
        (csvHeader ++ ['\n'])).append (csvFile calendar today) (csvLine cdr), writer, s.written ++ [(today, cdr)]⟩ ↔
      s.files.lookup (csvFile calendar today) = none := by
  have htoday : (((s.files.append (csvFile calendar today) []).append (csvFile calendar today)
      (csvHeader ++ ['\n'])).append (csvFile calendar today) (csvLine cdr)).lookup (csvFile calendar today) =
        some ((s.files.lookup (csvFile calendar today)).getD [] ++ (csvHeader ++ ['\n']) ++ csvLine cdr) := by
    rw [lookup_append_self, lookup_append_self, lookup_append_self, Option.getD_some, Option.getD_some, List.append_nil]
  constructor
  · intro hwell'
    by_contra hsome
    -- the header stands twice in the file
    have hfile := hwell' today
    have hbefore := hwell today
    rw [htoday, recordsOf_append, if_pos rfl, csvContent_append] at hfile
    cases hrecords : recordsOf today s with
    | nil =>
      rw [hrecords] at hbefore
      exact hsome hbefore
    | cons first rest =>
      have hlength := congrArg List.length (Option.some.inj hfile)
      rw [hbefore, csvContent, hrecords, if_neg (List.cons_ne_nil _ _), Option.getD_some] at hlength
      simp only [List.length_append, List.length_singleton] at hlength
      omega
  · intro hnone
    refine wellFormed_of_today hwell (fun day hday => ?_) ?_
    · have hne := (csvFile_injective calendar).ne hday
      rw [lookup_append_of_ne hne, lookup_append_of_ne hne, lookup_append_of_ne hne]
    · have hrecords : recordsOf today s = [] := by
        by_contra hsome
        have hbefore := hwell today
        rw [hnone, csvContent, if_neg hsome] at hbefore
        cases hbefore
      rw [htoday, hnone, hrecords, csvContent_append, Option.getD_none, List.nil_append]
      rw [csvText, List.flatMap_nil, List.append_nil]

/-- **A write to the file that is open**: they stay well formed just when it is that of today. -/
theorem wellFormed_stayed (hwell : s.WellFormed calendar) (writer : FileCdrWriter Date) {date : Date}
    (hpresent : s.files.lookup (csvFile calendar date) ≠ none) (today : Date) (cdr : Cdr) :
    WellFormed calendar ⟨s.files.append (csvFile calendar date) (csvLine cdr), writer, s.written ++ [(today, cdr)]⟩ ↔
      date = today := by
  have hbefore := hwell date
  have hrecords : recordsOf date s ≠ [] := by
    intro hnil
    rw [hnil] at hbefore
    exact hpresent hbefore
  rw [csvContent, if_neg hrecords] at hbefore
  have hdate : (s.files.append (csvFile calendar date) (csvLine cdr)).lookup (csvFile calendar date) =
      some (csvHeader ++ ['\n'] ++ csvText (recordsOf date s) ++ csvLine cdr) := by
    rw [lookup_append_self, hbefore, Option.getD_some]
  constructor
  · intro hwell'
    by_contra hne
    -- the line stands in the file of another day
    have hfile := hwell' date
    rw [hdate, recordsOf_append, if_neg (Ne.symm hne)] at hfile
    have hkept : csvContent (recordsOf date s) = some (csvHeader ++ ['\n'] ++ csvText (recordsOf date s)) :=
      if_neg hrecords
    exact append_csvLine_ne _ cdr (Option.some.inj (hfile.trans hkept))
  · rintro rfl
    refine wellFormed_of_today hwell (fun day hday => ?_) ?_
    · exact lookup_append_of_ne ((csvFile_injective calendar).ne hday)
    · rw [hdate, csvContent_append]

/-- **What a write leads to.** -/
theorem step_write_cases (h : s.Open calendar) (hstep : step calendar json s (.write today cdr) = some s') :
    ((∀ cf, s.writer.currentFile = some cf → s.writer.config.rotateDaily = true ∧ cf.date ≠ today) ∧
      s' = ⟨((s.files.append (csvFile calendar today) []).append (csvFile calendar today) (csvHeader ++ ['\n'])).append
          (csvFile calendar today) (csvLine cdr),
        { s.writer with currentFile := some ⟨csvFile calendar today, today, 1⟩ }, s.written ++ [(today, cdr)]⟩) ∨
    ∃ cf, s.writer.currentFile = some cf ∧ ¬ (s.writer.config.rotateDaily = true ∧ cf.date ≠ today) ∧
      s' = ⟨s.files.append (csvFile calendar cf.date) (csvLine cdr),
        { s.writer with currentFile := some { cf with records := cf.records + 1 } }, s.written ++ [(today, cdr)]⟩ := by
  have hs' : s' = ⟨(s.writer.write calendar json today cdr s.files).2, (s.writer.write calendar json today cdr s.files).1,
      s.written ++ [(today, cdr)]⟩ := (Option.some.inj hstep).symm
  rcases write_cases calendar json h.csv today cdr s.files with ⟨hopens, hwrite⟩ | ⟨cf, hcf, hstays, hwrite⟩
  · rw [hwrite] at hs'
    exact .inl ⟨hopens, hs'⟩
  · rw [hwrite] at hs'
    refine .inr ⟨cf, hcf, hstays, ?_⟩
    rw [← h.path cf hcf]
    exact hs'

/-- What the writer has open is there, after any event. -/
theorem Open.step (h : s.Open calendar) (hstep : step calendar json s event = some s') : s'.Open calendar := by
  cases event with
  | create rotateDaily =>
    cases hstep
    exact ⟨rfl, nofun, nofun⟩
  | write today cdr =>
    obtain ⟨-, rfl⟩ | ⟨cf, hcf, -, rfl⟩ := step_write_cases h hstep
    · refine ⟨h.csv, ?_, ?_⟩
      · intro cf hcf
        obtain rfl := Option.some.inj hcf
        rfl
      · intro cf hcf
        obtain rfl := Option.some.inj hcf
        exact lookup_append_ne_none _ _ _
    · refine ⟨h.csv, ?_, ?_⟩
      · intro cf' hcf'
        obtain rfl := Option.some.inj hcf'
        exact h.path cf hcf
      · intro cf' hcf'
        obtain rfl := Option.some.inj hcf'
        rw [h.path cf hcf]
        exact lookup_append_ne_none _ _ _

/-- **The step lemma.** -/
theorem wellFormed_step_iff (h : s.Open calendar) (hwell : s.WellFormed calendar)
    (hstep : step calendar json s event = some s') : s'.WellFormed calendar ↔ Apt calendar s event := by
  cases event with
  | create rotateDaily =>
    cases hstep
    exact iff_of_true hwell trivial
  | write today cdr =>
    obtain ⟨hopens, rfl⟩ | ⟨cf, hcf, hstays, rfl⟩ := step_write_cases h hstep
    · refine (wellFormed_opened hwell _ today cdr).trans ?_
      unfold Apt
      cases hcf : s.writer.currentFile with
      | none => rfl
      | some cf => exact (iff_of_eq (if_pos (hopens cf hcf))).symm
    · have hpresent := h.present cf hcf
      rw [h.path cf hcf] at hpresent
      refine (wellFormed_stayed hwell _ hpresent today cdr).trans ?_
      unfold Apt
      rw [hcf]
      exact (iff_of_eq (if_neg hstays)).symm

/-! ## Runs -/

/-- **When the files are well formed, exactly.**  For any processes in one directory, one after the other, and any
    records that they write on any days: the files are well formed all along just when no process opens a file that
    is there already, and none that keeps its file open writes a record of another day to it. -/
theorem csv_files_iff (calendar : Calendar Date) (json : Cdr → List Char) (rotateDaily : Bool)
    {events : List (CdrEvent Date)} (hrun : run (step calendar json) (new rotateDaily) events = some s) :
    (∀ before after t, events = before ++ after → run (step calendar json) (new rotateDaily) before = some t →
        t.WellFormed calendar) ↔ Meets (step calendar json) (Apt calendar) (new rotateDaily) events := by
  have hopen : (new rotateDaily : Directory Date).Open calendar := ⟨rfl, nofun, nofun⟩
  have hwell : (new rotateDaily : Directory Date).WellFormed calendar := fun day => rfl
  refine Iff.symm (meets_iff_always ?_ ?_ hopen hwell hrun)
  · exact fun t event t' h hstep => h.step hstep
  · exact fun t event t' h hwell hstep => wellFormed_step_iff h hwell hstep

/-- The file of a day in a well formed directory is read back as the names of the fields, and the records. -/
theorem WellFormed.decode (hwell : s.WellFormed calendar) {day : Date} {content : List Char}
    (hfile : s.files.lookup (csvFile calendar day) = some content) :
    Csv.decode csv content = some (csvNames.map String.toList :: (s.recordsOf day).map csvTexts) := by
  have hcontent := (hwell day).symm.trans hfile
  unfold csvContent at hcontent
  split at hcontent
  · cases hcontent
  · have hencode : csvHeader ++ ['\n'] ++ csvText (recordsOf day s) =
        encode csv (csvNames.map String.toList :: (recordsOf day s).map csvTexts) := by
      rw [csvHeader_eq, csvText_eq]
      simp only [encode, List.flatMap_cons, List.flatMap_nil, List.append_nil]
    rw [← Option.some.inj hcontent, hencode]
    refine decode_encode csv _ fun fields hfields => ?_
    rcases List.mem_cons.mp hfields with rfl | hfields
    · exact List.cons_ne_nil _ _
    · obtain ⟨cdr, -, rfl⟩ := List.mem_map.mp hfields
      exact List.cons_ne_nil _ _

/-! ## A restart -/

/-- Two days. -/
inductive TwoDays where
  | monday
  | tuesday
  deriving DecidableEq

/-- The first of January of 2024 and the day after. -/
def january : Calendar TwoDays where
  format := fun
    | .monday => "20240101".toList
    | .tuesday => "20240102".toList
  injective := by
    intro a b h
    cases a <;> cases b <;> first | rfl | exact absurd h (by decide)

/-- A record of a message. -/
def record (messageId : String) : Cdr := .submit "2024-01-01T00:00:00+00:00" messageId "client" "100" "200"

/-- A record on Monday, and after a restart one on Tuesday. -/
theorem csv_files_over_night :
    ∃ s, run (step january fun _ => []) (new true)
        [.write .monday (record "1"), .create true, .write .tuesday (record "2")] = some s ∧ s.WellFormed january := by
  have hrun : run (step january fun _ => []) (new true)
      [.write .monday (record "1"), .create true, .write .tuesday (record "2")] = some _ := rfl
  refine ⟨_, hrun, ?_⟩
  exact (csv_files_iff january (fun _ => []) true hrun).mpr (by decide +kernel) _ [] _ (List.append_nil _).symm hrun

/-- Two records on Monday, and a restart between them: the header stands between them too. -/
theorem csv_header_twice :
    ∃ s, run (step january fun _ => []) (new true)
        [.write .monday (record "1"), .create true, .write .monday (record "2")] = some s ∧
      s.files.lookup (csvFile january .monday) = some (csvHeader ++ ['\n'] ++ csvLine (record "1") ++
        csvHeader ++ ['\n'] ++ csvLine (record "2")) ∧ ¬ s.WellFormed january := by
  have hrun : run (step january fun _ => []) (new true)
      [.write .monday (record "1"), .create true, .write .monday (record "2")] = some _ := rfl
  refine ⟨_, hrun, by decide +kernel, fun hwell => ?_⟩
  exact absurd (hwell .monday) (by decide +kernel)

end Directory

end Smppd.Cdr

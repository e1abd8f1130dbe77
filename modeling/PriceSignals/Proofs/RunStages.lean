/-
Module: PriceSignals.Proofs.RunStages
Purpose: A run does everything or nothing. Either a stage of it fails, and the first one that does
  decides what is said while nothing is printed, or no stage fails and the whole output is printed.
Main exports:
  Stage, Stage.headline, IsFirst, Settings.Rejects, ConfigFault.IsAt, LoadFault.IsAt, Abort.IsAt,
  Settings.ofFile_cases, loadHistory_cases, Outcome.Warns, Command.HasSettings, Command.HasBars,
  Command.rendering, Command.Completes, Command.run_of_stages, Command.run_cases, run_all_or_nothing
-/
import PriceSignals.Main
import PriceSignals.Proofs.Results
import PriceSignals.Proofs.SortedHistory
import PriceSignals.Proofs.Warmup

namespace PriceSignals

/-! ### Stages -/

/-- The stages of a run that may fail. -/
inductive Stage where
  | readConfig
  | parseConfig
  | checkConfig
  | openInput
  | chooseFormat
  | parseInput
deriving Repr, DecidableEq

/-- The place of a stage in a run. -/
def Stage.rank : Stage → Nat
  | .readConfig => 0
  | .parseConfig => 1
  | .checkConfig => 2
  | .openInput => 3
  | .chooseFormat => 4
  | .parseInput => 5

/-- What is said first about a stage that has failed. -/
def Stage.headline (c : Command) : Stage → String
  | .readConfig | .parseConfig | .checkConfig =>
    "invalid config: " ++ String.ofList (c.config.getD [])
  | .openInput => "failed to open input: " ++ String.ofList c.input
  | .chooseFormat =>
    "unsupported input extension for " ++ String.ofList c.input ++ " (expected .json or .csv)"
  | .parseInput => "failed to parse " ++ String.ofList c.input

/-- Of the stages that fail, the first one and its reason. -/
structure IsFirst {ε : Type} (fails : Stage → ε → Prop) (stage : Stage) (reason : ε) : Prop where
  here : fails stage reason
  first : ∀ {other : Stage} {why : ε}, fails other why → stage.rank ≤ other.rank

/-- The first failure of a part of a run is the first of the run if all others come later. -/
theorem IsFirst.of_part {δ ε : Type} {part : Stage → δ → Prop} {whole : Stage → ε → Prop}
    {stage : Stage} {reason : δ} (first : IsFirst part stage reason) {because : ε}
    (here : whole stage because)
    (others : ∀ {other why}, whole other why →
      stage.rank ≤ other.rank ∨ ∃ detail, part other detail) :
    IsFirst whole stage because where
  here := here
  first fails := by
    rcases others fails with later | ⟨detail, inside⟩
    · exact later
    · exact first.first inside

/-!
Whether a stage fails is told by the files alone, whatever becomes of the stages before it. So a
file that cannot be opened and has no known extension fails at two stages, and only their order
decides which of them is told.
-/

/-- A stage of the settings fails on a text. -/
inductive Settings.Rejects (cs : List Char) : Stage → Settings.ReadError → Prop where
  | parse {error : Toml.Error} (decoded : Toml.decode Settings.ofToml cs = .error error) :
      Rejects cs .parseConfig (.text error)
  | check {s : Settings} {fault : SettingsFault} (decoded : Toml.decode Settings.ofToml cs = .ok s)
      (faulty : s.fault? = some fault) :
      Rejects cs .checkConfig (.settings fault)

/-- A stage of the settings fails on a file. -/
inductive ConfigFault.IsAt (file : Opened) : Stage → ConfigFault → Prop where
  | read {fault : FileFault} (text : file.text = .error fault) :
      IsAt file .readConfig (.file fault)
  | content {cs : List Char} {stage : Stage} {error : Settings.ReadError}
      (text : file.text = .ok cs) (rejects : Settings.Rejects cs stage error) :
      IsAt file stage (.content error)

/-- A stage of the input fails on a path and its file. -/
inductive LoadFault.IsAt (path : List Char) (file : Opened) : Stage → LoadFault → Prop where
  | opening {fault : FileFault} (opened : file = .failed fault) :
      IsAt path file .openInput (.cannotOpen fault)
  | extension (nameless : HistoryFormat.ofPath? path = none) :
      IsAt path file .chooseFormat .unknownFormat
  | directory {format : HistoryFormat} (named : HistoryFormat.ofPath? path = some format)
      (opened : file = .directory) :
      IsAt path file .parseInput (.unreadable format .isADirectory)
  | content {format : HistoryFormat} {bytes : List UInt8} {fault : LoadFault}
      (named : HistoryFormat.ofPath? path = some format) (opened : file = .content bytes)
      (read : format.read (Glyph.ofBytes bytes) = .error fault) :
      IsAt path file .parseInput fault

/-- A stage of a command fails, and the run ends for that reason if it gets there. -/
inductive Abort.IsAt (openFile : List Char → Opened) (c : Command) : Stage → Abort → Prop where
  | config {path : List Char} {stage : Stage} {fault : ConfigFault} (given : c.config = some path)
      (fails : ConfigFault.IsAt (openFile path) stage fault) :
      IsAt openFile c stage (.config path fault)
  | input {stage : Stage} {fault : LoadFault}
      (fails : LoadFault.IsAt c.input (openFile c.input) stage fault) :
      IsAt openFile c stage (.input c.input fault)

/-- The stages of the settings come before those of the input. -/
theorem ConfigFault.IsAt.rank_lt {file : Opened} {stage : Stage} {fault : ConfigFault}
    (fails : ConfigFault.IsAt file stage fault) : stage.rank < 3 := by
  cases fails with
  | read => decide
  | content _ rejects =>
      cases rejects with
      | _ => decide

theorem LoadFault.IsAt.le_rank {path : List Char} {file : Opened} {stage : Stage}
    {fault : LoadFault} (fails : LoadFault.IsAt path file stage fault) : 3 ≤ stage.rank := by
  cases fails with
  | _ => decide

/-! ### Settings -/

namespace Settings

/-- The settings of a text are parsed and checked, or the first stage at which that fails tells why
not. -/
theorem read_cases (cs : List Char) :
    (∃ stage error, IsFirst (Rejects cs) stage error ∧ read cs = .error error) ∨
      ∃ s, Toml.decode ofToml cs = .ok s ∧ s.fault? = none ∧ read cs = .ok s ∧
        ∀ stage error, ¬ Rejects cs stage error := by
  cases decoded : Toml.decode ofToml cs with
  | error error =>
      refine .inl ⟨.parseConfig, .text error, ⟨.parse decoded, ?_⟩, ?_⟩
      · intro other why rejects
        cases rejects with
        | _ => decide
      · rw [read, decoded]
        rfl
  | ok s =>
      have read_eq : read cs = s.checked.mapError .settings := by
        rw [read, decoded]
        rfl
      rw [read_eq, checked]
      cases faulty : s.fault? with
      | some fault =>
          refine .inl ⟨.checkConfig, .settings fault, ⟨.check decoded faulty, ?_⟩, rfl⟩
          intro other why rejects
          cases rejects with
          | parse failed => exact absurd (decoded.symm.trans failed) nofun
          | check => exact Nat.le_refl _
      | none =>
          refine .inr ⟨s, rfl, faulty, rfl, ?_⟩
          intro stage error rejects
          cases rejects with
          | parse failed => exact absurd (decoded.symm.trans failed) nofun
          | check decoded' faulty' =>
              obtain rfl := Except.ok.inj (decoded.symm.trans decoded')
              exact absurd (faulty.symm.trans faulty') nofun

/-- The settings of a file have been read, parsed and checked, or the first stage at which that
fails tells why not. -/
theorem ofFile_cases (file : Opened) :
    (∃ stage fault, IsFirst (ConfigFault.IsAt file) stage fault ∧ ofFile file = .error fault) ∨
      ∃ cs s, file.text = .ok cs ∧ Toml.decode ofToml cs = .ok s ∧ s.fault? = none ∧
        ofFile file = .ok s ∧ ∀ stage fault, ¬ ConfigFault.IsAt file stage fault := by
  unfold ofFile
  cases text : file.text with
  | error fault =>
      refine .inl ⟨.readConfig, .file fault, ⟨.read text, ?_⟩, rfl⟩
      intro other why fails
      exact Nat.zero_le other.rank
  | ok cs =>
      have inside {stage fault} (fails : ConfigFault.IsAt file stage fault) :
          ∃ error, Rejects cs stage error := by
        cases fails with
        | read failed => exact absurd (text.symm.trans failed) nofun
        | content text' rejects =>
            obtain rfl := Except.ok.inj (text.symm.trans text')
            exact ⟨_, rejects⟩
      rcases read_cases cs with
        ⟨stage, error, first, failed⟩ | ⟨s, decoded, faultless, given, whole⟩
      · refine .inl ⟨stage, .content error, ?_, ?_⟩
        · exact first.of_part (.content text first.here) fun fails => .inr (inside fails)
        · refine (bind_of_ok rfl _).trans ?_
          rw [failed]
          rfl
      · refine .inr ⟨cs, s, rfl, decoded, faultless, ?_, ?_⟩
        · refine (bind_of_ok rfl _).trans ?_
          rw [given]
          rfl
        · intro stage fault fails
          obtain ⟨error, rejects⟩ := inside fails
          exact whole stage error rejects

end Settings

/-! ### Histories -/

namespace LoadFault.IsAt

variable {path : List Char} {file : Opened}

/-- Where a file cannot be opened, that is told first. -/
theorem isFirst_opening (fault : FileFault) :
    IsFirst (LoadFault.IsAt path (.failed fault)) .openInput (.cannotOpen fault) where
  here := .opening rfl
  first fails := by
    cases fails with
    | _ => decide

/-- Where a file can be opened, the extension of its name is looked at first. -/
theorem isFirst_extension (opens : ∀ fault, file ≠ .failed fault)
    (nameless : HistoryFormat.ofPath? path = none) :
    IsFirst (LoadFault.IsAt path file) .chooseFormat .unknownFormat where
  here := .extension nameless
  first fails := by
    cases fails with
    | opening failed => exact absurd failed (opens _)
    | _ => decide

/-- Where the extension is known too, the content is looked at. -/
theorem isFirst_parse {fault : LoadFault} (here : LoadFault.IsAt path file .parseInput fault)
    (opens : ∀ fault, file ≠ .failed fault) {format : HistoryFormat}
    (named : HistoryFormat.ofPath? path = some format) :
    IsFirst (LoadFault.IsAt path file) .parseInput fault where
  here := here
  first fails := by
    cases fails with
    | opening failed => exact absurd failed (opens _)
    | extension nameless => exact absurd (named.symm.trans nameless) nofun
    | directory => exact Nat.le_refl _
    | content => exact Nat.le_refl _

/-- Where the content makes bars, no stage fails. -/
theorem not_of_read {format : HistoryFormat} (named : HistoryFormat.ofPath? path = some format)
    {bytes : List UInt8} {bars : List Bar} (read : format.read (Glyph.ofBytes bytes) = .ok bars)
    (stage : Stage) (fault : LoadFault) :
    ¬ LoadFault.IsAt path (.content bytes) stage fault := by
  intro fails
  cases fails with
  | opening failed => cases failed
  | extension nameless => exact absurd (named.symm.trans nameless) nofun
  | directory _ opened => cases opened
  | content named' opened failed =>
      obtain rfl := Option.some.inj (named.symm.trans named')
      cases opened
      exact absurd (read.symm.trans failed) nofun

end LoadFault.IsAt

/-- The bars of a file have been loaded, or the first stage at which that fails tells why not. -/
theorem loadHistory_cases (path : List Char) (file : Opened) :
    (∃ stage fault, IsFirst (LoadFault.IsAt path file) stage fault ∧
        loadHistory path file = .error fault) ∨
      ∃ format bytes bars, HistoryFormat.ofPath? path = some format ∧ file = .content bytes ∧
        format.read (Glyph.ofBytes bytes) = .ok bars ∧ loadHistory path file = .ok bars ∧
        ∀ stage fault, ¬ LoadFault.IsAt path file stage fault := by
  unfold loadHistory
  cases named : HistoryFormat.ofPath? path with
  | none =>
      left
      cases file with
      | failed fault => exact ⟨_, _, LoadFault.IsAt.isFirst_opening fault, rfl⟩
      | _ => exact ⟨_, _, LoadFault.IsAt.isFirst_extension nofun named, rfl⟩
  | some format =>
      cases file with
      | failed fault => exact .inl ⟨_, _, LoadFault.IsAt.isFirst_opening fault, rfl⟩
      | directory =>
          have here : LoadFault.IsAt path .directory .parseInput _ := .directory named rfl
          exact .inl ⟨_, _, here.isFirst_parse nofun named, rfl⟩
      | content bytes =>
          cases read : format.read (Glyph.ofBytes bytes) with
          | error fault =>
              have here : LoadFault.IsAt path (.content bytes) .parseInput fault :=
                .content named rfl read
              exact .inl ⟨_, _, here.isFirst_parse nofun named, read⟩
          | ok bars =>
              refine .inr ⟨format, bytes, bars, rfl, rfl, read, read, ?_⟩
              exact LoadFault.IsAt.not_of_read named read

/-! ### Messages -/

/-- What goes wrong with the content of a file is a matter of parsing it. -/
theorem HistoryFormat.contexts_of_read {format : HistoryFormat} {gs : List Glyph}
    {fault : LoadFault} (failed : format.read gs = .error fault) (path : String) :
    (fault.contexts path).head? = some ("failed to parse " ++ path) := by
  cases format with
  | json =>
      unfold read at failed
      dsimp only at failed
      cases decoded : (Json.Reader.document gs).decode Bar.listOfJson with
      | error e =>
          rw [decoded] at failed
          cases failed
          rfl
      | ok bars =>
          rw [decoded] at failed
          cases failed
  | csv =>
      unfold read at failed
      dsimp only at failed
      cases decoded : Bar.listOfCsv gs with
      | error e =>
          rw [decoded] at failed
          cases failed
          rfl
      | ok bars =>
          rw [decoded] at failed
          cases failed

/-- The stage that fails tells what is said first. -/
theorem Abort.IsAt.message_eq {openFile : List Char → Opened} {c : Command} {stage : Stage}
    {abort : Abort} (fails : Abort.IsAt openFile c stage abort) :
    abort.message = stage.headline c := by
  cases fails with
  | @config path stage fault given fails =>
      have headline :
          stage.headline c = "invalid config: " ++ String.ofList (c.config.getD []) := by
        cases fails with
        | read => rfl
        | content _ rejects =>
            cases rejects with
            | parse => rfl
            | check => rfl
      rw [headline, given]
      rfl
  | input fails =>
      cases fails with
      | opening => rfl
      | extension => rfl
      | @directory format =>
          cases format with
          | json => rfl
          | csv => rfl
      | content _ _ failed =>
          have first := HistoryFormat.contexts_of_read failed (String.ofList c.input)
          rw [Abort.message, List.headD_eq_head?_getD, first]
          rfl

/-- A text is another one if it begins in another way. -/
theorem append_ne_of_take_ne {start other : String} (n : Nat) (long : n ≤ start.toList.length)
    (differs : start.toList.take n ≠ other.toList.take n) (rest : String) :
    start ++ rest ≠ other := by
  intro same
  apply differs
  rw [← same, String.toList_append, List.take_append_of_le_length long]

/-- No stage is about the composer, whose settings have been checked before. -/
theorem Stage.headline_ne (stage : Stage) (c : Command) :
    stage.headline c ≠ "invalid indicator config" := by
  cases stage with
  | openInput => exact append_ne_of_take_ne 9 (by decide) (by decide) _
  | chooseFormat =>
      unfold headline
      rw [String.append_assoc]
      exact append_ne_of_take_ne 9 (by decide) (by decide) _
  | parseInput => exact append_ne_of_take_ne 9 (by decide) (by decide) _
  | _ => exact append_ne_of_take_ne 9 (by decide) (by decide) _

/-! ### Warnings -/

/-- The filter that is used without a setting looks at the levels of events alone. -/
theorem Log.Filter.admits_standard (name : Log.Source → String) (e : Log.Event) :
    Log.Filter.standard.admits name e = decide (e.level.rank ≤ Log.Level.info.rank) := rfl

/-- A run shows a warning with some text, where nothing is set for the filter of events. -/
def Outcome.Warns (o : Outcome) (text : String) : Prop :=
  ∃ e ∈ o.events.filter (Log.Filter.standard.admits Main.sourceName),
    e.level = .warn ∧ e.message = text

namespace Command

/-- What is said about bars that are not in the order of their times. -/
def unordered : String :=
  "bars are not in ascending time order; processing as given (use --sort)"

/-- Two warnings are given of a history, each for a reason of its own. -/
theorem loadEvents_warnings (cmd : Command) (warmup : Nat) (bars : List Bar) (text : String) :
    (∃ e ∈ cmd.loadEvents warmup bars, e.level = .warn ∧ e.message = text) ↔
      (text = unordered ∧ cmd.sort = false ∧ Bar.inOrder bars = false) ∨
        (text = tooShort ∧ bars.length ≤ warmup) := by
  have where_true {cond : Prop} [Decidable cond] {e : Log.Event} (warning : e.level = .warn) :
      (∃ f ∈ if cond then [e] else [], f.level = .warn ∧ f.message = text) ↔
        text = e.message ∧ cond := by
    by_cases holds : cond
    · simp [holds, warning, eq_comm]
    · simp [holds]
  have where_false {cond : Prop} [Decidable cond] {e : Log.Event} (warning : e.level = .warn) :
      (∃ f ∈ if cond then [] else [e], f.level = .warn ∧ f.message = text) ↔
        text = e.message ∧ ¬ cond := by
    by_cases holds : cond
    · simp [holds]
    · simp [holds, warning, eq_comm]
  have disorder : ¬ (cmd.sort || Bar.inOrder bars) = true ↔
      cmd.sort = false ∧ Bar.inOrder bars = false := by
    simp
  unfold loadEvents
  dsimp only
  simp only [List.mem_cons, List.mem_append, or_and_right, exists_or, exists_eq_left]
  rw [where_false rfl, where_true rfl, disorder]
  constructor
  · rintro (⟨info, -⟩ | warned)
    · cases info
    · exact warned
  · exact .inr

/-- A run that has loaded its bars warns exactly of those two things. -/
theorem process_warnings (cmd : Command) (settings : Settings) (c : Composer) (bars : List Bar)
    {text : String} (about : text ∉ laterMessages) :
    (∃ e ∈ (cmd.process settings c bars).1.filter
          (Log.Filter.standard.admits Main.sourceName), e.level = .warn ∧ e.message = text) ↔
      (text = unordered ∧ cmd.sort = false ∧ Bar.inOrder bars = false) ∨
        (text = tooShort ∧ bars.length ≤ c.warmup) := by
  obtain ⟨later, events, quiet⟩ := cmd.process_events settings c bars
  rw [← cmd.loadEvents_warnings c.warmup bars text, events]
  constructor
  · rintro ⟨e, member, warning, message⟩
    rcases List.mem_append.mp (List.mem_filter.mp member).1 with loaded | after
    · exact ⟨e, loaded, warning, message⟩
    · rw [← message] at about
      exact absurd (quiet e after) about
  · rintro ⟨e, loaded, warning, message⟩
    refine ⟨e, List.mem_filter.mpr ⟨List.mem_append_left _ loaded, ?_⟩, warning, message⟩
    rw [Log.Filter.admits_standard, warning]
    rfl

end Command

/-! ### Runs -/

/-- A run ends with an error and prints nothing; what is said first is known. -/
structure Outcome.Aborts (o : Outcome) (abort : Abort) (headline : String) : Prop where
  exit : o.exitCode = 1
  printed : o.printed = []
  result : o.result = .error abort
  message : abort.message = headline

namespace Command

variable (openFile : List Char → Opened) (c : Command)

/-- The settings of a command: the defaults, or those of its file, which are without fault. -/
inductive HasSettings : Settings → Prop where
  | standard (without : c.config = none) : HasSettings {}
  | file {path cs : List Char} {s : Settings} (given : c.config = some path)
      (text : (openFile path).text = .ok cs) (decoded : Toml.decode Settings.ofToml cs = .ok s)
      (faultless : s.fault? = none) : HasSettings s

/-- The bars of a command: those of its input in the format that its name stands for. -/
inductive HasBars (bars : List Bar) : Prop where
  | file {format : HistoryFormat} {bytes : List UInt8}
      (named : HistoryFormat.ofPath? c.input = some format)
      (content : openFile c.input = .content bytes)
      (read : format.read (Glyph.ofBytes bytes) = .ok bars)

/-- The text of an annotated history, or of its verdict under some thresholds, as a command asks
for it. -/
def rendering (thresholds : Thresholds) (series : List Annotated) : List Char :=
  match c.output with
  | .series .json => (Annotated.listToJson series).layOut 0 ++ ['\n']
  | .series .csv => Annotated.listToCsv series
  | .verdict => (Verdict.of (Rule.standard thresholds) series).toJson.layOut 0 ++ ['\n']

/-- A run prints all it was asked for about its annotated bars, and warns where there is reason. -/
structure Completes (settings : Settings) (composer : Composer) (bars : List Bar) (o : Outcome) :
    Prop where
  exit : o.exitCode = 0
  printed : o.printed = c.rendering settings.thresholds (composer.annotate (c.ordered bars))
  warns_order : o.Warns unordered ↔ c.sort = false ∧ Bar.inOrder bars = false
  warns_warmup : o.Warns tooShort ↔ bars.length ≤ composer.warmup

variable {openFile} {c}

/-- The composer of settings without fault is made. -/
theorem make_of_faultless {s : Settings} (faultless : s.fault? = none) :
    ∃ composer, Composer.make s.indicators = .ok composer := by
  have indicators : s.indicators.fault? = none := by
    rw [Settings.fault?] at faultless
    cases given : s.indicators.fault? with
    | none => rfl
    | some fault =>
        rw [given] at faultless
        cases faultless
  exact ⟨_, Composer.make_eq_ok_iff.mpr ⟨indicators, rfl⟩⟩

/-- The settings of a run are there, or the first stage at which that fails tells why not. -/
theorem settings_cases :
    (∃ stage abort, IsFirst (Abort.IsAt openFile c) stage abort ∧
        c.settings openFile = .error abort) ∨
      ∃ s, c.HasSettings openFile s ∧ s.fault? = none ∧ c.settings openFile = .ok s ∧
        ∀ stage abort, Abort.IsAt openFile c stage abort →
          ∃ fault, LoadFault.IsAt c.input (openFile c.input) stage fault := by
  unfold settings
  cases given : c.config with
  | none =>
      refine .inr ⟨{}, .standard given, by decide, rfl, ?_⟩
      intro stage abort fails
      cases fails with
      | config given' => exact absurd (given.symm.trans given') nofun
      | input fails => exact ⟨_, fails⟩
  | some path =>
      rcases Settings.ofFile_cases (openFile path) with
        ⟨stage, fault, first, failed⟩ | ⟨cs, s, text, decoded, faultless, made, whole⟩
      · refine .inl ⟨stage, .config path fault, ?_, ?_⟩
        · refine first.of_part (.config given first.here) fun fails => ?_
          cases fails with
          | config given' fails =>
              obtain rfl := Option.some.inj (given.symm.trans given')
              exact .inr ⟨_, fails⟩
          | input fails =>
              have later := Nat.lt_of_lt_of_le first.here.rank_lt fails.le_rank
              exact .inl (Nat.le_of_lt later)
        · dsimp only
          rw [failed]
          rfl
      · refine .inr ⟨s, .file given text decoded faultless, faultless, ?_, ?_⟩
        · dsimp only
          rw [made]
          rfl
        · intro stage abort fails
          cases fails with
          | config given' fails =>
              obtain rfl := Option.some.inj (given.symm.trans given')
              exact absurd fails (whole _ _)
          | input fails => exact ⟨_, fails⟩

/-- What is printed about bars. -/
theorem process_printed (settings : Settings) (composer : Composer) (bars : List Bar) :
    (c.process settings composer bars).2
      = c.rendering settings.thresholds (composer.annotate (c.ordered bars)) := by
  unfold process rendering
  cases c.output with
  | series format =>
      cases format with
      | json => rfl
      | csv => rfl
  | verdict => rfl

/-- A run whose stages all succeed completes. -/
theorem completes_of_process (settings : Settings) (composer : Composer) (bars : List Bar) :
    c.Completes settings composer bars
      { events := (c.process settings composer bars).1
        result := .ok (c.process settings composer bars).2 } where
  exit := rfl
  printed := c.process_printed settings composer bars
  warns_order := by
    have silent : unordered ∉ laterMessages := by decide
    have other : unordered ≠ tooShort := by decide
    refine (c.process_warnings settings composer bars silent).trans ?_
    simp [other]
  warns_warmup := by
    have silent : tooShort ∉ laterMessages := by decide
    have other : tooShort ≠ unordered := by decide
    refine (c.process_warnings settings composer bars silent).trans ?_
    simp [other]

/-- A run whose settings, composer and bars are there leaves behind what is made of these. -/
theorem run_of_stages {s : Settings} {composer : Composer} {bars : List Bar}
    (given : c.settings openFile = .ok s) (made : Composer.make s.indicators = .ok composer)
    (loaded : loadHistory c.input (openFile c.input) = .ok bars) :
    c.run openFile =
      { events := (c.process s composer bars).1, result := .ok (c.process s composer bars).2 } := by
  unfold run
  rw [given]
  dsimp only [bind, Except.bind]
  rw [made, loaded]
  rfl

/-- A run aborts at its first stage that fails, or no stage fails and it completes. -/
theorem run_cases (openFile : List Char → Opened) (c : Command) :
    (∃ stage abort, IsFirst (Abort.IsAt openFile c) stage abort ∧
        c.run openFile = { events := [], result := .error abort }) ∨
      ∃ settings composer bars, (∀ stage abort, ¬ Abort.IsAt openFile c stage abort) ∧
        c.HasSettings openFile settings ∧ Composer.make settings.indicators = .ok composer ∧
        c.HasBars openFile bars ∧
        c.run openFile =
          { events := (c.process settings composer bars).1
            result := .ok (c.process settings composer bars).2 } := by
  unfold run
  rcases c.settings_cases with ⟨stage, abort, first, failed⟩ | ⟨s, has, faultless, given, later⟩
  · rw [failed]
    exact .inl ⟨stage, abort, first, rfl⟩
  · obtain ⟨composer, made⟩ := make_of_faultless faultless
    rw [given]
    dsimp only [bind, Except.bind]
    rw [made]
    rcases loadHistory_cases c.input (openFile c.input) with
      ⟨stage, fault, first, failed⟩ | ⟨format, bytes, bars, named, content, read, loaded, whole⟩
    · rw [failed]
      refine .inl ⟨stage, .input c.input fault, ?_, rfl⟩
      exact first.of_part (.input first.here) fun fails => .inr (later _ _ fails)
    · rw [loaded]
      refine .inr ⟨s, composer, bars, ?_, has, made, .file named content read, rfl⟩
      intro stage abort fails
      obtain ⟨fault, inside⟩ := later stage abort fails
      exact whole stage fault inside

/-- The bars are sorted if that is asked for, and stay as they are if not. -/
theorem ordered_of_sort (bars : List Bar) :
    (c.sort = true → Bar.StablySorted bars (c.ordered bars)) ∧
      (c.sort = false → c.ordered bars = bars) := by
  unfold ordered
  constructor
  · intro sorts
    rw [if_pos sorts]
    exact Bar.stablySorted_sort bars
  · intro stays
    rw [if_neg (by rw [stays]; decide)]

end Command

/-- A run does everything or nothing, whatever the command is and whatever its files hold. Either a
stage of it fails, and then the run ends with code 1, prints nothing, and says first what belongs to
the first such stage; or no stage fails, and then it ends with code 0 and prints exactly the
annotated bars, or their verdict, for the settings and the bars of its files. The bars are sorted
first if that is asked for, stably, and are taken as they are if not. Of such runs, those that do
not sort warn of bars in disorder, and those on a history within the warm-up warn of that. No run
ends because of the settings of the indicators, which have been checked before. -/
theorem run_all_or_nothing (openFile : List Char → Opened) (c : Command) :
    ((∃ stage abort, IsFirst (Abort.IsAt openFile c) stage abort ∧
          (c.run openFile).Aborts abort (stage.headline c)) ∨
        ∃ settings composer bars, (∀ stage abort, ¬ Abort.IsAt openFile c stage abort) ∧
          c.HasSettings openFile settings ∧ Composer.make settings.indicators = .ok composer ∧
          c.HasBars openFile bars ∧ c.Completes settings composer bars (c.run openFile)) ∧
      (∀ bars, (c.sort = true → Bar.StablySorted bars (c.ordered bars)) ∧
        (c.sort = false → c.ordered bars = bars)) ∧
      ∀ abort, (c.run openFile).result = .error abort →
        (∀ fault, abort ≠ .indicators fault) ∧ abort.message ≠ "invalid indicator config" := by
  refine ⟨?_, c.ordered_of_sort, ?_⟩
  · rcases c.run_cases openFile with
      ⟨stage, abort, first, ran⟩ | ⟨s, composer, bars, whole, has, made, loaded, ran⟩
    · rw [ran]
      exact .inl ⟨stage, abort, first, rfl, rfl, rfl, first.here.message_eq⟩
    · have completes := c.completes_of_process s composer bars
      rw [← ran] at completes
      exact .inr ⟨s, composer, bars, whole, has, made, loaded, completes⟩
  · intro abort failed
    rcases c.run_cases openFile with
      ⟨stage, reason, first, ran⟩ | ⟨s, composer, bars, -, -, -, -, ran⟩
    · rw [ran] at failed
      obtain rfl := Except.error.inj failed
      refine ⟨?_, ?_⟩
      · rintro fault rfl
        cases first.here
      · rw [first.here.message_eq]
        exact stage.headline_ne c
    · rw [ran] at failed
      cases failed

end PriceSignals

import FerroWg.Import
import FerroWg.Lib.Delimited
import FerroWg.Lib.Newest
import FerroWg.Lib.Numbers
import FerroWg.Tui.Benchmarks
import FerroWg.Tui.Visible

/-!
# The CSV export

`benchmark_to_csv` of `benchmark.rs` quotes nothing. It can be read back as long as the names in it
need no quotes, and nothing between a file name and the history sees to that.
-/

namespace FerroWg

/-- `Duration::as_micros`. -/
def Duration.asMicros (d : Duration) : Nat := d / 1000

end FerroWg

namespace FerroWg.Tui

open Lib Delimited Text

/-- A run with one of its results. -/
abbrev RunResult := BenchmarkRun × String × BenchmarkResult

/-- The order in which the map of the run at a position is gone through. -/
structure RunOrder where
  entries : Nat → BenchmarkRun → List (String × BenchmarkResult)
  perm : ∀ i run, (entries i run).Perm run.results.toList

/-- Each run with each of its results, in the order of the loops. -/
def RunOrder.pairs (order : RunOrder) (runs : List BenchmarkRun) : List RunResult :=
  runs.zipIdx.flatMap fun (run, i) => (order.entries i run).map fun entry => (run, entry)

theorem RunOrder.mem_pairs {order : RunOrder} {runs : List BenchmarkRun} {p : RunResult} :
    p ∈ order.pairs runs ↔ p.1 ∈ runs ∧ p.1.results[p.2.1]? = some p.2.2 := by
  obtain ⟨run, backend, result⟩ := p
  have listed (i : Nat) : (backend, result) ∈ order.entries i run ↔
      run.results[backend]? = some result := by
    rw [(order.perm i run).mem_iff, Std.ExtTreeMap.mem_toList_iff_getElem?_eq_some]
  simp only [RunOrder.pairs, List.mem_flatMap, List.mem_map, Prod.exists]
  constructor
  · rintro ⟨other, i, there, _, _, member, ⟨⟩⟩
    exact ⟨List.fst_mem_of_mem_zipIdx there, (listed i).mp member⟩
  · rintro ⟨member, found⟩
    obtain ⟨i, bound, there⟩ := List.mem_iff_getElem.mp member
    refine ⟨run, i, ?_, backend, result, (listed i).mpr found, rfl⟩
    rw [List.mem_zipIdx_iff_getElem?, ← there, List.getElem?_eq_getElem bound]

/-- The names of the columns. -/
def csvHeader : List String :=
  ["timestamp_ms", "connection_name", "backend", "throughput_bps", "avg_latency_us",
    "p50_latency_us", "p95_latency_us", "p99_latency_us"]

def csvHeaderLine : String :=
  "timestamp_ms,connection_name,backend,throughput_bps,avg_latency_us,p50_latency_us," ++
  "p95_latency_us,p99_latency_us\n"

theorem csvHeaderLine_eq : csvHeaderLine = row ',' csvHeader ++ "\n" := by decide +kernel

section

variable (display : Float → String)

def csvLine (p : RunResult) : String :=
  let (run, backend, result) := p
  s!"{run.timestampMs},{run.connectionName},{backend},{display result.throughputBps}," ++
  s!"{result.avgLatency.asMicros},{result.p50Latency.asMicros},{result.p95Latency.asMicros}," ++
  s!"{result.p99Latency.asMicros}\n"

/-- `display` is the `Display` of an `f64`. -/
def benchmarkToCsv (order : RunOrder) (runs : List BenchmarkRun) : String :=
  csvHeaderLine ++ String.join ((order.pairs runs).map (csvLine display))

def csvFields (p : RunResult) : List String :=
  let (run, backend, result) := p
  [toString run.timestampMs, run.connectionName, backend, display result.throughputBps,
    toString result.avgLatency.asMicros, toString result.p50Latency.asMicros,
    toString result.p95Latency.asMicros, toString result.p99Latency.asMicros]

theorem csvLine_eq (p : RunResult) : csvLine display p = row ',' (csvFields display p) ++ "\n" := by
  simp only [csvLine, csvFields, row, String.intercalate_cons_cons, String.intercalate_singleton,
    String.append_assoc]
  rfl

theorem benchmarkToCsv_eq (order : RunOrder) (runs : List BenchmarkRun) :
    benchmarkToCsv display order runs =
      table ',' (csvHeader :: (order.pairs runs).map (csvFields display)) := by
  have lines : (order.pairs runs).map (csvLine display) =
      (((order.pairs runs).map (csvFields display)).map (row ',')).map (· ++ "\n") := by
    rw [List.map_map, List.map_map]
    exact List.map_congr_left fun p _ => csvLine_eq display p
  rw [benchmarkToCsv, lines, csvHeaderLine_eq]
  exact (unlines_cons _ _).symm

end

/-! ## Reading it back -/

/-- What a row tells. -/
structure CsvRow where
  timestampMs : Int64
  connectionName : String
  backend : String
  avgLatencyUs : Nat
  p50LatencyUs : Nat
  p95LatencyUs : Nat
  p99LatencyUs : Nat
  deriving DecidableEq, Repr

def CsvRow.of (p : RunResult) : CsvRow :=
  let (run, backend, result) := p
  ⟨run.timestampMs, run.connectionName, backend, result.avgLatency.asMicros,
    result.p50Latency.asMicros, result.p95Latency.asMicros, result.p99Latency.asMicros⟩

/-- A row has eight fields; the throughput is not looked at. -/
def CsvRow.read (fields : List String) : Option CsvRow :=
  match fields with
  | [timestampMs, connectionName, backend, _, avg, p50, p95, p99] => do
    let timestampMs ← readInt timestampMs.toList
    let avg ← readNat avg.toList
    let p50 ← readNat p50.toList
    let p95 ← readNat p95.toList
    let p99 ← readNat p99.toList
    return ⟨.ofInt timestampMs, connectionName, backend, avg, p50, p95, p99⟩
  | _ => none

/-- The lines are the header and a row for each pair, from which the pair is read. -/
def CsvDecodes (display : Float → String) (order : RunOrder) (runs : List BenchmarkRun) : Prop :=
  ∃ rows, cells ',' (benchmarkToCsv display order runs) = csvHeader :: rows ∧
    rows.map CsvRow.read = (order.pairs runs).map fun p => some (CsvRow.of p)

theorem read_csvFields (display : Float → String) (p : RunResult) :
    CsvRow.read (csvFields display p) = some (CsvRow.of p) := by
  obtain ⟨run, backend, result⟩ := p
  have timestamp : readInt (toString run.timestampMs).toList = some run.timestampMs.toInt :=
    readInt_toString run.timestampMs.toInt
  simp only [csvFields, CsvRow.read, timestamp, readNat_toString, Option.bind_eq_bind,
    Option.bind_some, Int64.ofInt_toInt]
  rfl

/-- The names that are read stand in the row as they are. -/
theorem names_of_read {fields : List String} {r : CsvRow} (read : CsvRow.read fields = some r) :
    r.connectionName ∈ fields ∧ r.backend ∈ fields := by
  unfold CsvRow.read at read
  split at read
  · simp only [Option.bind_eq_bind, Option.bind_eq_some_iff] at read
    obtain ⟨_, _, _, _, _, _, _, _, _, _, same⟩ := read
    cases same
    simp
  · cases read

/-- A run whose names need no quotes, if it has any result. -/
def PlainRun (run : BenchmarkRun) : Prop :=
  ∀ backend ∈ run.results, Plain ',' run.connectionName ∧ Plain ',' backend

theorem plain_of_printed {field : String}
    (printed : ∀ c ∈ field.toList, c = '-' ∨ c.isDigit = true) : Plain ',' field :=
  ⟨fun comma => absurd (printed _ comma) (by decide), fun feed => absurd (printed _ feed) (by decide)⟩

theorem plain_toString (n : Nat) : Plain ',' (toString n) :=
  plain_of_printed fun _ member => .inr (isDigit_of_mem_toString member)

theorem plain_timestamp (timestampMs : Int64) : Plain ',' (toString timestampMs) :=
  plain_of_printed fun _ member => mem_toString_int (i := timestampMs.toInt) member

theorem csvFields_plain {display : Float → String} (shows : ∀ x, Plain ',' (display x))
    {p : RunResult} (name : Plain ',' p.1.connectionName) (backend : Plain ',' p.2.1) :
    ∀ field ∈ csvFields display p, Plain ',' field := by
  obtain ⟨run, b, result⟩ := p
  simp only [csvFields, List.forall_mem_cons, List.not_mem_nil, IsEmpty.forall_iff, implies_true,
    plain_timestamp, plain_toString, shows, name, backend, and_self]

/-- A row ends in a digit. -/
theorem csvFields_ended (display : Float → String) (p : RunResult) :
    (row ',' (csvFields display p)).toList.getLast? ≠ some '\r' := by
  obtain ⟨run, backend, result⟩ := p
  obtain ⟨c, ends, digit⟩ := getLast?_toString result.p99Latency.asMicros
  rw [getLast?_row rfl ends]
  rintro ⟨⟩
  cases digit

theorem csv_cells {display : Float → String} (shows : ∀ x, Plain ',' (display x))
    {order : RunOrder} {runs : List BenchmarkRun} (plain : ∀ run ∈ runs, PlainRun run) :
    cells ',' (benchmarkToCsv display order runs) =
      csvHeader :: (order.pairs runs).map (csvFields display) := by
  rw [benchmarkToCsv_eq]
  apply cells_table (by decide)
  · rw [List.forall_mem_cons, List.forall_mem_map]
    exact ⟨by decide, fun p _ => by simp [csvFields]⟩
  · rw [List.forall_mem_cons, List.forall_mem_map]
    exact ⟨by decide +kernel, fun p _ => csvFields_ended display p⟩
  · rw [List.forall_mem_cons, List.forall_mem_map]
    refine ⟨by decide +kernel, fun p member => ?_⟩
    obtain ⟨listed, found⟩ := RunOrder.mem_pairs.mp member
    have names := plain p.1 listed p.2.1 (Std.ExtTreeMap.mem_iff_isSome_getElem?.mpr (by simp [found]))
    exact csvFields_plain shows names.1 names.2

/-- What a history reads back as, in the text it is exported to. -/
theorem csv_decodes_iff_plain {display : Float → String} (shows : ∀ x, Plain ',' (display x))
    (order : RunOrder) (runs : List BenchmarkRun) :
    CsvDecodes display order runs ↔ ∀ run ∈ runs, PlainRun run := by
  constructor
  · rintro ⟨rows, text, read⟩ run listed backend there
    obtain ⟨result, found⟩ := Option.isSome_iff_exists.mp
      (Std.ExtTreeMap.mem_iff_isSome_getElem?.mp there)
    have member : (run, backend, result) ∈ order.pairs runs := RunOrder.mem_pairs.mpr ⟨listed, found⟩
    have known := List.mem_map_of_mem (f := fun p => some (CsvRow.of p)) member
    rw [← read] at known
    obtain ⟨fields, inside, row⟩ := List.mem_map.mp known
    obtain ⟨name, backend'⟩ := names_of_read row
    have cell : fields ∈ cells ',' (benchmarkToCsv display order runs) := text ▸ .tail _ inside
    exact ⟨plain_of_cells cell name, plain_of_cells cell backend'⟩
  · intro plain
    refine ⟨(order.pairs runs).map (csvFields display), csv_cells shows plain, ?_⟩
    rw [List.map_map]
    exact List.map_congr_left fun p _ => read_csvFields display p

/-! ## Histories of a run -/

section

variable [Externals]

def AppState.PlainHistory (s : AppState) : Prop := ∀ run ∈ s.benchmarkHistory, PlainRun run

/-- What carries it: the results that the next run is filed with. -/
def AppState.PlainResults (s : AppState) : Prop := ∀ backend ∈ s.benchmarkResults, Plain ',' backend

/-- A result that comes is of a backend that needs no quotes, and so does the name it is filed
under. -/
def CompletesPlain (l : Loop) : LoopEvent → Prop
  | .message _ (.benchmarkComplete result) =>
    Plain ',' (l.state.minVisible.getD "") ∧ Plain ',' result.backend
  | _ => True

def LoopEvent.completes : LoopEvent → Bool
  | .key _ _ => false
  | .message _ msg => msg.isComplete

theorem plainResults_dispatch {now : Clock} {action : Action} {s t : AppState}
    (unfinished : action.completesBenchmark = false) (plain : s.PlainResults)
    (taken : dispatch now action s = some t) : t.PlainResults := by
  cases action with
  | startBenchmark | startBenchmarkForBackend =>
    cases taken
    rw [startBenchmark]
    split
    · exact plain
    · intro backend member
      exact absurd member Std.ExtTreeMap.not_mem_empty
  | benchmarkComplete => cases unfinished
  | _ =>
    have same := dispatch_writes .results (by simp [Action.writes]) taken
    rw [AppState.PlainResults, same]
    exact plain

theorem history_dispatch {now : Clock} {action : Action} {s t : AppState}
    (unfinished : action.completesBenchmark = false) (taken : dispatch now action s = some t) :
    t.benchmarkHistory = s.benchmarkHistory := by
  apply dispatch_writes .history _ taken
  cases action with
  | benchmarkComplete => cases unfinished
  | _ => simp [Action.writes]

theorem unfinished_dispatch {history : List BenchmarkRun} {now : Clock} {action : Action}
    {s t : AppState} (unfinished : action.completesBenchmark = false)
    (before : s.benchmarkHistory = history ∧ s.PlainResults)
    (taken : dispatch now action s = some t) : t.benchmarkHistory = history ∧ t.PlainResults :=
  ⟨(history_dispatch unfinished taken).trans before.1,
    plainResults_dispatch unfinished before.2 taken⟩

theorem makes_unfinished {l : Loop} {event : LoopEvent} (unfinished : event.completes = false)
    {action : Action} (makes : event.Makes l action) : action.completesBenchmark = false := by
  cases event with
  | key now key =>
    obtain ⟨bundle, first, resolved, member⟩ := makes
    rcases List.mem_cons.mp member with rfl | follows
    · exact (resolveKey_keyed resolved action rfl).completesBenchmark
    · exact (followUp_idle follows).2
  | message now msg => exact (daemonActions_idle unfinished makes).2

/-- Nothing but a result adds to the history. -/
theorem unfinished_step {l next : Loop} {event : LoopEvent} (unfinished : event.completes = false)
    (plain : l.state.PlainResults) (taken : l.step event = some next) :
    next.state.benchmarkHistory = l.state.benchmarkHistory ∧ next.state.PlainResults := by
  have found : (event.finds l).benchmarkHistory = l.state.benchmarkHistory ∧
      (event.finds l).PlainResults := by
    cases event with
    | key => exact ⟨rfl, plain⟩
    | message now msg => cases msg <;> exact ⟨rfl, plain⟩
  apply Loop.step_inv (fun s => s.benchmarkHistory = l.state.benchmarkHistory ∧ s.PlainResults)
    _ found taken
  intro action makes now s t before dispatched
  exact unfinished_dispatch (makes_unfinished unfinished makes) before dispatched

omit [Externals] in
theorem plainRun_filed_iff {now : Clock} {result : BenchmarkResult} {s : AppState}
    (plain : s.PlainResults) : PlainRun (filedRun now result s) ↔
      Plain ',' (s.minVisible.getD "") ∧ Plain ',' result.backend := by
  have member (backend : String) : backend ∈ (filedRun now result s).results ↔
      result.backend = backend ∨ backend ∈ s.benchmarkResults := by
    rw [filedRun, Std.ExtTreeMap.mem_insert, compare_eq_iff_eq]
  constructor
  · intro filed
    exact filed result.backend ((member _).mpr (.inl rfl))
  · rintro ⟨name, own⟩ backend there
    refine ⟨name, ?_⟩
    rcases (member backend).mp there with rfl | earlier
    · exact own
    · exact plain backend earlier

omit [Externals] in
/-- The run that was filed last is always kept. -/
theorem capHistory_concat (runs : List BenchmarkRun) (run : BenchmarkRun) :
    ∃ kept, kept ⊆ runs ∧
      capHistory (runs ++ [run]) benchmarkHistoryCap = kept ++ [run] :=
  ⟨runs.rtake 49, (Newest.rtake_suffix runs 49).subset, List.rtake_concat_succ runs 49 run⟩

theorem completed_step {l next : Loop} {now : Clock} {result : BenchmarkResult}
    (plain : l.state.PlainResults)
    (taken : l.step (.message now (.benchmarkComplete result)) = some next) :
    (next.state.PlainHistory → next.state.PlainResults) ∧
      (l.state.PlainHistory → (next.state.PlainHistory ↔
        Plain ',' (l.state.minVisible.getD "") ∧ Plain ',' result.backend)) := by
  obtain ⟨o, done, rfl⟩ := Option.map_eq_some_iff.mp taken
  obtain ⟨_, history, results⟩ := handleDaemonMessage_complete done
  obtain ⟨kept, old, capped⟩ := capHistory_concat l.state.benchmarkHistory (filedRun now result l.state)
  rw [capped] at history
  constructor
  · intro all backend member
    rw [results] at member
    exact (all _ (history ▸ List.mem_concat_self) backend member).2
  · intro before
    rw [AppState.PlainHistory, history, List.forall_mem_append, List.forall_mem_singleton,
      plainRun_filed_iff plain]
    exact and_iff_right fun run member => before run (old member)

theorem plain_step {l next : Loop} {event : LoopEvent} (results : l.state.PlainResults)
    (taken : l.step event = some next) :
    (next.state.PlainHistory → next.state.PlainResults) ∧
      (l.state.PlainHistory → (next.state.PlainHistory ↔ CompletesPlain l event)) := by
  cases completes : event.completes with
  | false =>
    obtain ⟨history, kept⟩ := unfinished_step completes results taken
    refine ⟨fun _ => kept, fun before => ?_⟩
    have free : CompletesPlain l event := by
      cases event with
      | key => trivial
      | message now msg =>
        cases msg with
        | benchmarkComplete => cases completes
        | _ => trivial
    rw [AppState.PlainHistory, history]
    exact iff_of_true before free
  | true =>
    cases event with
    | key => cases completes
    | message now msg =>
      cases msg with
      | benchmarkComplete result => exact completed_step results taken
      | _ => cases completes

/-- In every state that a run reaches the exported text is read back exactly when the history that
was loaded needs no quotes, and each result comes of a backend, and is filed under a name, that
needs none either. -/
theorem csv_decodes_iff (display : Float → String) (shows : ∀ x, Plain ',' (display x))
    (order : RunOrder) (config : AppConfig) (history : List BenchmarkRun)
    (events : List LoopEvent) :
    (∀ runs, CsvDecodes display order runs ↔ ∀ run ∈ runs, PlainRun run) ∧
    (Always Loop.step (fun l => CsvDecodes display order l.state.benchmarkHistory) events
        (.start config history) ↔
      (∀ run ∈ history, PlainRun run) ∧
        Along Loop.step CompletesPlain events (.start config history)) := by
  have decodes := csv_decodes_iff_plain shows order
  refine ⟨decodes, ?_⟩
  have each (l : Loop) :
      CsvDecodes display order l.state.benchmarkHistory ↔ l.state.PlainHistory := decodes _
  have results : (Loop.start config history).state.PlainResults := fun backend member =>
    absurd member Std.ExtTreeMap.not_mem_empty
  have kept : ∀ event ∈ events, ∀ l next : Loop, l.state.PlainResults →
      l.step event = some next → next.state.PlainHistory → next.state.PlainResults :=
    fun _ _ _ _ results taken => (plain_step results taken).1
  have exact : ∀ event ∈ events, ∀ l next : Loop, l.state.PlainResults → l.state.PlainHistory →
      l.step event = some next → (next.state.PlainHistory ↔ CompletesPlain l event) :=
    fun _ _ _ _ results before taken => (plain_step results taken).2 before
  have along (loaded : (Loop.start config history).state.PlainHistory) :=
    always_iff_along kept exact results loaded
  simp only [each]
  constructor
  · intro always
    exact ⟨always.head, (along always.head).mp always⟩
  · rintro ⟨loaded, completes⟩
    exact (along loaded).mpr completes

/-! ## Where the names come from -/

omit [Externals] in
theorem plain_of_validName {name : String} (valid : ValidName name) : Plain ',' name :=
  ⟨fun comma => absurd (valid.chars _ comma) (by decide),
    fun feed => absurd (valid.chars _ feed) (by decide)⟩

/-- The stored connections have names that need no quotes. -/
def PlainNames (stored : String → Option WgConfig) : Prop :=
  ∀ name, (stored name).isSome → Plain ',' name

theorem plainNames_of_valid {config : AppConfig} (valid : config.EntriesValid) :
    PlainNames config.get := by
  intro name there
  obtain ⟨conn, found⟩ := Option.isSome_iff_exists.mp there
  exact plain_of_validName (valid name conn found).1

theorem plainNames_of_load {io : Io} {disk : Disk} {p : OsPath} {config : AppConfig}
    (loaded : loadAppConfig io disk p = .ok config) : PlainNames config.get := by
  obtain ⟨_, _, _, valid⟩ := loadAppConfig_ok_iff.mp loaded
  exact plainNames_of_valid (config.validate_ok_iff.mp valid).2

/-- An import adds a connection to those of the file, under the file's name as it is. -/
theorem tryImport_inserts {io : Io} {disk after : Disk} {source p : OsPath} {config : AppConfig}
    {name : String} (imported : tryImport io disk source p = (after, .ok (config, name))) :
    ∃ existing parsed, loadAppConfig io disk p = .ok existing ∧
      config = existing.insert name parsed := by
  rw [tryImport] at imported
  split at imported
  · cases imported
  · split at imported
    · cases imported
    · rename_i parsed _
      split at imported
      · cases imported
      · rename_i existing loaded
        obtain ⟨_, saved⟩ := Prod.mk.inj imported
        split at saved
        · cases saved
        · cases saved
          exact ⟨existing, parsed, loaded, rfl⟩

theorem plainNames_import_iff {io : Io} {disk after : Disk} {source p : OsPath}
    {config : AppConfig} {name : String}
    (imported : tryImport io disk source p = (after, .ok (config, name))) :
    PlainNames config.get ↔ Plain ',' name := by
  obtain ⟨existing, parsed, loaded, rfl⟩ := tryImport_inserts imported
  have old := plainNames_of_load loaded
  constructor
  · intro plain
    exact plain name (by rw [AppConfig.get_insert, if_pos rfl]; rfl)
  · intro plain other there
    rw [AppConfig.get_insert] at there
    split at there
    case isTrue same => exact same ▸ plain
    case isFalse => exact old other there

/-- A reload with names that need no quotes, or a result of such a backend. -/
def EventPlain : LoopEvent → Prop
  | .message _ (.reloadConfig config _) => PlainNames config.get
  | .message _ (.benchmarkComplete result) => Plain ',' result.backend
  | _ => True

omit [Externals] in
theorem stored_reload (s : AppState) (config : AppConfig) :
    (s.reloadFromConfig config).stored = config.get :=
  (stored_eq_of_map rfl).trans (stored_new config)

theorem plainNames_step {l next : Loop} {event : LoopEvent} (plain : PlainNames l.state.stored)
    (entering : EventPlain event) (taken : l.step event = some next) :
    PlainNames next.state.stored := by
  have found : PlainNames (event.finds l).stored := by
    cases event with
    | key => exact plain
    | message now msg =>
      cases msg with
      | reloadConfig config message =>
        rw [LoopEvent.finds, received, stored_reload]
        exact entering
      | _ => exact plain
  apply Loop.step_inv (fun s => PlainNames s.stored) _ found taken
  intro action makes now s t before dispatched
  exact (stored_dispatch dispatched).symm ▸ before

omit [Externals] in
/-- The name a result is filed under is one of a connection, or empty. -/
theorem filed_name_plain {s : AppState} (known : VisibleKnown s) (plain : PlainNames s.stored) :
    Plain ',' (s.minVisible.getD "") := by
  cases least : s.minVisible with
  | none => exact ⟨List.not_mem_nil, List.not_mem_nil⟩
  | some name =>
    obtain ⟨c, found⟩ := known.findConnection least
    exact plain name (by rw [AppState.stored, found]; rfl)

/-- With names that are all checked where they enter, each result is filed under one that needs no
quotes. -/
theorem completes_plain {config : AppConfig} (loaded : PlainNames config.get)
    (history : List BenchmarkRun) {events : List LoopEvent}
    (entering : ∀ event ∈ events, EventPlain event) :
    Along Loop.step CompletesPlain events (.start config history) := by
  have along := along_of_mem Loop.step entering (.start config history)
  have start : VisibleKnown (Loop.start config history).state ∧
      PlainNames (Loop.start config history).state.stored :=
    ⟨visibleKnown_start config history, (stored_new config).symm ▸ loaded⟩
  have preserved : ∀ event ∈ events, ∀ l next : Loop,
      VisibleKnown l.state ∧ PlainNames l.state.stored → EventPlain event →
        l.step event = some next → VisibleKnown next.state ∧ PlainNames next.state.stored :=
    fun _ _ _ _ before met taken =>
      ⟨visibleKnown_step before.1 taken, plainNames_step before.2 met taken⟩
  have always := always_of_along preserved start along
  refine along.strengthen (fun l event before met => ?_) always
  cases event with
  | key => trivial
  | message now msg =>
    cases msg with
    | benchmarkComplete result => exact ⟨filed_name_plain before.1 before.2, met⟩
    | _ => trivial

end

namespace CsvSample

open ImportSample

/-- The file that holds `home`, then an import under a name with a comma. -/
@[reducible] def externals : Externals :=
  .tabulated [(zeroKey, List.replicate 32 0)]
    [(wgToml, ⟨(wgNamed "").interface, []⟩)]
    [(homeToml, home),
     (tomlSection "\"a,b\"" "" ++ tomlSection "home" "home" ++ tomlEnd,
       home.insert "a,b" (wgNamed ""))]

def source : OsPath := .ofString "/tmp/a,b.conf"

def disk : Disk := fun p =>
  if p = config then some (.text homeToml) else if p = source then some (.text confFile) else none

/-- Every throughput that is shown here is zero. -/
def display (_ : Float) : String := "0"

theorem display_plain (x : Float) : Plain ',' (display x) := by
  rw [display]
  decide

def order : RunOrder := ⟨fun _ run => run.results.toList, fun _ _ => .refl _⟩

def complete : LoopEvent :=
  .message ⟨0, 0⟩ (.benchmarkComplete ⟨"boringtun", 0, 0, 0, 0, 0, 0, 0, 0⟩)

def branch : AppConfig := home.insert "a,b" (wgNamed "")

/-- What the import sends, and a result. -/
def events : List LoopEvent := [.message ⟨0, 0⟩ (.reloadConfig branch "Imported: a,b"), complete]

theorem imported : (@importAndPersist externals .clean disk source config).2 =
    .reloadConfig branch "Imported: a,b" := by
  have contents : readToString .clean disk source = .ok confFile := readToString_clean.mpr rfl
  have parsed : @loadFromStr externals confFile = .ok (wgNamed "") := by
    rw [loadFromStr_tabulated _ _ _ _ _ confFile]
    exact loadFromStr_confFile
  have read : @loadFromFile externals .clean disk source = .ok (wgNamed "") := by
    simp only [loadFromFile, contents, Except.mapError, bind, Except.bind]
    exact parsed
  have loaded : @loadAppConfig externals .clean disk config = .ok home := by decide +kernel
  have stem : source.fileStem.bind OsPath.toStr = some "a,b" := by
    have stem : source.fileStem = some (.ofString "a,b") := rfl
    rw [stem, Option.bind_some, OsPath.toStr_ofString]
  have saved : (@saveAppConfig externals .clean disk branch config).2 = .ok () := rfl
  simp only [importAndPersist, tryImport, connectionNameFromPath, stem, read, loaded]
  rw [← branch, saved]
  rfl

end CsvSample

open CsvSample in
theorem csv_decodes_iff_home :
    (∀ runs, CsvDecodes display order runs ↔ ∀ run ∈ runs, PlainRun run) ∧
    (Always (@Loop.step externals) (fun l => CsvDecodes display order l.state.benchmarkHistory)
        [complete] (.start ImportSample.home []) ↔
      (∀ run ∈ [], PlainRun run) ∧
        Along (@Loop.step externals) CompletesPlain [complete] (.start ImportSample.home [])) :=
  @csv_decodes_iff externals display display_plain order ImportSample.home [] [complete]

open CsvSample in
/-- The file `a,b.conf` is imported as the connection `a,b`, and its row has nine fields. -/
theorem csv_not_decoded :
    (@importAndPersist externals .clean disk source ImportSample.config).2 =
      .reloadConfig branch "Imported: a,b" ∧
    ¬∀ config history events,
      Always (@Loop.step externals) (fun l => CsvDecodes display order l.state.benchmarkHistory)
        events (.start config history) := by
  refine ⟨imported, fun each => ?_⟩
  have reached : ((@run _ _ (@Loop.step externals) events (.start ImportSample.home [])).map fun l =>
      l.state.benchmarkHistory.map fun r => (r.connectionName, r.results.keys)) =
      some [("a,b", ["boringtun"])] := by decide +kernel
  obtain ⟨final, there, filed⟩ := Option.map_eq_some_iff.mp reached
  have plain := (csv_decodes_iff_plain display_plain order _).mp
    ((each ImportSample.home [] events).last there)
  obtain ⟨r, rest, listed, names, _⟩ := List.map_eq_cons_iff.mp filed
  obtain ⟨name, keys⟩ := Prod.mk.inj names
  have backend : "boringtun" ∈ r.results := Std.ExtTreeMap.mem_keys.mp (keys ▸ .head _)
  have filedPlain := (plain r (listed ▸ .head _) _ backend).1
  rw [name] at filedPlain
  exact absurd filedPlain (by decide)

end FerroWg.Tui

import FerroWg.Core.Disk
import FerroWg.Lib.Newest
import FerroWg.Lib.RingBuffer
import FerroWg.Lib.Run
import FerroWg.Tui.Writes

/-!
# The live sparkline

The samples of a running benchmark are kept in a ring buffer, which the compare tab reads through
its two slices.
-/

namespace FerroWg.Tui

open Lib

section

variable {κ : Type} (kbps : BenchmarkProgress → κ)

/-- One value a sample; `kbps` is the conversion of its throughput. -/
def throughputSparklineData (progress : List BenchmarkProgress) : List κ := progress.map kbps

/-- What `render_live` gives to the sparkline. -/
def sparkData (history : RingBuffer BenchmarkProgress) : List κ :=
  let (left, right) := history.asSlices
  let progress := if left.isEmpty then right else left
  throughputSparklineData kbps progress

/-- The samples in the first slice only. -/
theorem sparkData_eq (history : RingBuffer BenchmarkProgress) :
    sparkData kbps history = throughputSparklineData kbps history.asSlices.1 := by
  change throughputSparklineData kbps
    (if history.asSlices.1.isEmpty then history.asSlices.2 else history.asSlices.1) = _
  split
  case isFalse => rfl
  case isTrue none =>
    have first := List.isEmpty_iff.mp none
    have items := history.asSlices_fst_eq_nil_iff.mp first
    rw [first, RingBuffer.asSlices, items, List.drop_nil]

theorem sparkData_all_iff (history : RingBuffer BenchmarkProgress) :
    sparkData kbps history = throughputSparklineData kbps history.items ↔ history.Whole := by
  rw [sparkData_eq, ← RingBuffer.asSlices_snd_eq_nil_iff, ← history.asSlices_append]
  constructor
  · intro same
    have lengths := congrArg List.length same
    simp only [throughputSparklineData, List.length_map, List.length_append] at lengths
    exact List.eq_nil_of_length_eq_zero (by omega)
  · intro none
    rw [none, List.append_nil]

end

/-- A state, the ring that its samples are in, and what was received since the ring was cleared. -/
structure LiveBenchmark where
  state : AppState
  ring : RingBuffer BenchmarkProgress
  received : List BenchmarkProgress

namespace LiveBenchmark

def start (config : AppConfig) : LiveBenchmark := ⟨AppState.new config, .empty, []⟩

/-- What becomes of the ring, if its next allocation turns out as given. -/
def follow (layout : Layout) (v : LiveBenchmark) : Action → RingBuffer BenchmarkProgress
  | .startBenchmark | .startBenchmarkForBackend _ =>
    if v.state.benchmarkRunning then v.ring else v.ring.clear layout
  | .benchmarkProgressUpdate p =>
    let kept :=
      if benchmarkProgressHistoryCap ≤ v.ring.items.length then v.ring.popFront else v.ring
    kept.pushBack layout p
  | _ => v.ring

def note (v : LiveBenchmark) : Action → List BenchmarkProgress
  | .startBenchmark | .startBenchmarkForBackend _ =>
    if v.state.benchmarkRunning then v.received else []
  | .benchmarkProgressUpdate p => v.received ++ [p]
  | _ => v.received

structure Label where
  now : Clock
  action : Action
  layout : Layout

variable [Externals]

def step (v : LiveBenchmark) (label : Label) : Option LiveBenchmark :=
  (dispatch label.now label.action v.state).map fun s =>
    ⟨s, v.follow label.layout label.action, v.note label.action⟩

/-- The ring has the samples of the state, which are the newest of those received. -/
structure Follows (v : LiveBenchmark) : Prop where
  items : v.ring.items = v.state.benchmarkProgressHistory
  newest : v.state.benchmarkProgressHistory =
    v.received.drop (v.received.length - benchmarkProgressHistoryCap)

omit [Externals] in
theorem benchmarkProgressUpdate_newest {s : AppState} {received : List BenchmarkProgress}
    (newest : s.benchmarkProgressHistory = received.rtake benchmarkProgressHistoryCap)
    (p : BenchmarkProgress) : (benchmarkProgressUpdate p s).benchmarkProgressHistory =
      (received ++ [p]).rtake benchmarkProgressHistoryCap := by
  rw [← Newest.push_rtake (by decide), ← newest, benchmarkProgressUpdate, Newest.push]
  have bounded : s.benchmarkProgressHistory.length ≤ benchmarkProgressHistoryCap := by
    rw [newest, Newest.length_rtake]
    exact Nat.min_le_left _ _
  have full : benchmarkProgressHistoryCap ≤ s.benchmarkProgressHistory.length ↔
      s.benchmarkProgressHistory.length = benchmarkProgressHistoryCap := by omega
  simp only [full]

theorem follows_step {v next : LiveBenchmark} (label : Label) (follows : v.Follows)
    (taken : v.step label = some next) : next.Follows := by
  obtain ⟨now, action, layout⟩ := label
  obtain ⟨s, dispatched, rfl⟩ := Option.map_eq_some_iff.mp taken
  have other (untouched : .progress ∉ action.writes) (ring : v.follow layout action = v.ring)
      (received : v.note action = v.received) :
      Follows ⟨s, v.follow layout action, v.note action⟩ := by
    have same : s.benchmarkProgressHistory = v.state.benchmarkProgressHistory :=
      dispatch_writes .progress untouched dispatched
    rw [ring, received]
    exact ⟨follows.items.trans same.symm, same.trans follows.newest⟩
  cases action with
  | startBenchmark | startBenchmarkForBackend =>
    obtain rfl := Option.some.inj dispatched
    simp only [startBenchmark, follow, note]
    split
    · exact ⟨follows.items, follows.newest⟩
    · exact ⟨rfl, rfl⟩
  | benchmarkProgressUpdate p =>
    obtain rfl := Option.some.inj dispatched
    refine ⟨?_, benchmarkProgressUpdate_newest follows.newest p⟩
    simp only [follow, RingBuffer.items_pushBack, benchmarkProgressUpdate, ← follows.items]
    split
    · rw [RingBuffer.items_popFront]
    · rfl
  | _ => exact other (by simp [Action.writes]) rfl rfl

omit [Externals] in
theorem follows_start (config : AppConfig) : (start config).Follows := ⟨rfl, rfl⟩

/-- The sparkline shows each sample that is kept. -/
def ShowsAll {κ : Type} (kbps : BenchmarkProgress → κ) (v : LiveBenchmark) : Prop :=
  sparkData kbps v.ring = throughputSparklineData kbps v.state.benchmarkProgressHistory

/-- A sample finds room behind the last one before the slots end, once the oldest of a full history
has made way. -/
def StaysWhole (v : LiveBenchmark) (label : Label) : Prop :=
  match label.action with
  | .benchmarkProgressUpdate _ =>
    let kept :=
      if benchmarkProgressHistoryCap ≤ v.ring.items.length then v.ring.popFront else v.ring
    kept.RoomBehind label.layout
  | _ => True

theorem whole_step_iff {v next : LiveBenchmark} {label : Label} (whole : v.ring.Whole)
    (taken : v.step label = some next) : next.ring.Whole ↔ v.StaysWhole label := by
  obtain ⟨now, action, layout⟩ := label
  obtain ⟨s, dispatched, rfl⟩ := Option.map_eq_some_iff.mp taken
  cases action with
  | startBenchmark | startBenchmarkForBackend =>
    simp only [follow, StaysWhole, iff_true]
    split
    · exact whole
    · exact RingBuffer.whole_of_items (RingBuffer.items_clear _ _)
  | benchmarkProgressUpdate p => exact RingBuffer.whole_pushBack_iff _ _
  | _ => exact iff_of_true whole trivial

/-- Over any run, the history keeps the newest 60 samples, and the sparkline shows them all exactly
when no sample had to go on at the first slot of the ring. -/
theorem sparkline_shows_all_iff (config : AppConfig) (labels : List Label) :
    Always step Follows labels (start config) ∧
      ∀ (κ : Type) (kbps : BenchmarkProgress → κ),
        Always step (ShowsAll kbps) labels (start config) ↔
          Along step StaysWhole labels (start config) := by
  refine ⟨always_of_step (fun _ label _ => follows_step label) labels (follows_start config), ?_⟩
  intro κ kbps
  have shows_iff {v : LiveBenchmark} (follows : v.Follows) : v.ShowsAll kbps ↔ v.ring.Whole := by
    rw [ShowsAll, ← follows.items]
    exact sparkData_all_iff kbps v.ring
  have kept (label : Label) (_ : label ∈ labels) (v next : LiveBenchmark) (follows : v.Follows)
      (taken : v.step label = some next) (_ : next.ShowsAll kbps) : next.Follows :=
    follows_step label follows taken
  refine always_iff_along kept ?_ (follows_start config) ?_
  · intro label _ v next follows shown taken
    rw [shows_iff (follows_step label follows taken)]
    exact whole_step_iff ((shows_iff follows).mp shown) taken
  · exact (shows_iff (follows_start config)).mpr (RingBuffer.whole_of_items rfl)

end LiveBenchmark

/-! ## A ring that wraps -/

namespace SparklineSample

@[reducible] def externals : Externals := .tabulated [] [] []

def sample : BenchmarkProgress := ⟨"boringtun", 1, 60, 0, 0⟩

/-- A full ring of `i` elements is allocated anew with twice as many slots, and at least four. -/
def update (i : Nat) : LiveBenchmark.Label :=
  ⟨⟨0, 0⟩, .benchmarkProgressUpdate sample, ⟨max i 4 - 1, 0⟩⟩

def updates : List LiveBenchmark.Label := (List.range 65).map update

end SparklineSample

open SparklineSample in
/-- Sixty-five samples come to 64 slots, and the last of them goes on at the first. -/
theorem sparkline_hides_newest : ¬∀ config labels,
    Always (@LiveBenchmark.step externals) (LiveBenchmark.ShowsAll fun _ => ()) labels
      (LiveBenchmark.start config) := by
  intro each
  have shown := each default updates
  have counts : (run (@LiveBenchmark.step externals) updates (LiveBenchmark.start default)).map
      (fun v => ((sparkData (fun _ => ()) v.ring).length,
        v.state.benchmarkProgressHistory.length)) = some (59, 60) := by
    decide +kernel
  obtain ⟨v, reached, same⟩ := Option.map_eq_some_iff.mp counts
  have lengths := congrArg List.length (shown.last reached)
  rw [throughputSparklineData, List.length_map] at lengths
  have := congrArg Prod.fst same
  have := congrArg Prod.snd same
  simp only at *
  omega

end FerroWg.Tui

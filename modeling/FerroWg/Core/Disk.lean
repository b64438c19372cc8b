import FerroWg.Core.Config
import FerroWg.Lib.Text

/-!
# Paths, files and the native configuration file

Unix paths with `Path::file_stem` and `Path::with_extension`, whole-file reads and writes,
and `config/toml.rs` over them.
-/

namespace FerroWg

open Lib

/-- A piece of a path: a character, or the bytes that a lossy conversion replaces at once. -/
inductive PathUnit where
  | char (c : Char)
  | invalid (bytes : List UInt8)
  deriving DecidableEq, Repr

abbrev OsPath := List PathUnit

namespace OsPath

def ofString (s : String) : OsPath := s.toList.map .char

/-- `OsStr::to_str`. -/
def toStr : OsPath → Option String
  | [] => some ""
  | .char c :: rest => (toStr rest).map fun s => .ofList (c :: s.toList)
  | .invalid _ :: _ => none

theorem toStr_map_char (l : List Char) : toStr (l.map .char) = some (.ofList l) := by
  induction l with
  | nil => rfl
  | cons c l ih => simp [toStr, ih]

theorem toStr_ne_empty {p : OsPath} {s : String} (text : toStr p = some s) (some : p ≠ []) :
    s ≠ "" := by
  cases p with
  | nil => exact absurd rfl some
  | cons unit rest =>
    cases unit with
    | invalid bytes => cases text
    | char c =>
      obtain ⟨_, _, rfl⟩ := Option.map_eq_some_iff.mp text
      exact fun empty => by simpa using congrArg String.toList empty

theorem toStr_ofString (s : String) : toStr (ofString s) = some s :=
  (toStr_map_char s.toList).trans (congrArg some String.ofList_toList)

/-- `Path::display`. -/
def display (p : OsPath) : String :=
  .ofList (p.map fun | .char c => c | .invalid _ => '\uFFFD')

def slash : PathUnit := .char '/'
def dot : PathUnit := .char '.'

/-- The components up to the last that is not dropped by normalisation. -/
def components (p : OsPath) : List OsPath :=
  (p.splitOnP (· == slash)).rdropWhile (fun c => c = [] ∨ c = [dot])

def fileName (p : OsPath) : Option OsPath :=
  match (components p).getLast? with
  | none => none
  | some name => if name = [dot, dot] then none else some name

/-- The name up to its last dot, or all of it when there is no dot but a leading one. -/
def stemOf (name : OsPath) : OsPath :=
  match name.reverse.span (· != dot) with
  | (_, []) => name
  | (_, _ :: before) => if before = [] then name else before.reverse

def fileStem (p : OsPath) : Option OsPath := (fileName p).map stemOf

def withExtension (p : OsPath) (extension : String) : OsPath :=
  match fileStem p with
  | none => p
  | some stem =>
    [slash].intercalate ((components p).dropLast ++ [stem ++ dot :: ofString extension])

theorem fileStem_ne_nil {p stem : OsPath} (named : fileStem p = some stem) : stem ≠ [] := by
  obtain ⟨name, last, rfl⟩ := Option.map_eq_some_iff.mp named
  have nonempty : name ≠ [] := by
    rw [fileName] at last
    split at last
    · cases last
    · rename_i c there
      split at last <;> cases last
      have some : components p ≠ [] := fun none => by simp [none] at there
      have kept := List.rdropWhile_last_not _ _ some
      obtain rfl : (components p).getLast some = name := by
        rw [List.getLast?_eq_some_getLast some] at there
        exact Option.some.inj there
      exact fun empty => kept (decide_eq_true (.inl empty))
  rw [stemOf]
  split
  · exact nonempty
  · split
    · exact nonempty
    · simpa

example : fileStem (ofString "/etc/wireguard/my.vpn.conf") = some (ofString "my.vpn") := by decide
example : (ofString "/etc/config.toml").withExtension "toml.bak" =
    ofString "/etc/config.toml.bak" := by decide

end OsPath

/-- The contents of a file: text, or bytes that are not UTF-8. -/
inductive Contents where
  | text (s : String)
  | binary
  deriving DecidableEq, Repr

def Contents.ofBytes (bytes : ByteArray) : Contents :=
  match String.fromUTF8? bytes with
  | some s => .text s
  | none => .binary

/-- A file of the first bytes of a text. -/
def Contents.cut (s : String) (bytes : Nat) : Contents :=
  .ofBytes (s.toByteArray.extract 0 bytes)

theorem Contents.cut_all (s : String) : Contents.cut s s.utf8ByteSize = .text s := by
  have whole : s.toByteArray.extract 0 s.utf8ByteSize = s.toByteArray := by
    rw [← String.size_toByteArray]
    exact ByteArray.extract_zero_size
  have decoded : String.fromUTF8? s.toByteArray = some s := dif_pos s.isValidUTF8
  rw [cut, ofBytes, whole, decoded]

abbrev Disk := OsPath → Option Contents

def Disk.put (disk : Disk) (p : OsPath) (contents : Option Contents) : Disk :=
  Function.update disk p contents

/-- A write that fails leaves the file in whatever state it got to. -/
structure WriteFailure where
  reason : String
  left : Option Contents

/-- How the operating system answers; no answer is success. -/
structure Io where
  readError : OsPath → Option String
  createDirError : Option String
  writeError : OsPath → Option WriteFailure

/-- An operating system that never refuses. -/
def Io.clean : Io := ⟨fun _ => none, none, fun _ => none⟩

def readToString (io : Io) (disk : Disk) (p : OsPath) : Except String String :=
  match io.readError p, disk p with
  | some e, _ => .error e
  | none, none => .error "No such file or directory (os error 2)"
  | none, some .binary => .error "stream did not contain valid UTF-8"
  | none, some (.text s) => .ok s

def writeFile (io : Io) (disk : Disk) (p : OsPath) (s : String) : Disk × Except String Unit :=
  match io.writeError p with
  | some failure => (disk.put p failure.left, .error failure.reason)
  | none => (disk.put p (some (.text s)), .ok ())

theorem readToString_clean {disk : Disk} {p : OsPath} {s : String} :
    readToString .clean disk p = .ok s ↔ disk p = some (.text s) := by
  rw [readToString, Io.clean]
  rcases disk p with _ | _ | _ <;> simp

theorem writeFile_other {io : Io} (disk : Disk) {p q : OsPath} (s : String) (other : q ≠ p) :
    (writeFile io disk p s).1 q = disk q := by
  rw [writeFile]
  cases io.writeError p <;> simp [Disk.put, Function.update_of_ne other]

theorem writeFile_ok {io : Io} {disk : Disk} {p : OsPath} {s : String}
    (written : (writeFile io disk p s).2 = .ok ()) :
    io.writeError p = none ∧ (writeFile io disk p s).1 = disk.put p (some (.text s)) := by
  rw [writeFile] at written ⊢
  cases refused : io.writeError p with
  | some failure => simp [refused] at written
  | none => simp

theorem readToString_ok {io : Io} {disk : Disk} {p : OsPath} {s : String}
    (read : readToString io disk p = .ok s) : disk p = some (.text s) := by
  rw [readToString] at read
  split at read <;> cases read
  assumption

section

variable [Externals]

def loadAppConfigStr (s : String) : Except ConfigError AppConfig := do
  let config ← (Externals.appFromToml s).mapError .tomlParse
  config.validate
  return config

def loadAppConfig (io : Io) (disk : Disk) (p : OsPath) : Except ConfigError AppConfig := do
  let contents ← (readToString io disk p).mapError .tomlParse
  loadAppConfigStr contents

def saveAppConfigString (config : AppConfig) : Except ConfigError String :=
  (Externals.appToToml config).mapError .tomlParse

/-- Nothing is validated on the way to the disk. -/
def saveAppConfig (io : Io) (disk : Disk) (config : AppConfig) (p : OsPath) :
    Disk × Except ConfigError Unit :=
  match saveAppConfigString config with
  | .error e => (disk, .error e)
  | .ok contents =>
    match io.createDirError with
    | some e => (disk, .error (.tomlParse s!"create dir: {e}"))
    | none =>
      let (disk, result) := writeFile io disk p contents
      (disk, result.mapError .tomlParse)

/-- Reading back what was written: the two crate functions are inverse on what serialises. -/
def TomlRoundTrip : Prop :=
  ∀ (config : AppConfig) (s : String),
    Externals.appToToml config = .ok s → Externals.appFromToml s = .ok config

theorem loadAppConfig_ok_iff {io : Io} {disk : Disk} {p : OsPath} {config : AppConfig} :
    loadAppConfig io disk p = .ok config ↔
      ∃ s, readToString io disk p = .ok s ∧ Externals.appFromToml s = .ok config ∧
        config.validate = .ok () := by
  unfold loadAppConfig loadAppConfigStr
  simp only [bind_eq_ok, mapError_eq_ok]
  constructor
  · rintro ⟨s, read, parsed, decoded, ⟨⟩, valid, final⟩
    cases final
    exact ⟨s, read, decoded, valid⟩
  · rintro ⟨s, read, decoded, valid⟩
    exact ⟨s, read, config, decoded, (), valid, rfl⟩

/-- A save that succeeds changes one file, to the serialised configuration. -/
theorem saveAppConfig_ok {io : Io} {disk : Disk} {config : AppConfig} {p : OsPath}
    (saved : (saveAppConfig io disk config p).2 = .ok ()) :
    ∃ s, Externals.appToToml config = .ok s ∧
      (saveAppConfig io disk config p).1 = disk.put p (some (.text s)) := by
  rw [saveAppConfig] at saved ⊢
  cases encoded : saveAppConfigString config with
  | error e => simp [encoded] at saved
  | ok s =>
    cases dir : io.createDirError with
    | some e => simp [encoded, dir] at saved
    | none =>
      cases written : io.writeError p with
      | some failure => simp [encoded, dir, writeFile, written, Except.mapError] at saved
      | none => exact ⟨s, mapError_eq_ok.mp encoded, by simp [writeFile, written]⟩

/-- A file that parses to a configuration, valid or not. -/
def Disk.Holds (disk : Disk) (p : OsPath) (config : AppConfig) : Prop :=
  ∃ s, disk p = some (.text s) ∧ Externals.appFromToml s = .ok config

theorem Disk.Holds.load_iff {disk : Disk} {p : OsPath} {config : AppConfig}
    (holds : disk.Holds p config) (loaded : AppConfig) :
    loadAppConfig .clean disk p = .ok loaded ↔ loaded = config ∧ config.validate = .ok () := by
  obtain ⟨s, there, decoded⟩ := holds
  rw [loadAppConfig_ok_iff]
  simp only [readToString_clean, there, Option.some.injEq, Contents.text.injEq]
  constructor
  · rintro ⟨_, rfl, decoded', valid⟩
    obtain rfl : config = loaded := by rw [decoded] at decoded'; exact Except.ok.inj decoded'
    exact ⟨rfl, valid⟩
  · rintro ⟨rfl, valid⟩
    exact ⟨s, rfl, decoded, valid⟩

theorem holds_of_load {io : Io} {disk : Disk} {p : OsPath} {config : AppConfig}
    (loaded : loadAppConfig io disk p = .ok config) :
    disk.Holds p config ∧ config.validate = .ok () := by
  obtain ⟨s, read, decoded, valid⟩ := loadAppConfig_ok_iff.mp loaded
  exact ⟨⟨s, readToString_ok read, decoded⟩, valid⟩

theorem holds_of_save (roundTrip : TomlRoundTrip) {io : Io} {disk : Disk} {config : AppConfig}
    {p : OsPath} (saved : (saveAppConfig io disk config p).2 = .ok ()) :
    (saveAppConfig io disk config p).1.Holds p config := by
  obtain ⟨s, encoded, after⟩ := saveAppConfig_ok saved
  exact ⟨s, by simp [after, Disk.put], roundTrip config s encoded⟩

/-- What a successful save leaves is accepted by the loader exactly when it validates. -/
theorem load_saved_iff (roundTrip : TomlRoundTrip) {io : Io} {disk : Disk} {config : AppConfig}
    {p : OsPath} (saved : (saveAppConfig io disk config p).2 = .ok ()) (loaded : AppConfig) :
    loadAppConfig .clean (saveAppConfig io disk config p).1 p = .ok loaded ↔
      loaded = config ∧ config.validate = .ok () :=
  (holds_of_save roundTrip saved).load_iff loaded

end

theorem lookup_of_mem {A B : Type} [BEq A] [LawfulBEq A] {l : List (A × B)} {a : A} {b : B}
    (distinct : (l.map Prod.fst).Nodup) (member : (a, b) ∈ l) : l.lookup a = some b := by
  induction l with
  | nil => cases member
  | cons entry rest ih =>
    rw [List.map_cons, List.nodup_cons] at distinct
    rcases List.mem_cons.mp member with rfl | later
    · simp
    · have other : a ≠ entry.1 := fun same =>
        distinct.1 (same ▸ List.mem_map_of_mem (f := Prod.fst) later)
      rw [List.lookup_cons, beq_false_of_ne other]
      exact ih distinct.2 later

/-- The crates on finitely many keys, connections and files, and on plain ASCII text. -/
@[reducible] def Externals.tabulated (keys : List (String × List UInt8))
    (wgs : List (String × WgConfig)) (files : List (String × AppConfig)) : Externals where
  base64Encode bytes := ((keys.find? fun k => k.2 == bytes).map Prod.fst).getD ""
  base64Decode s := match keys.lookup s with
    | some bytes => .ok bytes
    | none => .error "Invalid padding"
  parseIp _ := none
  showIp _ := ""
  wgToToml config := match wgs.find? fun f => f.2 == config with
    | some f => .ok f.1
    | none => .error "unsupported type"
  appToToml config := match files.find? fun f => f.2 == config with
    | some f => .ok f.1
    | none => .error "unsupported type"
  appFromToml s := match files.lookup s with
    | some config => .ok config
    | none => .error "expected key-value"
  debugStr s := s!"\"{s}\""
  debugChar c := s!"'{c}'"
  isAlphanumeric := Char.isAlphanum
  toLowercase := Text.toAsciiLowercase
  formatRounded _ := ""

section tabulated

variable {keys : List (String × List UInt8)} {wgs : List (String × WgConfig)}
  {files : List (String × AppConfig)}

theorem tabulated_decoded {s : String} {bytes : List UInt8}
    (decoded : (Externals.tabulated keys wgs files).base64Decode s = .ok bytes) :
    keys.lookup s = some bytes := by
  rw [Externals.tabulated] at decoded
  cases found : keys.lookup s with
  | none => simp only [found, reduceCtorEq] at decoded
  | some other =>
    simp only [found, Except.ok.injEq] at decoded
    rw [decoded]

theorem tabulated_encoded {config : AppConfig} {s : String}
    (encoded : (Externals.tabulated keys wgs files).appToToml config = .ok s) :
    (s, config) ∈ files := by
  rw [Externals.tabulated] at encoded
  cases found : files.find? fun f => f.2 == config with
  | none => simp only [found, reduceCtorEq] at encoded
  | some f =>
    simp only [found, Except.ok.injEq] at encoded
    have same : f.2 = config := by simpa using List.find?_some found
    exact encoded ▸ same ▸ List.mem_of_find?_eq_some found

theorem tabulated_roundTrip (distinct : (files.map Prod.fst).Nodup) :
    @TomlRoundTrip (.tabulated keys wgs files) := by
  intro config s encoded
  have found := lookup_of_mem distinct (tabulated_encoded encoded)
  rw [Externals.tabulated]
  simp only [found]

end tabulated

end FerroWg

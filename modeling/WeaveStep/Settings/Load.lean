import WeaveStep.Files.Walk
import WeaveStep.Ini.Reference
import WeaveStep.Settings.Basic
import WeaveStep.Text.Utf8

/-! # Loading settings

Settings are read from an INI file with three sections; a key that is missing or blank leaves the
default.

* `SettingsFailure`: what can be wrong with the file's settings. `LoadFailure` adds the ways in
  which a file goes wrong without being reported as bad settings.
* `Settings.ofDocument`: the settings a document spells, looked up key by key in a fixed order, so
  the first key that fails decides the failure.
* `Settings.load`: the settings in the file at a path.
* `Settings.find`: the settings of a project: a given file, or the project's own, or defaults. -/

namespace WeaveStep

open Text Ini

/-! ## Failures -/

/-- What is wrong with settings. -/
inductive SettingsFailure
  | notFound (path : String)
  | unreadable (path : String) (why : ReadFailure)
  | unresolved (key path : String) (why : ReferenceFailure)
  | badSwitch (key path value : String)
  | badRule (rule : String)
  deriving DecidableEq, Repr

namespace SettingsFailure

/-- The text of a failure. -/
def message : SettingsFailure → String
  | notFound path => "Configuration file not found: " ++ path
  | unreadable path why => "Failed to parse " ++ path ++ ": " ++ why.message path
  | unresolved key path why => "Failed to resolve '" ++ key ++ "' in " ++ path ++ ": " ++ why.message
  | badSwitch key path value =>
    "Invalid boolean for '" ++ key ++ "' in " ++ path ++ ": '" ++ value ++ "'"
  | badRule rule => "Invalid exclude rule '" ++ rule ++ "': expected 'group:module'"

/-- The kind of failure behind this one. -/
def origin : SettingsFailure → Option String
  | unreadable _ why => some why.kind
  | unresolved _ _ why => some why.kind
  | _ => none

end SettingsFailure

/-- What the settings file of a project is called. -/
def projectFile : String := "aspectj.ini"

/-- Why no settings could be loaded. -/
inductive LoadFailure
  /-- The file that was asked for is not there. -/
  | missing (path : String)
  | rejected (why : SettingsFailure)
  /-- The file is no text. -/
  | undecodable (why : DecodeFailure)
  /-- An indented line goes on a key that stands alone. -/
  | nothingToContinue
  /-- A reference to a key that stands alone. -/
  | noValue
  | inaccessible (why : FileFailure)
  deriving Repr

namespace LoadFailure

/-- The text of a failure. -/
def message : LoadFailure → String
  | missing path => projectFile ++ " not found: " ++ path
  | rejected why => why.message
  | undecodable why => why.message
  | nothingToContinue => "'NoneType' object has no attribute 'append'"
  | noValue => "argument of type 'NoneType' is not iterable"
  | inaccessible why => why.message

/-- The name of the kind of failure. -/
def kind : LoadFailure → String
  | missing _ => "FileNotFoundError"
  | rejected _ => "WeaveConfigError"
  | undecodable _ => "UnicodeDecodeError"
  | nothingToContinue => "AttributeError"
  | noValue => "TypeError"
  | inaccessible why => why.kind

/-- The failure that a reader's stop is. -/
def ofStop (path : String) : Stop → LoadFailure
  | .failure why => rejected (.unreadable path why)
  | .nothingToContinue => nothingToContinue

end LoadFailure

/-! ## Values -/

/-- The section of most settings. -/
def mainSection : String := "aspectj"

/-- The section of the compile options. -/
def optionsSection : String := "aspectj.compile_options"

/-- The section of the exclude rules. -/
def excludeSection : String := "aspectj.exclude"

namespace Settings

/-- The trimmed value of a key, unless it is missing or blank. -/
def value? (d : Document) (path name key : String) : Except LoadFailure (Option String) :=
  match d.resolved? name key with
  | .error (.reference why) => .error (.rejected (.unresolved key path why))
  | .error .noValue => .error .noValue
  | .ok none => .ok none
  | .ok (some raw) => .ok (if isBlankText raw then none else some (trim raw))

/-- What a switch may be set to. -/
def switchState? (s : String) : Option Bool :=
  if smallLetters s ∈ ["1", "yes", "true", "on"] then some true
  else if smallLetters s ∈ ["0", "no", "false", "off"] then some false
  else none

/-- The state of a switch in the main section. -/
def switch (d : Document) (path key : String) (otherwise : Bool) : Except LoadFailure Bool := do
  match ← value? d path mainSection key with
  | none => return otherwise
  | some s =>
    match switchState? s with
    | some state => return state
    | none => throw (.rejected (.badSwitch key path s))

/-- The items of a list value, which stand on lines of their own or between commas. -/
def items (raw : String) : List String :=
  (((splitAt '\n' raw).flatMap (splitAt ',')).map trim).filter (· ≠ "")

/-- The items of a list key. -/
def list (d : Document) (path name key : String) : Except LoadFailure (List String) :=
  (fun raw => items (raw.getD "")) <$> value? d path name key

/-- The rule written so. -/
def rule (s : String) : Except LoadFailure ExcludeRule :=
  match ExcludeRule.parse? s with
  | some rule => .ok rule
  | none => .error (.rejected (.badRule (trim s)))

/-- The exclude rules, in order. -/
def rules (d : Document) (path : String) : Except LoadFailure (List ExcludeRule) := do
  (← list d path excludeSection "rules").mapM rule

/-- The settings that the document read from `path` spells. -/
def ofDocument (d : Document) (path : String) : Except LoadFailure Settings := do
  let defaults : Settings := {}
  let option (name key otherwise : String) := (·.getD otherwise) <$> value? d path name key
  let source ← option optionsSection "source_compatibility" defaults.compileOptions.source
  let target ← option optionsSection "target_compatibility" defaults.compileOptions.target
  let encoding ← option optionsSection "encoding" defaults.compileOptions.encoding
  return {
    enabled := ← switch d path "enabled" defaults.enabled
    runtimeNeeded := ← switch d path "javart_needed" defaults.runtimeNeeded
    verbose := ← switch d path "verbose" defaults.verbose
    compileOptions := { source, target, encoding }
    excludeRules := ← rules d path
    bootClasspath := ← list d path mainSection "bootclasspath"
    compileSdk := ← value? d path mainSection "compile_sdk"
    androidSdk := ← value? d path mainSection "android_sdk"
    javaHome := ← value? d path mainSection "java_home"
    weaverVersion := ← option mainSection "weaver_version" defaults.weaverVersion
    weaverJar := ← value? d path mainSection "weaver_jar"
    java := ← option mainSection "java" defaults.java }

/-! ## Files -/

/-- The document that the bytes of the file at `path` spell. Where the bytes are no text, the lines
before them are read all the same and may fail first. -/
def documentOf (path : String) (bytes : List UInt8) : Except LoadFailure Document :=
  let decoded := decodeInBlocks bytes
  match decoded.failure with
  | none => (readLines (fedLines (unifyLineEnds decoded.text))).mapError (.ofStop path)
  | some why =>
    match ({} : Reading).lines 1 (finishedLines decoded.text) with
    | .ok _ => .error (.undecodable why)
    | .error stop => .error (.ofStop path stop)

/-- The document in the file at a path; something that is there but cannot be opened reads as an
empty file. -/
def documentAt (t : FileTree) (p : Path) : Except LoadFailure Document :=
  match t.exists? p with
  | .error why => .error (.inaccessible why)
  | .ok false => .error (.rejected (.notFound p.text))
  | .ok true =>
    match t.read p with
    | .ok bytes => documentOf p.text bytes
    | .error _ => .ok ⟨[]⟩

/-- The settings in the file at a path. -/
def load (t : FileTree) (p : Path) : Except LoadFailure Settings := do
  ofDocument (← documentAt t p) p.text

/-- The exclude rules in the file at a path. -/
def loadRules (t : FileTree) (p : Path) : Except LoadFailure (List ExcludeRule) := do
  rules (← documentAt t p) p.text

/-- Whether there is an entry at a path. -/
def isThere (t : FileTree) (p : Path) : Except LoadFailure Bool :=
  (t.exists? p).mapError .inaccessible

/-- The settings in a file that was asked for, which has to be there. -/
def loadGiven (t : FileTree) (p : Path) : Except LoadFailure Settings := do
  if ← isThere t p then load t p else throw (.missing p.text)

/-- The settings in a project's own file, or the defaults if it has none. -/
def loadOwn (t : FileTree) (project : Path) : Except LoadFailure Settings := do
  let own := project.entry projectFile
  if ← isThere t own then load t own else return {}

/-- The settings of a project: those in the given file, else its own. -/
def find (t : FileTree) (given : Option Path) (project : Path) : Except LoadFailure Settings :=
  match given with
  | some p => loadGiven t p
  | none => loadOwn t project

end Settings

end WeaveStep

import WeaveStep.Text.Blank
import WeaveStep.Text.Split

/-! # Settings

The settings of the weave step, with their defaults, and the rules that keep dependencies out of
weaving.

* `ExcludeRule.parse?` and `ExcludeRule.text`: a rule is written `group:module`. -/

namespace WeaveStep

/-- A dependency to be kept out of weaving. -/
structure ExcludeRule where
  group : String
  moduleName : String
  deriving DecidableEq, Repr

namespace ExcludeRule

/-- The rule written `group:module`, blanks around either left out. -/
def parse? (s : String) : Option ExcludeRule :=
  match (Text.splitAt ':' (Text.trim s)).map Text.trim with
  | [group, moduleName] => if group = "" ∨ moduleName = "" then none else some ⟨group, moduleName⟩
  | _ => none

/-- The written form of a rule. -/
def text (r : ExcludeRule) : String := r.group ++ ":" ++ r.moduleName

/-- The part of a path that shows an artifact of this group and module. -/
def fragment (r : ExcludeRule) : String := r.group ++ "/" ++ r.moduleName

end ExcludeRule

/-- The language levels and the source encoding the weaver is told. -/
structure CompileOptions where
  source : String := "1.7"
  target : String := "1.7"
  encoding : String := "UTF-8"
  deriving DecidableEq, Repr

/-- The weaver version used unless another is asked for. -/
def defaultWeaverVersion : String := "1.9.22.1"

/-- What the weave step is asked to do. -/
structure Settings where
  enabled : Bool := true
  /-- Whether the weaver needs the Java runtime library on its class path. -/
  runtimeNeeded : Bool := false
  verbose : Bool := false
  compileOptions : CompileOptions := {}
  excludeRules : List ExcludeRule := []
  bootClasspath : List String := []
  compileSdk : Option String := none
  androidSdk : Option String := none
  javaHome : Option String := none
  weaverVersion : String := defaultWeaverVersion
  weaverJar : Option String := none
  java : String := "java"
  deriving DecidableEq, Repr

end WeaveStep

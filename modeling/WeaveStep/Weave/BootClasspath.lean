import WeaveStep.Files.Walk
import WeaveStep.Settings.Basic
import WeaveStep.Weave.Invocation

/-! # Libraries the weaver needs

* `bootClasspath`: the boot class path, as the settings give it or from the platform archive of the
  Android SDK.
* `runtimeLibrary?`: the Java runtime library, on the class path or in the Java home. -/

namespace WeaveStep

open Text

/-- Variables of the environment, by name. -/
abbrev Environment := List (String × String)

/-! ## The platform -/

/-- Why there is no boot class path. -/
inductive PlatformFailure
  | noSdk (platform : String)
  | noArchive (path : String)
  | inaccessible (why : FileFailure)
  deriving Repr

namespace PlatformFailure

/-- The text of a failure. -/
def message : PlatformFailure → String
  | noSdk platform =>
    "compile_sdk is '" ++ platform ++ "' but no Android SDK was found. " ++
      "Set android_sdk in aspectj.ini or ANDROID_HOME."
  | noArchive path => "android.jar not found: " ++ path
  | inaccessible why => why.message

/-- The name of the kind of failure. -/
def kind : PlatformFailure → String
  | inaccessible why => why.kind
  | _ => "AndroidSdkError"

end PlatformFailure

/-- Where the SDK lies: as the settings say, or the environment. -/
def sdkDirectory? (settings : Settings) (environment : Environment) : Option Path :=
  (given? settings.androidSdk <|> given? (environment.lookup "ANDROID_HOME") <|>
    given? (environment.lookup "ANDROID_SDK_ROOT")).map Path.ofString

/-- The entries of the boot class path. -/
def bootClasspath (t : FileTree) (settings : Settings) (environment : Environment) :
    Except PlatformFailure (List String) :=
  if settings.bootClasspath ≠ [] then .ok settings.bootClasspath
  else
    match given? settings.compileSdk with
    | none => .ok []
    | some platform =>
      match sdkDirectory? settings environment with
      | none => .error (.noSdk platform)
      | some sdk =>
        let archive := ((sdk.child "platforms").child platform).child "android.jar"
        match t.exists? archive with
        | .error why => .error (.inaccessible why)
        | .ok false => .error (.noArchive archive.text)
        | .ok true =>
          match t.absolute archive with
          | .ok path => .ok [path.text]
          | .error why => .error (.inaccessible why)

/-! ## The runtime library -/

/-- What an entry of a class path that is the runtime library shows. -/
def runtimeFragment : String := "jre/lib/rt.jar"

/-- The runtime library: the last entry that shows it, else the one in the Java home. -/
def runtimeLibrary? (t : FileTree) (entries : List String) (javaHome : Option String) :
    Except FileFailure (Option String) := do
  match (entries.filter (Text.occursIn runtimeFragment)).getLast? with
  | some entry => return some entry
  | none =>
    match given? javaHome with
    | none => return none
    | some home =>
      let inner := ((Path.ofString home).child "jre/lib/rt.jar")
      let outer := ((Path.ofString home).child "lib/rt.jar")
      if ← t.isFile? inner then return some inner.text
      else if ← t.isFile? outer then return some outer.text
      else return none

end WeaveStep

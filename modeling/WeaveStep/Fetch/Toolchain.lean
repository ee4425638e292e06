import WeaveStep.Fetch.Cache
import WeaveStep.Fetch.Download
import WeaveStep.Launch.Program
import WeaveStep.Settings.Basic

/-! # The weaver's toolchain

The archive that holds the weaver, which is downloaded into the cache unless one is given, and the
Java launcher that runs it.

* `Toolchain.ensureWeaver`: the archive, downloaded if need be.
* `Toolchain.findJava`: the launcher on the search path.
* `Toolchain.command`: what launches the weaver. -/

namespace WeaveStep

open Text

/-! ## Failures -/

/-- Why there is no toolchain. -/
inductive ToolchainFlaw
  | noArchive (path : String)
  | notDownloaded (why : Rejection)
  | noJava (launcher : String)
  deriving Repr

namespace ToolchainFlaw

/-- The text of a failure. -/
def message : ToolchainFlaw → String
  | noArchive path => "Weaver jar not found: " ++ path
  | notDownloaded why => why.message
  | noJava launcher =>
    "Java launcher '" ++ launcher ++ "' not found. Install a JDK or set java in aspectj.ini."

/-- The kind of failure behind this one. -/
def origin : ToolchainFlaw → Option String
  | notDownloaded why => some why.kind
  | _ => none

end ToolchainFlaw

/-- Why the toolchain could not be told. -/
inductive ToolchainFailure
  | flawed (why : ToolchainFlaw)
  /-- The download failed in a way that is not its own. -/
  | download (why : DownloadFailure)
  | files (why : FileFailure)
  deriving Repr

namespace ToolchainFailure

/-- The text of a failure. -/
def message : ToolchainFailure → String
  | flawed why => why.message
  | download why => why.message
  | files why => why.message

/-- The name of the kind of failure. -/
def kind : ToolchainFailure → String
  | flawed _ => "WeaverToolchainError"
  | download why => why.kind
  | files why => why.kind

/-- The kind of failure behind this one. -/
def origin : ToolchainFailure → Option String
  | flawed why => why.origin
  | _ => none

/-- A failed download as a failure of the toolchain. -/
def ofDownload : DownloadFailure → ToolchainFailure
  | .rejected why => flawed (.notDownloaded why)
  | why => download why

end ToolchainFailure

/-! ## The toolchain -/

/-- Which weaver is to run, and how. -/
structure Toolchain where
  cache : Cache
  version : String
  java : String := "java"
  /-- The archive to be used as it is. -/
  archive : Option Path := none
  checksum : Option String := none
  showProgress : Bool := true

namespace Toolchain

/-- Where the weaver's archives are published. -/
def publisher : String := "https://repo1.maven.org/maven2/org/aspectj/aspectjtools"

/-- The weaver's entry point. -/
def mainClass : String := "org.aspectj.tools.ajc.Main"

/-- Who logs what the toolchain does. -/
def logger : String := "aspectweave.packages.weaver_toolchain"

/-- The toolchain that settings ask for. -/
def ofSettings (settings : Settings) (cache : Cache) (showProgress : Bool) : Toolchain where
  cache
  version := settings.weaverVersion
  java := settings.java
  archive := (given? settings.weaverJar).map .ofString
  showProgress

/-- What the archive is called. -/
def archiveName (c : Toolchain) : String := "aspectjtools-" ++ c.version ++ ".jar"

/-- Where the archive is downloaded from. -/
def downloadUrl (c : Toolchain) : String :=
  publisher ++ "/" ++ c.version ++ "/" ++ c.archiveName

/-- Where the archive lies in the cache. -/
def cachedArchive (c : Toolchain) : Path :=
  (c.cache.toolPath publisher c.version).child c.archiveName

/-- Whether the archive is there. -/
def isInstalled (c : Toolchain) (t : FileTree) : Except FileFailure Bool :=
  t.isFile? (c.archive.getD c.cachedArchive)

/-- The download of the archive into the cache. -/
def asDownload (c : Toolchain) : Download where
  url := c.downloadUrl
  target := c.cachedArchive
  checksum := c.checksum
  showProgress := c.showProgress

/-- The archive in the cache, downloaded if it is not there. -/
def ensureCached (c : Toolchain) : Run ToolchainFailure Path := do
  let archive := c.cachedArchive
  if ← Run.ask .files (·.isFile? archive) then
    Run.log .debug logger ("Using cached weaver: " ++ archive.text)
    return archive
  Run.log .info logger ("Downloading AspectJ tools " ++ c.version ++ "...")
  Run.wrapping .ofDownload (download c.asDownload)

/-- The archive; one that is given has to be there. -/
def ensureWeaver (c : Toolchain) : Run ToolchainFailure Path := do
  match c.archive with
  | some archive =>
    if ← Run.ask .files (·.isFile? archive) then return archive
    else throw (.flawed (.noArchive archive.text))
  | none => c.ensureCached

/-- The Java launcher on the search path. -/
def findJava (c : Toolchain) : Run ToolchainFailure String := do
  let w ← get
  match w.files.findProgram? (w.setting? "PATH") c.java with
  | some java => return java
  | none => throw (.flawed (.noJava c.java))

/-- The command that launches the weaver, in front of the weaver's own arguments. -/
def command (c : Toolchain) : Run ToolchainFailure (List String) := do
  let archive ← c.ensureWeaver
  let java ← c.findJava
  return [java, "-classpath", archive.text, mainClass]

end Toolchain

end WeaveStep

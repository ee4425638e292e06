import WeaveStep.Files.Path

/-! # Invocations of the weaver

What the weaver is told in one run, and how that is written on a command line. -/

namespace WeaveStep

/-- What the weaver is told. Lists of paths are joined by colons. -/
structure Invocation where
  source : String
  target : String
  encoding : String
  inpath : String
  classpath : String
  bootClasspath : String
  output : Path
  deriving DecidableEq, Repr

/-- Paths as one list. -/
def joinPaths (paths : List String) : String := ":".intercalate paths

/-- The arguments for the weaver; an empty class path is left out. -/
def Invocation.arguments (i : Invocation) : List String :=
  ["-source", i.source, "-target", i.target, "-showWeaveInfo", "-encoding", i.encoding,
    "-inpath", i.inpath, "-d", i.output.text, "-bootclasspath", i.bootClasspath] ++
    (if i.classpath = "" then [] else ["-classpath", i.classpath])

end WeaveStep

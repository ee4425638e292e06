import WeaveStep.Files.Change
import WeaveStep.Text.Blank
import WeaveStep.Text.Utf8

/-! # Workspaces as text

A workspace written as a listing, one entry after the other, each followed by the lines that it
holds:

    directory classes
    file aspectj.ini
    |[aspectj]
    |enabled = yes
    program bin/java
    |#!/bin/sh
    link lib
    |libs/current

* `FileTree.ofListing`: the tree that a listing describes.
* `FileTree.listing`: the listing of what is below the working directory. -/

namespace WeaveStep

open Text

/-- The kinds of entries, as a listing calls them. -/
inductive EntryKind
  | directory
  | file
  | program
  | link
  deriving DecidableEq, Repr

/-- The word for a kind of entry. -/
def EntryKind.word : EntryKind → String
  | directory => "directory"
  | file => "file"
  | program => "program"
  | link => "link"

/-- An entry of a listing: its kind, its path and the lines that it holds. -/
structure ListedEntry where
  kind : EntryKind
  path : String
  lines : List String := []

namespace ListedEntry

/-- The entry that a line begins. -/
def begin? (line : String) : Option ListedEntry :=
  [EntryKind.directory, .file, .program, .link].findSome? fun kind =>
    (after? (kind.word ++ " ").toList line.toList).map fun path => ⟨kind, String.ofList path, []⟩

/-- The bytes of the file that an entry describes. -/
def content (e : ListedEntry) : List UInt8 := utf8Bytes (String.join (e.lines.map (· ++ "\n")))

/-- Makes the entry, with the directories above it. -/
def make (e : ListedEntry) : FileTree.Action Unit := do
  let p := Path.ofString e.path
  FileTree.ensureDirectory p.parent
  match e.kind with
  | .directory => FileTree.ensureDirectory p
  | .link =>
    let place ← FileTree.query (·.locate .own p)
    modify (·.set place (.link (String.intercalate "\n" e.lines)))
  | .file => FileTree.change (·.write p e.content)
  | .program =>
    FileTree.change (·.write p e.content)
    FileTree.change (·.setExecutable p true)

/-- The lines that describe the entry. -/
def text (e : ListedEntry) : List String :=
  (e.kind.word ++ " " ++ e.path) :: e.lines.map ("|" ++ ·)

end ListedEntry

/-- The entries of a listing; a line that neither begins an entry nor belongs to one is skipped. -/
def listedEntries (lines : List String) : List ListedEntry :=
  (lines.foldl (fun done line =>
    match line.toList, done with
    | '|' :: rest, e :: done => { e with lines := e.lines ++ [String.ofList rest] } :: done
    | _, done =>
      match ListedEntry.begin? line with
      | some e => e :: done
      | none => done) []).reverse

namespace FileTree

/-- The directory that a listing describes. -/
def listedDirectory : Location := ["workspace"]

/-- An empty workspace, with the shell. -/
def emptyWorkspace : FileTree where
  entries := [([], .directory), (["bin"], .link "usr/bin"), (["usr"], .directory),
    (["usr", "bin"], .directory), (["usr", "bin", "sh"], .link "dash"),
    (["usr", "bin", "dash"], .file [] true), (["dev"], .directory), (["dev", "null"], .device false),
    (listedDirectory, .directory)]
  workingDirectory := listedDirectory

/-- The tree that a listing describes; an entry that cannot be made is left out. -/
def ofListing (lines : List String) : FileTree :=
  (listedEntries lines).foldl (fun t e =>
    match e.make t with
    | .ok _ t' => t'
    | .error _ _ => t) emptyWorkspace

/-- The entry of a listing that a node is. -/
def listed (path : String) : Node → ListedEntry
  | .directory => ⟨.directory, path, []⟩
  | .link target => ⟨.link, path, [target]⟩
  | .device _ => ⟨.file, path, []⟩
  | .file content executable =>
    ⟨if executable then .program else .file, path, Text.lines (String.ofList (decodeLeniently content))⟩

/-- The listing of what is below the working directory. -/
def listing (t : FileTree) : List String :=
  let below := t.entries.filter fun e => isWithin t.workingDirectory e.1 && e.1 != t.workingDirectory
  let named := below.map fun e => ("/".intercalate (e.1.drop t.workingDirectory.length), e.2)
  (named.mergeSort fun a b => a.1 ≤ b.1).flatMap fun e => (listed e.1 e.2).text

end FileTree

end WeaveStep

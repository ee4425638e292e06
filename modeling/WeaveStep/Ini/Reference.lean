import WeaveStep.Ini.Document
import WeaveStep.Text.Split

/-! # References in values

A value may refer to others: `${key}` stands for the value of a key of the same section, and
`${section:key}` for one of another section; two dollar signs stand for one.

* `expand`: a value with its references replaced, and the references in what they stand for, down
  to ten levels.
* `Document.resolved?`: the value that a section gives a key, with its references replaced. -/

namespace WeaveStep.Ini

open Text

/-- Why a reference cannot be replaced. -/
inductive ReferenceFailure
  /-- No such key; `raw` is the value that holds the reference. -/
  | unknown (name key reference raw : String)
  /-- The references go too deep. -/
  | tooDeep (name key raw : String)
  /-- A dollar sign and a brace with no reference after them. -/
  | unclosed (rest : String)
  /-- A dollar sign alone. -/
  | lone (rest : String)
  /-- More than a section and a key. -/
  | overlong (rest : String)
  deriving DecidableEq, Repr

/-- The number of levels references may go down. -/
def maxDepth : Nat := 10

/-- The text of a failure. -/
def ReferenceFailure.message : ReferenceFailure → String
  | unknown name key reference raw =>
    "Bad value substitution: option " ++ quoted key ++ " in section " ++ quoted name ++
      " contains an interpolation key " ++ quoted reference ++
      " which is not a valid option name. Raw value: " ++ quoted raw
  | tooDeep name key raw =>
    "Recursion limit exceeded in value substitution: option " ++ quoted key ++ " in section " ++
      quoted name ++ " contains an interpolation key which cannot be substituted in " ++
      toString maxDepth ++ " steps. Raw value: " ++ quoted raw
  | unclosed rest => "bad interpolation variable reference " ++ quoted rest
  | lone rest => "'$' must be followed by '$' or '\x7b', found: " ++ quoted rest
  | overlong rest => "More than one ':' found: " ++ quoted rest

/-- The name of the kind of failure. -/
def ReferenceFailure.kind : ReferenceFailure → String
  | unknown _ _ _ _ => "InterpolationMissingOptionError"
  | tooDeep _ _ _ => "InterpolationDepthError"
  | unclosed _ | lone _ | overlong _ => "InterpolationSyntaxError"

/-- Why a value cannot be given: a reference fails, or it refers to a key that stands alone. -/
inductive Unresolved
  | reference (why : ReferenceFailure)
  | noValue
  deriving DecidableEq, Repr

/-- What a reference in the section `name` names: a section and a key. -/
def target? (name : String) (reference : List Char) : Option (String × String) :=
  match (piecesAt ':' reference).map String.ofList with
  | [key] => some (name, smallLetters key)
  | [other, key] => some (other, smallLetters key)
  | _ => none

/-- The text after `${`: the reference up to the closing brace, and what follows it. -/
def reference? (rest : List Char) : Option (List Char × List Char) :=
  match rest.takeWhile (· ≠ '}'), rest.dropWhile (· ≠ '}') with
  | c :: reference, _ :: after => some (c :: reference, after)
  | _, _ => none

theorem length_reference?_lt {rest reference after : List Char}
    (h : reference? rest = some (reference, after)) : after.length < rest.length := by
  unfold reference? at h
  split at h
  · rename_i hd
    obtain ⟨-, rfl⟩ := Prod.mk.inj (Option.some.inj h)
    have hs : rest.dropWhile (· ≠ '}') <:+ rest := List.dropWhile_suffix _
    have := hs.length_le
    rw [hd, List.length_cons] at this
    omega
  · simp at h

/-- The text with its references replaced. It is (part of) the value `raw` that the section `name`
gives `key`, and references may go down `depth` levels from here. -/
def expand (d : Document) (depth : Nat) (name key raw : String) (text : List Char) :
    Except Unresolved (List Char) :=
  match text with
  | [] => .ok []
  | '$' :: '$' :: rest => ('$' :: ·) <$> expand d depth name key raw rest
  | '$' :: '{' :: rest =>
    match h : reference? rest with
    | none => .error (.reference (.unclosed (String.ofList ('$' :: '{' :: rest))))
    | some (reference, after) =>
      match target? name reference with
      | none => .error (.reference (.overlong (String.ofList after)))
      | some (other, key') =>
        match if d.hasSection other then d.value? other key' else none with
        | none => .error (.reference (.unknown name key (String.ofList reference) raw))
        | some none => .error .noValue
        | some (some value) => do
          let replaced ←
            if value.toList.contains '$' then
              match depth with
              | 0 => .error (.reference (.tooDeep other key' value))
              | depth + 1 => expand d depth other key' value value.toList
            else .ok value.toList
          have := length_reference?_lt h
          return replaced ++ (← expand d depth name key raw after)
  | '$' :: rest => .error (.reference (.lone (String.ofList ('$' :: rest))))
  | c :: rest => (c :: ·) <$> expand d depth name key raw rest
termination_by (depth, text.length)

/-- The value that a section gives a key, with its references replaced; nothing where the section
or the key is not there or the key stands alone. -/
def Document.resolved? (d : Document) (name key : String) : Except Unresolved (Option String) :=
  match if d.hasSection name then d.value? name key else none with
  | some (some raw) =>
    (fun text => some (String.ofList text)) <$> expand d (maxDepth - 1) name key raw raw.toList
  | _ => .ok none

end WeaveStep.Ini

import WeaveStep.Launch.Script

/-! # Reading scripts

How the text of a script is taken apart, one whole command at a time, so that what stands before an
error is run all the same.

* `Reading`: what is left of the text, with the line at hand and the documents in it.
* `readToken`: the next token; `readPieces`: the pieces of a word, up to where it ends in its
  `Context`.
* `replaceAlias`: the text that a word stands for takes its place where a command begins.
* `nextCommand`: the next command of a script.

Everything that is read nests at most as deep as the text is long, which bounds the recursion; text
that takes the place of words needs more. -/

namespace WeaveStep.Launch

open Text

/-! ## Tokens -/

/-- What a script is made of. -/
inductive Token
  | ending
  | newline
  /-- A mark such as a semicolon or a parenthesis. -/
  | mark (text : String)
  | keyword (name : String)
  | redirect (descriptor : Nat) (how : Redirection) (isCopy : Bool)
  /-- The begin of a document, the tabs in front of whose lines may not count. -/
  | document (descriptor : Nat) (dropTabs : Bool)
  | word (w : Word)

/-- What a message calls a token. -/
def Token.title : Token → String
  | ending => "end of file"
  | newline => "newline"
  | mark text => "\"" ++ text ++ "\""
  | keyword name => "\"" ++ name ++ "\""
  | redirect _ _ _ | document _ _ => "redirection"
  | word _ => "word"

/-- The words that mean something of their own where a command begins. -/
def keywords : List String :=
  ["!", "case", "do", "done", "elif", "else", "esac", "fi", "for", "if", "in", "then", "until", "while",
    "\x7b", "\x7d"]

/-- A token where keywords count. -/
def Token.recognized : Token → Token
  | word w =>
    match plainText? w with
    | some text => if keywords.contains text then keyword text else word w
    | none => word w
  | t => t

/-- Whether a token is the given keyword. -/
def Token.isKeyword (t : Token) (name : String) : Bool :=
  match t with
  | keyword name' => name' = name
  | _ => false

/-- Whether a token is the given mark. -/
def Token.isMark (t : Token) (text : String) : Bool :=
  match t with
  | mark text' => text' = text
  | _ => false

/-- Whether a list of commands ends in front of a token. -/
def Token.endsList : Token → Bool
  | ending => true
  | mark text => text = ")" || text = ";;"
  | keyword name => ["do", "done", "elif", "else", "esac", "fi", "then", "\x7d"].contains name
  | _ => false

/-! ## Readings -/

/-- A document whose text is still to come. -/
structure Awaited where
  /-- Its number among the documents. -/
  number : Nat
  lastLine : List Char
  dropTabs : Bool
  /-- Whether the text is taken as it stands. -/
  asIs : Bool

/-- A word whose text was put in its place. -/
structure Replaced where
  name : String
  /-- Whether that text ends with a blank, so that the word after it may be replaced as well. -/
  endsBlank : Bool
  /-- The length of what follows it. -/
  behind : Nat

/-- A script that is being read. -/
structure Reading where
  rest : List Char
  line : Nat := 1
  /-- A token that was read ahead. -/
  ahead : Option Token := none
  awaited : List Awaited := []
  /-- The document whose text is being read, and whether its last line has been. -/
  document : Option Awaited := none
  isDocumentOver : Bool := false
  /-- The documents read, by their numbers; those that are awaited are empty so far. -/
  documents : List Word := []
  /-- The texts that words stand for where a command begins. -/
  aliases : List (String × String) := []
  /-- The words that the text at hand takes the place of, latest first. -/
  replaced : List Replaced := []
  /-- Whether the token that was read last stands where a word may be replaced for being behind
  another one that was. -/
  isBehindBlank : Bool := false
  /-- Whether the text comes from a file, so that it may be shown as it is read. -/
  isFile : Bool := false

namespace Reading

/-- Whether a word has been replaced, and the text in its place is not yet behind us. -/
def isReplaced (s : Reading) (name : String) : Bool :=
  s.replaced.any fun r => r.name = name && r.behind ≤ s.rest.length

/-- A text of its own, within which the same words count as replaced. -/
def within (s : Reading) (text : List Char) : Reading :=
  { s with
    rest := text
    ahead := none
    awaited := []
    document := none
    replaced := (s.replaced.filter (s.isReplaced ·.name)).map ({ · with endsBlank := false, behind := 0 }) }

/-- How much of the script is left, apart from what takes the place of words. -/
def left (s : Reading) : Nat := s.replaced.foldl (fun n r => min n r.behind) s.rest.length

end Reading

/-- What counts for a token where it stands. -/
structure Place where
  keywords : Bool := false
  aliases : Bool := false
  /-- Whether line ends count for nothing. -/
  skipsLines : Bool := false

namespace Place

/-- Within a command. -/
def inner : Place := {}

/-- Where a keyword may stand. -/
def keyword : Place := { keywords := true }

/-- Where a command begins, in the same line. -/
def command : Place := { keywords := true, aliases := true }

/-- Where a command begins, maybe in another line. -/
def commandBelow : Place := { keywords := true, aliases := true, skipsLines := true }

/-- Where the name of a simple command may stand. -/
def name : Place := { aliases := true }

/-- Where a pattern begins. -/
def pattern : Place := { keywords := true, skipsLines := true }

end Place

/-- What is wrong with a script, and in which line. -/
structure Complaint where
  line : Nat
  text : String

/-- A step of reading. -/
abbrev Reader := EStateM Complaint Reading

/-- Complains about the script. -/
def complain {α : Type} (text : String) : Reader α := do
  throw ⟨(← get).line, text⟩

/-- Complains about a token that does not stand where it should. -/
def unexpected {α : Type} (t : Token) (expected : Option Token) : Reader α :=
  complain (t.title ++ " unexpected" ++
    match expected with
    | some e => " (expecting " ++ e.title ++ ")"
    | none => "")

/-- Puts a token back. -/
def putBack (t : Token) : Reader Unit := modify fun s => { s with ahead := some t }

/-- The number of line ends in a text. -/
def lineEnds (s : List Char) : Nat := s.count '\n'

/-- Goes on behind `part`, which the text begins with. -/
def goBehind (part : List Char) : Reader Unit :=
  modify fun s => { s with rest := s.rest.drop part.length, line := s.line + lineEnds part }

/-- The text without the line ends in front of it that a backslash takes away, and their number. -/
def joined : List Char → Nat × List Char
  | '\\' :: '\n' :: rest => ((joined rest).1 + 1, (joined rest).2)
  | rest => (0, rest)

/-- The text without the blanks and the comment in front of it, and the number of lines joined. -/
def unblanked : List Char → Nat × List Char
  | '\\' :: '\n' :: rest => ((unblanked rest).1 + 1, (unblanked rest).2)
  | ' ' :: rest | '\t' :: rest => unblanked rest
  | '#' :: rest => (0, rest.dropWhile (· ≠ '\n'))
  | rest => (0, rest)

/-- Goes to the next token. -/
def skipBlanks : Reader Unit := modify fun s =>
  let (lines, rest) := unblanked s.rest
  { s with rest, line := s.line + lines }

/-- Goes to the next character; lines that a backslash joins are one. -/
def atNext : Reader (Option Char) := fun s =>
  let (lines, rest) := joined s.rest
  .ok rest.head? { s with rest, line := s.line + lines }

/-- Takes the next character if it is the given one. -/
def takes (c : Char) : Reader Bool := do
  if (← atNext) = some c then
    goBehind [c]
    return true
  else return false

/-- The parameters of one mark. -/
def isSpecial (c : Char) : Bool := "@*#?$!-".toList.contains c

/-- A character that ends a word. -/
def endsWord (c : Char) : Bool := " \t\n;&|<>()".toList.contains c

/-- Takes characters of a kind, at most `most`. -/
def takeKind (kind : Char → Bool) : (most : Nat) → Reader (List Char)
  | 0 => pure []
  | most + 1 => do
    match ← atNext with
    | some c =>
      if kind c then
        goBehind [c]
        (c :: ·) <$> takeKind kind most
      else return []
    | none => return []

/-- What is left of a document at the begin of a line: the tabs in front of it may not count, and there
is nothing if it is the last one. Gives what follows that one then. -/
def Awaited.atLine (d : Awaited) (s : List Char) : List Char × Option (List Char) :=
  let s := if d.dropTabs then s.dropWhile (· = '\t') else s
  let line := s.takeWhile (· ≠ '\n')
  (s, if line = d.lastLine then some (s.drop (line.length + 1)) else none)

/-- Begins a line of the document at hand. -/
def beginLine : Reader Unit := modify fun s =>
  match s.document.map (·.atLine s.rest) with
  | some (_, some rest) => { s with rest, line := s.line + 1, isDocumentOver := true }
  | some (rest, none) => { s with rest }
  | none => s

/-- The text of a document that is taken as it stands, the number of its lines with the last one, and
what follows. Where that is missing, the document is all that is left. -/
def plainDocument (d : Awaited) : (most : Nat) → List Char → List Char × Nat × List Char
  | 0, s => ([], 0, s)
  | most + 1, s =>
    match d.atLine s with
    | (_, some rest) => ([], 1, rest)
    | ([], none) => ([], 0, [])
    | (s, none) =>
      let line := s.takeWhile (· ≠ '\n')
      let here := s.take (line.length + 1)
      let (text, lines, rest) := plainDocument d most (s.drop here.length)
      (here ++ text, lines + lineEnds here, rest)

/-! ## Words -/

/-- What words are part of. -/
inductive Region
  | script
  | document
  /-- The word that the last line of a document consists of, in which nothing is replaced. -/
  | lastLine
  deriving DecidableEq

/-- Where the pieces of a word stand. -/
inductive Context
  | word
  | lastLine
  | quotes (region : Region)
  /-- Within the braces of a parameter. -/
  | braces (quoted : Bool) (region : Region)
  | document
  /-- Within an expression, at some depth of its parentheses. -/
  | sum (depth : Nat) (region : Region)
  deriving DecidableEq

/-- Whether characters count as quoted. -/
def Context.isQuoted : Context → Bool
  | word | lastLine | braces false _ => false
  | _ => true

/-- Whether a backslash in front of a character takes away its meaning. -/
def Context.escapes (x : Context) (c : Char) : Bool :=
  match x with
  | word | lastLine | braces false _ => true
  | quotes _ => "$\x60\"\\".toList.contains c
  | braces true _ => "$\x60\"\\\x7d".toList.contains c
  | document | sum _ _ => "$\x60\\".toList.contains c

/-- What the words in a context are part of. -/
def Context.region : Context → Region
  | word => .script
  | lastLine => .lastLine
  | document => .document
  | quotes region | braces _ region | sum _ region => region

/-- What is wrong where the text ends. -/
def Context.unfinished? : Context → Option String
  | word | lastLine | document => none
  | braces false _ | braces _ .document | quotes .document => some "Missing '\x7d'"
  | quotes _ | braces _ _ => some "Unterminated quoted string"
  | sum _ _ => some "Missing '))'"

/-- The text of a command in backquotes: what a backslash stands in front of keeps it, three
characters apart, and in quotes four. -/
def unescapedCommand (quoted : Bool) : List Char → List Char
  | '\\' :: '\n' :: rest => unescapedCommand quoted rest
  | '\\' :: c :: rest =>
    if c = '\\' || c = '\x60' || c = '$' || (quoted && c = '"') then c :: unescapedCommand quoted rest
    else '\\' :: c :: unescapedCommand quoted rest
  | c :: rest => c :: unescapedCommand quoted rest
  | [] => []

/-- The text up to a backquote without a backslash in front of it. -/
def untilBackquote : List Char → List Char
  | '\\' :: c :: rest => '\\' :: c :: untilBackquote rest
  | c :: rest => if c = '\x60' then [] else c :: untilBackquote rest
  | [] => []

/-- How a parameter is used, by the mark that follows its name. -/
def parameterUse? : Char → Option ParameterUse
  | '-' => some .orWord
  | '=' => some .orSet
  | '?' => some .orFail
  | '+' => some .ifSet
  | _ => none

/-- Whether a word ends with a piece, whatever follows. -/
def endsWhole : Piece → Bool
  | .parameter _ _ .andWord _ _ => true
  | _ => false

/-- The name and the word of a setting, if a word is one. -/
def setting? (w : Word) : Option (String × Word) :=
  let front := w.map fun
    | .char false c => some c
    | _ => none
  let name := (front.takeWhile (·.any isNameChar)).filterMap id
  if front[name.length]? = some (some '=') && isName (String.ofList name) then
    some (String.ofList name, w.drop (name.length + 1))
  else none

/-- The words of redirections that were read. -/
structure Parts where
  settings : List (String × Word) := []
  words : List Word := []
  redirects : List Redirect := []

/-- An arrow, with the descriptor in front of it. -/
def readArrow (descriptor : Option Nat) : Reader Token := do
  if ← takes '>' then
    let descriptor := descriptor.getD 1
    if ← takes '>' then return .redirect descriptor .append false
    if ← takes '|' then return .redirect descriptor .overwrite false
    if ← takes '&' then return .redirect descriptor .copy true
    return .redirect descriptor .output false
  else
    let descriptor := descriptor.getD 0
    let _ ← takes '<'
    if ← takes '<' then return .document descriptor (← takes '-')
    if ← takes '&' then return .redirect descriptor .copy true
    if ← takes '>' then return .redirect descriptor .both false
    return .redirect descriptor .input false

/-- The descriptor that a word is in front of an arrow. -/
def descriptorBefore? (w : Word) (next : Option Char) : Option Nat :=
  match w with
  | [.char false d] =>
    if d.isDigit && (next = some '<' || next = some '>') then some (d.toNat - 48) else none
  | _ => none

/-- Puts the text that a word stands for in its place, if there is one and it is not there already;
gives whether that was done. -/
def replaceAlias (w : Word) : Reader Bool := fun s =>
  match (plainText? w).bind fun name => (s.aliases.lookup name).map (name, ·) with
  | some (name, text) =>
    if s.isReplaced name then .ok false s
    else if text = "" then .ok true s
    else
      let endsBlank := text.toList.getLast?.any fun c => c = ' ' || c = '\t'
      .ok true { s with
        rest := text.toList ++ s.rest
        replaced := ⟨name, endsBlank, s.rest.length⟩ :: s.replaced }
  | none => .ok false s

/-- Goes to the next token, and sees whether it comes right behind text in the place of a word that
ends with a blank. -/
def goToToken : Reader Unit := do
  let before ← get
  skipBlanks
  if before.replaced.any (·.endsBlank) then
    modify fun s => { s with
      isBehindBlank := before.replaced.any fun r =>
        r.endsBlank && s.rest.length ≤ r.behind && r.behind < before.rest.length }

/-- Goes behind a character that stands for itself. -/
def goBehindOne (x : Context) (c : Char) : Reader Unit := do
  goBehind [c]
  if c = '\n' && x.region = .document then beginLine

mutual

/-- The pieces of a word, up to where it ends. -/
def readPieces (fuel : Nat) (x : Context) : Reader Word :=
  match fuel with
  | 0 => pure []
  | fuel + 1 => do
    let s ← get
    match if s.isDocumentOver then [] else s.rest with
    | [] =>
      match x.unfinished? with
      | some text => complain text
      | none => return []
    | '\\' :: '\n' :: _ =>
      goBehind ['\\', '\n']
      readPieces fuel x
    | '\\' :: c :: _ =>
      goBehind ['\\', c]
      let piece := if x.escapes c then [.char true c] else [.char true '\\', .char true c]
      (piece ++ ·) <$> readPieces fuel x
    | c :: rest =>
      if c = '$' && x.region ≠ .lastLine then
        goBehind [c]
        let pieces ← readDollar fuel x.isQuoted x.region
        let further ← readPieces fuel x
        return if pieces.any endsWhole then pieces else pieces ++ further
      else if c = '\x60' && x.region ≠ .lastLine then
        let text := untilBackquote rest
        if text.length = rest.length then
          goBehind (c :: rest)
          complain "EOF in backquote substitution"
        goBehind [c]
        let body ← readCommandText fuel (unescapedCommand (x = .quotes x.region) text)
        goBehind (text ++ [c])
        (.output x.isQuoted body :: ·) <$> readPieces fuel x
      else
        match x with
        | .word | .lastLine =>
          if endsWord c then return []
          if c = '\'' || c = '"' then
            let pieces ← readQuotes fuel x.region c
            (pieces ++ ·) <$> readPieces fuel x
          else
            goBehind [c]
            (.char false c :: ·) <$> readPieces fuel x
        | .quotes _ =>
          goBehindOne x c
          if c = '"' then return []
          (.char true c :: ·) <$> readPieces fuel x
        | .braces quoted _ =>
          if c = '\x7d' then
            goBehind [c]
            return []
          if c = '"' || (c = '\'' && !quoted) then
            let pieces ← readQuotes fuel x.region c
            (pieces ++ ·) <$> readPieces fuel x
          else
            goBehindOne x c
            (.char quoted c :: ·) <$> readPieces fuel x
        | .document =>
          goBehindOne x c
          (.char true c :: ·) <$> readPieces fuel x
        | .sum depth region =>
          goBehindOne x c
          if c = ')' && depth = 0 then
            if ← takes ')' then return []
            (.char true c :: ·) <$> readPieces fuel x
          else
            let depth := if c = '(' then depth + 1 else if c = ')' then depth - 1 else depth
            (.char true c :: ·) <$> readPieces fuel (.sum depth region)

/-- A part of a word within quotes. -/
def readQuotes (fuel : Nat) (region : Region) (mark : Char) : Reader Word :=
  match fuel with
  | 0 => pure []
  | fuel + 1 => do
    goBehind [mark]
    if mark = '\'' then
      let text := (← get).rest.takeWhile (· ≠ '\'')
      goBehind text
      if (← get).rest = [] then complain "Unterminated quoted string"
      goBehind [mark]
      return if text = [] then [.emptyQuotes] else text.map (.char true ·)
    else
      let pieces ← readPieces fuel (.quotes region)
      return if pieces.isEmpty then [.emptyQuotes] else pieces

/-- What follows a dollar sign. -/
def readDollar (fuel : Nat) (quoted : Bool) (region : Region) : Reader Word :=
  match fuel with
  | 0 => pure []
  | fuel + 1 => do
    match ← atNext with
    | some '(' =>
      goBehind ['(']
      if ← takes '(' then return [.sum quoted (← readPieces fuel (.sum 0 region))]
      let awaited := (← get).awaited
      modify ({ · with awaited := [] })
      let body ← readList fuel true
      let t ← readToken fuel .inner
      if !t.isMark ")" then unexpected t (some (.mark ")"))
      modify ({ · with awaited })
      return [.output quoted body]
    | some c =>
      if c = '\x7b' then
        goBehind [c]
        return [← readBraced fuel quoted region]
      else if beginsName c then
        let name ← takeKind isNameChar (← get).rest.length
        return [.parameter quoted (String.ofList name) .value false []]
      else if c.isDigit || isSpecial c then
        goBehind [c]
        return [.parameter quoted (String.singleton c) .value false []]
      else return [.char quoted '$']
    | none => return [.char quoted '$']

/-- A parameter in braces. -/
def readBraced (fuel : Nat) (quoted : Bool) (region : Region) : Reader Piece :=
  match fuel with
  | 0 => pure .emptyQuotes
  | fuel + 1 => do
    let ending (name : List Char) (use : ParameterUse) (needsText inQuotes : Bool) : Reader Piece := do
      return .parameter quoted (String.ofList name) use needsText
        (← readPieces fuel (.braces inQuotes region))
    let skip : Reader Unit := modify fun s => { s with rest := s.rest.drop 1 }
    let most := (← get).rest.length
    let named : Reader (List Char) := do
      match ← atNext with
      | some c =>
        if beginsName c then takeKind isNameChar most
        else if c.isDigit then takeKind Char.isDigit most
        else return []
      | none => return []
    let name ← named
    let (name, isLength) ←
      if name ≠ [] then pure (name, false)
      else
        match ← atNext with
        | some c =>
          if isSpecial c then
            goBehind [c]
            if c = '#' then
              let name ← named
              if name ≠ [] then pure (name, true)
              else
                match (← get).rest with
                | d :: '\x7d' :: _ =>
                  if isSpecial d then
                    goBehind [d]
                    pure ([d], true)
                  else pure ([c], false)
                | _ => pure ([c], false)
            else pure ([c], false)
          else pure ([], false)
        | none => pure ([], false)
    if isLength then
      if ← takes '\x7d' then return .parameter quoted (String.ofList name) .length false []
      skip
      return ← ending name .senseless false quoted
    match ← atNext with
    | some c =>
      skip
      if c = '\x7d' then
        return .parameter quoted (String.ofList name) (if name = [] then .senseless else .value) false []
      if name = [] then ending [] .senseless false quoted
      else if c = ':' then
        let use := ((← atNext).bind fun mark =>
          if mark = '\x7d' then some .andWord else parameterUse? mark).getD .senseless
        skip
        ending name use true quoted
      else if c = '%' || c = '#' then
        let longest ← takes c
        ending name (if c = '#' then .withoutStart longest else .withoutEnd longest) false false
      else
        match parameterUse? c with
        | some use => ending name use false quoted
        | none => ending name .senseless false quoted
    | none => ending name .value false quoted

/-- The commands in a text of their own, up to a token that ends them. -/
def readCommandText (fuel : Nat) (text : List Char) : Reader Command :=
  match fuel with
  | 0 => pure .nothing
  | fuel + 1 => do
    let outer ← get
    set { outer.within text with line := 1 }
    let body ← readList fuel true
    modify fun s => { outer with documents := s.documents }
    return body

/-- The next token, of which its place says what counts. -/
def readToken (fuel : Nat) (place : Place) : Reader Token :=
  match fuel with
  | 0 => pure .ending
  | fuel + 1 => do
    let t ← match (← get).ahead with
      | some t =>
        modify fun s => { s with ahead := none }
        pure t
      | none => readFreshToken fuel
    match t with
    | .newline => if place.skipsLines then readToken fuel place else return t
    | t =>
      let place := { place with aliases := place.aliases || (← get).isBehindBlank }
      modify fun s => { s with isBehindBlank := false }
      match if place.keywords then t.recognized else t with
      | .word w =>
        if place.aliases then
          if ← replaceAlias w then return ← readToken fuel place
        return .word w
      | t => return t

/-- A token that was not read ahead. -/
def readFreshToken (fuel : Nat) : Reader Token :=
  match fuel with
  | 0 => pure .ending
  | fuel + 1 => do
    goToToken
    match (← get).rest with
    | [] => return .ending
    | '\n' :: _ =>
      goBehind ['\n']
      readDocuments fuel (← get).awaited
      return .newline
    | c :: _ =>
      if c = ';' || c = '&' || c = '|' then
        goBehind [c]
        if ← takes c then return .mark (String.ofList [c, c])
        return .mark (String.singleton c)
      else if c = '(' || c = ')' then
        goBehind [c]
        return .mark (String.singleton c)
      else if c = '<' || c = '>' then readArrow none
      else
        let w ← readPieces fuel .word
        match descriptorBefore? w (← atNext) with
        | some descriptor => readArrow (some descriptor)
        | none => return .word w

/-- Reads the documents that are awaited. -/
def readDocuments (fuel : Nat) (awaited : List Awaited) : Reader Unit :=
  match fuel, awaited with
  | 0, _ | _, [] => pure ()
  | fuel + 1, d :: awaited => do
    let before ← get
    let w ←
      if d.asIs then
        let (text, lines, rest) := plainDocument d (before.rest.length + 1) before.rest
        set { before with rest, line := before.line + lines }
        pure (text.map (Piece.char true ·))
      else
        set { before with awaited := [], document := some d }
        beginLine
        readPieces fuel .document
    modify fun s => { s with
      awaited
      document := before.document
      isDocumentOver := false
      documents := s.documents.set d.number w }
    readDocuments fuel awaited

/-- The word that a redirection goes by. -/
def readTarget (fuel : Nat) (t : Token) : Reader (Option Redirect) :=
  match fuel with
  | 0 => pure none
  | fuel + 1 => do
    match t with
    | .redirect descriptor how _ =>
      match ← readToken fuel .inner with
      | .word w => return some (descriptor, how, w)
      | t => unexpected t none
    | .document descriptor dropTabs =>
      skipBlanks
      let w ← readPieces fuel .lastLine
      let isArrow := (descriptorBefore? w (← atNext)).isSome
      if w.isEmpty || isArrow then unexpected (← readToken fuel .inner) none
      else
        let lastLine := w.filterMap fun
          | .char _ c => some c
          | _ => none
        let s : Reading ← get
        let number := s.documents.length
        set { s with
          awaited := s.awaited ++ [Awaited.mk number lastLine dropTabs (isQuoted w)]
          documents := s.documents ++ [[]] }
        return some (descriptor, .document number, [])
    | _ => return none

/-- Redirections, as many as there are. -/
def readRedirects (fuel : Nat) (place : Place) : Reader (List Redirect) :=
  match fuel with
  | 0 => pure []
  | fuel + 1 => do
    let t ← readToken fuel place
    match ← readTarget fuel t with
    | some r => (r :: ·) <$> readRedirects fuel .inner
    | none =>
      putBack t
      return []

/-- The parts of a simple command, or the definition of what can then be used as one. -/
def readSimple (fuel line : Nat) (parts : Parts) : Reader Command :=
  match fuel with
  | 0 => pure .nothing
  | fuel + 1 => do
    let t ← readToken fuel (if parts.words.isEmpty then .name else .inner)
    match t with
    | .word w =>
      match if parts.words = [] then setting? w else none with
      | some setting => readSimple fuel line { parts with settings := parts.settings ++ [setting] }
      | none => readSimple fuel line { parts with words := parts.words ++ [w] }
    | .redirect _ _ _ | .document _ _ =>
      match ← readTarget fuel t with
      | some r => readSimple fuel line { parts with redirects := parts.redirects ++ [r] }
      | none => return .nothing
    | t =>
      match t.isMark "(", parts with
      | true, ⟨[], [w], []⟩ =>
        let t ← readToken fuel .inner
        if !t.isMark ")" then unexpected t (some (.mark ")"))
        match (plainText? w).filter fun s => isName s && !specialCommands.contains s with
        | some name => .define name <$> readCommand fuel (← readToken fuel .commandBelow)
        | none => complain "Bad function name"
      | _, _ =>
        putBack t
        return .simple line parts.settings parts.words parts.redirects

/-- The words of a loop, and the token after them. -/
def readItems (fuel : Nat) : Reader (List Word × Token) :=
  match fuel with
  | 0 => pure ([], .ending)
  | fuel + 1 => do
    match ← readToken fuel .inner with
    | .word w =>
      let (rest, t) ← readItems fuel
      return (w :: rest, t)
    | t => return ([], t)

/-- The patterns of a branch. Any token stands for one, but only a word fits something. -/
def readPatterns (fuel : Nat) (t : Token) : Reader (List Word) :=
  match fuel with
  | 0 => pure []
  | fuel + 1 => do
    let patterns := match t with
      | .word w => [w]
      | .keyword name => [name.toList.map (Piece.char false ·)]
      | _ => []
    let t ← readToken fuel .inner
    if t.isMark "|" then (patterns ++ ·) <$> readPatterns fuel (← readToken fuel .inner)
    else if t.isMark ")" then return patterns
    else unexpected t (some (.mark ")"))

/-- The branches of a choice by patterns. -/
def readBranches (fuel : Nat) : Reader (List (List Word × Command)) :=
  match fuel with
  | 0 => pure []
  | fuel + 1 => do
    let t ← readToken fuel .pattern
    if t.isKeyword "esac" then return []
    let t ← if t.isMark "(" then readToken fuel .inner else pure t
    let patterns ← readPatterns fuel t
    let body ← readList fuel true
    let t ← readToken fuel .pattern
    if t.isKeyword "esac" then return [(patterns, body)]
    if !t.isMark ";;" then unexpected t (some (.mark ";;"))
    ((patterns, body) :: ·) <$> readBranches fuel

/-- A keyword that has to follow. -/
def readKeyword (fuel : Nat) (name : String) : Reader Unit :=
  match fuel with
  | 0 => pure ()
  | fuel + 1 => do
    let t ← readToken fuel .keyword
    if !t.isKeyword name then unexpected t (some (.keyword name))

/-- What follows the word `if`, up to the end of the choice. -/
def readChoice (fuel : Nat) : Reader Command :=
  match fuel with
  | 0 => pure .nothing
  | fuel + 1 => do
    let test ← readList fuel false
    readKeyword fuel "then"
    let success ← readList fuel false
    let t ← readToken fuel .keyword
    if t.isKeyword "elif" then return .choice test success (← readChoice fuel)
    if t.isKeyword "else" then
      let failure ← readList fuel false
      readKeyword fuel "fi"
      return .choice test success failure
    if !t.isKeyword "fi" then unexpected t (some (.keyword "fi"))
    return .choice test success .nothing

/-- What follows the word `for`. -/
def readEach (fuel line : Nat) : Reader Command :=
  match fuel with
  | 0 => pure .nothing
  | fuel + 1 => do
    let name ← match ← readToken fuel .inner with
      | .word w => pure ((plainText? w).filter isName)
      | _ => pure none
    let some name := name | complain "Bad for loop variable"
    let t ← readToken fuel .commandBelow
    let items ←
      if t.isKeyword "in" then do
        let (items, t) ← readItems fuel
        match t with
        | .newline => pure ()
        | t => if !t.isMark ";" then unexpected t none
        pure (some items)
      else do
        if !t.isMark ";" then putBack t
        pure none
    let t ← readToken fuel .commandBelow
    if !t.isKeyword "do" then unexpected t (some (.keyword "do"))
    let body ← readList fuel false
    readKeyword fuel "done"
    return .each line name items body

/-- What follows the word `case`. -/
def readCases (fuel line : Nat) : Reader Command :=
  match fuel with
  | 0 => pure .nothing
  | fuel + 1 => do
    let subject ← match ← readToken fuel .inner with
      | .word w => pure w
      | t => unexpected t (some (.word []))
    let t ← readToken fuel .commandBelow
    if !t.isKeyword "in" then unexpected t (some (.keyword "in"))
    return .cases line subject (← readBranches fuel)

/-- A command that begins with a token. Redirections behind the braces around a command in a process of
its own take the place of those that this has. -/
def readCommand (fuel : Nat) (t : Token) : Reader Command :=
  match fuel with
  | 0 => pure .nothing
  | fuel + 1 => do
    let line := (← get).line
    let closed (body : Command) : Reader Command := do
      match ← readRedirects fuel .command with
      | [] => return body
      | redirects => return .redirected line body redirects
    match t with
    | .word _ | .redirect _ _ _ | .document _ _ =>
      putBack t
      readSimple fuel line {}
    | .keyword "if" => closed (← readChoice fuel)
    | .keyword "for" => closed (← readEach fuel line)
    | .keyword "case" => closed (← readCases fuel line)
    | .mark "(" =>
      let body ← readList fuel false
      let t ← readToken fuel .keyword
      if !t.isMark ")" then unexpected t (some (.mark ")"))
      return .apart line body (← readRedirects fuel .command)
    | t =>
      if t.isKeyword "while" || t.isKeyword "until" then
        let test ← readList fuel false
        readKeyword fuel "do"
        let body ← readList fuel false
        readKeyword fuel "done"
        closed (.loop (t.isKeyword "until") test body)
      else if t.isKeyword "\x7b" then
        let body ← readList fuel false
        readKeyword fuel "\x7d"
        match body, ← readRedirects fuel .command with
        | body, [] => return body
        | .apart line body _, redirects => return .apart line body redirects
        | body, redirects => return .redirected line body redirects
      else unexpected t none

/-- The commands of a pipe. -/
def readPipe (fuel : Nat) (t : Token) : Reader (List Command) :=
  match fuel with
  | 0 => pure []
  | fuel + 1 => do
    let first ← readCommand fuel t
    let t ← readToken fuel .inner
    if t.isMark "|" then (first :: ·) <$> readPipe fuel (← readToken fuel .commandBelow)
    else
      putBack t
      return [first]

/-- A pipe that may be negated. -/
def readNegated (fuel : Nat) (t : Token) : Reader Command :=
  match fuel with
  | 0 => pure .nothing
  | fuel + 1 => do
    let negate := t.isKeyword "!"
    let pipe ← readPipe fuel (← if negate then readToken fuel .command else pure t)
    let command := match pipe with
      | [command] => command
      | commands => .pipe commands
    return if negate then .negated command else command

/-- Commands that depend on those before them. -/
def readChain (fuel : Nat) (before : Command) : Reader Command :=
  match fuel with
  | 0 => pure before
  | fuel + 1 => do
    let t ← readToken fuel .inner
    if t.isMark "&&" then
      readChain fuel (.onSuccess before (← readNegated fuel (← readToken fuel .commandBelow)))
    else if t.isMark "||" then
      readChain fuel (.onFailure before (← readNegated fuel (← readToken fuel .commandBelow)))
    else
      putBack t
      return before

/-- Commands one after the other, over line ends. -/
def readList (fuel : Nat) (mayBeEmpty : Bool) : Reader Command :=
  match fuel with
  | 0 => pure .nothing
  | fuel + 1 => do
    let t ← readToken fuel .commandBelow
    if let .ending := t then
      putBack t
      return .nothing
    if mayBeEmpty && t.endsList then
      putBack t
      return .nothing
    let (command, t) ← readItem fuel t
    match t with
    | .newline => return command.andThen (← readList fuel true)
    | t =>
      if t.isMark ";" || t.isMark "&" then return command.andThen (← readList fuel true)
      putBack t
      return command

/-- A command of a list, which may be left in the background, and the token after it. -/
def readItem (fuel : Nat) (t : Token) : Reader (Command × Token) :=
  match fuel with
  | 0 => pure (.nothing, .ending)
  | fuel + 1 => do
    let command ← readChain fuel (← readNegated fuel t)
    let t ← readToken fuel .inner
    return (if t.isMark "&" then .inBackground command else command, t)

/-- Commands of one line. -/
def readLine (fuel : Nat) : Reader Command :=
  match fuel with
  | 0 => pure .nothing
  | fuel + 1 => do
    match ← readToken fuel .command with
    | .newline => return .nothing
    | .ending =>
      putBack .ending
      return .nothing
    | t =>
      let (command, t) ← readItem fuel t
      match t with
      | .newline => return command
      | .ending =>
        putBack t
        return command
      | t =>
        if t.isMark ";" || t.isMark "&" then return command.andThen (← readLine fuel)
        unexpected t none

end

/-! ## Scripts -/

/-- How much more may be read where words are replaced. -/
def aliasRoom : Nat := Nat.pow 2 20

/-- How deep what is read of a script may nest. -/
def Reading.depth (s : Reading) : Nat :=
  8 * (s.rest.length + 2) + if s.aliases.isEmpty then 0 else aliasRoom

/-- The next command of a script, unless it is at its end. -/
def nextCommand : Reader (Option Command) := do
  let depth := (← get).depth
  let t ← readToken depth .command
  if let .ending := t then return none
  putBack t
  some <$> readLine depth

/-- A text that stands for itself but for what a dollar sign or backquotes begin. -/
def documentWord : Reader Word := do readPieces (← get).depth .document

/-- The lines of a script that were looked at between two states of its reading, whole. -/
def linesBetween (before after : Reading) : List Char :=
  let text := before.rest.drop (before.rest.length - before.left)
  let seen := text.take (before.left - after.left)
  if seen.isEmpty || seen.getLast? = some '\n' then seen
  else
    let rest := text.drop seen.length
    seen ++ rest.take ((rest.takeWhile (· ≠ '\n')).length + 1)

end WeaveStep.Launch

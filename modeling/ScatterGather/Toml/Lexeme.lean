import ScatterGather.Text.Digit

/-!
# Lexeme — blank space, strings and keys of TOML text

Readers take the characters that are left and answer with what they read and what is left behind
it, or with nothing. Their text ends its lines in line feeds alone (`Toml.unixLines`), so that a
carriage return is a character like any other control, allowed nowhere.

* `Toml.lineEnd?` : the end of a line, with a comment in front of it or not.
* `Toml.string?` : a string in any of its four forms.
* `Toml.key?` : a dotted key.
-/

namespace ScatterGather

namespace Toml

/-! ## Lines and blank space -/

/-- Line ends of two characters become line feeds. -/
def unixLines : List Char → List Char
  | '\r' :: '\n' :: rest => '\n' :: unixLines rest
  | c :: rest => c :: unixLines rest
  | [] => []

def isBlank (c : Char) : Bool :=
  c == ' ' || c == '\t'

def isSpace (c : Char) : Bool :=
  isBlank c || c == '\n'

/-- What a comment or a string may show as it stands: no control but the tab. -/
def isPrintable (c : Char) : Bool :=
  c == '\t' || (' ' ≤ c && c != '\x7f')

def skipBlank (s : List Char) : List Char :=
  s.dropWhile isBlank

def skipComment : List Char → List Char
  | '#' :: rest => rest.dropWhile isPrintable
  | s => s

/-- The text behind the end of the line; the last line may end with the text. -/
def lineEnd? (s : List Char) : Option (List Char) :=
  match skipComment (skipBlank s) with
  | '\n' :: rest => some rest
  | [] => some []
  | _ => none

/-- Passes over spaces, line ends and comments. -/
def skipSpace (inComment : Bool) : List Char → List Char
  | [] => []
  | '\n' :: rest => skipSpace false rest
  | c :: rest =>
    if inComment then if isPrintable c then skipSpace true rest else c :: rest
    else if c = '#' then skipSpace true rest
    else if isBlank c then skipSpace false rest
    else c :: rest

/-! ## Strings -/

def shortEscape? : Char → Option Char
  | '"' => some '"'
  | '\\' => some '\\'
  | 'b' => some '\x08'
  | 'f' => some '\x0c'
  | 'n' => some '\n'
  | 'r' => some '\r'
  | 't' => some '\t'
  | _ => none

/-- The character that stands behind a backslash, and the number of characters that spell it. -/
def escape? : List Char → Option (Char × Nat)
  | 'u' :: rest => if 4 ≤ rest.length then (Digit.scalar? (rest.take 4)).map (·, 5) else none
  | 'U' :: rest => if 8 ≤ rest.length then (Digit.scalar? (rest.take 8)).map (·, 9) else none
  | c :: _ => (shortEscape? c).map (·, 1)
  | [] => none

def prepend (c : Char) (read : List Char × List Char) : List Char × List Char :=
  (c :: read.1, read.2)

/-- The characters up to the closing quote, escapes resolved. -/
def basic? (s : List Char) : Option (List Char × List Char) :=
  match s with
  | [] => none
  | '"' :: rest => some ([], rest)
  | '\\' :: rest =>
    match escape? rest with
    | some (c, width) => (basic? (rest.drop width)).map (prepend c)
    | none => none
  | c :: rest => if isPrintable c then (basic? rest).map (prepend c) else none
termination_by s.length
decreasing_by all_goals simp only [List.length_cons, List.length_drop]; omega

/-- The characters up to the closing quote, as they stand. -/
def literal? : List Char → Option (List Char × List Char)
  | [] => none
  | '\'' :: rest => some ([], rest)
  | c :: rest => if isPrintable c then (literal? rest).map (prepend c) else none

/-- The characters up to three closing quotes; of four or five quotes the first ones belong to the
string. A backslash in front of a line end joins the lines and drops the space between. -/
def basicLines? (s : List Char) : Option (List Char × List Char) :=
  match s with
  | [] => none
  | '"' :: '"' :: '"' :: '"' :: '"' :: rest => some (['"', '"'], rest)
  | '"' :: '"' :: '"' :: '"' :: rest => some (['"'], rest)
  | '"' :: '"' :: '"' :: rest => some ([], rest)
  | '\\' :: rest =>
    match escape? rest with
    | some (c, width) => (basicLines? (rest.drop width)).map (prepend c)
    | none =>
      let margin := rest.takeWhile isSpace
      if margin.contains '\n' then basicLines? (rest.drop margin.length) else none
  | c :: rest =>
    if isPrintable c || c == '\n' then (basicLines? rest).map (prepend c) else none
termination_by s.length
decreasing_by all_goals simp only [List.length_cons, List.length_drop]; omega

/-- The characters up to three closing quotes, as they stand. -/
def literalLines? : List Char → Option (List Char × List Char)
  | [] => none
  | '\'' :: '\'' :: '\'' :: '\'' :: '\'' :: rest => some (['\'', '\''], rest)
  | '\'' :: '\'' :: '\'' :: '\'' :: rest => some (['\''], rest)
  | '\'' :: '\'' :: '\'' :: rest => some ([], rest)
  | c :: rest =>
    if isPrintable c || c == '\n' then (literalLines? rest).map (prepend c) else none

/-- A line end right behind the opening quotes does not belong to the string. -/
def dropFirstLineEnd : List Char → List Char
  | '\n' :: rest => rest
  | s => s

def string? (s : List Char) : Option (String × List Char) :=
  let read :=
    match s with
    | '"' :: '"' :: '"' :: rest => basicLines? (dropFirstLineEnd rest)
    | '\'' :: '\'' :: '\'' :: rest => literalLines? (dropFirstLineEnd rest)
    | '"' :: rest => basic? rest
    | '\'' :: rest => literal? rest
    | _ => none
  read.map fun (chars, rest) => (String.ofList chars, rest)

/-! ## Keys -/

/-- A dotted key: the tables that it leads through, and the name that it ends in. -/
structure Key where
  path : List String
  name : String

def isBare (c : Char) : Bool :=
  c.isAlphanum || c == '_' || c == '-'

/-- One part of a key; a quoted one stays on its line. -/
def keyPart? (s : List Char) : Option (String × List Char) :=
  match s with
  | '"' :: rest => (basic? rest).map fun (chars, rest) => (String.ofList chars, rest)
  | '\'' :: rest => (literal? rest).map fun (chars, rest) => (String.ofList chars, rest)
  | s =>
    let chars := s.takeWhile isBare
    if chars.isEmpty then none else some (String.ofList chars, s.dropWhile isBare)

/-- Items with `mark` between them, one at least and at most `rounds` of them. -/
def separated? (mark : Char) (item? : List Char → Option (α × List Char)) :
    Nat → List Char → Option (List α × List Char)
  | 0, _ => none
  | rounds + 1, s => do
    let (a, s) ← item? s
    match s with
    | [] => some ([a], [])
    | c :: rest =>
      if c = mark then
        let (more, rest) ← separated? mark item? rounds rest
        some (a :: more, rest)
      else some ([a], c :: rest)

/-- The number of parts that no key may reach, and of nested values that no value may. -/
def depthLimit : Nat := 80

def key? (s : List Char) : Option (Key × List Char) := do
  let part? (s : List Char) := do
    let (name, rest) ← keyPart? (skipBlank s)
    some (name, skipBlank rest)
  let (parts, rest) ← separated? '.' part? s.length s
  let name ← parts.getLast?
  if parts.length < depthLimit then some (⟨parts.dropLast, name⟩, rest) else none

end Toml

end ScatterGather

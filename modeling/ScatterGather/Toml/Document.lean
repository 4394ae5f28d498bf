import ScatterGather.Toml.Scalar
import ScatterGather.Toml.Table

/-!
# Document — TOML text

* `Toml.value?` : a value, arrays and tables in braces nested below a limit.
* `Toml.Line` : what one line of a document says.
* `Toml.document?` : the table of a text, if it is a document.
-/

namespace ScatterGather

namespace Toml

/-! ## Values -/

/-- The values up to the closing bracket; a comma may stand behind the last one. -/
def elements? (value? : List Char → Option (Value × List Char)) :
    Nat → List Char → Option (List Value × List Char)
  | 0, _ => none
  | rounds + 1, s =>
    match skipSpace false s with
    | ']' :: rest => some ([], rest)
    | s => do
      let (v, s) ← value? s
      match skipSpace false s with
      | ']' :: rest => some ([v], rest)
      | ',' :: rest =>
        let (more, rest) ← elements? value? rounds rest
        some (v :: more, rest)
      | _ => none

/-- A key and its value, blanks around. -/
def pair? (value? : List Char → Option (Value × List Char)) (s : List Char) :
    Option ((Key × Value) × List Char) := do
  let (key, s) ← key? s
  let s ← mark? '=' s
  let (value, rest) ← value? (skipBlank s)
  some ((key, value), skipBlank rest)

/-- The entries of a table in braces, which takes up one line. -/
def braced? (value? : List Char → Option (Value × List Char)) (s : List Char) :
    Option (Entries × List Char) :=
  match skipBlank s with
  | '\x7d' :: rest => some ([], rest)
  | s => do
    let (pairs, s) ← separated? ',' (pair? value?) s.length s
    let rest ← mark? '\x7d' s
    let add? (entries : Entries) (p : Key × Value) := insert? p.1.name p.2 p.1.path entries
    let entries ← pairs.foldlM add? []
    some (entries, rest)

def truth? : List Char → Option (Bool × List Char)
  | 't' :: 'r' :: 'u' :: 'e' :: rest => some (true, rest)
  | 'f' :: 'a' :: 'l' :: 's' :: 'e' :: rest => some (false, rest)
  | _ => none

/-- A value that holds no others. -/
def scalar? (s : List Char) : Option (Value × List Char) :=
  ((string? s).map fun (text, rest) => (.string text, rest))
    <|> ((truth? s).map fun (b, rest) => (.boolean b, rest))
    <|> ((skipMoment? s).map fun rest => (.moment, rest))
    <|> ((skipReal? s).map fun rest => (.real, rest))
    <|> ((integer? s).map fun (i, rest) => (.integer i, rest))

/-- A value with at most `depth` arrays and tables in braces around its innermost one. -/
def value? : Nat → List Char → Option (Value × List Char)
  | depth + 1, '[' :: rest =>
    (elements? (value? depth) rest.length rest).map fun (items, rest) => (.array items, rest)
  | depth + 1, '\x7b' :: rest =>
    (braced? (value? depth) rest).map fun (entries, rest) => (.table .inline entries, rest)
  | _, s => scalar? s

/-! ## Lines -/

/-- What one line of a document says. -/
inductive Line
  | empty
  | pair (key : Key) (value : Value)
  | header (key : Key)
  | element (key : Key)

/-- A line and the text behind it. -/
def line? (s : List Char) : Option (Line × List Char) := do
  let (line, rest) ←
    match skipBlank s with
    | '[' :: '[' :: s => do
      let (key, s) ← key? s
      let rest ← mark? ']' (← mark? ']' s)
      some (Line.element key, rest)
    | '[' :: s => do
      let (key, s) ← key? s
      let rest ← mark? ']' s
      some (Line.header key, rest)
    | s =>
      if s.isEmpty ∨ s.head? = some '\n' ∨ s.head? = some '#' then some (Line.empty, s)
      else do
        let ((key, value), rest) ← pair? (value? (depthLimit - 1)) s
        some (Line.pair key value, rest)
  let rest ← lineEnd? rest
  some (line, rest)

/-- At most `rounds` lines, up to the end of the text. -/
def lines? : Nat → List Char → Option (List Line)
  | 0, s => if s.isEmpty then some [] else none
  | rounds + 1, s =>
    if s.isEmpty then some []
    else do
      let (line, rest) ← line? s
      (lines? rounds rest).map (line :: ·)

/-! ## Documents -/

/-- The entries so far, and the path of the table that pairs go to. -/
structure Draft where
  entries : Entries := []
  current : List String := []

def Draft.add? (d : Draft) : Line → Option Draft
  | .empty => some d
  | .pair key value =>
    (within? (insert? key.name value key.path) d.current d.entries).map fun entries =>
      { d with entries }
  | .header key =>
    (within? (open? key.name) key.path d.entries).map fun entries =>
      ⟨entries, key.path ++ [key.name]⟩
  | .element key =>
    (within? (extend? key.name) key.path d.entries).map fun entries =>
      ⟨entries, key.path ++ [key.name]⟩

/-- A mark of the byte order may stand in front of the text. -/
def dropByteOrderMark : List Char → List Char
  | '\uFEFF' :: rest => rest
  | s => s

def document? (text : String) : Option Entries := do
  let s := unixLines (dropByteOrderMark text.toList)
  let lines ← lines? s.length s
  let draft ← lines.foldlM Draft.add? {}
  some draft.entries

end Toml

end ScatterGather

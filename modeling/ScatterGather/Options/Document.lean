import ScatterGather.Options
import ScatterGather.Toml.Document

/-!
# Document — configurations as TOML text

Keys that no setting has are ignored, and settings without a key keep their defaults.

* `Config.ofText` : the configuration that a text describes.
* `Config.ofFile` : the configuration in a file.
-/

namespace ScatterGather

open Toml

/-! ## Settings -/

/-- A number that counts something. -/
def Toml.Value.count? : Value → Option Nat
  | integer i => if 0 ≤ i then some i.toNat else none
  | _ => none

def Toml.Value.boolean? : Value → Option Bool
  | boolean b => some b
  | _ => none

def Toml.Value.isEmpty : Value → Bool
  | array [] => true
  | table _ [] => true
  | _ => false

/-- A choice by its name: a string, or a table with the name as its one key and nothing behind. -/
def Toml.Value.choice? (ofName? : String → Option α) : Value → Option α
  | string name => ofName? name
  | table _ [(name, value)] => if value.isEmpty then ofName? name else none
  | _ => none

/-- The setting that a value stands for; without a value, the default. -/
def setting? (read : Value → Option α) (default : α) : Option Value → Option α
  | some value => read value
  | none => some default

/-! ## Options of statements -/

/-- The options by the values of their four settings. -/
def StatementOptions.ofSettings? (cursorType concurrency holdability keys : Option Value) :
    Option StatementOptions := do
  let base : StatementOptions := {}
  let cursorType ← setting? (·.choice? CursorType.ofName?) base.cursorType cursorType
  let concurrency ← setting? (·.choice? Concurrency.ofName?) base.concurrency concurrency
  let holdability ← setting? (·.choice? Holdability.ofName?) base.holdability holdability
  let returnGeneratedKeys ← setting? (·.boolean?) base.returnGeneratedKeys keys
  some { cursorType, concurrency, holdability, returnGeneratedKeys }

/-- The settings by name from a table, or by position from an array, whose further elements count
for nothing. A moment has no settings. -/
def StatementOptions.ofValue? : Value → Option StatementOptions
  | .table _ entries =>
      let named (name : String) := Entries.get? entries name
      ofSettings? (named "cursor_type") (named "concurrency") (named "holdability")
        (named "return_generated_keys")
  | .array items => ofSettings? items[0]? items[1]? items[2]? items[3]?
  | .tables items =>
      let item (i : Nat) := items[i]?.map (.table .header)
      ofSettings? (item 0) (item 1) (item 2) (item 3)
  | .moment => some {}
  | _ => none

/-! ## Configurations -/

namespace Config

def ofEntries? (entries : Entries) : Option Config := do
  let base : Config := {}
  let maxConnections ←
    setting? (·.count?) base.maxConnections (entries.get? "max_connections_per_query")
  let threads ← setting? (·.count?) base.threads (entries.get? "executor_threads")
  let statement ← setting? StatementOptions.ofValue? base.statement (entries.get? "statement")
  some { maxConnections, threads, statement }

def ofText (text : String) : Except ConfigError Config :=
  match document? text with
  | none => .error (.malformed "not a document")
  | some entries =>
    match ofEntries? entries with
    | none => .error (.malformed "a setting has a value of the wrong kind")
    | some config => config.validate

/-- The configuration in a file with these contents; nothing is read where there is no file. -/
def ofFile : Option ByteArray → Except ConfigError Config
  | none => .error (.unreadable "no such file")
  | some contents =>
    match String.fromUTF8? contents with
    | none => .error (.unreadable "not a text")
    | some text => ofText text

end Config

end ScatterGather

import SnapshotStore.FileTree
import SnapshotStore.Settings
import SnapshotStore.Toml.Document

/-!
Settings in TOML. Reading ignores keys it does not know; writing leaves out what is not
set, so that reading it again gives the same settings.
-/

namespace SnapshotStore

namespace Durability

def word : Durability → String
  | full => "full"
  | memOnly => "mem_only"
  | async => "async"

end Durability

namespace TraceLevel

def word : TraceLevel → String
  | errors => "errors"
  | enter => "enter"
  | detail => "detail"
  | leave => "leave"

end TraceLevel

namespace Toml.Value

def string? : Value → Option String
  | string s => some s
  | _ => none

/-- An integer within the bounds of a word without sign. -/
def natural? (bound : Nat) : Value → Option Nat
  | integer n => if 0 ≤ n ∧ n < bound then some n.toNat else none
  | _ => none

def bytes? : Value → Option (List UInt8)
  | array items => (items.mapM (natural? 256)).map (·.map .ofNat)
  | _ => none

/-- The word of a choice: a string, or the only key of a table with nothing in it. -/
def word? : Value → Option String
  | string s => some s
  | table [(s, array [])] | table [(s, table [])] => some s
  | _ => none

end Toml.Value

namespace Settings

def field {α : Type} (entries : List (String × Toml.Value)) (key : String)
    (read? : Toml.Value → Option α) : Option (Option α) :=
  match entries.lookup key with
  | none => some none
  | some v => (read? v).map some

def ofEntries? (entries : List (String × Toml.Value)) : Option Settings := do
  let path? ← field entries "path" Toml.Value.string?
  let encryptionKey? ← field entries "encryption_key" Toml.Value.bytes?
  let durability? ← field entries "durability" fun v => do
    let word ← v.word?
    Durability.all.find? (·.word = word)
  let traceLevel? ← field entries "trace_level" fun v => do
    let word ← v.word?
    TraceLevel.all.find? (·.word = word)
  let retention? ← field entries "history_retention" (Toml.Value.natural? 0x10000000000000000)
  let writeTimeout? ← field entries "write_timeout_ms" (Toml.Value.natural? 0x10000000000000000)
  let plain : Settings := {}
  return {
    path?, encryptionKey?, writeTimeout?
    durability := durability?.getD plain.durability
    traceLevel := traceLevel?.getD plain.traceLevel
    historyRetention := retention?.getD plain.historyRetention }

def ofToml (text : String) : Except Error Settings :=
  match Toml.read? text >>= ofEntries? with
  | none => .error (.invalidConfig "not a document of settings")
  | some s => s.check.map fun () => s

def ofFile (here : FileTree.Location) (path : String) : Except Error Settings :=
  match here.read path with
  | .ok text => ofToml text
  | .error cause => .error (.file (.ofCause cause) path "cannot be read")

/-- A number as TOML can hold it: an integer of 64 bits with a sign. -/
def numberText? (n : Nat) : Option String :=
  if n < 0x8000000000000000 then some (toString n) else none

/-- The bytes of a key, each on a line of its own if there are several. -/
def keyText : List UInt8 → String
  | [] => "[]"
  | [b] => s!"[{b.toNat}]"
  | key => "[\n" ++ String.join (key.map fun b => s!"    {b.toNat},\n") ++ "]"

/-- Write the settings, one key a line in a fixed order. None if a number is too large. -/
def toToml? (s : Settings) : Option String := do
  let retention ← numberText? s.historyRetention
  let timeout? ← s.writeTimeout?.mapM numberText?
  let line (key value : String) : String := key ++ " = " ++ value ++ "\n"
  return String.join
    [(s.path?.map fun path => line "path" (Toml.StringLiteral.write path)).getD "",
      (s.encryptionKey?.map fun key => line "encryption_key" (keyText key)).getD "",
      line "durability" (Toml.StringLiteral.write s.durability.word),
      line "trace_level" (Toml.StringLiteral.write s.traceLevel.word),
      line "history_retention" retention,
      (timeout?.map (line "write_timeout_ms")).getD ""]

end Settings
end SnapshotStore

/-!
What a TOML document holds once it is read. Floating-point numbers and moments of time
stay in the spelling of the document.
-/

namespace SnapshotStore.Toml

inductive Value
  | string (s : String)
  | integer (n : Int)
  | boolean (b : Bool)
  | float (spelling : String)
  | moment (spelling : String)
  | array (items : List Value)
  | table (entries : List (String × Value))

end SnapshotStore.Toml

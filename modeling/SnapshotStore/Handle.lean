/-!
Handles: opaque 64-bit names for objects kept behind the boundary. A handle packs the
kind of object, the slot that holds it and the slot's generation at the time of issue.
-/

namespace SnapshotStore

inductive HandleKind
  | table
  | row
  | query
  | view
  | linkList
  | envelope
  deriving DecidableEq, Repr

namespace HandleKind

def all : List HandleKind := [table, row, query, view, linkList, envelope]

def name : HandleKind → String
  | table => "Table"
  | row => "Row"
  | query => "Query"
  | view => "TableView"
  | linkList => "LinkList"
  | envelope => "Handover"

/-- The top byte of a handle of this kind. No kind has tag zero. -/
def tag : HandleKind → Nat
  | table => 1
  | row => 2
  | query => 3
  | view => 4
  | linkList => 5
  | envelope => 6

def ofTag? : Nat → Option HandleKind
  | 1 => some table
  | 2 => some row
  | 3 => some query
  | 4 => some view
  | 5 => some linkList
  | 6 => some envelope
  | _ => none

end HandleKind

structure Handle where
  kind : HandleKind
  slot : Nat
  generation : Nat
  slot_lt : slot < 0x100000000
  generation_lt : generation < 0x1000000
  deriving DecidableEq

namespace Handle

/-- A handle from its parts; a generation beyond 24 bits wraps. -/
def ofParts (kind : HandleKind) (slot generation : Nat) : Handle where
  kind
  slot := slot % 0x100000000
  generation := generation % 0x1000000
  slot_lt := Nat.mod_lt _ (by decide)
  generation_lt := Nat.mod_lt _ (by decide)

/-- Eight bits of kind, 24 of generation, 32 of slot. -/
def encode (h : Handle) : UInt64 :=
  .ofNat (h.kind.tag * 0x100000000000000 + h.generation * 0x100000000 + h.slot)

def decode? (raw : UInt64) : Option Handle :=
  (HandleKind.ofTag? (raw.toNat / 0x100000000000000)).map fun kind =>
    ofParts kind raw.toNat (raw.toNat / 0x100000000)

def text (h : Handle) : String := s!"{h.kind.name}@{h.slot}:{h.generation}"

/-- The hexadecimal spelling of a raw handle. -/
def rawText (raw : UInt64) : String := "0x" ++ String.ofList (Nat.toDigits 16 raw.toNat)

end Handle
end SnapshotStore

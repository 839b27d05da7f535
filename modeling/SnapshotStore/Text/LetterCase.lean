import SnapshotStore.Text.LetterCase.Tables

/-!
Lower case of whole texts. Each character has its lower-case form wherever it stands,
except the capital sigma, which becomes a final sigma at the end of a word.
-/

namespace SnapshotStore.Text.LetterCase

def inRanges (ranges : List (Nat × Nat)) (c : Char) : Bool :=
  ranges.any fun (first, last) => first ≤ c.toNat && c.toNat ≤ last

def isCased (c : Char) : Bool := inRanges cased c

def isCaseIgnorable (c : Char) : Bool := inRanges caseIgnorable c

/-- The lower-case letter in a run, if the character belongs to it. -/
def Run.lower? (r : Run) (c : Char) : Option Char :=
  if r.first ≤ c.toNat && c.toNat ≤ r.last && (c.toNat - r.first) % r.step = 0 then
    some (.ofNat (r.lowered + (c.toNat - r.first)))
  else none

/-- The lower-case form of a character by itself. One letter has a form of two
characters: the dotted capital I keeps its dot. -/
def lowerChar (c : Char) : List Char :=
  if c.toNat < 0x80 then [c.toLower]
  else if c.toNat = 0x130 then ['i', .ofNat 0x307]
  else [(runs.findSome? (·.lower? c)).getD c]

/-- Whether a cased letter is the first thing met that is not passed over. -/
def meetsCased (l : List Char) : Bool := (l.dropWhile isCaseIgnorable).head?.any isCased

/-- The lower case of a text, given the characters before it, nearest first. -/
def lowerAfter (before : List Char) : List Char → List Char
  | [] => []
  | c :: rest =>
    let lowered :=
      if c.toNat = 0x3A3 then
        [.ofNat (if meetsCased before && !meetsCased rest then 0x3C2 else 0x3C3)]
      else lowerChar c
    lowered ++ lowerAfter (c :: before) rest

def lower (s : List Char) : List Char := lowerAfter [] s

end SnapshotStore.Text.LetterCase

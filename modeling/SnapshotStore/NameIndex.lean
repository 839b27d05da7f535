import SnapshotStore.Version

/-!
Indexes of tables by their names. A name leads to one table at most.
-/

namespace SnapshotStore

structure NameIndex where
  entries : List (String × TableKey)
  deriving DecidableEq

namespace NameIndex

def empty : NameIndex := ⟨[]⟩

instance : EmptyCollection NameIndex := ⟨empty⟩

def find? (n : NameIndex) (name : String) : Option TableKey :=
  (n.entries.find? fun e => e.1 = name).map (·.2)

def erase (n : NameIndex) (name : String) : NameIndex :=
  ⟨n.entries.filter fun e => e.1 ≠ name⟩

/-- File a key under a name, in place of the one that was there. -/
def insert (n : NameIndex) (name : String) (key : TableKey) : NameIndex :=
  ⟨(name, key) :: (n.erase name).entries⟩

variable (n : NameIndex) (name : String)

@[simp] theorem find?_empty : (∅ : NameIndex).find? name = none := rfl

theorem find?_erase (name' : String) :
    (n.erase name).find? name' = if name' = name then none else n.find? name' := by
  simp only [find?, erase, List.find?_filter]
  split
  next h => simp [h]
  next h =>
    refine congrArg (Option.map _) (congrArg (n.entries.find? ·) (funext fun e => ?_))
    by_cases he : e.1 = name' <;> simp [he, h]

theorem find?_insert (key : TableKey) (name' : String) :
    (n.insert name key).find? name' = if name' = name then some key else n.find? name' := by
  by_cases h : name' = name
  · simp [find?, insert, h]
  · have herase := n.find?_erase name name'
    rw [if_neg h] at herase ⊢
    rw [← herase]
    simp [find?, insert, Ne.symm h]

end NameIndex
end SnapshotStore

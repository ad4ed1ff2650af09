/-!
# Arguments

Named arguments in the order in which their names were first inserted.
Replacing an argument keeps its place.
-/

namespace ConfigLowering

structure Arguments (α : Type) where
  entries : List (String × α)
  deriving Repr

namespace Arguments

variable {α : Type}

def empty : Arguments α := ⟨[]⟩

def names (arguments : Arguments α) : List String :=
  arguments.entries.map Prod.fst

def values (arguments : Arguments α) : List α :=
  arguments.entries.map Prod.snd

def get? (arguments : Arguments α) (name : String) : Option α :=
  arguments.entries.lookup name

def contains (arguments : Arguments α) (name : String) : Bool :=
  (arguments.get? name).isSome

/-! ## Changes -/

def insertEntry (name : String) (value : α) :
    List (String × α) → Option α × List (String × α)
  | [] => (none, [(name, value)])
  | (other, current) :: rest =>
      if other = name then (some current, (name, value) :: rest)
      else
        let (displaced, rest) := insertEntry name value rest
        (displaced, (other, current) :: rest)

/-- Sets an argument and gives the value it displaces. -/
def insert (arguments : Arguments α) (name : String) (value : α) :
    Option α × Arguments α :=
  let (displaced, entries) := insertEntry name value arguments.entries
  (displaced, ⟨entries⟩)

def removeEntry (name : String) :
    List (String × α) → Option α × List (String × α)
  | [] => (none, [])
  | (other, current) :: rest =>
      if other = name then (some current, rest)
      else
        let (removed, rest) := removeEntry name rest
        (removed, (other, current) :: rest)

/-- Drops an argument and gives the value it had. -/
def remove (arguments : Arguments α) (name : String) :
    Option α × Arguments α :=
  let (removed, entries) := removeEntry name arguments.entries
  (removed, ⟨entries⟩)

def modifyEntry (name : String) (change : α → α) :
    List (String × α) → List (String × α)
  | [] => []
  | (other, current) :: rest =>
      if other = name then (other, change current) :: rest
      else (other, current) :: modifyEntry name change rest

/-- Changes the value of an argument where it stands. -/
def modify (arguments : Arguments α) (name : String) (change : α → α) :
    Arguments α :=
  ⟨modifyEntry name change arguments.entries⟩

def ofList (entries : List (String × α)) : Arguments α :=
  entries.foldl (fun arguments entry => (arguments.insert entry.1 entry.2).2) empty

end Arguments

end ConfigLowering

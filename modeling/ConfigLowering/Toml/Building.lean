import ConfigLowering.Toml

/-!
# Building TOML trees

Entries and headers are put into place one after the other. No key gets a value
twice, no table gets a header twice, and only tables that stand on the way of a
header or a dotted key can be added to from outside.
-/

namespace ConfigLowering.Toml

abbrev Entries := List (String × Toml)

def addEntry (key : String) (value : Toml) (entries : Entries) : Option Entries :=
  match entries.lookup key with
  | none => some (entries ++ [(key, value)])
  | some _ => none

def setEntry (key : String) (value : Toml) : Entries → Entries
  | [] => [(key, value)]
  | (other, current) :: entries =>
      if other = key then (key, value) :: entries
      else (other, current) :: setEntry key value entries

/-- Changes the last element of an array of tables. -/
def modifyLast (change : Entries → Option Entries) (elements : List Entries) :
    Option (List Entries) :=
  match elements.getLast? with
  | none => none
  | some last => (change last).map (elements.dropLast ++ [·])

/-! ## Dotted keys -/

/-- Puts a value below some parents. A table that is reached through parents
must have come from a dotted key itself; `isOpen` says whether this holds here. -/
def insertDotted (key : String) (value : Toml) :
    List String → (isOpen : Bool) → Entries → Option Entries
  | [], isOpen, entries => if isOpen then addEntry key value entries else none
  | parent :: parents, _, entries =>
      match entries.lookup parent with
      | none => do
          let inner ← insertDotted key value parents true []
          return entries ++ [(parent, .table .dotted inner)]
      | some (.table origin inner) =>
          if origin = .dotted ∨ origin = .implied then do
            let inner ← insertDotted key value parents (origin = .dotted) inner
            return setEntry parent (.table origin inner) entries
          else none
      | some (.tables elements) => do
          let elements ← modifyLast (insertDotted key value parents false) elements
          return setEntry parent (.tables elements) entries
      | some _ => none

def insertEntries (entries : Entries) (added : List TomlEntry) : Option Entries :=
  added.foldlM (fun entries entry =>
    insertDotted entry.place.key entry.value entry.place.parents true entries) entries

/-! ## Headers -/

/-- Gives a key its table, made from what an implied table already holds. -/
def defineTable (key : String) (build : Entries → Option Entries) (entries : Entries) :
    Option Entries :=
  match entries.lookup key with
  | none => do return entries ++ [(key, .table .header (← build []))]
  | some (.table .implied inner) => do
      return setEntry key (.table .header (← build inner)) entries
  | some _ => none

/-- Adds an element to the array of tables at a key. -/
def defineElement (key : String) (build : Entries → Option Entries) (entries : Entries) :
    Option Entries :=
  match entries.lookup key with
  | none => do return entries ++ [(key, .tables [← build []])]
  | some (.tables elements) => do
      return setEntry key (.tables (elements ++ [← build []])) entries
  | some _ => none

/-- Goes down to the table of a header's parents and defines something there. -/
def defineBelow (define : Entries → Option Entries) :
    List String → Entries → Option Entries
  | [], entries => define entries
  | parent :: parents, entries =>
      match entries.lookup parent with
      | none => do
          let inner ← defineBelow define parents []
          return entries ++ [(parent, .table .implied inner)]
      | some (.table origin inner) =>
          if origin = .inline then none
          else do
            let inner ← defineBelow define parents inner
            return setEntry parent (.table origin inner) entries
      | some (.tables elements) => do
          let elements ← modifyLast (defineBelow define parents) elements
          return setEntry parent (.tables elements) entries
      | some _ => none

def addSection (entries : Entries) (part : TomlSection) : Option Entries :=
  let build := fun inner => insertEntries inner part.entries
  let define :=
    if part.isElement then defineElement part.place.key build
    else defineTable part.place.key build
  defineBelow define part.place.parents entries

/-- The entries of a document: those before the first header, then each section. -/
def document (first : List TomlEntry) (sections : List TomlSection) : Option Entries := do
  sections.foldlM addSection (← insertEntries [] first)

/-- The table between braces that holds some entries. -/
def inlineTable (entries : List TomlEntry) : Option Toml :=
  (insertEntries [] entries).map (.table .inline)

end ConfigLowering.Toml

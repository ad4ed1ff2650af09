import Std.Data.ExtTreeMap
import Std.Data.ExtTreeSet
import ConfigLowering.Arguments
import ConfigLowering.Value

/-!
# Config nodes

A config node defers a call: it holds the callable and its arguments so far.
Each field may carry tags, also a field that has no value yet.
-/

namespace ConfigLowering

/-! ## Kinds -/

inductive BuildableKind where
  | config
  | partialCall
  | argFactory
  deriving DecidableEq, Repr

namespace BuildableKind

/-- Name of the wrapper type in the configuration library. -/
def wrapperName : BuildableKind → String
  | config => "Config"
  | partialCall => "Partial"
  | argFactory => "ArgFactory"

def wrapper (kind : BuildableKind) (baseModule : String) : Symbol :=
  .classType baseModule kind.wrapperName

end BuildableKind

/-! ## Nodes -/

abbrev TagSet := Std.ExtTreeSet Symbol

/-- Tags by field; a field without tags is absent. -/
abbrev FieldTags := Std.ExtTreeMap String TagSet

structure Buildable where
  kind : BuildableKind
  callable : Symbol
  arguments : Arguments Value
  tags : FieldTags

namespace Buildable

def ofCallable (kind : BuildableKind) (callable : Symbol) : Buildable :=
  ⟨kind, callable, .empty, ∅⟩

def tagsOf (buildable : Buildable) (field : String) : TagSet :=
  buildable.tags.getD field ∅

def hasTag (buildable : Buildable) (field : String) (tag : Symbol) : Bool :=
  (buildable.tagsOf field).contains tag

def addTag (buildable : Buildable) (field : String) (tag : Symbol) : Buildable :=
  { buildable with
    tags := buildable.tags.insert field ((buildable.tagsOf field).insert tag) }

def removeTag (buildable : Buildable) (field : String) (tag : Symbol) : Buildable :=
  let remaining := (buildable.tagsOf field).erase tag
  { buildable with
    tags :=
      if remaining.isEmpty then buildable.tags.erase field
      else buildable.tags.insert field remaining }

def clearTags (buildable : Buildable) : Buildable := { buildable with tags := ∅ }

/-- Every tag of the node, field after field. -/
def allTags (buildable : Buildable) : List Symbol :=
  buildable.tags.toList.flatMap fun (_, tags) => tags.toList

/-- References of all arguments, with the argument that holds each. -/
def references (buildable : Buildable) : List (String × NodeId) :=
  buildable.arguments.entries.flatMap fun (name, value) =>
    value.nodeReferences.map fun id => (name, id)

def display (buildable : Buildable) : String :=
  "<" ++ buildable.kind.wrapperName ++ "[" ++ buildable.callable.qualifiedName ++
    "(" ++ ", ".intercalate buildable.arguments.names ++ ")]>"

end Buildable

end ConfigLowering

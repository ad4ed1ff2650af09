import ConfigLowering.Text.Alphabetic
import ConfigLowering.Text.Numeric

/-!
# Identifiers and dotted paths

An identifier starts with an underscore or an alphabetic character and goes on
with underscores, alphabetic and numeric characters. A dotted path is one or
more identifiers with dots between them.
-/

namespace ConfigLowering

open Text

/-! ## Identifiers -/

def isIdentifierStart (character : Char) : Bool :=
  character == '_' || isAlphabetic character

def isIdentifierPart (character : Char) : Bool :=
  character == '_' || isAlphabetic character || isNumeric character

def isIdentifier (name : String) : Bool :=
  match name.toList with
  | [] => false
  | first :: rest => isIdentifierStart first && rest.all isIdentifierPart

/-! ## Dotted paths -/

/-- Cuts at every dot; there is always at least one piece. -/
def splitAtDots : List Char → List (List Char)
  | [] => [[]]
  | character :: rest =>
      if character = '.' then [] :: splitAtDots rest
      else
        match splitAtDots rest with
        | [] => [[character]]
        | piece :: pieces => (character :: piece) :: pieces

def segments (path : String) : List String :=
  (splitAtDots path.toList).map String.ofList

def isDottedPath (path : String) : Bool :=
  (segments path).all isIdentifier

def firstSegment (path : String) : String :=
  (segments path).headD path

def lastSegment (path : String) : String :=
  (segments path).getLastD path

/-- All segments but the last, with their dots. -/
def parentPath (path : String) : String :=
  ".".intercalate (segments path).dropLast

end ConfigLowering

import ConfigLowering.Settings

/-!
# Failures

A failure says what could not be done and why. Several causes, the nearest one
first, are numbered.
-/

namespace ConfigLowering.CommandLine

structure Failure where
  summary : String
  causes : List String
  /-- Whether the last cause has causes of its own that are not told. -/
  hasMore : Bool
  deriving DecidableEq, Repr

namespace Failure

def ofCause (summary cause : String) : Failure := ⟨summary, [cause], false⟩

def ofSettings (summary : String) (error : SettingsError) : Failure :=
  match error with
  | .fileFailed _ _ cause => ⟨summary, [error.message, cause.message], false⟩
  | .malformed _ => ⟨summary, [error.message], true⟩
  | _ => ofCause summary error.message

/-! ## Report -/

/-- A text behind a label; all lines but the first are set in as far. -/
def labeled (label text : String) : String :=
  let margin := String.ofList (List.replicate label.length ' ')
  label ++ ("\n" ++ margin).intercalate (text.splitOn "\n")

/-- A number in a column of five characters. -/
def numberLabel (number : Nat) : String :=
  let digits := toString number
  String.ofList (List.replicate (5 - digits.length) ' ') ++ digits ++ ": "

def causeTexts (failure : Failure) : List String :=
  if failure.hasMore || 1 < failure.causes.length then
    failure.causes.mapIdx fun number cause => labeled (numberLabel number) cause
  else failure.causes.map (labeled "    ")

def report (failure : Failure) : String :=
  let causes := failure.causeTexts.map (· ++ "\n")
  "Error: " ++ failure.summary ++ "\n" ++
    (if causes.isEmpty then "" else "\nCaused by:\n" ++ String.join causes)

end Failure

end ConfigLowering.CommandLine

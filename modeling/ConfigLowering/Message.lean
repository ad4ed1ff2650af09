import ConfigLowering.Task
import ConfigLowering.Text.Quoted

/-!
# Messages of lowering errors
-/

namespace ConfigLowering

def LoweringError.message : LoweringError → String
  | taggedFieldNotSet field node arguments path =>
      "Tagged field '" ++ field ++ "' of " ++ node ++
        " is not found in its arguments: " ++ Text.quotedList arguments ++
        ". This is likely because the tagged field doesn't yet have a value. Consider " ++
        "assigning a value to the field first or removing field tags from your config, " ++
        "for example using `ConfigGraph::clear_tags` (at " ++ path.display ++ ")."
  | importFailed error => error.message
  | graphFailed error => error.message

end ConfigLowering

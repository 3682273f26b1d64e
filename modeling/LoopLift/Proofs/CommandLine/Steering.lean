import LoopLift.Proofs.CommandLine.Words

/-!
# Steering words

Some options tell what is done with the result of an analysis, and not what is analyzed.
Their words give no values, so they can be put in and left out anywhere in front of a `--`,
and a command line that can be read asks for the same analysis.
-/

namespace LoopLift.CommandLine

/-! ## Words that give nothing -/

namespace Reading

variable {reading final : Reading} {awaited : Option Argument}

end Reading

/-! ## What an analysis goes by -/

/-- The options of an invocation are those of the reading that it was made of. -/
structure Reading.Gives (reading : Reading) (invocation : Invocation) : Prop where
  targets : invocation.targets = targetsOf reading
  json : invocation.json = reading.has .json
  excludeFolders : invocation.excludeFolders = reading.valuesOf .excludeFolders
  includeFolders : invocation.includeFolders = reading.valuesOf .includeFolders

end LoopLift.CommandLine

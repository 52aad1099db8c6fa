import Mathlib.Data.List.Forall2
import SourcePrint.Command.Run
import SourcePrint.Proofs.CommandLines
import SourcePrint.Proofs.Outcomes
import SourcePrint.Proofs.Records

namespace SourcePrint

open Json (Plain)

namespace Report

variable {filename text : String} {config : Config}

end Report

namespace Command

section Lines

variable {path : String}

end Lines

variable (disk : Disk) {args : Arguments} (config : Config) (path : String)

section Runs

variable {disk : Disk} {config : Config} {given : List String} {path : String}

/-- Help is no failure, whatever else is asked for and whatever is on the disk. -/
theorem run_help {word : String} (hconfig : args.config ≠ some "")
    (hword : Arguments.asksHelp word = true) :
    run disk (args.options ++ word :: given) = ⟨help, 0, none⟩ := by
  rw [run, Arguments.request?_help hconfig hword]

end Runs

end Command

end SourcePrint

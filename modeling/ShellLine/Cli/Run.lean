import ShellLine.Cli.Arguments
import ShellLine.Cli.Perform
import ShellLine.Text.Styling
import ShellLine.Text.Unicode

/-!
# Cli/Run — a run of the program

Here the program gets its libraries: texts are measured by `unicodeTypography`, messages are printed
by `unstyled`, and arguments are read by `Plan.read`.
-/

namespace ShellLine

/-- Messages are printed without styling. -/
instance plainConsole : Console := ⟨unstyled⟩

/-- Read the arguments and carry out the plan that they make. `user` looks at the settings of the
user, `project` at those of the project in a directory. -/
def run {m : Type → Type} [Monad m] (user : m FileContent)
    (project : Option (List Char) → m FileContent) (args : List (List Char)) :
    m (Except Breakdown Ending) :=
  match Plan.read args with
  | .misuse => return .ok .misuse
  | .help => return .ok .usage
  | .done plan => return runPlan (← user) (← project plan.directory?) plan

end ShellLine

import Localization.Program.Commands

/-! What a run of the program ends with: an exit code, what it prints, and the workspace it
leaves. -/

namespace Localization.Program

/-- How a run ends. -/
inductive Ending where
  /-- Help is shown, since it is asked for or since there is no command. -/
  | help (asked : Bool)
  /-- The arguments are wrong; the line says how. -/
  | wrong (line : Text)
  | failed (f : Failure)
  | done (report : Json)

structure Outcome where
  ending : Ending
  level : Level := .warning
  workspace : Workspace

namespace Outcome

def exitCode (o : Outcome) : Nat :=
  match o.ending with
  | .help true | .done _ => 0
  | .help false | .failed _ => 1
  | .wrong _ => 2

/-- The lines of the notices that are shown. -/
def noticeLines (o : Outcome) : List Text :=
  (Notice.atLeast o.level o.workspace.notices).map Notice.line

/-- The lines of what went wrong, after those of the notices. -/
def errorLines (o : Outcome) : List Text :=
  match o.ending with
  | .wrong line => [line]
  | .failed f => o.noticeLines ++ [f.line]
  | _ => o.noticeLines

def helpText : Text :=
  .ofString "usage: l10n-dev [-h] [--verbose] [--debug] command ...\n\ncommands:\n" ++
    CommandLine.CommandName.all.flatMap fun c =>
      Text.ofString "  " ++ c.written ++ Text.ofString "\n"

def output (o : Outcome) : Text :=
  match o.ending with
  | .help _ => helpText
  | .done report => report.render ++ .ofString "\n"
  | _ => []

end Outcome

/-- Runs the program with arguments on a tree of files. The console is assumed to encode every report.
Where it cannot, since a path in the report holds a surrogate for a byte that is no UTF-8, what was
written stays as it is here, but an error line takes the place of the report and the exit code
is 1. -/
def run (s : Surroundings) (tree : FileTree) (arguments : List Text) : Outcome :=
  match CommandLine.Invocation.ofArguments arguments with
  | .error .help => { ending := .help true, workspace := { tree } }
  | .error .noCommand => { ending := .help false, workspace := { tree } }
  | .error (.wrong program c) =>
    { ending := .wrong (program ++ .ofString ": error: " ++ c.message), workspace := { tree } }
  | .ok invocation =>
    match (Commands.run s invocation.command).run { tree } with
    | (.ok report, workspace) => { ending := .done report, level := invocation.level, workspace }
    | (.error f, workspace) => { ending := .failed f, level := invocation.level, workspace }

end Localization.Program

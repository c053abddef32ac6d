import PlainTables.CommandLine.Arguments
import PlainTables.Workspace

/-! Runs of the command-line program. A run reads its statements from an argument or from a
file, prints each answer as soon as it is there, and stops at the first fault, or at the first
answer that has no layout. -/
namespace PlainTables

def versionLine : String := "flatsql 0.1.0\n"

/-- A finished run. -/
structure Outcome where
  exit : Nat
  output : String
  /-- The line about the fault that ended the run. -/
  error : Option String
  files : FileTree

namespace CommandLine

def errorLine (description : String) : String := "Error: " ++ description

/-- How a run of statements ends. -/
inductive Ending where
  | done
  | stopped (fault : Fault)
  /-- An answer has no layout, and the program ends without a word about a fault. -/
  | aborted

/-- Runs statements and prints their answers. -/
def runStatements (layout : Layout) : List String → Workspace → String × Ending × Workspace
  | [], w => ("", .done, w)
  | statement :: later, w =>
    match Workspace.execute statement w with
    | .error fault after => ("", .stopped fault, after)
    | .ok answer after =>
      match answer.render? layout with
      | none => ("", .aborted, after)
      | some printed =>
        let (output, ending, last) := runStatements layout later after
        (printed ++ "\n" ++ output, ending, last)

/-- The statements of a run: nothing if none were asked for, or why the file with them
cannot be read. -/
def source (arguments : Arguments) (files : FileTree) : Except IoCause (Option String) :=
  match arguments.query, arguments.script with
  | some text, _ => .ok (some text)
  | none, some path => do
    let bytes ← files.readFile (Path.ofText path)
    match String.fromUTF8? bytes with
    | some text => .ok (some text)
    | none => .error .notUtf8
  | none, none => .ok none

/-- The workspace of a run, with the start-up database selected. -/
def opened (arguments : Arguments) (files : FileTree) : WorkspaceAction Unit × Workspace :=
  let start := Workspace.start files (Path.ofText arguments.root) ⟨arguments.delimiter⟩
  match arguments.database with
  | some name => (discard (Workspace.useDatabase name), start)
  | none => (pure (), start)

/-- Without statements nothing is run here: the editor takes over. -/
def runArguments (arguments : Arguments) (files : FileTree) : Outcome :=
  let (select, start) := opened arguments files
  match select start with
  | .error fault w => ⟨1, "", some (errorLine fault.describe), w.files⟩
  | .ok _ w =>
    match source arguments w.files with
    | .error cause => ⟨1, "", some (errorLine cause.describe), w.files⟩
    | .ok none => ⟨0, "", none, w.files⟩
    | .ok (some text) =>
      match runStatements arguments.layout (Script.statements text) w with
      | (output, .stopped fault, last) => ⟨1, output, some (errorLine fault.describe), last.files⟩
      | (output, .aborted, last) => ⟨101, output, none, last.files⟩
      | (output, .done, last) => ⟨0, output, none, last.files⟩

/-- Arguments that cannot be read end the run with exit code 2. -/
def run (arguments : List String) (environment : List (String × String)) (files : FileTree) :
    Outcome :=
  match Arguments.read arguments environment with
  | .error .versionRequested => ⟨0, versionLine, none, files⟩
  | .error .helpRequested => ⟨0, "", none, files⟩
  | .error _ => ⟨2, "", none, files⟩
  | .ok read => runArguments read files

end CommandLine
end PlainTables

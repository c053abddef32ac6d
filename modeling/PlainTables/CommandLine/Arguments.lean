import PlainTables.Answer.Layout
import PlainTables.Files.Path

/-! Command-line arguments. An option takes its value from the same argument or from the next
one. A value from the next one is stored only when the argument after it is reached, so a
fault there can come first; an argument that begins with a dash is never such a value. -/
namespace PlainTables

inductive ArgumentFault where
  /-- An option or flag given twice, or two that exclude each other. -/
  | conflict
  | invalidValue
  /-- A value that is not of the type its option asks for. -/
  | wrongType
  | unknownArgument
  /-- A flag with a value. -/
  | excessValue
  | helpRequested
  | versionRequested
  deriving DecidableEq, Repr

inductive Setting where
  | root | database | query | script | layout | delimiter
  deriving DecidableEq, Repr

namespace Setting

def ofLongName? : String → Option Setting
  | "database" => some .database
  | "query" => some .query
  | "script" => some .script
  | "format" => some .layout
  | "delimiter" => some .delimiter
  | _ => none

def ofLetter? : Char → Option Setting
  | 'd' => some .database
  | 'q' => some .query
  | 's' => some .script
  | 'f' => some .layout
  | _ => none

end Setting

inductive Flag where
  | verbose | help | version
  deriving DecidableEq, Repr

namespace Flag

def ofLongName? : String → Option Flag
  | "verbose" => some .verbose
  | "help" => some .help
  | "version" => some .version
  | _ => none

def ofLetter? : Char → Option Flag
  | 'v' => some .verbose
  | 'h' => some .help
  | 'V' => some .version
  | _ => none

end Flag

/-- The settings that were given. -/
structure Given where
  root : Option String
  database : Option String
  query : Option String
  script : Option String
  layout : Option Layout
  delimiter : Option Char
  verbose : Bool
  deriving DecidableEq, Repr

namespace Given

def nothing : Given := ⟨none, none, none, none, none, none, false⟩

def has (g : Given) : Setting → Bool
  | .root => g.root.isSome
  | .database => g.database.isSome
  | .query => g.query.isSome
  | .script => g.script.isSome
  | .layout => g.layout.isSome
  | .delimiter => g.delimiter.isSome

/-- Stores a value. A path must not be empty. -/
def assign (g : Given) (setting : Setting) (value : String) : Except ArgumentFault Given :=
  match setting with
  | .root => if value = "" then .error .invalidValue else .ok { g with root := some value }
  | .database => .ok { g with database := some value }
  | .query => .ok { g with query := some value }
  | .script => if value = "" then .error .invalidValue else .ok { g with script := some value }
  | .layout =>
    match Layout.ofWord? value with
    | some layout => .ok { g with layout := some layout }
    | none => .error .invalidValue
  | .delimiter =>
    match value.toList with
    | [c] => .ok { g with delimiter := some c }
    | _ => .error .wrongType

/-- Stores a value that may be given once. -/
def store (g : Given) (setting : Setting) (value : String) : Except ArgumentFault Given :=
  if g.has setting then .error .conflict else g.assign setting value

def raise (g : Given) : Flag → Except ArgumentFault Given
  | .verbose => if g.verbose then .error .conflict else .ok { g with verbose := true }
  | .help => .error .helpRequested
  | .version => .error .versionRequested

end Given

/-- Arguments read so far. -/
structure Reading where
  given : Given
  /-- A setting that was named, with its value if that has been read. -/
  pending : Option (Setting × Option String)
  deriving DecidableEq, Repr

namespace Reading

def start : Reading := ⟨.nothing, none⟩

/-- Stores what is pending. -/
def settle (r : Reading) : Except ArgumentFault Given :=
  match r.pending with
  | none => .ok r.given
  | some (_, none) => .error .invalidValue
  | some (setting, some value) => r.given.store setting value

def awaitValue (r : Reading) (setting : Setting) : Except ArgumentFault Reading := do
  .ok ⟨← r.settle, some (setting, none)⟩

def attach (r : Reading) (setting : Setting) (value : String) :
    Except ArgumentFault Reading := do
  .ok ⟨← (← r.settle).store setting value, none⟩

def raise (r : Reading) (flag : Flag) : Except ArgumentFault Reading := do
  .ok ⟨← (← r.settle).raise flag, none⟩

/-- The only positional argument is the root. -/
def position (r : Reading) (value : String) : Except ArgumentFault Reading :=
  if r.given.root.isSome ∨ (r.pending.map Prod.fst) = some .root then .error .unknownArgument
  else do .ok ⟨← r.settle, some (.root, some value)⟩

/-- An argument that begins with two dashes, without them. -/
def long (r : Reading) (text : List Char) : Except ArgumentFault Reading :=
  let name := String.ofList (text.takeWhile (· ≠ '='))
  let attached :=
    match text.dropWhile (· ≠ '=') with
    | [] => none
    | _ :: value => some (String.ofList value)
  match Setting.ofLongName? name, Flag.ofLongName? name, attached with
  | some setting, _, some value => r.attach setting value
  | some setting, _, none => r.awaitValue setting
  | none, some _, some _ => .error .excessValue
  | none, some flag, none => r.raise flag
  | none, none, _ => .error .unknownArgument

/-- Letters after one dash. An option takes the rest of the argument as its value, without
an equals sign in front of it. -/
def letters (r : Reading) : List Char → Except ArgumentFault Reading
  | [] => .ok r
  | c :: rest =>
    match Setting.ofLetter? c, Flag.ofLetter? c, rest with
    | some setting, _, [] => r.awaitValue setting
    | some setting, _, '=' :: value => r.attach setting (String.ofList value)
    | some setting, _, value => r.attach setting (String.ofList value)
    | none, some flag, _ => do letters (← r.raise flag) rest
    | none, none, _ => .error .unknownArgument

/-- An argument that is neither an option nor a flag. -/
def plain (r : Reading) (value : String) : Except ArgumentFault Reading :=
  match r.pending with
  | some (setting, none) => .ok { r with pending := some (setting, some value) }
  | _ => r.position value

/-- Reads arguments; after a lone double dash all of them are positional. -/
def readAll (r : Reading) : List String → Except ArgumentFault Reading
  | [] => .ok r
  | argument :: later => do
    match argument.toList with
    | ['-', '-'] => later.foldlM position r
    | '-' :: '-' :: text => readAll (← r.long text) later
    | '-' :: c :: text => readAll (← r.letters (c :: text)) later
    | _ => readAll (← r.plain argument) later

end Reading

structure Arguments where
  root : String
  database : Option String
  query : Option String
  script : Option String
  layout : Layout
  delimiter : Char
  verbose : Bool
  deriving DecidableEq, Repr

namespace Arguments

/-- The settings that an environment variable can give. -/
def fromVariables : List (Setting × String) :=
  [(.root, "FLATSQL_ROOT"), (.database, "FLATSQL_DATABASE")]

/-- Takes a setting from the environment if it was not given. -/
def fromEnvironment (environment : List (String × String)) (g : Given) :
    Setting × String → Except ArgumentFault Given
  | (setting, name) =>
    match g.has setting, environment.lookup name with
    | false, some value => g.assign setting value
    | _, _ => .ok g

def ofGiven (g : Given) : Arguments where
  root := g.root.getD "."
  database := g.database
  query := g.query
  script := g.script
  layout := g.layout.getD .table
  delimiter := g.delimiter.getD ','
  verbose := g.verbose

/-- Statements come from the command line or from a file, not from both. -/
def read (arguments : List String) (environment : List (String × String)) :
    Except ArgumentFault Arguments := do
  let given ← (← Reading.start.readAll arguments).settle
  let complete ← fromVariables.foldlM (fromEnvironment environment) given
  if complete.query.isSome ∧ complete.script.isSome then .error .conflict
  else .ok (ofGiven complete)

end Arguments
end PlainTables

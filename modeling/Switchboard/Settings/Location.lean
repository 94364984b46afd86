import Switchboard.Settings.Reader

/-!
# The Configuration File

Where the configuration file is, and what loading it gives. The file is called
`config.toml` and is in the home directory of the program, which a variable of
the environment names or which is `.huddle` in the home directory of the user.
A file that is not there is as good as an empty one.

## Main definitions

* `Environment`: The variables of the environment.
* `Settings.path?`: The path of the file.
* `Settings.StoredFile`: What is found at a path.
* `Settings.load`: The settings in a file.
* `Settings.LoadError.message`: Why settings cannot be loaded.

## Theorems

* `Settings.load_absent`: A file that is not there gives the usual settings.
-/

namespace Switchboard

/-- The variables of the environment. -/
abbrev Environment := String → Option String

namespace Settings

/-- Why there are no settings. -/
inductive LoadError where
  | relativeHome
  | noHome
  /-- The file cannot be read, for a reason that the system gives. -/
  | unreadable (reason : String)
  /-- The file does not hold settings. -/
  | malformed
  deriving DecidableEq

/-- The words for an error. -/
def LoadError.message : LoadError → String
  | .relativeHome => "HUDDLE_HOME must be an absolute path"
  | .noHome => "failed to resolve user home; set HUDDLE_HOME or HOME/USERPROFILE"
  | .unreadable reason => "read config.toml: " ++ reason
  | .malformed => "parse config.toml"

/-- A path with a name after it, with one slash between them. -/
def join (path name : String) : String :=
  if path.isEmpty || path.toList.getLast? == some '/' then path ++ name
  else path ++ "/" ++ name

/-- Whether a path starts at the root. -/
def isAbsolute (path : String) : Bool :=
  path.toList.head? == some '/'

/-- The first of some variables that is set and not empty. -/
def firstSet (env : Environment) (names : List String) : Option String :=
  names.findSome? fun name => (env name).filter fun value => !value.isEmpty

/-- The home directory of the program. -/
def home? (env : Environment) : Except LoadError String :=
  match env "HUDDLE_HOME" with
  | some path => if isAbsolute path then .ok path else .error .relativeHome
  | none =>
    match firstSet env ["HOME", "USERPROFILE"] with
    | some path => .ok (join path ".huddle")
    | none => .error .noHome

/-- The path of the configuration file. -/
def path? (env : Environment) : Except LoadError String :=
  (home? env).map fun home => join home "config.toml"

/-- What is found at a path. -/
inductive StoredFile where
  | absent
  | directory
  | content (bytes : ByteArray)

/-- The settings in a file. -/
def load : StoredFile → Except LoadError Settings
  | .absent => .ok standard
  | .directory => .error (.unreadable "Is a directory (os error 21)")
  | .content bytes =>
    match String.fromUTF8? bytes with
    | none => .error (.unreadable "stream did not contain valid UTF-8")
    | some s =>
      match read? s with
      | some settings => .ok settings
      | none => .error .malformed

theorem load_absent : load .absent = .ok standard := rfl

/-- The settings in the file that the environment leads to. -/
def loadFrom (env : Environment) (file : String → StoredFile) : Except LoadError Settings := do
  let path ← path? env
  load (file path)

/-- The settings in the file that the environment leads to, or the usual ones. -/
def loadOrStandard (env : Environment) (file : String → StoredFile) : Settings :=
  match loadFrom env file with
  | .ok settings => settings
  | .error _ => standard

end Settings

end Switchboard

import AccessTopology.CommandLine.Arguments
import AccessTopology.CommandLine.FileTree
import AccessTopology.CommandLine.Path
import AccessTopology.Document.JsonText
import AccessTopology.Rendering
import AccessTopology.Yaml.Document
import AccessTopology.Yaml.Text

namespace AccessTopology.CommandLine

/-!
# Running a request

What is printed, and the exit code, given what the files of a request hold. A
configuration or document that cannot be read is a failure of the run; a
topology that is read and refused has an exit code of its own.
-/

/-- The exit code and the output of a run. -/
structure Outcome where
  exitCode : Nat
  output : String
  deriving Repr, DecidableEq

/-- Why settings cannot be read. -/
inductive SettingsError
  | unreadable (path : String) (error : FileError)
  | malformedJson (error : ReadError)
  | malformedYaml (error : ReadError)
  deriving Repr, DecidableEq

/-- Why a composite cannot be read. -/
inductive InputError
  | unreadable (path : String) (error : FileError)
  | malformed (error : ReadError)
  deriving Repr, DecidableEq

/-- A settings error in words, given words for what is wrong with a document. -/
def SettingsError.message
    (describe : ReadError → String) :
    SettingsError → String
  | unreadable path error =>
      "Failed to read config " ++ path ++ ": " ++ error.message
  | malformedJson error => "Invalid JSON config: " ++ describe error
  | malformedYaml error => "Invalid YAML config: " ++ describe error

/-- An input error in words, given words for what is wrong with a document. -/
def InputError.message
    (describe : ReadError → String) :
    InputError → String
  | unreadable path error =>
      "Failed to read " ++ path ++ ": " ++ error.message
  | malformed error => "Invalid input document: " ++ describe error

/--
Read settings from a file: JSON where its extension says so, else YAML. Where
there is no file the settings are the default ones.
-/
def readSettings
    (path : String)
    (file : FileState) :
    Except SettingsError Settings :=
  match file with
  | .absent _ => .ok {}
  | file =>
      match file.text with
      | .error error => .error (.unreadable path error)
      | .ok text =>
          if extension? path = some "json".toList then
            ((JsonText.parse text).read Settings.reader).mapError .malformedJson
          else
            ((Yaml.parse text).read Settings.reader).mapError .malformedYaml

/-- Whether a path stands for the standard input. -/
def isStandardInput (path : String) : Bool :=
  components path = [['-']]

/-- Read a composite from a file or the standard input, always as YAML. -/
def readComposite
    (path : String)
    (file : FileState) :
    Except InputError Composite :=
  match file.text with
  | .error error =>
      .error (.unreadable (if isStandardInput path then "stdin" else path) error)
  | .ok text => ((Yaml.parse text).read Composite.reader).mapError .malformed

/-- Print a value. -/
def emit
    (format : OutputFormat)
    (value : Json) :
    String :=
  match format with
  | .json => value.indented ++ "\n"
  | .yaml => Yaml.text value ++ "\n"

/-- Print an error and exit with a code. -/
def fail
    (exitCode : Nat)
    (message : String) :
    Outcome :=
  { exitCode := exitCode
    output :=
      (Json.object
        [("error", .string message), ("success", .bool false)]).compact ++ "\n" }

/-- Carry out a command on a composite. -/
def Command.run
    (command : Command)
    (format : OutputFormat)
    (settings : Settings)
    (composite : Composite) :
    Outcome :=
  match command with
  | .render =>
      match composite.render settings with
      | .ok rendering => ⟨0, emit format rendering.toJson⟩
      | .error error => fail 2 error.message
  | .validate =>
      match composite.validate with
      | .ok report =>
          ⟨if report.valid then 0 else 2, emit format report.toJson⟩
      | .error error => fail 1 error.message
  | .status => ⟨0, emit format (composite.status settings).toJson⟩

/-- Carry out an invocation whose settings and composite may not be readable. -/
def Invocation.run
    (describe : ReadError → String)
    (invocation : Invocation)
    (settings : Except SettingsError Settings)
    (composite : Except InputError Composite) :
    Outcome :=
  match settings with
  | .error error =>
      fail 1 ("Failed to load config: " ++ error.message describe)
  | .ok settings =>
      match composite with
      | .error error => fail 1 (error.message describe)
      | .ok composite =>
          invocation.command.run invocation.format settings composite

/-- What the program is called, and its version. -/
def versionText : String :=
  "idc-render-cli " ++ engineVersionText ++ "\n"

/-- How the program is used. -/
def helpText : String :=
  "Usage: idc-render-cli [--config FILE] [--format json|yaml] " ++
    "render|validate|status [--input FILE]\n"

/-- What a request finds: files by path, and the standard input. -/
structure Surroundings where
  files : String → FileState
  standardInput : ByteArray

/--
What a request finds that is made in a directory of a tree, in place of the
files of a system.
-/
def Surroundings.inTree
    (tree : FileTree)
    (here : Place)
    (standardInput : ByteArray) :
    Surroundings :=
  ⟨tree.find here, standardInput⟩

/-- What stands under the path of an input. -/
def Surroundings.input
    (surroundings : Surroundings)
    (path : String) :
    FileState :=
  if isStandardInput path then .bytes surroundings.standardInput
  else surroundings.files path

/-- Carry out a request. -/
def Request.run
    (describe : ReadError → String)
    (surroundings : Surroundings) :
    Request → Outcome
  | .invoke invocation =>
      invocation.run describe
        (readSettings invocation.configPath
          (surroundings.files invocation.configPath))
        (readComposite invocation.inputPath
          (surroundings.input invocation.inputPath))
  | .showVersion => ⟨0, versionText⟩
  | .showHelp => ⟨0, helpText⟩
  | .misuse => ⟨2, ""⟩

end AccessTopology.CommandLine

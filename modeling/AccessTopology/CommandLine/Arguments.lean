namespace AccessTopology.CommandLine

/-!
# Arguments

The configuration file and the output format stand before the command, the
input file after it. An option's value may be attached to it. Arguments are
taken from left to right, and the first that does not fit decides.
-/

/-- What the program does with a composite. -/
inductive Command
  | render
  | validate
  | status
  deriving Repr, DecidableEq

/-- The form of the output. -/
inductive OutputFormat
  | json
  | yaml
  deriving Repr, DecidableEq

/-- A complete request. -/
structure Invocation where
  configPath : String
  format : OutputFormat
  command : Command
  inputPath : String
  deriving Repr, DecidableEq

/-- What a list of arguments asks for. -/
inductive Request
  | invoke (invocation : Invocation)
  | showVersion
  | showHelp
  | misuse
  deriving Repr, DecidableEq

/-- The command of a name. -/
def Command.ofName? (name : String) : Option Command :=
  if name = "render" then some .render
  else if name = "validate" then some .validate
  else if name = "status" then some .status
  else none

/-- The output format of a name. -/
def OutputFormat.ofName? (name : String) : Option OutputFormat :=
  if name = "json" then some .json
  else if name = "yaml" then some .yaml
  else none

/-- An option by its letter and name, as an argument gives it. -/
inductive OptionMatch
  | none
  | bare
  | attached (value : String)
  deriving Repr, DecidableEq

/-- How an argument gives the option of a letter and name. -/
def matchOption
    (letter : Char)
    (name : String)
    (argument : String) :
    OptionMatch :=
  let long := "--".toList ++ name.toList
  let chars := argument.toList
  if chars = long then .bare
  else if (long ++ ['=']).isPrefixOf chars then
    .attached (String.ofList (chars.drop (long.length + 1)))
  else
    match chars with
    | '-' :: c :: [] => if c = letter then .bare else .none
    | '-' :: c :: '=' :: rest =>
        if c = letter then .attached (String.ofList rest) else .none
    | '-' :: c :: rest =>
        if c = letter then .attached (String.ofList rest) else .none
    | _ => .none

/-- Whether an argument is an option and so no option's value. -/
def isOption (argument : String) : Bool :=
  match argument.toList with
  | '-' :: _ :: _ => true
  | _ => false

/-- An option's value and the arguments after it. -/
def optionValue?
    (found : OptionMatch)
    (rest : List String) :
    Option (String × List String) :=
  match found, rest with
  | .attached value, rest => some (value, rest)
  | .bare, value :: rest => if isOption value then none else some (value, rest)
  | _, _ => none

/-- Whether an argument is a flag by its letter, whatever follows the letter, or by its name. -/
def isFlag
    (letter : Char)
    (name : String)
    (argument : String) :
    Bool :=
  argument = "--" ++ name || ['-', letter].isPrefixOf argument.toList

/-- What the help command asks for, which may name the command to explain. -/
def Request.ofHelp : List String → Request
  | [] => .showHelp
  | [name] =>
      if name = "help" || (Command.ofName? name).isSome then .showHelp
      else .misuse
  | _ => .misuse

/-- Take the arguments after the command. -/
def afterCommand
    (build : String → Invocation) :
    (fuel : Nat) → (input : Option String) → List String → Request
  | 0, _, _ => .misuse
  | _ + 1, input, [] => .invoke (build (input.getD "-"))
  | fuel + 1, input, argument :: rest =>
      if isFlag 'h' "help" argument then .showHelp
      else if argument = "--" then
        if rest.isEmpty then .invoke (build (input.getD "-")) else .misuse
      else
        match optionValue? (matchOption 'i' "input" argument) rest with
        | some (value, rest) =>
            if input.isSome || value = "" then .misuse
            else afterCommand build fuel (some value) rest
        | none => .misuse

/-- Take the arguments before the command. -/
def beforeCommand
    (fallback : String) :
    (fuel : Nat) →
    (config : Option String) →
    (format : Option OutputFormat) →
    List String →
    Request
  | 0, _, _, _ => .misuse
  | _ + 1, _, _, [] => .misuse
  | fuel + 1, config, format, argument :: rest =>
      if isFlag 'V' "version" argument then .showVersion
      else if isFlag 'h' "help" argument then .showHelp
      else if argument = "help" then .ofHelp rest
      else
        match Command.ofName? argument with
        | some command =>
            afterCommand
              (fun inputPath =>
                ⟨config.getD fallback, format.getD .json, command, inputPath⟩)
              (rest.length + 1) none rest
        | none =>
            match optionValue? (matchOption 'c' "config" argument) rest with
            | some (value, rest) =>
                if config.isSome || value = "" then .misuse
                else beforeCommand fallback fuel (some value) format rest
            | none =>
                match optionValue? (matchOption 'f' "format" argument) rest with
                | some (value, rest) =>
                    match format, OutputFormat.ofName? value with
                    | none, some format =>
                        beforeCommand fallback fuel config (some format) rest
                    | _, _ => .misuse
                | none => .misuse

/-- The configuration file where neither an argument nor the environment names one. -/
def defaultConfigPath : String :=
  "idc-render.yaml"

/-- A request, unless the path of its configuration file is empty. -/
def Request.checkConfig : Request → Request
  | .invoke invocation =>
      if invocation.configPath = "" then .misuse else .invoke invocation
  | request => request

/-- What arguments ask for, where the environment may name a configuration file. -/
def Request.ofArguments
    (environment : Option String)
    (arguments : List String) :
    Request :=
  (beforeCommand (environment.getD defaultConfigPath) (arguments.length + 1)
    none none arguments).checkConfig

end AccessTopology.CommandLine

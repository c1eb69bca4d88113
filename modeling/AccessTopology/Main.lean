import AccessTopology.CommandLine.Run

namespace AccessTopology.CommandLine

/-!
# The command line

Reads the files that the arguments name, runs the request, and prints what it
says.
-/

/-- Look at what stands under a path. -/
def probe (path : String) : IO FileState := do
  try
    let content ← IO.FS.readBinFile path
    return .bytes content
  catch error =>
    match error with
    | .noFileOrDirectory .. => return .absent .missing
    | .invalidArgument .. => return .absent .nameTooLong
    | .inappropriateType (some _) .. => return .absent .notDirectory
    | _ => return .directory

/-- Look at the files of a request, and at the standard input if it is asked for. -/
def lookAround : Request → IO Surroundings
  | .invoke invocation => do
      let config ← probe invocation.configPath
      if isStandardInput invocation.inputPath then
        let content ← (← IO.getStdin).readBinToEnd
        return ⟨fun _ => config, content⟩
      else
        let input ← probe invocation.inputPath
        return ⟨fun path => if path = invocation.configPath then config else input,
          ByteArray.empty⟩
  | _ => return ⟨fun _ => .absent .missing, ByteArray.empty⟩

/-- Run the program on its arguments and print what it says. -/
def runProgram (arguments : List String) : IO UInt32 := do
  let environment ← IO.getEnv "IDC_RENDER_CONFIG"
  let request := Request.ofArguments environment arguments
  let surroundings ← lookAround request
  let outcome := request.run ReadError.message surroundings
  IO.print outcome.output
  return outcome.exitCode.toUInt32

end AccessTopology.CommandLine

/-- Run the command line. -/
def main (arguments : List String) : IO UInt32 :=
  AccessTopology.CommandLine.runProgram arguments

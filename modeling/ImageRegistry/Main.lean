import ImageRegistry.CommandLine

/-!
# The program

Reads the settings that the command line names, checks that a registry can be built from them, and
says where it listens, which gateway it asks and how many resolvers it has.
-/

namespace ImageRegistry

/-- The settings in a file, or in no file. -/
def settingsIn : Option String → IO (Except String Settings)
  | none => return .ok {}
  | some path => do
    match ← (IO.FS.readBinFile path).toBaseIO with
    | .error failure => return .error ("reading " ++ path ++ ": " ++ toString failure)
    | .ok content =>
      match Text.utf8? content with
      | none => return .error ("reading " ++ path ++ ": " ++ Files.Failure.notText.message)
      | some text => return (Settings.ofToml text).mapError SettingsFailure.message

/-- Prints what the settings of some options come to. -/
def serve (options : CommandLine) : IO UInt32 := do
  let settings := (← settingsIn options.config).map options.apply
  let summary := settings.bind fun s ↦
    ((s.plan fun _ ↦ ⟨fun _ ↦ .stalled, []⟩).map s.summary).mapError SettingsFailure.message
  match summary with
  | .ok text => do
    IO.println text
    return 0
  | .error reason => do
    IO.eprintln ("Error: " ++ reason)
    return 1

end ImageRegistry

/-- Does what the arguments ask for. -/
def main (arguments : List String) : IO UInt32 := do
  match ImageRegistry.CommandLine.read arguments with
  | .ok .help => do
    IO.print ImageRegistry.CommandLine.help
    return 0
  | .ok (.serve options) => ImageRegistry.serve options
  | .error refusal => do
    IO.eprint refusal.message
    return 2

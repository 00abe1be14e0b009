import ImageRegistry.Settings.Basic

/-!
# The command line

The arguments of the program name a file of settings and an address to listen on, each at most once.
An option is written out or as one letter. Its value is the next argument, or stands in the same
argument behind an equals sign; behind a letter the sign may be left out.
-/

namespace ImageRegistry

/-- The options that take a value. -/
inductive CommandLine.Key where
  | config
  | listen
  deriving DecidableEq, Repr

/-- The ways in which arguments are refused. -/
inductive CommandLine.Refusal where
  | unexpected (argument : String)
  | missingValue (key : Key)
  | repeated (key : Key)
  | badAddress (text : String)
  deriving DecidableEq, Repr

/-- What the options say. -/
structure CommandLine where
  config : Option String := none
  listen : Option SocketAddress := none
  deriving DecidableEq, Repr

/-- What the arguments ask for. -/
inductive CommandLine.Wish where
  | help
  | serve (options : CommandLine)
  deriving DecidableEq, Repr

namespace CommandLine

/-! ### Wording -/

/-- The name of an option, and what stands for its value. -/
def Key.text : Key → String
  | config => "--config <CONFIG>"
  | listen => "--listen <LISTEN>"

/-- The shape of a call. -/
def usage : String := "Usage: registry-server [OPTIONS]"

/-- The text that explains the options. -/
def help : String :=
  "OCI registry backed by content-addressed storage\n\n" ++ usage ++ "\n\nOptions:\n" ++
    "  -c, --config <CONFIG>  Path to a TOML configuration file\n" ++
    "  -l, --listen <LISTEN>  Address to listen on, overriding the configuration\n" ++
    "  -h, --help             Print help\n"

/-- What a refusal says. -/
def Refusal.reason : Refusal → String
  | unexpected argument => "unexpected argument '" ++ argument ++ "' found\n\n" ++ usage
  | missingValue key => "a value is required for '" ++ key.text ++ "' but none was supplied"
  | repeated key =>
    "the argument '" ++ key.text ++ "' cannot be used multiple times\n\n" ++ usage
  | badAddress text =>
    "invalid value '" ++ text ++ "' for '" ++ Key.listen.text ++ "': invalid socket address syntax"

/-- The wording of a refusal. -/
def Refusal.message (refusal : Refusal) : String :=
  "error: " ++ refusal.reason ++ "\n\nFor more information, try '--help'.\n"

/-! ### Reading -/

/-- What one argument is. -/
inductive Token where
  | help
  /-- An option, with its value if that stands in the same argument. -/
  | option (key : Key) (value : Option String)
  | other
  deriving DecidableEq, Repr

/-- An option that is written out. -/
def Token.ofWord (word : String) (value : Option String) : Token :=
  if word = "config" then option .config value
  else if word = "listen" then option .listen value
  else if word = "help" ∧ value = none then help
  else other

/-- An option of one letter, and what stands behind the letter. -/
def Token.ofLetter (letter : Char) (behind : List Char) : Token :=
  let value :=
    match behind with
    | [] => none
    | '=' :: text => some (String.ofList text)
    | text => some (String.ofList text)
  if letter = 'c' then option .config value
  else if letter = 'l' then option .listen value
  else if letter = 'h' then help
  else other

/-- What an argument is. -/
def Token.ofArgument (argument : String) : Token :=
  match argument.toList with
  | '-' :: '-' :: text =>
    match Text.splitFirst '=' text with
    | some (word, value) => ofWord (String.ofList word) (some (String.ofList value))
    | none => ofWord (String.ofList text) none
  | '-' :: letter :: behind => ofLetter letter behind
  | _ => other

/-- Whether an argument can be the value of the option in front of it. -/
def isValue (argument : String) : Bool :=
  match argument.toList with
  | '-' :: _ :: _ => false
  | _ => true

/-- The options with one more. -/
def set (options : CommandLine) (key : Key) (value : String) : Except Refusal CommandLine :=
  match key with
  | .config =>
    if options.config.isSome then .error (.repeated .config)
    else .ok { options with config := some value }
  | .listen =>
    if options.listen.isSome then .error (.repeated .listen)
    else if value.isEmpty then .error (.missingValue .listen)
    else match SocketAddress.parse? value with
      | some address => .ok { options with listen := some address }
      | none => .error (.badAddress value)

/-- What the arguments ask for, after the options so far. -/
def readFrom (options : CommandLine) : List String → Except Refusal Wish
  | [] => .ok (.serve options)
  | argument :: rest =>
    match Token.ofArgument argument with
    | .help => .ok .help
    | .other => .error (.unexpected argument)
    | .option key (some value) =>
      match options.set key value with
      | .ok options => readFrom options rest
      | .error refusal => .error refusal
    | .option key none =>
      match rest with
      | [] => .error (.missingValue key)
      | value :: rest =>
        if isValue value then
          match options.set key value with
          | .ok options => readFrom options rest
          | .error refusal => .error refusal
        else .error (.missingValue key)

/-- What the arguments ask for. -/
def read (arguments : List String) : Except Refusal Wish := readFrom {} arguments

/-- The settings, with the address of the command line in front. -/
def apply (options : CommandLine) (settings : Settings) : Settings :=
  { settings with listen := options.listen.getD settings.listen }

end CommandLine

/-- What is said of settings that a registry can be built from. -/
def Settings.summary (s : Settings) (plan : Plan) : String :=
  "registry ready listen=" ++ s.listen.text ++ " gateway=" ++ plan.gateway.render ++
    " resolvers=" ++ toString plan.resolvers.length

end ImageRegistry

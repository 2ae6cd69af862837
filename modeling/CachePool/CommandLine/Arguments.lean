/-
# Command line arguments

    [--servers LIST] [--config FILE] [--timeout MS] COMMAND [ARGS...]

Arguments are read from left to right, so the first bad one is reported.  Options
may stand anywhere; whatever is no option is the command or one of its parameters.

* `Arguments.read` reads all arguments, given the files they may name;
* `Arguments.parameter` and `Arguments.number` give the parameters of the command.
-/
import CachePool.Client.Calls
import CachePool.Config.Document

namespace CachePool.CommandLine

/-! ## Errors -/

/-- The options that take a value. -/
inductive ValueOption where
  | servers
  | config
  | timeout
  | expiration
  | flags
  | cas
  deriving DecidableEq

namespace ValueOption

/-- All options that take a value. -/
def all : List ValueOption :=
  [servers, config, timeout, expiration, flags, cas]

/-- The text of an option. -/
def name : ValueOption → String
  | servers => "--servers"
  | config => "--config"
  | timeout => "--timeout"
  | expiration => "--exp"
  | flags => "--flags"
  | cas => "--cas"

/-- The option a text stands for. -/
def ofName? (text : String) : Option ValueOption :=
  all.find? (·.name = text)

end ValueOption

/-- Why a command was not carried out. -/
inductive CommandError where
  | missingValue (option : ValueOption)
  | optionNumber (option : ValueOption) (error : NumberError)
  | unreadableFile (path : String) (error : IoError)
  | missingCommand
  | unknownCommand (command : String)
  | missingParameter (command name : String)
  | parameterNumber (error : NumberError)
  | commandBuffered
  | client (error : ClientError)
  deriving DecidableEq

namespace CommandError

/-- The wording of a command error. -/
def message : CommandError → String
  | missingValue option => option.name ++ " requires a value"
  | optionNumber option _ => option.name
  | unreadableFile path _ => "reading config file " ++ path
  | missingCommand => "missing command (try --help)"
  | unknownCommand command =>
    "unknown command " ++ String.ofList (Text.quoted command.toList) ++ " (try --help)"
  | missingParameter command name => command ++ " requires " ++ name
  | parameterNumber error => error.message
  | commandBuffered => "command was buffered"
  | client error => error.message

/-- The wording of the error behind an error. -/
def cause? : CommandError → Option String
  | optionNumber _ error => some error.message
  | unreadableFile _ error => some error.message
  | client error => error.cause?
  | _ => none

end CommandError

/-! ## Arguments -/

/-- The contents of files. -/
abbrev Files := String → Except IoError String

/-- What the arguments say. -/
structure Arguments where
  config : Config
  /-- The list that takes the place of the configured servers. -/
  servers : Option String
  timeout : Option Nat
  store : StoreParameters
  /-- The command and its parameters. -/
  words : List String

/-- What to do. -/
inductive Instruction where
  | usage
  | command (arguments : Arguments)

namespace Arguments

/-- No arguments. -/
def none : Arguments where
  config := .default
  servers := .none
  timeout := .none
  store := { expiration := 0, flags := 0, cas := 0 }
  words := []

/-- Reads the value of an option that is a number. -/
def optionValue (option : ValueOption) (limit : Nat) (value : String) :
    Except CommandError Nat :=
  (Decimal.parse limit value.toList).mapError (.optionNumber option)

/-- Reads a configuration file. -/
def readConfig (files : Files) (path : String) : Except CommandError Config :=
  match files path with
  | .error error => .error (.unreadableFile path error)
  | .ok document => (Config.ofDocument document).mapError fun error => .client (.config error)

/-- The arguments with one more option. -/
def setOption (files : Files) (arguments : Arguments) (option : ValueOption) (value : String) :
    Except CommandError Arguments :=
  let store := arguments.store
  match option with
  | .servers => .ok { arguments with servers := some value }
  | .config => (readConfig files value).map fun config => { arguments with config }
  | .timeout =>
    (optionValue option (UInt64.size - 1) value).map fun number =>
      { arguments with timeout := some number }
  | .expiration =>
    (optionValue option (UInt32.size - 1) value).map fun number =>
      { arguments with store := { store with expiration := UInt32.ofNat number } }
  | .flags =>
    (optionValue option (UInt32.size - 1) value).map fun number =>
      { arguments with store := { store with flags := UInt32.ofNat number } }
  | .cas =>
    (optionValue option (UInt64.size - 1) value).map fun number =>
      { arguments with store := { store with cas := UInt64.ofNat number } }

/-- Reads arguments onto those read so far. -/
def readOnto (files : Files) (arguments : Arguments) :
    List String → Except CommandError Instruction
  | [] => .ok (.command arguments)
  | text :: rest =>
    if text = "-h" ∨ text = "--help" then .ok .usage
    else
      match ValueOption.ofName? text with
      | .none => readOnto files { arguments with words := arguments.words ++ [text] } rest
      | some option =>
        match rest with
        | [] => .error (.missingValue option)
        | value :: rest =>
          match setOption files arguments option value with
          | .error error => .error error
          | .ok arguments => readOnto files arguments rest

/-- The arguments with the servers of the option put into the configuration. -/
def withServers (arguments : Arguments) : Except CommandError Arguments :=
  match arguments.servers with
  | .none => .ok arguments
  | some list =>
    match Config.withServers (.joined list) with
    | .error error => .error (.client (.config error))
    | .ok config =>
      .ok { arguments with config := { arguments.config with servers := config.servers } }

/-- Reads all arguments. A command must be among them. -/
def read (files : Files) (texts : List String) : Except CommandError Instruction :=
  match readOnto files none texts with
  | .error error => .error error
  | .ok .usage => .ok .usage
  | .ok (.command arguments) =>
    match arguments.withServers with
    | .error error => .error error
    | .ok arguments =>
      if arguments.words = [] then .error .missingCommand else .ok (.command arguments)

/-- The files the arguments may name. -/
def paths : List String → List String
  | [] => []
  | [_] => []
  | text :: value :: rest =>
    if text = ValueOption.config.name then value :: paths (value :: rest)
    else paths (value :: rest)

/-! ## The command and its parameters -/

/-- The command. -/
def command (arguments : Arguments) : String :=
  arguments.words.headD ""

/-- The parameters of the command. -/
def parameters (arguments : Arguments) : List String :=
  arguments.words.tail

/-- A parameter the command cannot do without. -/
def parameter (arguments : Arguments) (index : Nat) (name : String) :
    Except CommandError String :=
  match arguments.parameters[index]? with
  | some text => .ok text
  | .none => .error (.missingParameter arguments.command name)

/-- A parameter that is a number of 64 bits, or a fallback where it is absent. -/
def number (arguments : Arguments) (index fallback : Nat) : Except CommandError Nat :=
  match arguments.parameters[index]? with
  | some text => (Decimal.parse (UInt64.size - 1) text.toList).mapError .parameterNumber
  | .none => .ok fallback

end Arguments

end CachePool.CommandLine

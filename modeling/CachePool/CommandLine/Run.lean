/-
# Running commands

One command against a pool: the call it stands for, and what is printed.

* `perform` carries out the command of given arguments;
* `run` does everything from the arguments to the report.
-/
import CachePool.CommandLine.Arguments
import CachePool.Text.JsonString

namespace CachePool.CommandLine

/-- What a run leaves to its caller. -/
structure Report where
  exitCode : UInt8
  /-- What is printed. -/
  output : String
  /-- What is printed as an error. -/
  errors : String
  deriving DecidableEq

/-! ## Texts -/

/-- The text of the help. -/
def usage : String :=
  "usage: mcache-cli [--servers LIST] [--config FILE] [--timeout MS] " ++
    "<get|set|add|replace|delete|incr|decr|noop|version|stat> [ARGS...]\n"

/-- The members of an object, each on a line of its own. -/
def memberLines : Stats → List Char
  | [] => []
  | (name, text) :: rest =>
    let line := ' ' :: ' ' :: (JsonString.encode name.toList ++ ':' :: ' '
      :: JsonString.encode text.toList)
    match rest with
    | [] => line ++ ['\n']
    | _ => line ++ ',' :: '\n' :: memberLines rest

/-- Statistics as an object over several lines. -/
def statsText (stats : Stats) : String :=
  match stats with
  | [] => "\x7b\x7d\n"
  | _ => String.ofList ('\x7b' :: '\n' :: (memberLines stats ++ ['\x7d', '\n']))

/-- An item: its value on a line, its flags and version on another. -/
def itemText (item : Item) : String :=
  Utf8.decodeLossy item.value ++ "\nflags=" ++ Decimal.text (item.flags.getD 0).toNat ++
    " cas=" ++ Decimal.text (item.cas.getD 0).toNat ++ "\n"

/-! ## Commands -/

section Commands

variable {ω : Type} [Network ω]

/-- What a call prints: its reply, or what is printed for a queued command. -/
def present {α : Type} (ready : α → String) (buffered : Except CommandError String)
    (outcome : Except ClientError (Reply α) × Client ω) :
    Except CommandError String × Client ω :=
  match outcome with
  | (.error error, client) => (.error (.client error), client)
  | (.ok (.ready value), client) => (.ok (ready value), client)
  | (.ok .buffered, client) => (buffered, client)

/-- Carries on with a parameter, unless it is bad. -/
def given {α : Type} (value : Except CommandError α) (client : Client ω)
    (carryOn : α → Except CommandError String × Client ω) :
    Except CommandError String × Client ω :=
  match value with
  | .error error => (.error error, client)
  | .ok value => carryOn value

/-- Fetches an item with all fields. -/
def performGet (arguments : Arguments) (client : Client ω) :
    Except CommandError String × Client ω :=
  given (arguments.parameter 0 "KEY") client fun key =>
    present itemText (.error .commandBuffered)
      (client.get (.ofString key) { flags := true, cas := true } arguments.timeout)

/-- Stores a value. -/
def performStore (arguments : Arguments) (client : Client ω)
    (call : Bytes → Bytes → StoreParameters → Option Nat →
      Except ClientError (Reply UInt64) × Client ω) :
    Except CommandError String × Client ω :=
  given (arguments.parameter 0 "KEY") client fun key =>
    given (arguments.parameter 1 "VALUE") client fun value =>
      present (fun cas => "STORED cas=" ++ Decimal.text cas.toNat ++ "\n") (.ok "")
        (call (.ofString key) (.ofString value) arguments.store arguments.timeout)

/-- Removes an item. -/
def performDelete (arguments : Arguments) (client : Client ω) :
    Except CommandError String × Client ω :=
  given (arguments.parameter 0 "KEY") client fun key =>
    present (fun _ => "DELETED\n") (.ok "DELETED\n")
      (client.delete (.ofString key) arguments.timeout)

/-- Counts up or down. -/
def performCount (arguments : Arguments) (client : Client ω)
    (call : Bytes → CountParameters → Option Nat →
      Except ClientError (Reply UInt64) × Client ω) :
    Except CommandError String × Client ω :=
  given (arguments.parameter 0 "KEY") client fun key =>
    given (arguments.number 1 1) client fun delta =>
      given (arguments.number 2 0) client fun initial =>
        let parameters : CountParameters :=
          { delta := UInt64.ofNat delta, initial := UInt64.ofNat initial
            expiration := arguments.store.expiration }
        present (fun value => Decimal.text value.toNat ++ "\n") (.ok "")
          (call (.ofString key) parameters arguments.timeout)

/-- Makes a round trip. -/
def performNoop (arguments : Arguments) (client : Client ω) :
    Except CommandError String × Client ω :=
  given (arguments.number 0 0) client fun server =>
    present (fun _ => "OK\n") (.ok "OK\n") (client.noop server arguments.timeout)

/-- Asks for a version. -/
def performVersion (arguments : Arguments) (client : Client ω) :
    Except CommandError String × Client ω :=
  given (arguments.number 0 0) client fun server =>
    present (· ++ "\n") (.ok "") (client.version server arguments.timeout)

/-- Asks for statistics. -/
def performStat (arguments : Arguments) (client : Client ω) :
    Except CommandError String × Client ω :=
  let group := arguments.parameters.headD ""
  given (arguments.number 1 0) client fun server =>
    present statsText (.error .commandBuffered) (client.stat group server arguments.timeout)

/-- Carries out the command: what it prints, or why it failed. -/
def perform (arguments : Arguments) (client : Client ω) :
    Except CommandError String × Client ω :=
  match arguments.command with
  | "get" => performGet arguments client
  | "set" => performStore arguments client client.set
  | "add" => performStore arguments client client.add
  | "replace" => performStore arguments client client.replace
  | "delete" => performDelete arguments client
  | "incr" => performCount arguments client client.increment
  | "decr" => performCount arguments client client.decrement
  | "noop" => performNoop arguments client
  | "version" => performVersion arguments client
  | "stat" => performStat arguments client
  | other => (.error (.unknownCommand other), client)

end Commands

/-! ## Reports -/

/-- The report of a run that succeeded. -/
def Report.success (output : String) : Report where
  exitCode := 0
  output := output
  errors := ""

/-- The report of a run that failed: the error, and the one behind it. -/
def Report.failure (error : CommandError) : Report where
  exitCode := 1
  output := ""
  errors :=
    "Error: " ++ error.message ++ "\n" ++
      match error.cause? with
      | some cause => "\nCaused by:\n    " ++ cause ++ "\n"
      | none => ""

/-- The report of an outcome. -/
def Report.ofOutcome : Except CommandError String → Report
  | .ok output => .success output
  | .error error => .failure error

/-- Runs the command line on a network: the report, and the network afterwards. -/
def run {ω : Type} [Network ω] (net : ω) (files : Files) (texts : List String) : Report × ω :=
  match Arguments.read files texts with
  | .error error => (.failure error, net)
  | .ok .usage => (.success usage, net)
  | .ok (.command arguments) =>
    match Client.withConfig net arguments.config with
    | .error error => (.failure (.client error), net)
    | .ok client =>
      let (outcome, client) := perform arguments (client.withSink .discard)
      (.ofOutcome outcome, client.net)

end CachePool.CommandLine

/-
# Clients

A client owns its links, its ledger, its log and the network it acts on.  A call
that waits drives all links until its target is met or its deadline passes:

    push every link forward, collect what finished
    target met?       return
    deadline passed?  give up on what is outstanding, return
    wait for events, at most to the deadline and the next connect deadline
    handle the events, collect what finished, repeat
-/
import CachePool.Client.Ledger
import CachePool.Client.Pool

namespace CachePool

/-- A client of cache servers on a network. -/
structure Client (ω : Type) where
  timeouts : Timeouts
  pool : Pool
  ledger : Ledger
  log : Log
  net : ω

/-- What a call waits for. -/
inductive Target where
  /-- The result of one direct command. -/
  | command (seq : Nat)
  /-- Every buffered command. -/
  | allBuffered
  deriving DecidableEq

namespace Target

/-- The slots a target waits for. -/
def covers (target : Target) (slot : Slot) : Bool :=
  match target with
  | command seq => slot.seq = seq
  | allBuffered => slot.delivery = .buffered

/-- What a call returns whose deadline passed: a flush reports its commands one by
one instead. -/
def onExpiry : Target → Except ClientError Unit
  | command _ => .error .timeout
  | allBuffered => .ok ()

end Target

namespace Client

variable {ω : Type}

/-- The client after a step on its pool; the commands that ended are collected. -/
def after (client : Client ω) (step : Pool → Around ω → Pool × Around ω) : Client ω :=
  let (pool, around) := step client.pool { net := client.net, log := client.log, finished := [] }
  { client with
    pool := pool
    net := around.net
    log := around.log
    ledger := client.ledger.absorb around.finished }

/-- Whether nothing is left to wait for. -/
def hasMet (client : Client ω) (target : Target) : Bool :=
  match target with
  | .command seq => client.ledger.hasDirect seq
  | .allBuffered => client.pool.links.all fun link => link.liveCount target.covers = 0

/-- How long to wait for events: to the deadline or the next connect deadline, but
at least a millisecond. -/
def waitTime (client : Client ω) (now deadline : Nat) : Nat :=
  let wake := match client.pool.nextDeadline? with
    | some connect => min connect deadline
    | none => deadline
  max (wake - now) 1

/-! ## Giving up -/

/-- The line that reports slots a link gave up on at a deadline. -/
def expiryMessage (target : Target) (link : Link) (dropped : List Slot) : String :=
  match target with
  | .command _ => "command timed out on " ++ link.address
  | .allBuffered =>
    Decimal.text dropped.length ++ " buffered command(s) timed out on " ++ link.address

/-- Gives up on the slots of a target on one link. Buffered commands end with a
timeout; the call that waits for a direct command returns it itself. -/
def expireLink (target : Target) (link : Link) (around : Around ω) : Link × Around ω :=
  let (link, dropped) := link.abandon target.covers
  if dropped = [] then (link, around)
  else
    let around := around.report .debug (expiryMessage target link dropped)
    match target with
    | .command _ => (link, around)
    | .allBuffered => (link, around.finish (link.finishLive .timeout dropped))

variable [Network ω]

/-- Gives up on what a target waits for, and on links that carry too much of what
was given up. -/
def expire (client : Client ω) (target : Target) : Client ω :=
  client.after fun pool around =>
    let now := Network.now around.net
    let (pool, around) := pool.forEach around (expireLink target)
    pool.forEach around fun link around => link.shedUnresponsive around now

/-! ## Driving -/

/-- Pushes every link forward. -/
def makeProgress (client : Client ω) (now : Nat) : Client ω :=
  client.after fun pool around =>
    pool.forEach around fun link around => link.makeProgress around now client.timeouts

/-- Handles the events of a wait. -/
def handleEvents (client : Client ω) (events : List Event) : Client ω :=
  client.after fun pool around => pool.handleEvents around (Network.now around.net) events

/-- The error of a call that waited more often than the network allows. -/
def tooManyWaits : ClientError :=
  .io (.other "too many waits in one call")

/-- Drives the links until the target is met or the deadline passes, with at most
`waits` waits. A failed wait counts like a deadline, and its error is returned; so does
a wait too many. -/
def drive (target : Target) (deadline waits : Nat) (client : Client ω) :
    Except ClientError Unit × Client ω :=
  let now := Network.now client.net
  let client := client.makeProgress now
  if client.hasMet target then (.ok (), client)
  else if deadline ≤ now then (target.onExpiry, client.expire target)
  else
    match waits with
    | 0 => (.error tooManyWaits, client.expire target)
    | waits + 1 =>
      match Network.poll client.net (client.waitTime now deadline) with
      | (.interrupted, net) => drive target deadline waits { client with net }
      | (.failed error, net) => (.error (.io error), ({ client with net }).expire target)
      | (.ready events, net) =>
        drive target deadline waits (({ client with net }).handleEvents events)

/-- Drives the links as often as the network allows. -/
def run (client : Client ω) (target : Target) (deadline : Nat) :
    Except ClientError Unit × Client ω :=
  drive target deadline (Network.pollLimit client.net) client

/-- When a call that starts now has to end. -/
def deadlineOf (client : Client ω) (timeout : Option Nat) : Nat :=
  Network.now client.net + timeout.getD client.timeouts.io

/-! ## Opening -/

/-- Installs a server list. -/
def installServers (client : Client ω) (addresses : List ServerAddress) :
    Except ClientError (Client ω) :=
  let around : Around ω := { net := client.net, log := client.log, finished := [] }
  match client.pool.setServers around addresses with
  | .error error => .error (.config error)
  | .ok (pool, around) => .ok (client.after fun _ _ => (pool, around))

/-- A client with a configuration, which must be valid. -/
def withConfig (net : ω) (config : Config) : Except ClientError (Client ω) :=
  match config.validate with
  | .error error => .error (.config error)
  | .ok () =>
    match config.addresses with
    | .error error => .error (.config error)
    | .ok addresses =>
      let client : Client ω :=
        { timeouts := config.timeouts, pool := .empty, ledger := .empty config.buffering
          log := .empty .keep, net }
      client.installServers addresses

/-- A client for a server list, with default timeouts. -/
def connect (net : ω) (servers : ServerList) : Except ClientError (Client ω) :=
  match Config.withServers servers with
  | .error error => .error (.config error)
  | .ok config => withConfig net config

/-- The client with another sink; lines kept so far are dropped. -/
def withSink (client : Client ω) (sink : LogSink) : Client ω :=
  { client with log := .empty sink }

end Client

end CachePool

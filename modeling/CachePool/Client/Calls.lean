/-
# Calls

The operations of a client.  With buffering off a data operation waits for its
reply; with buffering on it is queued, and `Client.flush` reports its outcome.

Every call gives its result and the client after it.  Times are milliseconds; a
call without a timeout of its own may take the io timeout.
-/
import CachePool.Client.Basic

namespace CachePool

/-- The outcome of a data operation. -/
inductive Reply (α : Type) where
  /-- The server answered. -/
  | ready (value : α)
  /-- The command was queued. -/
  | buffered
  deriving DecidableEq

/-- The parameters of a storing command. -/
structure StoreParameters where
  /-- Seconds from now, or beyond thirty days a second after the epoch; zero never. -/
  expiration : UInt32
  flags : UInt32
  /-- The version the item must have; zero for any. -/
  cas : UInt64
  deriving DecidableEq

/-- The parameters of a counting command. A missing key is created with the initial
value, unless the expiration is `neverCreate`. -/
structure CountParameters where
  delta : UInt64
  initial : UInt64
  expiration : UInt32
  deriving DecidableEq

namespace Client

variable {ω : Type} [Network ω]

/-! ## Dispatch -/

/-- Queues a command on the link of a server: its place in the order of issue and
whether it is buffered. An excluded server refuses it. -/
def queue (client : Client ω) (server : Nat) (request : Request) (expect : Expect) :
    Except ClientError (Nat × Delivery × Client ω) :=
  match client.pool.link server with
  | .error error => .error (.config error)
  | .ok link =>
    if link.phase.health = .dead ∧
        !link.isRetryEligible (Network.now client.net) client.timeouts then .error link.deadError
    else
      match client.ledger.submit link request expect with
      | .error error => .error error
      | .ok (ledger, link) =>
        .ok (client.ledger.nextSeq, client.ledger.delivery,
          { client with ledger, pool := client.pool.setLink server link })

/-- Waits for the result of a direct command. -/
def await (client : Client ω) (seq deadline : Nat) :
    Except ClientError (Reply Output) × Client ω :=
  match client.run (.command seq) deadline with
  | (.error error, client) => (.error error, client)
  | (.ok (), client) =>
    let (result, ledger) := client.ledger.takeDirect seq
    let client := { client with ledger }
    match result with
    | some (.ok output) => (.ok (.ready output), client)
    | some (.error error) => (.error error, client)
    | none => (.error .timeout, client)

/-- Sends a command to the server with an index. -/
def dispatch (client : Client ω) (server : Nat) (request : Request) (expect : Expect)
    (timeout : Option Nat) : Except ClientError (Reply Output) × Client ω :=
  let deadline := client.deadlineOf timeout
  match client.queue server request expect with
  | .error error => (.error error, client)
  | .ok (_, .buffered, client) => (.ok .buffered, client)
  | .ok (seq, .direct, client) => client.await seq deadline

/-- Sends a command to the server its key belongs to. -/
def dispatchKey (client : Client ω) (request : Request) (expect : Expect)
    (timeout : Option Nat) : Except ClientError (Reply Output) × Client ω :=
  match request.validate with
  | .error error => (.error (.protocol error), client)
  | .ok () =>
    match client.pool.route request.key with
    | .error error => (.error (.config error), client)
    | .ok server => client.dispatch server request expect timeout

/-- Reads the output of a command with an opcode; one of another shape is an
error. -/
def readReply {α : Type} (opcode : Opcode) (extract : Output → Option α)
    (outcome : Except ClientError (Reply Output) × Client ω) :
    Except ClientError (Reply α) × Client ω :=
  match outcome with
  | (.error error, client) => (.error error, client)
  | (.ok .buffered, client) => (.ok .buffered, client)
  | (.ok (.ready output), client) =>
    match extract output with
    | some value => (.ok (.ready value), client)
    | none => (.error (.protocol (.unexpectedReply opcode)), client)

/-! ## Outputs -/

/-- The empty result. -/
def done? : Output → Option Unit
  | .done => some ()
  | _ => none

/-- The version of a stored item. -/
def storedCas? : Output → Option UInt64
  | .stored cas => some cas
  | _ => none

/-- A fetched item. -/
def item? : Output → Option Item
  | .item item => some item
  | _ => none

/-- The value of a counter. -/
def counter? : Output → Option UInt64
  | .counter value => some value
  | _ => none

/-- Statistics. -/
def stats? : Output → Option Stats
  | .stats stats => some stats
  | _ => none

/-! ## Data operations -/

/-- Fetches the item under a key, with the fields that are asked for. -/
def get (client : Client ω) (key : Bytes) (fields : GetFields) (timeout : Option Nat) :
    Except ClientError (Reply Item) × Client ω :=
  readReply .get item? (client.dispatchKey (.get key) (.item fields) timeout)

/-- Stores a value and returns its version. -/
def set (client : Client ω) (key value : Bytes) (parameters : StoreParameters)
    (timeout : Option Nat) : Except ClientError (Reply UInt64) × Client ω :=
  let request := Request.set key value parameters.flags parameters.expiration
  let request := { request with cas := parameters.cas }
  readReply .set storedCas? (client.dispatchKey request .stored timeout)

/-- Stores a value under a key that is not there; the version asked for is ignored. -/
def add (client : Client ω) (key value : Bytes) (parameters : StoreParameters)
    (timeout : Option Nat) : Except ClientError (Reply UInt64) × Client ω :=
  let request := Request.add key value parameters.flags parameters.expiration
  readReply .add storedCas? (client.dispatchKey request .stored timeout)

/-- Stores a value under a key that is there. -/
def replace (client : Client ω) (key value : Bytes) (parameters : StoreParameters)
    (timeout : Option Nat) : Except ClientError (Reply UInt64) × Client ω :=
  let request := Request.replace key value parameters.flags parameters.expiration
  let request := { request with cas := parameters.cas }
  readReply .replace storedCas? (client.dispatchKey request .stored timeout)

/-- Removes the item under a key. -/
def delete (client : Client ω) (key : Bytes) (timeout : Option Nat) :
    Except ClientError (Reply Unit) × Client ω :=
  readReply .delete done? (client.dispatchKey (.delete key) .done timeout)

/-- Adds to a counter and returns its new value. -/
def increment (client : Client ω) (key : Bytes) (parameters : CountParameters)
    (timeout : Option Nat) : Except ClientError (Reply UInt64) × Client ω :=
  let request :=
    Request.increment key parameters.delta parameters.initial parameters.expiration
  readReply .increment counter? (client.dispatchKey request .counter timeout)

/-- Subtracts from a counter, down to zero, and returns its new value. -/
def decrement (client : Client ω) (key : Bytes) (parameters : CountParameters)
    (timeout : Option Nat) : Except ClientError (Reply UInt64) × Client ω :=
  let request :=
    Request.decrement key parameters.delta parameters.initial parameters.expiration
  readReply .decrement counter? (client.dispatchKey request .counter timeout)

/-! ## Operations on one server -/

/-- A round trip to a server. -/
def noop (client : Client ω) (server : Nat) (timeout : Option Nat) :
    Except ClientError (Reply Unit) × Client ω :=
  readReply .noop done? (client.dispatch server .noop .done timeout)

/-- The version text of a server. -/
def version (client : Client ω) (server : Nat) (timeout : Option Nat) :
    Except ClientError (Reply String) × Client ω :=
  let text (output : Output) : Option String :=
    (item? output).map fun item => Utf8.decodeLossy item.value
  readReply .version text
    (client.dispatch server .version (.item { flags := false, cas := false }) timeout)

/-- A group of statistics of a server; the empty group is the general one. -/
def stat (client : Client ω) (group : String) (server : Nat) (timeout : Option Nat) :
    Except ClientError (Reply Stats) × Client ω :=
  readReply .stat stats? (client.dispatch server (.stat (.ofString group)) .stats timeout)

/-! ## Buffering -/

/-- Sends every buffered command and waits for all replies: one outcome for each, in
the order of issue. -/
def flush (client : Client ω) (timeout : Option Nat) :
    Except ClientError (List Completion) × Client ω :=
  match client.run .allBuffered (client.deadlineOf timeout) with
  | (.error error, client) => (.error error, client)
  | (.ok (), client) =>
    let (completions, ledger) := client.ledger.drain
    (.ok completions, { client with ledger })

/-- Gives up on the buffered commands of every link; counts them. -/
def dropBuffered : List Link → List Link × Nat
  | [] => ([], 0)
  | link :: links =>
    let (link, dropped) := link.abandon fun slot => slot.delivery = .buffered
    let (links, count) := dropBuffered links
    (link :: links, dropped.length + count)

/-- Drops the buffered commands, and the outcomes nobody collected. -/
def resetBuffers (client : Client ω) : Client ω :=
  let (links, dropped) := dropBuffered client.pool.links
  let unflushed := client.ledger.completed.length
  let log :=
    if 0 < dropped + unflushed then
      client.log.add .debug ("reset dropped " ++ Decimal.text dropped ++
        " queued command(s) and " ++ Decimal.text unflushed ++ " unflushed result(s)")
    else client.log
  { client with pool := { client.pool with links }, ledger := client.ledger.forget, log }

/-- Whether commands are buffered. -/
def buffering (client : Client ω) : Bool :=
  client.ledger.buffering

/-- Turns buffering on or off; buffered commands stay queued. -/
def setBuffering (client : Client ω) (buffering : Bool) : Client ω :=
  { client with ledger := { client.ledger with buffering } }

/-! ## Servers and timeouts -/

/-- Replaces the server list. Links to servers that stay are kept; commands for the
others fail. -/
def setServers (client : Client ω) (servers : ServerList) :
    Except ClientError Unit × Client ω :=
  match servers.parse with
  | .error error => (.error (.config error), client)
  | .ok addresses =>
    match client.installServers addresses with
    | .error error => (.error error, client)
    | .ok client => (.ok (), client)

/-- The servers in order. -/
def servers (client : Client ω) : List Server :=
  client.pool.servers

/-- The server a key belongs to. -/
def serverForKey (client : Client ω) (key : Bytes) : Except ClientError Server :=
  match client.pool.route key with
  | .error error => .error (.config error)
  | .ok index =>
    match client.pool.servers[index]? with
    | some server => .ok server
    | none => .error (.config .noServers)

/-- The links as a caller sees them. -/
def status (client : Client ω) : List LinkStatus :=
  client.pool.status

/-- Replaces the timeouts, for every later call. -/
def setTimeouts (client : Client ω) (timeouts : Timeouts) : Except ClientError Unit × Client ω :=
  match timeouts.validate with
  | .error error => (.error (.config error), client)
  | .ok () => (.ok (), { client with timeouts })

end Client

end CachePool

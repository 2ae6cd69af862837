/-
# The item store

An in-memory cache server behind the wire format: `Store.execute` applies one
request and gives the responses to it.  Items have versions, expire lazily, and
serve as counters; the store counts what it does.

Times are milliseconds after the epoch.
-/
import CachePool.Store.Items
import CachePool.Text.Blank
import CachePool.Text.Utf8
import CachePool.Wire.Request
import CachePool.Wire.Response

namespace CachePool

/-- What a store counts. -/
structure Counters where
  gets : Nat
  sets : Nat
  hits : Nat
  misses : Nat
  connections : Nat
  deriving DecidableEq

/-- The state of a cache server. -/
structure Store where
  items : Items
  /-- The version given last. -/
  lastCas : UInt64
  counters : Counters
  /-- The process the server runs in. -/
  processId : Nat
  /-- When the server was started. -/
  startedAt : Nat

namespace Store

/-- A server without items. -/
def empty (processId startedAt : Nat) : Store where
  items := []
  lastCas := 0
  counters := { gets := 0, sets := 0, hits := 0, misses := 0, connections := 0 }
  processId := processId
  startedAt := startedAt

/-- The version text a server reports. -/
def versionText : String := "1.6.0-mock"

/-- The longest expiration, in seconds, that counts from now: thirty days. -/
def relativeLimit : Nat := 60 * 60 * 24 * 30

/-- When an item stored at `now` with an expiration in seconds expires: never for
zero, after that time up to thirty days, and beyond that at that second after the
epoch. -/
def expiry (expiration : UInt32) (now : Nat) : Option Nat :=
  let seconds := expiration.toNat
  if seconds = 0 then none
  else if seconds ≤ relativeLimit then some (now + seconds * 1000)
  else some (seconds * 1000)

/-- Drops the item under a key once it has expired. -/
def purge (store : Store) (now : Nat) (key : Bytes) : Store :=
  match store.items.find? key with
  | some entry =>
    if entry.isExpired now then { store with items := store.items.erase key } else store
  | none => store

/-- The value under a key, apart from the protocol. -/
def peek (store : Store) (now : Nat) (key : Bytes) : Option Bytes × Store :=
  let store := store.purge now key
  ((store.items.find? key).map (·.value), store)

/-- Puts an item under a key with the next version. -/
def write (store : Store) (key value : Bytes) (flags : UInt32) (expiresAt : Option Nat) : Store :=
  let cas := store.lastCas + 1
  { store with
    items := store.items.insert key { value, flags, cas, expiresAt }
    lastCas := cas }

/-- A reply to a request, without content. -/
def reply (request : Request) (status : Status) : Response :=
  .make request.opcode status request.tag

/-- Whether a request asks for another version than `cas`. -/
def conflicts (request : Request) (cas : UInt64) : Bool :=
  request.cas ≠ 0 ∧ request.cas ≠ cas

/-! ## Commands -/

/-- The item under the key of a request. -/
def executeGet (store : Store) (now : Nat) (request : Request) : Response × Store :=
  let store := store.purge now request.key
  let counters := { store.counters with gets := store.counters.gets + 1 }
  match store.items.find? request.key with
  | some entry =>
    ({ reply request .noError with
        extras := Response.flagsExtras entry.flags
        cas := entry.cas
        value := entry.value },
      { store with counters := { counters with hits := counters.hits + 1 } })
  | none =>
    ({ reply request .keyNotFound with value := .ofString "Not found" },
      { store with counters := { counters with misses := counters.misses + 1 } })

/-- Why a storing request is refused, given the version under its key. -/
def storeRefusal (request : Request) : Option UInt64 → Option Status
  | some cas =>
    if request.opcode = .add then some .keyExists
    else if conflicts request cas then some .keyExists
    else none
  | none =>
    if request.opcode = .replace then some .keyNotFound
    else if request.cas ≠ 0 then some .keyNotFound
    else none

/-- Stores the value of a request, for `set`, `add` and `replace`. -/
def executeStore (store : Store) (now : Nat) (request : Request) : Response × Store :=
  let store := { store with counters := { store.counters with sets := store.counters.sets + 1 } }
  match request.extras with
  | .store flags expiration =>
    let store := store.purge now request.key
    match storeRefusal request ((store.items.find? request.key).map (·.cas)) with
    | some status => (reply request status, store)
    | none =>
      let store := store.write request.key request.value flags (expiry expiration now)
      ({ reply request .noError with cas := store.lastCas }, store)
  | _ => (reply request .invalidArguments, store)

/-- Removes the item under the key of a request. -/
def executeDelete (store : Store) (now : Nat) (request : Request) : Response × Store :=
  let store := store.purge now request.key
  match store.items.find? request.key with
  | none => (reply request .keyNotFound, store)
  | some entry =>
    if conflicts request entry.cas then (reply request .keyExists, store)
    else (reply request .noError, { store with items := store.items.erase request.key })

/-- The number an item's value writes, with white space around it ignored. -/
def counterValue? (value : Bytes) : Option UInt64 := do
  let text ← Utf8.decode? value
  let number ← (Decimal.parse (UInt64.size - 1) (Text.trim text)).toOption
  return UInt64.ofNat number

/-- The next value of a counter: increments wrap, decrements stop at zero. -/
def step (opcode : Opcode) (value delta : UInt64) : UInt64 :=
  if opcode = .increment then value + delta
  else if delta ≤ value then value - delta
  else 0

/-- The octets of a counter's decimal text. -/
def counterText (value : UInt64) : Bytes :=
  .ofString (Decimal.text value.toNat)

/-- The reply that carries a counter. -/
def counterReply (request : Request) (value cas : UInt64) : Response :=
  { reply request .noError with cas := cas, value := bigEndian 8 value.toNat }

/-- Counts up or down. A missing counter starts at the initial value, unless the
expiration forbids its creation; a counter that is there keeps flags and expiry. -/
def executeCount (store : Store) (now : Nat) (request : Request) : Response × Store :=
  match request.extras with
  | .counter delta initial expiration =>
    let store := store.purge now request.key
    match store.items.find? request.key with
    | none =>
      if expiration = neverCreate then (reply request .keyNotFound, store)
      else
        let store := store.write request.key (counterText initial) 0 (expiry expiration now)
        (counterReply request initial store.lastCas, store)
    | some entry =>
      if conflicts request entry.cas then (reply request .keyExists, store)
      else
        match counterValue? entry.value with
        | none => ({ reply request .nonNumeric with value := .ofString "Non-numeric value" }, store)
        | some value =>
          let value := step request.opcode value delta
          let store := store.write request.key (counterText value) entry.flags entry.expiresAt
          (counterReply request value store.lastCas, store)
  | _ => (reply request .invalidArguments, store)

/-! ## Statistics -/

/-- The general statistics in order. -/
def generalStats (store : Store) (now : Nat) : List (String × String) :=
  [("pid", Decimal.text store.processId),
    ("uptime", Decimal.text ((now - store.startedAt) / 1000)),
    ("version", versionText),
    ("curr_items", Decimal.text store.items.length),
    ("total_connections", Decimal.text store.counters.connections),
    ("cmd_get", Decimal.text store.counters.gets),
    ("cmd_set", Decimal.text store.counters.sets),
    ("get_hits", Decimal.text store.counters.hits),
    ("get_misses", Decimal.text store.counters.misses)]

/-- The settings of a server in order. -/
def settingsStats : List (String × String) :=
  [("maxbytes", Decimal.text (64 * 1024 * 1024)), ("item_size_max", Decimal.text maxValueLength)]

/-- One response per statistic, and an empty one behind them. -/
def statReplies (request : Request) (stats : List (String × String)) : List Response :=
  stats.map (fun (name, value) =>
    { reply request .noError with key := .ofString name, value := .ofString value })
    ++ [reply request .noError]

/-- The statistics of the group a request names. -/
def executeStat (store : Store) (now : Nat) (request : Request) : List Response :=
  if request.key = [] then statReplies request (store.generalStats now)
  else if request.key = .ofString "settings" then statReplies request settingsStats
  else [{ reply request .keyNotFound with value := .ofString "Not found" }]

/-! ## Execution -/

/-- Applies a request at a time; gives the responses to it. -/
def execute (store : Store) (now : Nat) (request : Request) : List Response × Store :=
  let single (outcome : Response × Store) : List Response × Store := ([outcome.1], outcome.2)
  match request.opcode with
  | .get => single (store.executeGet now request)
  | .set | .add | .replace => single (store.executeStore now request)
  | .delete => single (store.executeDelete now request)
  | .increment | .decrement => single (store.executeCount now request)
  | .noop => ([reply request .noError], store)
  | .version => ([{ reply request .noError with value := .ofString versionText }], store)
  | .stat => (store.executeStat now request, store)

end Store

end CachePool

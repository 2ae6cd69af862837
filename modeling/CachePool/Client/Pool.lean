/-
# The pool

One link for every server of the list, and the ring that spreads keys over them.
Replacing the list keeps the links to servers that stay.
-/
import CachePool.Link.Steps
import CachePool.Ring

namespace CachePool

/-- The links of a client. -/
structure Pool where
  /-- One link for every server, in the order of the list. -/
  links : List Link
  ring : Ring
  /-- The token of the next link. -/
  nextToken : Token

namespace Pool

/-- The pool without servers. -/
def empty : Pool where
  links := []
  ring := .empty
  nextToken := 0

/-- The servers in order. -/
def servers (pool : Pool) : List Server :=
  pool.links.map (·.server)

/-- The links as a caller sees them. -/
def status (pool : Pool) : List LinkStatus :=
  pool.links.map Link.status

/-- The index of the server a key belongs to. -/
def route (pool : Pool) (key : Bytes) : Except ConfigError Nat :=
  match pool.links with
  | [] => .error .noServers
  | [_] => .ok 0
  | _ =>
    match pool.ring.owner? key with
    | some index => .ok index
    | none => .error .noServers

/-- The link to the server with an index. -/
def link (pool : Pool) (index : Nat) : Except ConfigError Link :=
  match pool.links[index]? with
  | some link => .ok link
  | none => .error (.indexOutOfRange index pool.links.length)

/-- The pool with the link at an index replaced. -/
def setLink (pool : Pool) (index : Nat) (link : Link) : Pool :=
  { pool with links := pool.links.set index link }

/-- The earliest time at which a connect counts as failed. -/
def nextDeadline? (pool : Pool) : Option Nat :=
  (pool.links.filterMap fun link => link.phase.deadline?).min?

/-! ## Steps on links -/

section Steps

variable {ω : Type}

/-- A step on every link in order. -/
def eachLink (step : Link → Around ω → Link × Around ω) :
    List Link → Around ω → List Link × Around ω
  | [], around => ([], around)
  | link :: links, around =>
    let (link, around) := step link around
    let (links, around) := eachLink step links around
    (link :: links, around)

/-- A step on every link keeps their number. -/
@[simp] theorem length_eachLink (step : Link → Around ω → Link × Around ω) (links : List Link)
    (around : Around ω) : (eachLink step links around).1.length = links.length := by
  induction links generalizing around with
  | nil => rfl
  | cons link links ih => simp [eachLink, ih]

/-- A step on the first link with a token, if there is one. -/
def onToken (step : Link → Around ω → Link × Around ω) (token : Token) :
    List Link → Around ω → List Link × Around ω
  | [], around => ([], around)
  | link :: links, around =>
    if link.token = token then
      let (link, around) := step link around
      (link :: links, around)
    else
      let (links, around) := onToken step token links around
      (link :: links, around)

/-- The pool after a step on every link. -/
def forEach (pool : Pool) (around : Around ω) (step : Link → Around ω → Link × Around ω) :
    Pool × Around ω :=
  let (links, around) := eachLink step pool.links around
  ({ pool with links }, around)

variable [Network ω]

/-- The pool after the events of a wait, in order. -/
def handleEvents (pool : Pool) (around : Around ω) (now : Nat) : List Event → Pool × Around ω
  | [] => (pool, around)
  | event :: events =>
    let (links, around) :=
      onToken (fun link around => link.onReady around now event) event.token pool.links around
    handleEvents { pool with links } around now events

end Steps

/-! ## Replacing the list -/

/-- The first address that stands in a list a second time. -/
def firstDuplicate? (seen : List ServerAddress) : List ServerAddress → Option ServerAddress
  | [] => none
  | address :: rest =>
    if address ∈ seen then some address else firstDuplicate? (address :: seen) rest

/-- The links for a list of addresses from an index on: the ones there are, each
with its new index, and fresh ones with tokens from `token` on. Gives the token
after them, too. -/
def place (existing : List Link) (index : Nat) (token : Token) :
    List ServerAddress → List Link × Token
  | [] => ([], token)
  | address :: rest =>
    let server : Server := { index, address }
    match existing.find? (·.server.address = address) with
    | some link =>
      let (links, next) := place existing (index + 1) token rest
      ({ link with server } :: links, next)
    | none =>
      let (links, next) := place existing (index + 1) (token + 1) rest
      (Link.make server token :: links, next)

/-- Replaces the list: links to servers that stay are kept, the others closed. A
list that is empty or names a server twice changes nothing. -/
def setServers {ω : Type} [Network ω] (pool : Pool) (around : Around ω)
    (addresses : List ServerAddress) : Except ConfigError (Pool × Around ω) :=
  if addresses = [] then .error .noServerListed
  else
    match firstDuplicate? [] addresses with
    | some address => .error (.duplicateServer address)
    | none =>
      let (links, nextToken) := place pool.links 0 pool.nextToken addresses
      let leaving := pool.links.filter fun link => link.server.address ∉ addresses
      let (_, around) := eachLink Link.retire leaving around
      let around := around.report .info
        ("server list set to " ++ Decimal.text links.length ++ " server(s)")
      .ok ({ links, ring := .build addresses, nextToken }, around)

end Pool

end CachePool

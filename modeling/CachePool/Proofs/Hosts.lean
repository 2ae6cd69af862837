/-
# Hosts of stores

Networks behind which every listed server is a store.  Between the client and a server
there is one channel, which remembers what passed it: the octets it took, the times at
which the store executed the whole requests in them, the octets of the responses that have
arrived, and those that were read.  Octets pass in any pieces and with any delays, and any
operation may be interrupted; but no channel is closed or reports an error.

The poller reports changes: a channel is due when the poller has something to tell about it.

* `Channel.Sound` : what a channel carries are the responses of its store, in order;
* `Hosts.Lawful` : the laws of the operations;
* `Client.Steps.leads`, `Hosts.Lawful.onTime` : what a client does in time began in time.
-/
import Mathlib.Logic.Relation
import CachePool.Proofs.Operations
import CachePool.Proofs.StoreReplies

namespace CachePool

/-! ## Channels -/

/-- A connection between a client and a store. -/
structure Channel where
  socket : Socket
  token : Token
  /-- Whether the connect has completed. -/
  isUp : Bool
  /-- Whether the poller has something to tell about the socket. -/
  isDue : Bool
  /-- The octets taken from the client. -/
  taken : Bytes
  /-- When the store executed the first requests, one time for each. -/
  times : List Nat
  /-- The octets that came from the store. -/
  arrived : Bytes
  /-- The octets that the client has read. -/
  given : Bytes

namespace Channel

/-- The whole requests in what was taken. -/
def requests (channel : Channel) : List Request :=
  (Request.kind.split channel.taken).frames.map (·.1)

/-- The responses to the requests that were executed, one group for each. -/
def groups (channel : Channel) (store : Store) : List (List Response) :=
  store.answers (channel.times.zip channel.requests)

/-- The octets of these responses. -/
def stream (channel : Channel) (store : Store) : Bytes :=
  (channel.groups store).flatten.flatMap Response.frame

/-- What a channel carries: the store executes whole requests in order, its responses come
in order, and none is longer than a frame may be. -/
structure Sound (store : Store) (channel : Channel) : Prop where
  /-- The poller will tell when the connect completes. -/
  dormant : channel.isUp = false → channel.isDue = true
  executed : channel.times.length ≤ channel.requests.length
  sent : channel.arrived <+: channel.stream store
  read : channel.given <+: channel.arrived
  bodies : ∀ response ∈ (channel.groups store).flatten, response.bodyLength ≤ maxBodyLength

/-- A channel over which nothing has passed. -/
structure Fresh (socket : Socket) (token : Token) (channel : Channel) : Prop where
  socket : channel.socket = socket
  token : channel.token = token
  due : channel.isDue = true
  taken : channel.taken = []
  times : channel.times = []
  arrived : channel.arrived = []
  given : channel.given = []

/-- What may become of a channel by itself: a connect completes, requests are executed and
responses arrive. -/
structure Grows (channel later : Channel) : Prop where
  socket : later.socket = channel.socket
  token : later.token = channel.token
  up : channel.isUp = true → later.isUp = true
  taken : later.taken = channel.taken
  times : channel.times <+: later.times
  arrived : channel.arrived <+: later.arrived
  given : later.given = channel.given

/-- The same while the poller is not asked: what arrives is due to be told. -/
structure Rests (channel later : Channel) : Prop extends Grows channel later where
  due : channel.isDue = true → later.isDue = true
  quiet : later.isDue = false → later.arrived = channel.arrived

/-- What a read does: it gives what comes next. One that would block has found all that
arrived, or the poller will tell of more. -/
inductive Reads (channel : Channel) : ReadOutcome → Channel → Prop
  | data {bytes : Bytes} {later : Channel}
      (hgrows : Grows { channel with given := channel.given ++ bytes } later) :
      Reads channel (.data bytes) later
  | interrupted {later : Channel} (hgrows : channel.Grows later) : Reads channel .interrupted later
  | wouldBlock {later : Channel} (hgrows : channel.Grows later)
      (hdrained : later.isDue = true ∨ later.given = later.arrived) :
      Reads channel .wouldBlock later

/-- What a write does: it takes some octets from the front. Of one that would block the
poller will tell when there is room. -/
inductive Writes (channel : Channel) (octets : Bytes) : WriteOutcome → Channel → Prop
  | took {count : Nat} {later : Channel} (hsome : 0 < count) (hcount : count ≤ octets.length)
      (hrests : Rests { channel with taken := channel.taken ++ octets.take count } later) :
      Writes channel octets (.took count) later
  | interrupted {later : Channel} (hrests : channel.Rests later) :
      Writes channel octets .interrupted later
  | wouldBlock {later : Channel} (hrests : channel.Rests later) (hdue : later.isDue = true) :
      Writes channel octets .wouldBlock later

/-- What a wait that ends with events leaves: of what has arrived and was not read the
poller told, or it will tell, or it did so before. -/
structure Reports (events : List Event) (channel later : Channel) : Prop
    extends Grows channel later where
  told : later.isDue = true ∨ later.given = later.arrived ∨
    (channel.isDue = false ∧ later.arrived = channel.arrived) ∨
    ∃ event ∈ events, event.token = channel.token ∧ event.readable = true

/-- Something is still to come: news of the poller, an execution, or octets. -/
def Owes (channel : Channel) (store : Store) : Prop :=
  channel.isDue = true ∨ channel.times.length < channel.requests.length ∨
    channel.arrived.length < (channel.stream store).length

/-! ### Growth -/

variable {channel later last : Channel}

theorem Grows.refl (channel : Channel) : channel.Grows channel :=
  ⟨rfl, rfl, id, rfl, List.prefix_rfl, List.prefix_rfl, rfl⟩

theorem Grows.trans (hfirst : channel.Grows later) (hsecond : later.Grows last) :
    channel.Grows last where
  socket := hsecond.socket.trans hfirst.socket
  token := hsecond.token.trans hfirst.token
  up hup := hsecond.up (hfirst.up hup)
  taken := hsecond.taken.trans hfirst.taken
  times := hfirst.times.trans hsecond.times
  arrived := hfirst.arrived.trans hsecond.arrived
  given := hsecond.given.trans hfirst.given

theorem Rests.refl (channel : Channel) : channel.Rests channel :=
  ⟨.refl channel, id, fun _ => rfl⟩

theorem Rests.trans (hfirst : channel.Rests later) (hsecond : later.Rests last) :
    channel.Rests last where
  toGrows := hfirst.toGrows.trans hsecond.toGrows
  due hdue := hsecond.due (hfirst.due hdue)
  quiet hquiet := by
    have hbetween : later.isDue = false := by
      cases hdue : later.isDue with
      | false => rfl
      | true =>
          rw [hsecond.due hdue] at hquiet
          cases hquiet
    rw [hsecond.quiet hquiet, hfirst.quiet hbetween]

/-- What arrives at a channel at rest is due to be told. -/
theorem Rests.heard (hrests : channel.Rests later)
    (hheard : channel.isDue = true ∨ channel.given = channel.arrived) :
    later.isDue = true ∨ later.given = later.arrived := by
  cases hquiet : later.isDue with
  | true => exact .inl rfl
  | false =>
      rcases hheard with hdue | hread
      · rw [hrests.due hdue] at hquiet
        cases hquiet
      · exact .inr (by rw [hrests.given, hread, hrests.quiet hquiet])

/-- More octets and later executions do not change the responses there were. -/
theorem groups_prefix (store : Store) (htaken : channel.taken <+: later.taken)
    (htimes : channel.times <+: later.times)
    (hexecuted : channel.times.length ≤ channel.requests.length) :
    channel.groups store <+: later.groups store := by
  apply store.prefix_answers
  obtain ⟨octets, htaken⟩ := htaken
  obtain ⟨times, htimes⟩ := htimes
  obtain ⟨requests, hrequests⟩ : channel.requests <+: later.requests := by
    rw [requests, requests, ← htaken]
    exact (Request.kind.frames_append _ _).map _
  rw [← htimes, ← hrequests]
  -- the requests that were not executed yet meet the later times
  obtain ⟨front, back, hsplit, hlength⟩ : ∃ front back, channel.requests = front ++ back ∧
      channel.times.length = front.length :=
    ⟨_, _, (List.take_append_drop channel.times.length channel.requests).symm,
      by rw [List.length_take]; omega⟩
  rw [hsplit, List.append_assoc, List.zip_append hlength, List.zip_eq_zip_take_min, hlength,
    List.length_append, Nat.min_eq_left (Nat.le_add_right _ _), List.take_left' rfl, ← hlength,
    List.take_length]
  exact List.prefix_append _ _

theorem Grows.groups {store : Store} (hsound : channel.Sound store) (hgrows : channel.Grows later) :
    channel.groups store <+: later.groups store :=
  groups_prefix store (hgrows.taken ▸ List.prefix_rfl) hgrows.times hsound.executed

/-- There are no more groups than requests. -/
theorem Sound.length_groups {store : Store} (hsound : channel.Sound store) :
    (channel.groups store).length = channel.times.length := by
  rw [groups, Store.length_answers, List.length_zip]
  exact Nat.min_eq_left hsound.executed

end Channel

/-! ## Hosts -/

/-- What is known of a network beside its operations: the stores of its servers, in the order
of the list, and the channels to them. -/
structure Hosts (ω : Type) where
  /-- The store of a server when the connection to it is there. -/
  store : Nat → Store
  /-- The channel to a server, once a connect was started. -/
  channel : ω → Nat → Option Channel
  /-- Bounds how often a client that is owed something waits in vain. -/
  patience : ω → Nat
  /-- By how much a connect, and every octet that is taken, adds to the bound. -/
  price : Nat
  /-- No wait for something that was owed has lasted to its end or was in vain. -/
  onTime : ω → Prop

/-- What one operation on a network leaves. -/
inductive Network.Touched {ω : Type} [Network ω] (net : ω) : ω → Prop
  | connect (token : Token) (endpoint : Endpoint) :
      Touched net (Network.connect net token endpoint).2
  | takeError (socket : Socket) : Touched net (Network.takeError net socket).2
  | read (socket : Socket) : Touched net (Network.read net socket).2
  | write (socket : Socket) (octets : Bytes) : Touched net (Network.write net socket octets).2
  | close (socket : Socket) : Touched net (Network.close net socket)
  | poll (time : Nat) : Touched net (Network.poll net time).2

/-- What some operations on a network leave. -/
abbrev Network.Leads {ω : Type} [Network ω] : ω → ω → Prop :=
  Relation.ReflTransGen Network.Touched

namespace Hosts

variable {ω : Type} (hosts : Hosts ω)

/-- A server still owes something. -/
def Owes (net : ω) : Prop :=
  ∃ index channel, hosts.channel net index = some channel ∧ channel.Owes (hosts.store index)

variable [Network ω]

/-- What an operation on the channel of one server leaves: the other channels go on by
themselves, no time passes, and the patience grows by a cost at most. -/
structure Acts (index cost : Nat) (net after : ω) : Prop where
  others : ∀ other, other ≠ index →
    Option.Rel Channel.Rests (hosts.channel net other) (hosts.channel after other)
  now : Network.now after = Network.now net
  patience : hosts.patience after ≤ hosts.patience net + cost

/-- How many octets a write took. -/
def taken : WriteOutcome → Nat
  | .took count => count
  | _ => 0

/-- The laws of a network whose servers are stores. -/
structure Lawful (servers : List ServerAddress) : Prop where
  sound : ∀ {net : ω} {index : Nat} {channel : Channel},
    hosts.channel net index = some channel → channel.Sound (hosts.store index)
  connects : ∀ {net : ω} {index : Nat} {address : ServerAddress} (token : Token),
    servers[index]? = some address → hosts.channel net index = none →
    ∃ endpoint socket after channel,
      Network.resolve net address.host address.port = .ok endpoint ∧
      Network.connect net token endpoint = (.ok socket, after) ∧
      hosts.Acts index hosts.price net after ∧
      hosts.channel after index = some channel ∧ channel.Fresh socket token
  takesError : ∀ {net : ω} {index : Nat} {channel : Channel},
    hosts.channel net index = some channel →
    ∃ after later, Network.takeError net channel.socket = (none, after) ∧
      hosts.Acts index 0 net after ∧
      hosts.channel after index = some later ∧ channel.Rests later
  peerState : ∀ {net : ω} {index : Nat} {channel : Channel},
    hosts.channel net index = some channel →
    Network.peerState net channel.socket
      = if channel.isUp then .established else .notConnected
  reads : ∀ {net after : ω} {index : Nat} {channel : Channel} {outcome : ReadOutcome},
    hosts.channel net index = some channel → channel.isUp = true →
    Network.read net channel.socket = (outcome, after) →
    hosts.Acts index 0 net after ∧
      ∃ later, hosts.channel after index = some later ∧ channel.Reads outcome later
  writes : ∀ {net after : ω} {index : Nat} {channel : Channel} {octets : Bytes}
      {outcome : WriteOutcome},
    hosts.channel net index = some channel → channel.isUp = true → octets ≠ [] →
    Network.write net channel.socket octets = (outcome, after) →
    hosts.Acts index (hosts.price * taken outcome) net after ∧
      ∃ later, hosts.channel after index = some later ∧ channel.Writes octets outcome later
  /-- A wait does not fail. -/
  polls : ∀ {net after : ω} {time : Nat} {outcome : PollOutcome},
    Network.poll net time = (outcome, after) →
    (outcome = .interrupted ∧
        ∀ index, Option.Rel Channel.Rests (hosts.channel net index) (hosts.channel after index)) ∨
      ∃ events, outcome = .ready events ∧ ∀ index,
        Option.Rel (Channel.Reports events) (hosts.channel net index) (hosts.channel after index)
  /-- As long as all goes on time, a wait for something that is owed uses up patience and does
  not last to its end. -/
  waits : ∀ {net after : ω} {time : Nat} {outcome : PollOutcome},
    Network.poll net time = (outcome, after) → hosts.Owes net → 0 < time → hosts.onTime after →
    hosts.patience after < hosts.patience net ∧ Network.now after < Network.now net + time
  /-- What was late stays late. -/
  punctual : ∀ {net after : ω}, Network.Touched net after → hosts.onTime after → hosts.onTime net

/-- When a server executed the request at a place in its order. -/
def clock (net : ω) (index place : Nat) : Nat :=
  ((hosts.channel net index).bind (·.times[place]?)).getD 0

end Hosts

/-! ## What steps do to a network -/

section Steps

variable {ω : Type} [Network ω] {net after : ω}

/-- Operations on sockets are operations. -/
theorem Network.respected_leads : Network.Respected (@Network.Leads ω _) where
  refl _ := .refl
  trans := .trans
  connect _ token endpoint := .single (.connect token endpoint)
  takeError _ socket := .single (.takeError socket)
  read _ socket := .single (.read socket)
  write _ socket octets := .single (.write socket octets)
  close _ socket := .single (.close socket)

namespace Client

/-- Steps of a client are a sequence of operations. -/
theorem Steps.leads {client last : Client ω} {incidents : Trace}
    (hsteps : client.Steps incidents last) : Network.Leads client.net last.net := by
  induction hsteps with
  | refl => exact .refl
  | tail _ hstep ih =>
      apply ih.trans
      cases hstep with
      | move hmove =>
          cases hmove with
          | link _ hlink => exact hlink.respects Network.respected_leads
          | waited hpoll => exact .single (rel_of_eq (.poll _) hpoll)
          | noted => exact .refl
      | queued hqueue =>
          obtain ⟨_, _, _, -, -, -, -, rfl⟩ := queue_cases hqueue
          exact .refl
      | _ => exact .refl

end Client

/-- What ends on time began on time. -/
theorem Hosts.Lawful.onTime {hosts : Hosts ω} {servers : List ServerAddress}
    (hlawful : hosts.Lawful servers) (hleads : Network.Leads net after)
    (htime : hosts.onTime after) : hosts.onTime net := by
  induction hleads with
  | refl => exact htime
  | tail _ htouched ih => exact ih (hlawful.punctual htouched htime)

end Steps

end CachePool

/-
# Racks of stores

Networks in which every server is a store at hand.  A wire leads to each of them; it carries
some octets at a time, the store executes a request as soon as it is whole, and its responses
are there at once.  A wire that would have to carry a response that is too long for a frame
takes nothing any more.

* `Rack.hosts` : what is known of a rack beside its operations;
* `Rack.lawful_hosts` : the servers of a rack are stores;
* `Rack.withConfig_opened` : a client with the default configuration can be opened on a rack.
-/
import Mathlib.Data.List.Infix
import CachePool.Proofs.Hosts
import CachePool.Proofs.Ideal

namespace CachePool

/-! ## Wires -/

namespace Rack

/-- How many octets a wire carries at a time. -/
def grain : Nat := 16

/-- The store of every server, with one connection. -/
def shelf : Store :=
  (Store.empty 0 0).connectionOpened

/-- The whole requests in some octets, all executed at one time. -/
def executing (taken : Bytes) : List (Nat × Request) :=
  (Request.kind.split taken).frames.map fun frame => (0, frame.1)

/-- The responses to them. -/
def responding (taken : Bytes) : List Response :=
  (shelf.answers (executing taken)).flatten

/-- Without octets there are no requests. -/
theorem executing_nil : executing [] = [] := by
  rw [executing, Request.kind.split_of_incomplete rfl]
  rfl

/-- More octets make more requests. -/
theorem prefix_executing (taken octets : Bytes) :
    executing taken <+: executing (taken ++ octets) :=
  (Request.kind.frames_append taken octets).map _

/-- The responses to more octets begin with those to fewer. -/
theorem prefix_frames_responding (taken octets : Bytes) :
    (responding taken).flatMap Response.frame
      <+: (responding (taken ++ octets)).flatMap Response.frame :=
  (shelf.prefix_answers (prefix_executing taken octets)).flatten.flatMap _

/-- A wire to a store, and what passed over it. -/
structure Wire where
  token : Token
  /-- The octets taken from the client. -/
  taken : Bytes
  /-- How many octets the client has read. -/
  count : Nat
  /-- No response is longer than a frame may be. -/
  fits : ∀ response ∈ responding taken, response.bodyLength ≤ maxBodyLength
  /-- What was read has come. -/
  read : count ≤ ((responding taken).flatMap Response.frame).length

namespace Wire

/-- A wire that was just laid. -/
def fresh (token : Token) : Wire where
  token := token
  taken := []
  count := 0
  fits := by
    rw [responding, executing_nil]
    exact fun _ hnone => nomatch hnone
  read := Nat.zero_le _

variable (wire : Wire)

/-- The octets that came from the store. -/
def arrived : Bytes :=
  (responding wire.taken).flatMap Response.frame

/-- The octets that come next. -/
def ahead : Bytes :=
  (wire.arrived.drop wire.count).take grain

theorem length_ahead : wire.count + wire.ahead.length ≤ wire.arrived.length := by
  have hread : wire.count ≤ wire.arrived.length := wire.read
  rw [ahead, List.length_take, List.length_drop]
  omega

/-- The wire when the client has read what comes next. -/
def advance : Wire :=
  { wire with count := wire.count + wire.ahead.length, read := wire.length_ahead }

/-- The wire when it took more octets. -/
def taking (octets : Bytes)
    (hfits : ∀ response ∈ responding (wire.taken ++ octets),
      response.bodyLength ≤ maxBodyLength) : Wire :=
  { wire with
    taken := wire.taken ++ octets
    fits := hfits
    read := Nat.le_trans wire.read (prefix_frames_responding wire.taken octets).length_le }

/-- A wire, seen as a channel. -/
def channel (socket : Socket) (isDue : Bool) : Channel where
  socket := socket
  token := wire.token
  isUp := true
  isDue := isDue
  taken := wire.taken
  times := (executing wire.taken).map (·.1)
  arrived := wire.arrived
  given := wire.arrived.take wire.count

/-- Nothing has passed over a wire that was just laid. -/
theorem fresh_channel (token : Token) (socket : Socket) :
    ((fresh token).channel socket true).Fresh socket token := by
  have harrived : (fresh token).arrived = [] := by
    show (shelf.answers (executing [])).flatten.flatMap Response.frame = []
    rw [executing_nil]
    rfl
  refine ⟨rfl, rfl, rfl, rfl, ?_, harrived, ?_⟩
  · show (executing []).map _ = []
    rw [executing_nil]
    rfl
  · show (fresh token).arrived.take 0 = []
    rw [harrived]
    rfl

/-- Every request was executed. -/
theorem groups_channel (socket : Socket) (isDue : Bool) :
    (wire.channel socket isDue).groups shelf = shelf.answers (executing wire.taken) := by
  unfold Channel.groups Channel.requests channel executing
  dsimp only
  rw [List.map_map, List.zip_map']
  rfl

/-- All responses have come. -/
theorem stream_channel (socket : Socket) (isDue : Bool) :
    (wire.channel socket isDue).stream shelf = wire.arrived := by
  rw [Channel.stream, groups_channel]
  rfl

/-- What a wire carries are the responses of its store. -/
theorem sound (socket : Socket) (isDue : Bool) : (wire.channel socket isDue).Sound shelf where
  dormant hdown := nomatch hdown
  executed := by simp [channel, executing, Channel.requests]
  sent := by
    rw [stream_channel]
    exact List.prefix_rfl
  read := List.take_prefix _ _
  bodies := by
    rw [groups_channel]
    exact wire.fits

variable {wire}

/-- What comes next is given next. -/
theorem given_advance :
    wire.arrived.take (wire.count + wire.ahead.length)
      = wire.arrived.take wire.count ++ wire.ahead := by
  rw [List.take_add]
  exact congrArg _ (List.prefix_iff_eq_take.mp (List.take_prefix _ _)).symm

/-- When nothing comes next, all was read. -/
theorem given_of_ahead (hahead : wire.ahead = []) :
    wire.arrived.take wire.count = wire.arrived := by
  rw [ahead, List.take_eq_nil_iff] at hahead
  rcases hahead with hnone | hnone
  · cases hnone
  · exact List.take_of_length_le (List.drop_eq_nil_iff.mp hnone)

/-- A channel that nothing passes rests, as long as no news are forgotten. -/
theorem rests_channel (socket : Socket) {news later : Nat} (hnews : news ≤ later) :
    (wire.channel socket (decide (0 < news))).Rests (wire.channel socket (decide (0 < later))) := by
  refine ⟨⟨rfl, rfl, id, rfl, List.prefix_rfl, List.prefix_rfl, rfl⟩, ?_, fun _ => rfl⟩
  show decide _ = true → decide _ = true
  simp only [decide_eq_true_eq]
  omega

/-- What a wire takes comes behind what it took, and so do the responses to it. -/
theorem rests_taking (socket : Socket) (isDue : Bool) {octets : Bytes}
    (hfits : ∀ response ∈ responding (wire.taken ++ octets), response.bodyLength ≤ maxBodyLength) :
    Channel.Rests { wire.channel socket isDue with taken := wire.taken ++ octets }
      ((wire.taking octets hfits).channel socket true) := by
  refine ⟨⟨rfl, rfl, id, rfl, (prefix_executing _ _).map _, prefix_frames_responding _ _, ?_⟩, fun _ => rfl,
    fun hquiet => (nomatch hquiet)⟩
  obtain ⟨more, hmore⟩ := prefix_frames_responding wire.taken octets
  show ((responding (wire.taken ++ octets)).flatMap Response.frame).take wire.count
    = wire.arrived.take wire.count
  rw [← hmore]
  exact List.take_append_of_le_length wire.read

end Wire

end Rack

/-! ## Racks -/

/-- Some stores behind wires. -/
structure Rack (size : Nat) where
  /-- The wire to a server, once it was laid. -/
  wires : Nat → Option Rack.Wire
  /-- How much happened since the client last waited. -/
  news : Nat
  /-- Whether a wire takes nothing any more. -/
  isStuck : Bool

namespace Rack

variable {size : Nat}

/-- A rack without wires. -/
def new : Rack size where
  wires _ := none
  news := 0
  isStuck := false

/-- The rack with a wire to a server. -/
def put (rack : Rack size) (index : Nat) (wire : Wire) : Rack size :=
  { rack with wires := Function.update rack.wires index (some wire) }

/-- The rack when one more thing happened. -/
def stir (rack : Rack size) : Rack size :=
  { rack with news := rack.news + 1 }

/-- What a wait tells: every wire is ready. -/
def events (rack : Rack size) : List Event :=
  (List.range size).filterMap fun index =>
    (rack.wires index).map fun wire => { token := wire.token, readable := true, writable := true }

instance : Network (Rack size) where
  now _ := 0
  lookup _ _ port := .ok [{ address := .v4 127 0 0 1, port }]
  connect rack token endpoint :=
    let index := (endpoint.port - defaultPort).toNat
    (.ok index, (rack.put index (.fresh token)).stir)
  takeError rack _ := (none, rack)
  peerState _ _ := .established
  read rack socket :=
    match rack.wires socket with
    | none => (.wouldBlock, rack)
    | some wire =>
      if wire.ahead = [] then (.wouldBlock, rack)
      else (.data wire.ahead, rack.put socket wire.advance)
  write rack socket octets :=
    match rack.wires socket with
    | none => (.wouldBlock, rack)
    | some wire =>
      let count := min grain octets.length
      if hfits : ∀ response ∈ responding (wire.taken ++ octets.take count),
          response.bodyLength ≤ maxBodyLength then
        (.took count, (rack.put socket (wire.taking _ hfits)).stir)
      else (.wouldBlock, { rack.stir with isStuck := true })
  close rack _ := rack
  poll rack _ := (.ready rack.events, { rack with news := 0 })
  pollLimit _ := 1000
  readCredit rack socket :=
    ((rack.wires socket).map fun wire => wire.arrived.length - wire.count).getD 0
  writeCredit _ _ := 0
  read_credit_lt := by
    intro rack after socket outcome hread hmoves
    cases hwire : rack.wires socket with
    | none =>
        rw [hwire] at hread
        cases hread
        simp at hmoves
    | some wire =>
        rw [hwire] at hread
        dsimp only at hread
        split at hread
        · cases hread
          simp at hmoves
        · rename_i hahead
          cases hread
          have hsome : 0 < wire.ahead.length := List.length_pos_iff.mpr hahead
          have hmore := wire.length_ahead
          unfold put
          dsimp only
          rw [Function.update_self]
          show wire.arrived.length - (wire.count + wire.ahead.length)
            < wire.arrived.length - wire.count
          omega
  write_credit_lt := by
    intro rack after socket octets hwrite
    dsimp only at hwrite
    split at hwrite
    · cases hwrite
    · split at hwrite <;> cases hwrite

/-- What is known of a rack beside its operations. -/
def hosts : Hosts (Rack size) where
  store _ := shelf
  channel rack index :=
    if index < size then
      (rack.wires index).map fun wire => wire.channel index (decide (0 < rack.news))
    else none
  patience rack := if rack.isStuck then 0 else rack.news
  price := 1
  onTime rack := rack.isStuck = false

/-! ## Laws -/

section Laws

variable {rack after : Rack size} {index : Nat} {wire : Wire} {channel : Channel}

theorem channel_eq (hindex : index < size) (hwire : rack.wires index = some wire) :
    hosts.channel rack index = some (wire.channel index (decide (0 < rack.news))) := by
  show (if index < size then _ else _) = _
  rw [if_pos hindex, hwire]
  rfl

theorem wire_of_channel (hchannel : hosts.channel rack index = some channel) :
    index < size ∧ ∃ wire, rack.wires index = some wire ∧
      channel = wire.channel index (decide (0 < rack.news)) := by
  unfold hosts at hchannel
  dsimp only at hchannel
  split at hchannel
  · rename_i hindex
    obtain ⟨wire, hwire, rfl⟩ := Option.map_eq_some_iff.mp hchannel
    exact ⟨hindex, wire, hwire, rfl⟩
  · cases hchannel

/-- What is done to one wire leaves the others alone. -/
theorem acts {cost : Nat}
    (hwires : ∀ other, other ≠ index → after.wires other = rack.wires other)
    (hnews : rack.news ≤ after.news)
    (hpatience : hosts.patience after ≤ hosts.patience rack + cost) :
    hosts.Acts index cost rack after where
  others other hother := by
    unfold hosts
    dsimp only
    rw [hwires other hother]
    split
    · cases rack.wires other with
      | none => exact .none
      | some wire => exact .some (Wire.rests_channel other hnews)
    · exact .none
  now := rfl
  patience := hpatience

theorem wires_put (rack : Rack size) (index : Nat) (wire : Wire) :
    (rack.put index wire).wires index = some wire :=
  Function.update_self ..

theorem wires_put_of_ne (rack : Rack size) (wire : Wire) {other : Nat} (hother : other ≠ index) :
    (rack.put index wire).wires other = rack.wires other :=
  Function.update_of_ne hother ..

/-- What happened is due to be told. -/
theorem due_stir (rack : Rack size) : decide (0 < rack.stir.news) = true :=
  decide_eq_true (Nat.succ_pos rack.news)

/-- What happened is paid for. -/
theorem patience_stir {cost : Nat} (hcost : 0 < cost) :
    hosts.patience (rack.put index wire).stir ≤ hosts.patience rack + cost := by
  show (if rack.isStuck then 0 else rack.news + 1) ≤ (if rack.isStuck then 0 else rack.news) + cost
  split <;> omega

/-- A read gives what comes next, or blocks when nothing does. -/
theorem reads_of_read {outcome : ReadOutcome} (hindex : index < size)
    (hwire : rack.wires index = some wire) (hread : Network.read rack index = (outcome, after)) :
    hosts.Acts index 0 rack after ∧ ∃ later, hosts.channel after index = some later ∧
      (wire.channel index (decide (0 < rack.news))).Reads outcome later := by
  dsimp only [Network.read] at hread
  rw [hwire] at hread
  dsimp only at hread
  split at hread
  · rename_i hahead
    cases hread
    refine ⟨acts (fun _ _ => rfl) (Nat.le_refl _) (Nat.le_refl _), _, channel_eq hindex hwire,
      .wouldBlock (.refl _) (.inr (Wire.given_of_ahead hahead))⟩
  · cases hread
    refine ⟨acts (fun _ => wires_put_of_ne rack _) (Nat.le_refl _) (Nat.le_refl _), _,
      channel_eq hindex (wires_put ..), .data ⟨rfl, rfl, id, rfl, List.prefix_rfl,
        List.prefix_rfl, Wire.given_advance⟩⟩

/-- A write takes some octets from the front, or blocks for ever. -/
theorem writes_of_write {octets : Bytes} {outcome : WriteOutcome} (hindex : index < size)
    (hwire : rack.wires index = some wire) (hsome : octets ≠ [])
    (hwrite : Network.write rack index octets = (outcome, after)) :
    hosts.Acts index (Hosts.taken outcome) rack after ∧
      ∃ later, hosts.channel after index = some later ∧
        (wire.channel index (decide (0 < rack.news))).Writes octets outcome later := by
  dsimp only [Network.write] at hwrite
  rw [hwire] at hwrite
  dsimp only at hwrite
  have hcount : 0 < min grain octets.length :=
    Nat.lt_min.mpr ⟨Nat.zero_lt_succ _, List.length_pos_iff.mpr hsome⟩
  split at hwrite
  · rename_i hfits
    cases hwrite
    refine ⟨acts (fun _ => wires_put_of_ne rack _) (Nat.le_succ rack.news)
      (patience_stir hcount), _, channel_eq hindex (wires_put ..),
      .took hcount (Nat.min_le_right _ _) ?_⟩
    rw [due_stir]
    exact Wire.rests_taking index _ hfits
  · cases hwrite
    exact ⟨acts (fun _ _ => rfl) (Nat.le_succ rack.news) (Nat.zero_le _), _,
      channel_eq hindex hwire,
      .wouldBlock (Wire.rests_channel index (Nat.le_succ _)) rack.due_stir⟩

/-- A wait tells of every wire. -/
theorem reports_events (rack : Rack size) (index : Nat) :
    Option.Rel (Channel.Reports rack.events) (hosts.channel rack index)
      (hosts.channel ({ rack with news := 0 } : Rack size) index) := by
  unfold hosts
  dsimp only
  split
  · rename_i hindex
    cases hwire : rack.wires index with
    | none => exact .none
    | some wire =>
        refine .some ⟨⟨rfl, rfl, id, rfl, List.prefix_rfl, List.prefix_rfl, rfl⟩,
          .inr (.inr (.inr ⟨⟨wire.token, true, true⟩, ?_, rfl, rfl⟩))⟩
        exact List.mem_filterMap.mpr ⟨index, List.mem_range.mpr hindex, by rw [hwire]; rfl⟩
  · exact .none

/-- Nothing is owed but news. -/
theorem news_of_owes (howes : hosts.Owes rack) : 0 < rack.news := by
  obtain ⟨index, channel, hchannel, howes⟩ := howes
  obtain ⟨-, wire, -, rfl⟩ := wire_of_channel hchannel
  rcases howes with hdue | hbehind | hbehind
  · exact of_decide_eq_true hdue
  · simp [Wire.channel, executing, Channel.requests] at hbehind
  · rw [show (hosts : Hosts (Rack size)).store index = shelf from rfl,
      Wire.stream_channel] at hbehind
    exact absurd hbehind (Nat.lt_irrefl _)

/-- A wire that is stuck stays so. -/
theorem onTime_of_touched (htouched : Network.Touched rack after) (htime : hosts.onTime after) :
    hosts.onTime rack := by
  cases htouched with
  | read socket =>
      dsimp only [Network.read] at htime
      split at htime
      · exact htime
      · split at htime <;> exact htime
  | write socket octets =>
      dsimp only [Network.write] at htime
      split at htime
      · exact htime
      · split at htime
        · exact htime
        · cases htime
  | _ => exact htime

end Laws

/-- **The servers of a rack are stores.** -/
theorem lawful_hosts {servers : List ServerAddress} (hsize : servers.length ≤ size)
    (hports : ∀ {index : Nat} {address : ServerAddress}, servers[index]? = some address →
      (address.port - defaultPort).toNat = index) :
    (hosts : Hosts (Rack size)).Lawful servers where
  sound hchannel := by
    obtain ⟨-, wire, -, rfl⟩ := wire_of_channel hchannel
    exact wire.sound _ _
  connects {rack index address} token haddress _ := by
    have hindex : index < size :=
      Nat.lt_of_lt_of_le (List.getElem?_eq_some_iff.mp haddress).1 hsize
    have hlaid : Network.connect rack token ⟨.v4 127 0 0 1, address.port⟩
        = (.ok index, (rack.put index (.fresh token)).stir) := by
      dsimp only [Network.connect]
      rw [hports haddress]
    refine ⟨⟨.v4 127 0 0 1, address.port⟩, index, _, _, rfl, hlaid,
      acts (fun _ => wires_put_of_ne rack _) (Nat.le_succ rack.news) (patience_stir Nat.one_pos),
      channel_eq hindex (wires_put rack index (.fresh token)), ?_⟩
    rw [due_stir]
    exact Wire.fresh_channel token index
  takesError {rack index channel} hchannel := by
    obtain ⟨-, wire, -, rfl⟩ := wire_of_channel hchannel
    exact ⟨rack, _, rfl, acts (fun _ _ => rfl) (Nat.le_refl _) (Nat.le_refl _), hchannel, .refl _⟩
  peerState hchannel := by
    obtain ⟨-, wire, -, rfl⟩ := wire_of_channel hchannel
    rfl
  reads hchannel _ hread := by
    obtain ⟨hindex, wire, hwire, rfl⟩ := wire_of_channel hchannel
    exact reads_of_read hindex hwire hread
  writes hchannel _ hsome hwrite := by
    obtain ⟨hindex, wire, hwire, rfl⟩ := wire_of_channel hchannel
    rw [show (hosts : Hosts (Rack size)).price = 1 from rfl, Nat.one_mul]
    exact writes_of_write hindex hwire hsome hwrite
  polls {rack after time outcome} hpoll := by
    cases hpoll
    exact .inr ⟨_, rfl, reports_events rack⟩
  waits {rack after time outcome} hpoll howes htime hontime := by
    cases hpoll
    have hnews := news_of_owes howes
    refine ⟨?_, by show 0 < 0 + time; omega⟩
    show (if rack.isStuck then 0 else 0) < if rack.isStuck then 0 else rack.news
    rw [show rack.isStuck = false from hontime]
    exact hnews
  punctual := onTime_of_touched

/-! ## A conversation -/

/-- The server of the default configuration. -/
def home : ServerAddress where
  host := "127.0.0.1"
  port := defaultPort

theorem addresses_default : Config.default.addresses = .ok [home] := rfl

/-- The server of the default configuration is the first of a rack. -/
theorem lawful_home : (hosts : Hosts (Rack 1)).Lawful [home] := by
  refine lawful_hosts (Nat.le_refl 1) fun {index address} haddress => ?_
  cases index with
  | zero =>
      cases haddress
      rfl
  | succ index => cases haddress

/-- A client that was just opened on a rack with the default configuration. -/
def opened : Client (Rack 1) where
  timeouts := Config.default.timeouts
  pool := {
    links := [Link.make { index := 0, address := home } 0], ring := .build [home], nextToken := 1 }
  ledger := .empty false
  log := (Log.empty .keep).add .info ("server list set to " ++ Decimal.text 1 ++ " server(s)")
  net := .new

theorem withConfig_opened : Client.withConfig .new Config.default = .ok opened := rfl

/-- A counter is stored; it is read, counted up and looked for among the statistics in a batch. -/
def conversation : List Call :=
  [.issue (.set [0x6e] [0x37] { expiration := 0, flags := 0, cas := 0 }) none,
    .setBuffering true,
    .issue (.get [0x6e] { flags := true, cas := true }) none,
    .issue (.increment [0x6e] { delta := 5, initial := 0, expiration := 0 }) none,
    .issue (.stat "" 0) none,
    .flush none]

theorem within_conversation : ∀ call ∈ conversation, call.Within 1 := by
  unfold conversation
  simp only [List.forall_mem_cons]
  refine ⟨⟨rfl, fun _ hnone => (nomatch hnone)⟩, trivial, ⟨rfl, fun _ hnone => (nomatch hnone)⟩,
    ⟨rfl, fun _ hnone => (nomatch hnone)⟩, ⟨rfl, ?_⟩, trivial, nofun⟩
  rintro server ⟨⟩
  exact Nat.one_pos

end Rack

end CachePool

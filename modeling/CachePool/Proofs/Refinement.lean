/-
# A client refines the stores of its servers

Among hosts of stores a client answers every call as the ideal client does, whose servers
execute each command at once: pieces, delays and interruptions are not seen, and neither is
whether commands are buffered, but for when their results are returned.

* `Hosts.replies` : what stores respond to the commands issued to them;
* `Results` : the result of a command, by these responses;
* `Mirrors` : how the client and the ideal client correspond between two calls;
* `Mirrors.answer` : a call keeps this and has the same answer;
* `refines_stores` : any calls have the same answers.
-/
import CachePool.Proofs.Ideal
import CachePool.Proofs.Issuing
import CachePool.Proofs.Rack
import CachePool.Proofs.Routing

namespace CachePool

/-! ## Servers of commands -/

/-- Every command has a server. -/
theorem Pool.exists_serverOf {servers : List ServerAddress} {pool : Pool} {command : Command}
    (hsome : servers ≠ []) (hring : pool.ring = .build servers)
    (hlength : pool.links.length = servers.length)
    (hlisted : ∀ server, command.server? = some server → server < servers.length) :
    ∃ server, pool.serverOf command = some server ∧ server < servers.length := by
  unfold serverOf
  cases hserver : command.server? with
  | some server => exact ⟨server, rfl, hlisted server hserver⟩
  | none =>
      obtain ⟨index, howner, hindex⟩ := Ring.exists_owner hsome command.request.key
      dsimp only
      rw [route_of_owner hring hlength howner hindex]
      exact ⟨index, rfl, hindex⟩

/-- Where a command goes depends on the ring and the number of links only. -/
theorem Pool.serverOf_congr {pool other : Pool} (hring : pool.ring = other.ring)
    (hlength : pool.links.length = other.links.length) : pool.serverOf = other.serverOf := by
  funext command
  unfold serverOf route
  cases command.server? with
  | some server => rfl
  | none =>
      dsimp only
      rcases hfirst : pool.links with _ | ⟨link, _ | ⟨next, rest⟩⟩
      all_goals
        rw [hfirst] at hlength
        rcases hsecond : other.links with _ | ⟨link', _ | ⟨next', rest'⟩⟩
        all_goals rw [hsecond] at hlength
        all_goals first
          | (simp at hlength; done)
          | rfl
          | rw [hring]

/-! ## Commands that are executed in order -/

/-- Requests with the times at which they are executed. -/
def stamped (clock : Nat → Nat) (requests : List Request) : List (Nat × Request) :=
  requests.zipIdx.map fun entry => (clock entry.2, entry.1)

theorem stamped_append (clock : Nat → Nat) (requests : List Request) (last : Request) :
    stamped clock (requests ++ [last]) = stamped clock requests ++ [(clock requests.length, last)] := by
  rw [stamped, List.zipIdx_append, List.map_append, Nat.zero_add]
  rfl

theorem prefix_stamped (clock : Nat → Nat) {requests more : List Request}
    (hmore : requests <+: more) : stamped clock requests <+: stamped clock more := by
  obtain ⟨back, rfl⟩ := hmore
  rw [stamped, stamped, List.zipIdx_append, List.map_append]
  exact List.prefix_append _ _

/-- Requests with times that a clock tells. -/
theorem zip_prefix_stamped {clock : Nat → Nat} {times : List Nat} {requests : List Request}
    (htimes : ∀ place time, times[place]? = some time → clock place = time) :
    times.zip requests <+: stamped clock requests := by
  have hfront : times.zip requests = stamped clock (requests.take times.length) := by
    apply List.ext_getElem
    · rw [stamped, List.length_map, List.length_zipIdx, List.length_zip, List.length_take]
    · intro place hplace hplace'
      rw [List.length_zip] at hplace
      have hbound : place < times.length := Nat.lt_of_lt_of_le hplace (Nat.min_le_left _ _)
      have htime := htimes place times[place] (List.getElem?_eq_getElem hbound)
      simp only [stamped, List.getElem_zip, List.getElem_map, List.getElem_zipIdx, List.getElem_take,
        Nat.zero_add, htime]
  rw [hfront]
  exact prefix_stamped clock (List.take_prefix _ _)

/-- What the store of a server responds to the commands issued to it, when it executes them one by
one in the order of issue. -/
def Hosts.replies {ω : Type} (hosts : Hosts ω) (clock : Nat → Nat → Nat)
    (issued : Nat → List Ticket) (server : Nat) : List (List Response) :=
  (hosts.store server).answers (stamped (clock server) ((issued server).map (·.request)))

/-- The result of a command by its place in the order of issue: what its slot makes of the
responses to it. -/
def Results {ω : Type} (hosts : Hosts ω) (clock : Nat → Nat → Nat) (issued : Nat → List Ticket)
    (seq : Nat) (completion : Completion) : Prop :=
  ∃ (place : Nat) (ticket : Ticket) (group : List Response),
    (issued completion.server)[place]? = some ticket ∧
    (hosts.replies clock issued completion.server)[place]? = some group ∧
    ticket.slot.seq = seq ∧ completion.opcode = ticket.slot.opcode ∧
    completion.key = ticket.slot.key ∧ ticket.slot.outcome? group = some completion.result

section Results

variable {ω : Type} {hosts : Hosts ω} {clock : Nat → Nat → Nat} {issued more : Nat → List Ticket}
  {seq : Nat} {completion other : Completion}

/-- A command has one result. -/
theorem Results.unique {count servers : Nat} (hnumbered : Numbered count servers issued)
    (hfirst : Results hosts clock issued seq completion)
    (hsecond : Results hosts clock issued seq other) : completion = other := by
  obtain ⟨place, ticket, group, hticket, hgroup, hseq, hopcode, hkey, hresult⟩ := hfirst
  obtain ⟨place', ticket', group', hticket', hgroup', hseq', hopcode', hkey', hresult'⟩ := hsecond
  obtain ⟨hserver, rfl⟩ := hnumbered.apart hticket hticket' (hseq.trans hseq'.symm)
  rw [← hserver] at hticket' hgroup'
  rw [hticket] at hticket'
  cases hticket'
  rw [hgroup] at hgroup'
  cases hgroup'
  rw [hresult] at hresult'
  obtain ⟨server, opcode, key, result⟩ := completion
  obtain ⟨server', opcode', key', result'⟩ := other
  dsimp only at hserver hopcode hkey hopcode' hkey' hresult'
  rw [hserver, hopcode, hkey, hopcode', hkey', Option.some.inj hresult']

/-- Commands that are issued later change no result. -/
theorem Results.mono (hissued : ∀ index, issued index <+: more index)
    (hresults : Results hosts clock issued seq completion) :
    Results hosts clock more seq completion := by
  obtain ⟨place, ticket, group, hticket, hgroup, hrest⟩ := hresults
  refine ⟨place, ticket, group, getElem?_of_isPrefix (hissued _) hticket,
    getElem?_of_isPrefix ?_ hgroup, hrest⟩
  exact (hosts.store _).prefix_answers (prefix_stamped _ ((hissued _).map _))

end Results

/-! ## What has ended -/

/-- A clock tells the times at which servers have executed requests. -/
def Hosts.Times {ω : Type} (hosts : Hosts ω) (clock : Nat → Nat → Nat) (net : ω) : Prop :=
  ∀ index channel, hosts.channel net index = some channel →
    ∀ place time, channel.times[place]? = some time → clock index place = time

section Times

variable {ω : Type} {hosts : Hosts ω} {clock : Nat → Nat → Nat} {issued : Nat → List Ticket}
  {net after : ω}

/-- Times that are told later are told before. -/
theorem Hosts.Times.of_extends (hextends : hosts.Extends net after)
    (htimes : hosts.Times clock after) : hosts.Times clock net := by
  intro index channel hchannel place time htime
  obtain ⟨later, hlater, -, hmore⟩ := hextends index channel hchannel
  exact htimes index later hlater place time (getElem?_of_isPrefix hmore htime)

/-- The clock of a network tells its times. -/
theorem Hosts.times_clock (hosts : Hosts ω) (net : ω) : hosts.Times (hosts.clock net) net := by
  intro index channel hchannel place time htime
  rw [Hosts.clock, hchannel, Option.bind_some, htime]
  rfl

variable [Network ω] {servers : List ServerAddress} {link : Link} {ended : Nat}

/-- What a server has responded is what its store responds to the commands issued to it. -/
theorem Link.Attends.groups_prefix (hvalid : ∀ index, ∀ ticket ∈ issued index, ticket.Valid)
    (htimes : hosts.Times clock net)
    (hattends : link.Attends hosts net (issued link.server.index) ended) :
    hosts.groups net link.server.index <+: hosts.replies clock issued link.server.index := by
  cases hattends with
  | untouched hchannel =>
      rw [Hosts.groups, hchannel]
      exact List.nil_prefix
  | @speaking channel done waiting queued answered part hchannel hissued hspeaks =>
      have hall := hvalid link.server.index
      rw [hissued] at hall
      rw [Hosts.groups_of_channel hchannel, Channel.groups, Hosts.replies, hissued, List.map_append,
        ← hspeaks.requests hall]
      apply (hosts.store _).prefix_answers
      exact (zip_prefix_stamped (htimes _ _ hchannel)).trans
        (prefix_stamped _ (List.prefix_append _ _))

variable {client : Client ω} {count : Nat} {finished : Finished}

/-- **A command that ended has its result.** -/
theorem Client.Serves.results {events : List Event}
    (hserves : client.Serves hosts servers issued events)
    (hnumbered : Numbered count servers.length issued) (htimes : hosts.Times clock client.net)
    (hsettled : hosts.Settled issued client.net finished) :
    Results hosts clock issued finished.slot.seq finished.completion := by
  obtain ⟨place, ticket, group, hticket, hgroup, -, hslot, hresult⟩ := hsettled
  obtain ⟨link, hlink, hindex⟩ :=
    hserves.lists.link (hnumbered.listed _ _ (List.mem_of_getElem? hticket))
  obtain ⟨ended, hattends⟩ := hserves.minds link (List.mem_of_getElem? hlink)
  have hgroups := hattends.groups_prefix hnumbered.valid htimes
  rw [hindex] at hgroups
  refine ⟨place, ticket, group, hticket, getElem?_of_isPrefix hgroups hgroup, ?_, ?_, ?_, hresult⟩
  · rw [← hslot]
    rfl
  · rw [← hslot]
    rfl
  · rw [← hslot]
    rfl

end Times

/-! ## Correspondence -/

section Mirrors

variable {ω : Type} [Network ω] {hosts : Hosts ω} {servers : List ServerAddress}
  {clock : Nat → Nat → Nat} {issued : Nat → List Ticket} {books : Books} {ideal : Ideal}
  {client : Client ω}

/-- **The client and the ideal client between two calls.** The stores of the ideal client have
executed the commands that were issued, and it holds back the results of those that are
outstanding by the books. -/
structure Mirrors (hosts : Hosts ω) (servers : List ServerAddress) (clock : Nat → Nat → Nat)
    (issued : Nat → List Ticket) (books : Books) (ideal : Ideal) (client : Client ω) : Prop where
  serves : client.Serves hosts servers issued []
  numbered : Numbered client.ledger.nextSeq servers.length issued
  agrees : client.Agrees books
  ring : client.pool.ring = .build servers
  io : 0 < client.timeouts.io
  tag : client.ledger.nextTag = UInt32.ofNat client.ledger.nextSeq
  count : ideal.issued = client.ledger.nextSeq
  buffering : ideal.buffering = client.ledger.buffering
  stores : ∀ index, ideal.stores index
    = (hosts.store index).executed (stamped (clock index) ((issued index).map (·.request)))
  executed : ∀ index, ideal.executed index = (issued index).length
  held : List.Forall₂ (fun pledge completion => Results hosts clock issued pledge.seq completion)
    books.outstanding ideal.held

/-- What a call comes to: the client and the ideal client correspond, the network goes on, the
call has cost no more than its octets, and its answer is the ideal one if the clock tells when
the servers executed their requests. -/
def Follows (hosts : Hosts ω) (servers : List ServerAddress) (clock : Nat → Nat → Nat)
    (ideal : Ideal) (client : Client ω) (call : Call) : Prop :=
  ∃ issued books answer after,
    ideal.perform clock client.pool.serverOf call = some (answer, after) ∧
    Mirrors hosts servers clock issued books after (client.answer call).2 ∧
    hosts.Extends client.net (client.answer call).2.net ∧
    (client.answer call).2.effort hosts ≤ client.effort hosts + hosts.price * call.octets ∧
    (hosts.Times clock (client.answer call).2.net → (client.answer call).1 = answer)

theorem Follows.intro {call : Call} {found answer : Answer} {after : Client ω} {next : Ideal}
    (hfound : client.answer call = (found, after))
    (hanswer : ideal.perform clock client.pool.serverOf call = some (answer, next))
    (hmirrors : Mirrors hosts servers clock issued books next after)
    (honward : hosts.Extends client.net after.net)
    (heffort : after.effort hosts ≤ client.effort hosts + hosts.price * call.octets)
    (hsame : hosts.Times clock after.net → found = answer) :
    Follows hosts servers clock ideal client call := by
  unfold Follows
  rw [hfound]
  exact ⟨issued, books, answer, next, hanswer, hmirrors, honward, heffort, hsame⟩

/-- The slot and the request of the next command are those of the ideal client. -/
theorem Mirrors.ticket (hmirrors : Mirrors hosts servers clock issued books ideal client)
    (command : Command) :
    ideal.slot command = (client.nextTicket command).slot ∧
      ideal.request command = (client.nextTicket command).request := by
  unfold Ideal.slot Ideal.request
  rw [hmirrors.count, hmirrors.buffering, ← hmirrors.tag]
  exact ⟨rfl, rfl⟩

/-- The responses to the next command are those of the store when it has executed the commands
before it. -/
theorem Mirrors.respond (hmirrors : Mirrors hosts servers clock issued books ideal client)
    (server : Nat) (command : Command) :
    hosts.replies clock (issuing issued server (client.nextTicket command)) server
        = hosts.replies clock issued server ++ [(ideal.respond clock server command).1] ∧
      (hosts.store server).executed (stamped (clock server)
          ((issuing issued server (client.nextTicket command) server).map (·.request)))
        = (ideal.respond clock server command).2 := by
  unfold Hosts.replies Ideal.respond
  rw [issuing_self, List.map_append, List.map_singleton, stamped_append, Store.answers_append,
    Store.executed_append, ← hmirrors.stores, List.length_map, ← hmirrors.executed,
    ← (hmirrors.ticket command).2]
  exact ⟨rfl, rfl⟩

/-- The next command has a result. -/
theorem Mirrors.outcome (hmirrors : Mirrors hosts servers clock issued books ideal client)
    (server : Nat) {command : Command} (hlimits : command.request.validate = .ok ()) :
    ∃ result, (ideal.slot command).outcome? (ideal.respond clock server command).1 = some result ∧
      Results hosts clock (issuing issued server (client.nextTicket command)) client.ledger.nextSeq
        { server, opcode := command.request.opcode, key := command.request.key, result } := by
  have hvalid := @Client.valid_nextTicket ω client command hlimits
  have hreply := Store.isReplyTo_execute (ideal.stores server)
    (clock server (ideal.executed server)) (ideal.request command)
  rw [(hmirrors.ticket command).2] at hreply
  obtain ⟨result, hresult⟩ := Option.isSome_iff_exists.mp (hreply.isSome_outcome? hvalid)
  rw [← (hmirrors.ticket command).2] at hresult
  refine ⟨result, ?_, (issued server).length, client.nextTicket command,
    (ideal.respond clock server command).1, ?_, ?_, rfl, rfl, rfl, hresult⟩
  · rw [(hmirrors.ticket command).1]
    exact hresult
  · exact getElem?_issuing_last ..
  · dsimp only
    have hlength : (hosts.replies clock issued server).length = (issued server).length := by
      rw [Hosts.replies, Store.length_answers, stamped, List.length_map, List.length_zipIdx,
        List.length_map]
    rw [(hmirrors.respond server command).1, ← hlength,
      List.getElem?_append_right (Nat.le_refl _), Nat.sub_self]
    rfl

/-- The ideal client after the next command. -/
theorem Mirrors.next {after : Client ω} {more : Books} {held : List Completion} {server : Nat}
    {command : Command} (hmirrors : Mirrors hosts servers clock issued books ideal client)
    (hlimits : command.request.validate = .ok ()) (hserver : server < servers.length)
    (hserves : after.Serves hosts servers (issuing issued server (client.nextTicket command)) [])
    (hstays : client.Stays 1 after) (hagrees : after.Agrees more)
    (hheld : List.Forall₂ (fun pledge completion => Results hosts clock
      (issuing issued server (client.nextTicket command)) pledge.seq completion) more.outstanding
      held) :
    Mirrors hosts servers clock (issuing issued server (client.nextTicket command)) more
      { ideal.next server (ideal.respond clock server command).2 with held } after where
  serves := hserves
  numbered := by
    rw [hstays.nextSeq]
    exact hmirrors.numbered.add (@Client.valid_nextTicket ω client command hlimits) hserver rfl
  agrees := hagrees
  ring := hstays.ring.trans hmirrors.ring
  io := by
    rw [hstays.timeouts]
    exact hmirrors.io
  tag := by
    rw [hstays.nextTag, hstays.nextSeq, hmirrors.tag, UInt32.ofNat_add]
  count := by
    show ideal.issued + 1 = _
    rw [hstays.nextSeq, hmirrors.count]
  buffering := by
    show ideal.buffering = _
    rw [hstays.buffering, hmirrors.buffering]
  stores index := by
    show Function.update ideal.stores server _ index = _
    by_cases hindex : index = server
    · rw [hindex, Function.update_self, (hmirrors.respond server command).2]
    · rw [Function.update_of_ne hindex, issuing_other issued _ hindex, hmirrors.stores]
  executed index := by
    show Function.update ideal.executed server _ index = _
    by_cases hindex : index = server
    · rw [hindex, Function.update_self, issuing_self, List.length_append, hmirrors.executed]
      rfl
    · rw [Function.update_of_ne hindex, issuing_other issued _ hindex, hmirrors.executed]
  held := hheld

omit [Network ω] in
/-- The result of the last command has an answer. -/
theorem Client.answer?_of_settled {net : ω} {count server : Nat} {command : Command}
    {finished : Finished}
    (hnumbered : Numbered count servers.length
      (issuing issued server (client.nextTicket command)))
    (hsettled : hosts.Settled (issuing issued server (client.nextTicket command)) net finished)
    (hseq : finished.slot.seq = client.ledger.nextSeq) :
    ∃ answer, command.answer? finished.result = some answer := by
  obtain ⟨place, ticket, group, hticket, -, -, hslot, hresult⟩ := hsettled
  have hlast := getElem?_issuing_last issued server (client.nextTicket command)
  obtain ⟨hindex, rfl⟩ := hnumbered.apart hticket hlast
    ((congrArg Slot.seq hslot).symm.trans hseq)
  rw [hindex, hlast] at hticket
  cases hticket
  exact Command.answer?_of_outcome rfl hresult

/-- **A data operation** has the answer of the ideal client. -/
theorem Mirrors.answer_issue {command : Command} {timeout : Option Nat}
    (hlawful : hosts.Lawful servers) (hsome : servers ≠ [])
    (hmirrors : Mirrors hosts servers clock issued books ideal client)
    (hwithin : (Call.issue command timeout).Within servers.length)
    (haffords : client.Affords (.issue command timeout))
    (hwaits : client.effort hosts + hosts.price * command.request.frameLength
      < Network.pollLimit client.net)
    (htime : hosts.onTime (client.answer (.issue command timeout)).2.net) :
    Follows hosts servers clock ideal client (.issue command timeout) := by
  obtain ⟨hlimits, hlisted⟩ := hwithin
  obtain ⟨server, hroute, hserver⟩ :=
    Pool.exists_serverOf hsome hmirrors.ring hmirrors.serves.lists.length hlisted
  obtain ⟨result, houtcome, hresults⟩ := hmirrors.outcome server hlimits
  have hsame : (client.answer (.issue command timeout)).2 = (client.issue command timeout).2 := by
    rw [Client.answer_snd, (Client.perform_issue client command timeout).1]
  rw [hsame] at htime
  obtain ⟨after, hserves, hstays, honward, heffort, hbuffered, hdirect⟩ :=
    hmirrors.serves.issue hlawful hmirrors.numbered hmirrors.agrees.apart hroute hserver hlimits
      haffords hmirrors.io hwaits htime
  have hagrees := hmirrors.agrees.issue command timeout
  rw [(Client.perform_issue client command timeout).1] at hagrees
  have hheld := hmirrors.held.imp fun pledge completion hresults =>
    Results.mono (prefix_issuing issued server (client.nextTicket command)) hresults
  have hmode := hmirrors.buffering
  cases hbuffering : client.ledger.buffering with
  | true =>
      have hissue := hbuffered hbuffering
      rw [hbuffering] at hmode
      have hperformed : (client.perform (.issue command timeout)).1 = .buffered :=
        (Client.perform_issue client command timeout).2.1.mpr (by rw [hissue])
      rw [hperformed, hissue] at hagrees
      have hnext := hmirrors.next hlimits hserver hserves hstays hagrees
        (List.rel_append hheld (.cons hresults .nil))
      refine .intro (Client.answer_buffered hissue) ?_ hnext honward heffort fun _ => rfl
      rw [Ideal.perform, hroute]
      exact Ideal.issue_buffered hmode houtcome
  | false =>
      obtain ⟨finished, hsettled, hseq, hissue⟩ := hdirect hbuffering
      rw [hbuffering] at hmode
      obtain ⟨answer, hanswer⟩ := @Command.answer?_of_outcome command (ideal.slot command) _ _ rfl
        houtcome
      have hperformed : books.after client.ledger.nextSeq (.issue command timeout)
          (client.perform (.issue command timeout)).1 = books := by
        refine Client.books_after_issue ?_
        rw [hissue]
        cases finished.result <;> exact nofun
      rw [hperformed, hissue] at hagrees
      have hnext := hmirrors.next hlimits hserver hserves hstays hagrees hheld
      -- the result that was returned is that of the ideal client, once the times are known
      obtain ⟨found, hfound⟩ := Client.answer?_of_settled hnext.numbered hsettled hseq
      have hideal : ideal.perform clock client.pool.serverOf (.issue command timeout)
          = some (answer, ideal.next server (ideal.respond clock server command).2) := by
        rw [Ideal.perform, hroute]
        exact Ideal.issue_direct hmode houtcome hanswer
      refine .intro (Client.answer_issue hissue hfound) hideal hnext honward heffort fun htimes => ?_
      have hended := hserves.results hnext.numbered htimes hsettled
      rw [hseq] at hended
      have hsame := congrArg Completion.result (hended.unique hnext.numbered hresults)
      change finished.result = result at hsame
      rw [hsame, hanswer] at hfound
      exact (Option.some.inj hfound).symm

/-- The ideal client after a flush. -/
theorem Mirrors.flushed {after : Client ω} {more : Books}
    (hmirrors : Mirrors hosts servers clock issued books ideal client)
    (hserves : after.Serves hosts servers issued []) (hstays : client.Stays 0 after)
    (hagrees : after.Agrees more) (hnone : more.outstanding = []) :
    Mirrors hosts servers clock issued more { ideal with held := [] } after where
  serves := hserves
  numbered := by
    rw [hstays.nextSeq]
    exact hmirrors.numbered
  agrees := hagrees
  ring := hstays.ring.trans hmirrors.ring
  io := by
    rw [hstays.timeouts]
    exact hmirrors.io
  tag := by
    rw [hstays.nextTag, hstays.nextSeq, hmirrors.tag, UInt32.ofNat_add]
  count := by
    rw [hstays.nextSeq]
    exact hmirrors.count
  buffering := by
    rw [hstays.buffering]
    exact hmirrors.buffering
  stores := hmirrors.stores
  executed := hmirrors.executed
  held := by
    rw [hnone]
    exact .nil

/-- **A flush** has the answer of the ideal client. -/
theorem Mirrors.answer_flush {timeout : Option Nat} (hlawful : hosts.Lawful servers)
    (hmirrors : Mirrors hosts servers clock issued books ideal client)
    (haffords : client.Affords (.flush timeout))
    (hwaits : client.effort hosts < Network.pollLimit client.net)
    (htime : hosts.onTime (client.answer (.flush timeout)).2.net) :
    Follows hosts servers clock ideal client (.flush timeout) := by
  have hagrees := hmirrors.agrees.perform (.flush timeout)
  have hbooks := hmirrors.agrees
  rw [Client.answer_snd] at htime
  have hsnd : (client.perform (.flush timeout)).2 = (client.flush timeout).2 := by
    unfold Client.perform
    dsimp only
    rcases client.flush timeout with ⟨error | completions, after⟩ <;> rfl
  rw [hsnd] at htime
  obtain ⟨entries, after, hflush, hserves, hstays, honward, heffort, hentries, hended⟩ :=
    hmirrors.serves.flush hlawful hmirrors.numbered.valid hbooks.apart hbooks.accounts
      (hbooks.order.sublist (hbooks.outstanding.map _)) haffords hmirrors.io hwaits htime
  have hperform : client.perform (.flush timeout) = (.flushed (entries.map (·.2)), after) := by
    rw [Client.perform, hflush]
    rfl
  rw [hperform] at hagrees
  have hanswer : client.answer (.flush timeout)
      = (.other (.flushed (entries.map (·.2))), after) := by
    rw [Client.answer, hperform]
    intro command timeout hcall
    cases hcall
  refine .intro hanswer rfl (hmirrors.flushed hserves hstays hagrees rfl) honward heffort
    fun htimes => ?_
  -- the results that were collected are those that the ideal client has held back
  have hheld := hmirrors.held
  rw [← hentries, List.forall₂_map_left_iff] at hheld
  have hsame : List.Forall₂ (· = ·) (entries.map (·.2)) ideal.held := by
    rw [List.forall₂_map_left_iff]
    refine ((List.forall₂_and_left entries ideal.held).mpr ⟨hended, hheld⟩).imp ?_
    rintro entry completion ⟨⟨finished, hsettled, rfl⟩, hresults⟩
    exact (hserves.results hmirrors.numbered htimes hsettled).unique hmirrors.numbered
      hresults
  rw [List.forall₂_eq_eq_eq] at hsame
  rw [hsame]

/-- Turning buffering on or off. -/
theorem Mirrors.answer_setBuffering (buffering : Bool)
    (hmirrors : Mirrors hosts servers clock issued books ideal client) :
    Follows hosts servers clock ideal client (.setBuffering buffering) := by
  have hserves := hmirrors.serves
  refine @Follows.intro ω _ hosts servers clock issued books ideal client _ _ _
    (client.setBuffering buffering) _ rfl rfl ?_ (.refl _) (Nat.le_add_right _ _) fun _ => rfl
  exact ⟨⟨hserves.lists, hserves.tokens, hserves.minds, hserves.told,
    ⟨hserves.kept.direct, hserves.kept.completed⟩, hserves.connect⟩, hmirrors.numbered,
    hmirrors.agrees.congr rfl rfl rfl, hmirrors.ring, hmirrors.io, hmirrors.tag, hmirrors.count, rfl,
    hmirrors.stores, hmirrors.executed, hmirrors.held⟩

/-- **Every call has the answer of the ideal client.** -/
theorem Mirrors.answer {call : Call} (hlawful : hosts.Lawful servers) (hsome : servers ≠ [])
    (hmirrors : Mirrors hosts servers clock issued books ideal client)
    (hwithin : call.Within servers.length) (haffords : client.Affords call)
    (hwaits : client.effort hosts + hosts.price * call.octets < Network.pollLimit client.net)
    (htime : hosts.onTime (client.answer call).2.net) :
    Follows hosts servers clock ideal client call := by
  cases call with
  | issue command timeout =>
      exact hmirrors.answer_issue hlawful hsome hwithin haffords hwaits htime
  | flush timeout =>
      exact hmirrors.answer_flush hlawful haffords
        (Nat.lt_of_le_of_lt (Nat.le_add_right _ _) hwaits) htime
  | setBuffering buffering => exact hmirrors.answer_setBuffering buffering
  | _ => exact hwithin.elim

/-! ## Conversations -/

/-- How many octets calls queue. -/
def octetsOf (calls : List Call) : Nat :=
  (calls.map Call.octets).sum

/-- Calls that have time for what they wait for, one after the other. -/
def Client.AffordsAll (client : Client ω) : List Call → Prop
  | [] => True
  | call :: calls => client.Affords call ∧ (client.answer call).2.AffordsAll calls

/-- Calls are a sequence of operations on the network. -/
theorem Client.leads_converse (client : Client ω) (calls : List Call) :
    Network.Leads client.net (client.converse calls).2.net := by
  induction calls generalizing client with
  | nil => exact .refl
  | cons call calls ih =>
      obtain ⟨incidents, hsteps⟩ := client.steps_perform call
      have hfirst := hsteps.leads
      rw [← answer_snd] at hfirst
      exact hfirst.trans (ih _)

/-- **Calls have the answers of the ideal client**, if the clock tells when the servers executed
their requests. -/
theorem Mirrors.converse {calls : List Call} {limit : Nat} (hlawful : hosts.Lawful servers)
    (hsome : servers ≠ []) (hlimit : ∀ later : ω, limit ≤ Network.pollLimit later)
    (hmirrors : Mirrors hosts servers clock issued books ideal client)
    (hwithin : ∀ call ∈ calls, call.Within servers.length) (haffords : client.AffordsAll calls)
    (hwaits : client.effort hosts + hosts.price * octetsOf calls < limit)
    (htime : hosts.onTime (client.converse calls).2.net)
    (hclock : hosts.Times clock (client.converse calls).2.net) :
    hosts.Extends client.net (client.converse calls).2.net ∧
      ideal.converse clock client.pool.serverOf calls = some (client.converse calls).1 := by
  induction calls generalizing client ideal issued books with
  | nil => exact ⟨.refl _, rfl⟩
  | cons call calls ih =>
      have hoctets : octetsOf (call :: calls) = call.octets + octetsOf calls := List.sum_cons
      rw [hoctets, Nat.mul_add, ← Nat.add_assoc] at hwaits
      have htime' : hosts.onTime (client.answer call).2.net :=
        hlawful.onTime ((client.answer call).2.leads_converse calls) htime
      obtain ⟨issued', books', answer, next, hideal, hmirrors', honward, heffort, hsame⟩ :=
        hmirrors.answer hlawful hsome (hwithin call List.mem_cons_self) haffords.1
          (Nat.lt_of_lt_of_le (Nat.lt_of_le_of_lt (Nat.le_add_right _ _) hwaits) (hlimit _)) htime'
      obtain ⟨honward', hrest⟩ := ih hmirrors'
        (fun other hmem => hwithin other (List.mem_cons_of_mem _ hmem)) haffords.2 (by omega) htime
        hclock
      have hroute : (client.answer call).2.pool.serverOf = client.pool.serverOf :=
        Pool.serverOf_congr (hmirrors'.ring.trans hmirrors.ring.symm)
          (hmirrors'.serves.lists.length.trans hmirrors.serves.lists.length.symm)
      refine ⟨honward.trans honward', ?_⟩
      rw [hroute] at hrest
      rw [Ideal.converse, hideal]
      show (next.converse clock client.pool.serverOf calls).bind _ = _
      rw [hrest, ← hsame (hclock.of_extends honward')]
      rfl

end Mirrors

/-! ## The start -/

section Start

variable {ω : Type} [Network ω] {hosts : Hosts ω} {net : ω} {config : Config}
  {servers : List ServerAddress} {start : Client ω}

/-- Before the first call the client corresponds to the ideal client. -/
theorem mirrors_start (hconfig : Client.withConfig net config = .ok start)
    (haddresses : config.addresses = .ok servers)
    (hunused : ∀ index, hosts.channel net index = none) (clock : Nat → Nat → Nat) :
    servers ≠ [] ∧ start.net = net ∧ start.effort hosts
        = hosts.patience net + hosts.price * servers.length ∧
      Mirrors hosts servers clock (fun _ => []) .empty (.start hosts.store config.buffering)
        start := by
  have hagrees := Client.agrees_withConfig hconfig
  obtain ⟨listed, log, hlisted, hsome, hdistinct, htimeouts, rfl⟩ := Client.withConfig_cases hconfig
  rw [haddresses] at hlisted
  cases hlisted
  -- no link is taken over, as there was none before
  have hfresh : ∀ link ∈ (Pool.place [] 0 0 servers).1,
      ∃ token, link = Link.make link.server token := by
    intro link hmem
    rcases Pool.mem_place hmem with ⟨old, hnone, -⟩ | ⟨token, -, -, hlink⟩
    · cases hnone
    · exact ⟨token, hlink⟩
  have hlists : Lists servers (Pool.place [] 0 0 servers).1 := Pool.servers_place [] 0 0 servers
  have hio : 0 < config.timeouts.connect ∧ 0 < config.timeouts.io := by
    unfold Timeouts.validate at htimeouts
    split at htimeouts
    · cases htimeouts
    · split at htimeouts
      · cases htimeouts
      · exact ⟨by omega, by omega⟩
  refine ⟨hsome, rfl, ?_, ?_⟩
  · have hwork : workOf (Pool.place [] 0 0 servers).1 = servers.length := by
      rw [← hlists.length, workOf, List.map_congr_left (g := fun _ => 1)]
      · simp
      · intro link hmem
        obtain ⟨token, hlink⟩ := hfresh link hmem
        rw [hlink]
        rfl
    show hosts.price * workOf (Pool.place [] 0 0 servers).1 + hosts.patience net = _
    rw [hwork, Nat.add_comm]
  · refine ⟨⟨hlists, Pool.nodup_place List.nodup_nil ?_ hdistinct,
      fun link hmem => ⟨0, .untouched (hunused _) ?_⟩, fun link _ => .inl fun channel hchannel => ?_,
      ⟨?_, ?_⟩, hio.1⟩, ⟨?_, ?_, ?_, fun hnone => ?_⟩, hagrees, rfl, hio.2, rfl, rfl, rfl,
      fun _ => rfl, fun _ => rfl, .nil⟩
    · intro _ hnone
      cases hnone
    · obtain ⟨token, hlink⟩ := hfresh link hmem
      rw [hlink]
      exact ⟨rfl, rfl, rfl, rfl, rfl, rfl, rfl⟩
    · cases (hunused link.server.index).symm.trans hchannel
    · intro _ hnone
      cases hnone
    · intro _ hnone
      cases hnone
    · intro _ _ hnone
      cases hnone
    · intro _ _ hnone
      cases hnone
    · intro _ _ hnone
      cases hnone
    · cases hnone

/-- **A client refines the stores of its servers.** Let every listed server be a store that
executes whole requests in the order of their arrival and sends back its responses in order, over
channels that carry octets in any pieces, with any delays that no deadline notices and with any
interruptions.  Then any data operations within the limits of the protocol, direct or buffered,
with any flushes and changes of the mode between them, each with time for what it waits for,
return what they would return if the store of every server executed its commands one by one in
the order of issue: a direct command its own result, a flush those of the commands that were
held back. -/
theorem refines_stores {calls : List Call} (haddresses : config.addresses = .ok servers)
    (hlawful : hosts.Lawful servers) (hconfig : Client.withConfig net config = .ok start)
    (hunused : ∀ index, hosts.channel net index = none)
    (hwithin : ∀ call ∈ calls, call.Within servers.length) (haffords : start.AffordsAll calls)
    (hwaits : ∀ later : ω, hosts.patience net
      + hosts.price * (servers.length + octetsOf calls) < Network.pollLimit later)
    (htime : hosts.onTime (start.converse calls).2.net) :
    (Ideal.start hosts.store config.buffering).converse
        (hosts.clock (start.converse calls).2.net) start.pool.serverOf calls
      = some (start.converse calls).1 := by
  obtain ⟨hsome, hnet, heffort, hmirrors⟩ := mirrors_start hconfig haddresses hunused
    (hosts.clock (start.converse calls).2.net)
  refine (hmirrors.converse hlawful hsome (fun later => Nat.succ_le_of_lt (hwaits later)) hwithin
    haffords ?_ htime (hosts.times_clock _)).2
  rw [heffort, Nat.mul_add]
  omega

/-- The conversation on a rack goes as it does with an ideal client. -/
theorem refines_stores_rack :
    (Ideal.start (fun _ => Rack.shelf) false).converse
        (Rack.hosts.clock (Rack.opened.converse Rack.conversation).2.net)
        Rack.opened.pool.serverOf Rack.conversation
      = some (Rack.opened.converse Rack.conversation).1 := by
  have hwaits : 0 + 1 * (1 + octetsOf Rack.conversation) < 1000 := by decide +kernel
  have htime : (Rack.opened.converse Rack.conversation).2.net.isStuck = false := by decide +kernel
  have haffords : Rack.opened.AffordsAll Rack.conversation :=
    ⟨nofun, trivial, nofun, nofun, nofun, nofun, trivial⟩
  exact refines_stores Rack.addresses_default Rack.lawful_home Rack.withConfig_opened
    (fun _ => ite_self none) Rack.within_conversation haffords (fun _ => hwaits) htime

end Start

end CachePool

/-
# Commands that are confirmed

What it means that a run of the command line ends without an error.  With buffering off its
command was sent and the server answered it, without an error, and what is printed is told by
the reply.  With buffering on, which only a configuration file can ask for, the command is
queued and nothing is sent at all: such a run succeeds for most commands, too, and two of
them even print that they were carried out.

* `Trace.Confirms` : replies without an error confirm a command;
* `Client.Reaches.confirms` : a call that gives an output was confirmed;
* `Command.shown?`, `Command.queuedText` : what is printed for a command;
* `CommandLine.perform_eq` : a run of the command line makes the call its arguments stand for;
* `CommandLine.run_confirms` : what a run that succeeds rests on.
-/
import CachePool.CommandLine.Run
import CachePool.Proofs.Replies

namespace CachePool

/-! ## Replies without an error -/

/-- An output is computed from a reply without an error. -/
theorem Slot.noError_of_final {slot : Slot} {response : Response} {output : Output}
    (haccept : slot.accept response = .final (.ok output)) : response.status = .noError := by
  unfold accept at haccept
  split at haccept
  · cases haccept
  · rename_i hsuccess
    simpa [Status.isSuccess] using hsuccess

/-- No reply to a command that ends with an output is an error. -/
theorem Slot.noError_of_outcome? {slot : Slot} {responses : List Response} {output : Output}
    (houtcome : slot.outcome? responses = some (.ok output)) :
    ∀ response ∈ responses, response.status = .noError := by
  induction responses generalizing slot with
  | nil => exact fun _ hmem => nomatch hmem
  | cons response responses ih =>
      rw [outcome?] at houtcome
      cases haccept : slot.accept response with
      | more next =>
          rw [haccept] at houtcome
          obtain ⟨-, hsuccess, -, -⟩ := accept_more haccept
          exact List.forall_mem_cons.mpr ⟨by simpa [Status.isSuccess] using hsuccess, ih houtcome⟩
      | final result =>
          rw [haccept] at houtcome
          dsimp only at houtcome
          split at houtcome
          · rename_i hnone
            rw [hnone]
            cases houtcome
            exact List.forall_mem_singleton.mpr (noError_of_final haccept)
          · cases houtcome

namespace Trace

/-- A reply without an error was given to a command.  The peer of its line had read the command
by then, the reply is the first frame of the line that was given to no command before, and it
carries the tag and the opcode of the command. -/
def Grants (trace : Trace) (line : Line) (ticket : Ticket) (response : Response) : Prop :=
  ∃ before after : Trace, trace = before ++ .answered line ticket.slot.seq response :: after ∧
    ticket.request ∈ before.requests line ∧
    (before.answers line).map (·.2) ++ [response] <+: before.replies line ∧
    response.tag = ticket.request.tag ∧ response.opcode = ticket.request.opcode ∧
    response.status = .noError

/-- A command was confirmed: it ended with an output that is computed from its replies, and
there were some, all without an error. -/
def Confirms (trace : Trace) (ticket : Ticket) (output : Output) : Prop :=
  ∃ (before after : Trace) (finished : Finished) (line : Line),
    trace = before ++ .ended finished :: after ∧
    finished.slot.original = ticket.slot ∧ finished.result = .ok output ∧
    ticket.slot.outcome? (before.answersTo line ticket.slot.seq) = some (.ok output) ∧
    before.answersTo line ticket.slot.seq ≠ [] ∧
    ∀ response ∈ before.answersTo line ticket.slot.seq, before.Grants line ticket response

variable {trace before : Trace} {line : Line}

/-- A reply to a command was given to it in some incident. -/
theorem mem_of_mem_answersTo {seq : Nat} {response : Response}
    (hmem : response ∈ trace.answersTo line seq) : .answered line seq response ∈ trace := by
  obtain ⟨answer, hanswer, rfl⟩ := List.mem_map.mp hmem
  obtain ⟨hanswer, hseq⟩ := List.mem_filter.mp hanswer
  obtain ⟨incident, hincident, hgiven⟩ := List.mem_flatMap.mp hanswer
  cases incident with
  | answered other place response =>
      by_cases hline : other = line
      · rw [Incident.answers, if_pos hline, List.mem_singleton] at hgiven
        subst hline hgiven
        rw [← of_decide_eq_true hseq]
        exact hincident
      · rw [Incident.answers, if_neg hline] at hgiven
        cases hgiven
  | _ => cases hgiven

/-- The peer of a line has read a command when a reply is given to it. -/
theorem Matched.requested {response : Response} {done others : List Ticket} {ticket : Ticket}
    (hmatched : before.Matched line response done ticket others)
    (hvalid : ∀ ticket ∈ before.tickets, ticket.Valid) : ticket.request ∈ before.requests line := by
  obtain ⟨more, htaken⟩ := hmatched.written
  have hread := Link.read_frames (fun other hmem => hvalid other (hmatched.order.subset hmem))
    (show Request.kind.decode [] = .ok .incomplete from rfl)
  rw [List.append_nil] at hread
  have hleads := (Request.kind.frames_append (frames (done ++ ticket :: others)) more).map (·.1)
  rw [hread.1, htaken] at hleads
  exact hleads.subset (List.mem_map.mpr ⟨ticket, by simp, rfl⟩)

end Trace

/-! ## Calls that give an output -/

/-- Results are kept for a flush just where buffering is on. -/
theorem Ledger.delivery_eq_buffered {ledger : Ledger} :
    ledger.delivery = .buffered ↔ ledger.buffering = true := by
  unfold delivery
  split <;> simp_all

namespace Client

variable {ω : Type} [Network ω]

section History

variable {timeouts : Timeouts} {buffering : Bool} {net : ω} {client : Client ω}

/-- A place in the order of issue is that of one command. -/
theorem Reaches.eq_of_seq {before after : Trace}
    (hreach : (blank timeouts buffering net).Reaches (before ++ after) client)
    {ticket other : Ticket} (hticket : ticket ∈ Trace.tickets (before ++ after))
    (hother : other ∈ before.tickets) (hseq : other.slot.seq = ticket.slot.seq) :
    other = ticket :=
  List.inj_on_of_nodup_map hreach.ordered.nodup (Trace.tickets_subset _ _ hother) hticket hseq

/-- A reply without an error that was given to a command belongs to it. -/
theorem Reaches.grants {before after : Trace} {line : Line}
    (hreach : (blank timeouts buffering net).Reaches (before ++ after) client)
    {ticket : Ticket} (hticket : ticket ∈ Trace.tickets (before ++ after)) {response : Response}
    (hgiven : response ∈ before.answersTo line ticket.slot.seq)
    (hstatus : response.status = .noError) : before.Grants line ticket response := by
  obtain ⟨first, later, rfl⟩ := List.append_of_mem (Trace.mem_of_mem_answersTo hgiven)
  rw [List.append_assoc, List.cons_append] at hreach hticket
  obtain ⟨done, matched, others, hplace, hmatched⟩ := hreach.founded.of_split
  rw [List.nil_append] at hmatched
  obtain rfl : matched = ticket :=
    hreach.eq_of_seq hticket (hmatched.order.subset (by simp)) hplace
  have hvalid : ∀ other ∈ Trace.tickets first, other.Valid :=
    fun other hmem => hreach.ordered.valid other (Trace.tickets_subset _ _ hmem)
  have hown := hreach.ordered.valid matched hticket
  exact ⟨first, later, rfl, hmatched.requested hvalid, hmatched.next,
    hmatched.tag.trans hown.tag.symm, hmatched.opcode.trans hown.opcode.symm, hstatus⟩

/-- **A command whose output waits to be collected was confirmed.** -/
theorem Reaches.confirms {trace : Trace}
    (hreach : (blank timeouts buffering net).Reaches trace client) {ticket : Ticket}
    (hticket : ticket ∈ trace.tickets) {output : Output}
    (hkept : (ticket.slot.seq, .ok output) ∈ client.ledger.direct) :
    trace.Confirms ticket output := by
  obtain ⟨finished, hended, hseq, hresult⟩ := hreach.kept.1 _ hkept
  obtain ⟨before, after, rfl⟩ := List.append_of_mem (Trace.mem_endings.mp hended)
  have hresults := hreach.founded.of_split
  rw [List.nil_append, Incident.Founded, hresult] at hresults
  obtain ⟨line, other, hother, hslot, houtcome⟩ := hresults (.ok output)
  obtain rfl : other = ticket := hreach.eq_of_seq hticket hother (by rw [hslot]; exact hseq)
  refine ⟨before, after, finished, line, rfl, hslot.symm, hresult, houtcome, ?_, ?_⟩
  · intro hnone
    rw [hnone] at houtcome
    cases houtcome
  · intro response hresponse
    exact hreach.grants hticket hresponse (Slot.noError_of_outcome? houtcome response hresponse)

end History

/-- **A call that gives an output was confirmed.** -/
theorem issue_confirms {net : ω} {config : Config} {start client : Client ω} {trace : Trace}
    {command : Command} {timeout : Option Nat} {output : Output}
    (hconfig : withConfig net config = .ok start) (hbefore : start.Steps trace client)
    (hissue : (client.issue command timeout).1 = .ok (.ready output)) :
    ∃ incidents, start.Steps (trace ++ incidents) (client.issue command timeout).2 ∧
      (trace ++ incidents).Confirms (client.nextTicket command) output := by
  obtain ⟨incidents, driven, hsteps, hcollected, hkept⟩ :=
    issue_steps (.ok output) (show _ = (Except.ok output).map Reply.ready from hissue)
  have hdriven := hbefore.append hsteps
  refine ⟨.issued (client.nextTicket command) :: incidents, ?_, ?_⟩
  · have hend := hdriven.tail hcollected
    rwa [List.append_nil] at hend
  · refine (reaches_withConfig hconfig (Reaches.start.steps hdriven)).confirms ?_ hkept
    rw [List.nil_append, Trace.tickets_append]
    exact List.mem_append_right _ (List.mem_append_left _ (List.mem_singleton_self _))

/-- A command that is only queued is accepted, and nothing else happens. -/
theorem issue_queues {client : Client ω} {command : Command} {timeout : Option Nat}
    (hissue : (client.issue command timeout).1 = .ok .buffered) :
    client.Step [.issued (client.nextTicket command)] (client.issue command timeout).2 ∧
      (client.issue command timeout).2.net = client.net := by
  rcases issue_cases client command timeout with
    ⟨error, -, hrefused⟩ | ⟨server, seq, delivery, queued, hqueue, ⟨-, hqueued⟩ | ⟨-, hawait⟩⟩
  · rw [hrefused] at hissue
    cases hissue
  · rw [hqueued]
    obtain ⟨front, link, back, -, -, -, -, hafter⟩ := queue_cases hqueue
    exact ⟨.queued hqueue, by rw [hafter]⟩
  · rw [hawait] at hissue
    exact absurd hissue (await_cases queued seq _).1

/-- Commands are queued just where buffering is on. -/
theorem buffering_of_issue {client : Client ω} {command : Command} {timeout : Option Nat}
    {reply : Reply Output} (hissue : (client.issue command timeout).1 = .ok reply) :
    client.ledger.buffering = true ↔ reply = .buffered := by
  rcases issue_cases client command timeout with
    ⟨error, -, hrefused⟩ | ⟨server, seq, delivery, queued, hqueue, hend⟩
  · rw [hrefused] at hissue
    cases hissue
  obtain ⟨_, _, _, -, -, -, rfl, -⟩ := queue_cases hqueue
  rw [← Ledger.delivery_eq_buffered]
  rcases hend with ⟨hdelivery, hqueued⟩ | ⟨hdelivery, hawait⟩
  · rw [hqueued] at hissue
    cases hissue
    exact iff_of_true hdelivery rfl
  · rw [hawait] at hissue
    refine iff_of_false (by rw [hdelivery]; exact nofun) ?_
    rintro rfl
    exact (await_cases queued seq _).1 hissue

end Client

/-! ## What is printed -/

namespace Command

/-- What is printed for the output of a command, if it is of the right shape. -/
def shown? (command : Command) (output : Output) : Option String :=
  match command with
  | get .. => (Client.item? output).map CommandLine.itemText
  | set .. | add .. | replace .. =>
    (Client.storedCas? output).map fun cas => "STORED cas=" ++ Decimal.text cas.toNat ++ "\n"
  | delete _ => (Client.done? output).map fun _ => "DELETED\n"
  | increment .. | decrement .. =>
    (Client.counter? output).map fun value => Decimal.text value.toNat ++ "\n"
  | noop _ => (Client.done? output).map fun _ => "OK\n"
  | version _ =>
    ((Client.item? output).map fun item => Utf8.decodeLossy item.value).map (· ++ "\n")
  | stat .. => (Client.stats? output).map CommandLine.statsText

/-- What is printed for a command that is only queued, or why it fails. -/
def queuedText : Command → Except CommandLine.CommandError String
  | get .. | stat .. => .error .commandBuffered
  | delete _ => .ok "DELETED\n"
  | noop _ => .ok "OK\n"
  | _ => .ok ""

end Command

/-! ## A script and a configuration file -/

namespace Script

/-- A network on which the reply to the first command comes at once. -/
def ponging : Script where
  clock := 0
  reads := [.data pong.frame]
  waits := [.ready [{ token := 0, readable := true, writable := true }],
    .ready [{ token := 0, readable := true, writable := true }]]

/-- No files. -/
def noFiles : CommandLine.Files :=
  fun _ => .error (.other "no files")

/-- A configuration file that turns buffering on. -/
def bufferingFile : CommandLine.Files :=
  fun _ => .ok "\x7b\"buffering\":true\x7d"

/-- The arguments of a removal with buffering on. -/
def bufferedDelete : CommandLine.Arguments :=
  { CommandLine.Arguments.none with
    config := { Config.default with buffering := true }
    words := ["delete", "k"] }

end Script

namespace CommandLine

/-! ## The call that arguments stand for -/

namespace Arguments

/-- A command that stores the value of a key. -/
def storing (arguments : Arguments) (command : Bytes → Bytes → StoreParameters → Command) :
    Except CommandError Command := do
  let key ← arguments.parameter 0 "KEY"
  let value ← arguments.parameter 1 "VALUE"
  return command (.ofString key) (.ofString value) arguments.store

/-- A command that counts on a key. -/
def counting (arguments : Arguments) (command : Bytes → CountParameters → Command) :
    Except CommandError Command := do
  let key ← arguments.parameter 0 "KEY"
  let delta ← arguments.number 1 1
  let initial ← arguments.number 2 0
  return command (.ofString key)
    { delta := UInt64.ofNat delta, initial := UInt64.ofNat initial
      expiration := arguments.store.expiration }

/-- The command that arguments stand for. -/
def call (arguments : Arguments) : Except CommandError Command :=
  match arguments.command with
  | "get" => do
    let key ← arguments.parameter 0 "KEY"
    return .get (.ofString key) { flags := true, cas := true }
  | "set" => arguments.storing .set
  | "add" => arguments.storing .add
  | "replace" => arguments.storing .replace
  | "delete" => do
    let key ← arguments.parameter 0 "KEY"
    return .delete (.ofString key)
  | "incr" => arguments.counting .increment
  | "decr" => arguments.counting .decrement
  | "noop" => do
    let server ← arguments.number 0 0
    return .noop server
  | "version" => do
    let server ← arguments.number 0 0
    return .version server
  | "stat" => do
    let server ← arguments.number 1 0
    return .stat (arguments.parameters.headD "") server
  | other => .error (.unknownCommand other)

end Arguments

section Calls

variable {ω : Type}

/-- What is printed for the outcome of a command: what its output is shown as, or what is
printed when it is only queued. -/
def announce (opcode : Opcode) (shown? : Output → Option String)
    (queued : Except CommandError String) (outcome : Except ClientError (Reply Output) × Client ω) :
    Except CommandError String × Client ω :=
  match outcome with
  | (.error error, client) => (.error (.client error), client)
  | (.ok .buffered, client) => (queued, client)
  | (.ok (.ready output), client) =>
    match shown? output with
    | some text => (.ok text, client)
    | none => (.error (.client (.protocol (.unexpectedReply opcode))), client)

/-- Reading the output of a command and printing it. -/
theorem present_readReply {α : Type} (ready : α → String) (queued : Except CommandError String)
    (opcode : Opcode) (extract : Output → Option α)
    (outcome : Except ClientError (Reply Output) × Client ω) :
    present ready queued (Client.readReply opcode extract outcome)
      = announce opcode (fun output => (extract output).map ready) queued outcome := by
  rcases outcome with ⟨error | output | _, client⟩
  · rfl
  · unfold Client.readReply announce
    dsimp only
    cases extract output <;> rfl
  · rfl

/-- Whatever is printed, the client is that after the command. -/
theorem snd_announce (opcode : Opcode) (shown? : Output → Option String)
    (queued : Except CommandError String)
    (outcome : Except ClientError (Reply Output) × Client ω) :
    (announce opcode shown? queued outcome).2 = outcome.2 := by
  unfold announce
  repeat' split
  all_goals rfl

/-- Texts are printed for outputs that can be shown and for commands that are queued. -/
theorem announce_ok {opcode : Opcode} {shown? : Output → Option String}
    {queued : Except CommandError String}
    {outcome : Except ClientError (Reply Output) × Client ω} {text : String}
    (hannounce : (announce opcode shown? queued outcome).1 = .ok text) :
    (∃ output, outcome.1 = .ok (.ready output) ∧ shown? output = some text) ∨
      outcome.1 = .ok .buffered ∧ queued = .ok text := by
  unfold announce at hannounce
  split at hannounce
  · cases hannounce
  · exact .inr ⟨rfl, hannounce⟩
  · rename_i output client
    split at hannounce
    · rename_i shown hshown
      cases hannounce
      exact .inl ⟨output, rfl, hshown⟩
    · cases hannounce

/-- A parameter that is needed first. -/
theorem given_bind {α β : Type} (value : Except CommandError α)
    (more : α → Except CommandError β) (client : Client ω)
    (carryOn : β → Except CommandError String × Client ω) :
    given (value >>= more) client carryOn
      = given value client fun first => given (more first) client carryOn := by
  cases value <;> rfl

variable [Network ω]

/-- Issues a command and tells what is printed for its outcome. -/
def carryOut (client : Client ω) (timeout : Option Nat) (command : Command) :
    Except CommandError String × Client ω :=
  announce command.request.opcode command.shown? command.queuedText (client.issue command timeout)

/-- Carrying on with one parameter is a command, if it is for every parameter. -/
theorem given_eq {α : Type} {value : Except CommandError α} {client : Client ω}
    {timeout : Option Nat} {command : α → Command}
    {carryOn : α → Except CommandError String × Client ω}
    (hcall : ∀ first, carryOn first = carryOut client timeout (command first)) :
    given value client carryOn
      = given (value >>= fun first => pure (command first)) client (carryOut client timeout) := by
  rw [given_bind]
  exact congrArg (given value client) (funext hcall)

/-- Storing a value is a command. -/
theorem performStore_eq {arguments : Arguments} {client : Client ω}
    {call : Bytes → Bytes → StoreParameters → Option Nat →
      Except ClientError (Reply UInt64) × Client ω}
    {command : Bytes → Bytes → StoreParameters → Command}
    (hcall : ∀ key value, present (fun cas => "STORED cas=" ++ Decimal.text cas.toNat ++ "\n")
        (.ok "") (call key value arguments.store arguments.timeout)
      = carryOut client arguments.timeout (command key value arguments.store)) :
    performStore arguments client call
      = given (arguments.storing command) client (carryOut client arguments.timeout) := by
  unfold performStore Arguments.storing
  rw [given_bind]
  exact congrArg (given _ client) (funext fun key => given_eq fun value => hcall _ _)

/-- Counting is a command. -/
theorem performCount_eq {arguments : Arguments} {client : Client ω}
    {call : Bytes → CountParameters → Option Nat →
      Except ClientError (Reply UInt64) × Client ω}
    {command : Bytes → CountParameters → Command}
    (hcall : ∀ key parameters, present (fun value => Decimal.text value.toNat ++ "\n") (.ok "")
        (call key parameters arguments.timeout)
      = carryOut client arguments.timeout (command key parameters)) :
    performCount arguments client call
      = given (arguments.counting command) client (carryOut client arguments.timeout) := by
  unfold performCount Arguments.counting
  simp only [given_bind, hcall]
  rfl

/-- **A run of the command line makes the call its arguments stand for**, and prints what it
gives. -/
theorem perform_eq (arguments : Arguments) (client : Client ω) :
    perform arguments client
      = given arguments.call client (carryOut client arguments.timeout) := by
  unfold perform Arguments.call
  generalize arguments.command = word
  split
  · exact given_eq fun key => present_readReply _ _ _ _ _
  · exact performStore_eq fun key value => present_readReply _ _ _ _ _
  · exact performStore_eq fun key value => present_readReply _ _ _ _ _
  · exact performStore_eq fun key value => present_readReply _ _ _ _ _
  · exact given_eq fun key => present_readReply _ _ _ _ _
  · exact performCount_eq fun key parameters => present_readReply _ _ _ _ _
  · exact performCount_eq fun key parameters => present_readReply _ _ _ _ _
  · exact given_eq fun server => present_readReply _ _ _ _ _
  · exact given_eq fun server => present_readReply _ _ _ _ _
  · exact given_eq fun server => present_readReply _ _ _ _ _
  · simp only [given, *]

/-- A text is printed only for arguments that stand for a command. -/
theorem perform_ok {arguments : Arguments} {client : Client ω} {text : String}
    (hperform : (perform arguments client).1 = .ok text) :
    ∃ command, arguments.call = .ok command ∧
      perform arguments client = carryOut client arguments.timeout command := by
  rw [perform_eq] at hperform ⊢
  cases hcall : arguments.call with
  | error error =>
      rw [hcall] at hperform
      cases hperform
  | ok command => exact ⟨command, rfl, rfl⟩

end Calls

/-! ## Runs that succeed -/

deriving instance DecidableEq for Arguments, Instruction

/-- A run succeeds with the text of its outcome. -/
theorem Report.ofOutcome_eq_success {outcome : Except CommandError String} {text : String} :
    Report.ofOutcome outcome = .success text ↔ outcome = .ok text := by
  cases outcome with
  | error error =>
      refine iff_of_false (fun hsuccess => ?_) nofun
      cases congrArg Report.exitCode hsuccess
  | ok output =>
      refine ⟨fun hsuccess => ?_, fun hsame => by cases hsame; rfl⟩
      exact congrArg Except.ok (congrArg Report.output hsuccess)

section Runs

variable {ω : Type} [Network ω] {net : ω} {arguments : Arguments} {printed : String}

/-- The command of given arguments is carried out and confirmed, and what is printed is its
output. -/
def Confirmed (net : ω) (arguments : Arguments) (printed : String) : Prop :=
  ∃ start command trace output,
    Client.withConfig net arguments.config = .ok start ∧ arguments.call = .ok command ∧
    start.Steps trace (perform arguments (start.withSink .discard)).2 ∧
    trace.Confirms (start.nextTicket command) output ∧ command.shown? output = some printed

/-- The command of given arguments is accepted, and that is all that happens. -/
def Queued (net : ω) (arguments : Arguments) (printed : String) : Prop :=
  ∃ start command,
    Client.withConfig net arguments.config = .ok start ∧ arguments.call = .ok command ∧
    start.Steps [.issued (start.nextTicket command)]
      (perform arguments (start.withSink .discard)).2 ∧
    command.queuedText = .ok printed

/-- A command that is only queued is not confirmed, whatever is printed. -/
theorem Queued.not_confirmed (hqueued : Queued net arguments printed) (text : String) :
    ¬ Confirmed net arguments text := by
  obtain ⟨start, command, hconfig, hcall, hqueue, -⟩ := hqueued
  rintro ⟨start', command', trace, output, hconfig', hcall', hsteps, hconfirms, -⟩
  obtain rfl : start = start' := Except.ok.inj (hconfig.symm.trans hconfig')
  obtain rfl : command = command' := Except.ok.inj (hcall.symm.trans hcall')
  generalize (perform arguments (start.withSink .discard)).2 = last at hqueue hsteps
  -- the slot of the command waits, so that the command has not ended
  obtain ⟨-, hconserves⟩ := (Client.reaches_withConfig hconfig (.steps .start hqueue)).conserves
  have hwaits : (start.nextTicket command).slot ∈ last.waiting ++ ([] ++ []) :=
    hconserves.subset (List.mem_singleton_self _)
  rw [List.append_nil, List.append_nil] at hwaits
  obtain ⟨before, after, finished, line, rfl, hslot, -⟩ := hconfirms
  have hended : finished ∈ Trace.endings (before ++ .ended finished :: after) :=
    Trace.mem_endings.mpr (List.mem_append_right _ List.mem_cons_self)
  have hplaces := (Client.reaches_withConfig hconfig (.steps .start hsteps)).nodup_places
  rw [List.nil_append] at hplaces
  exact (List.nodup_append.mp hplaces).2.2 _ (List.mem_map_of_mem hwaits) _
    (List.mem_append_left _ (List.mem_map_of_mem hended)) (congrArg Slot.seq hslot).symm

/-- What a run that is not refused before its command does. -/
theorem run_cases (net : ω) (files : Files) (texts : List String) :
    (∃ error, run net files texts = (.failure error, net)) ∨
      (Arguments.read files texts = .ok .usage ∧ run net files texts = (.success usage, net)) ∨
      ∃ arguments start, Arguments.read files texts = .ok (.command arguments) ∧
        Client.withConfig net arguments.config = .ok start ∧
        run net files texts = (.ofOutcome (perform arguments (start.withSink .discard)).1,
          (perform arguments (start.withSink .discard)).2.net) := by
  unfold run
  split
  · exact .inl ⟨_, rfl⟩
  · exact .inr (.inl ⟨‹_›, rfl⟩)
  · split
    · exact .inl ⟨_, rfl⟩
    · exact .inr (.inr ⟨_, _, ‹_›, ‹_›, rfl⟩)

/-- A command that a fresh client carries out without an error is confirmed with buffering off,
and queued with buffering on. -/
theorem confirmed_or_queued {start : Client ω}
    (hconfig : Client.withConfig net arguments.config = .ok start)
    (hperform : (perform arguments (start.withSink .discard)).1 = .ok printed) :
    (arguments.config.buffering = false ∧ Confirmed net arguments printed) ∨
      arguments.config.buffering = true ∧ Queued net arguments printed ∧
        (perform arguments (start.withSink .discard)).2.net = net := by
  obtain ⟨command, hcall, hcarry⟩ := perform_ok hperform
  rw [hcarry] at hperform
  have hquiet : start.Steps [] (start.withSink .discard) :=
    .single (.move (.noted (.empty .discard)))
  have hlast : (perform arguments (start.withSink .discard)).2
      = ((start.withSink .discard).issue command arguments.timeout).2 := by
    rw [hcarry, carryOut, snd_announce]
  obtain ⟨_, _, -, -, -, -, hstart⟩ := Client.withConfig_cases hconfig
  have hbuffers : (start.withSink .discard).ledger.buffering = arguments.config.buffering := by
    rw [hstart]
    rfl
  rcases announce_ok hperform with ⟨output, hissue, hshown⟩ | ⟨hissue, hqueued⟩
  · obtain ⟨trace, hsteps, hconfirms⟩ := Client.issue_confirms hconfig hquiet hissue
    rw [← hlast] at hsteps
    refine .inl ⟨?_, start, command, trace, output, hconfig, hcall, hsteps, hconfirms, hshown⟩
    rw [← hbuffers]
    exact Bool.eq_false_iff.mpr fun hbuffering =>
      nomatch (Client.buffering_of_issue hissue).mp hbuffering
  · obtain ⟨hstep, hnet⟩ := Client.issue_queues hissue
    have hsteps := hquiet.tail hstep
    rw [← hlast] at hsteps hnet
    refine .inr ⟨?_, ⟨start, command, hconfig, hcall, hsteps, hqueued⟩, ?_⟩
    · rw [← hbuffers]
      exact (Client.buffering_of_issue hissue).mpr rfl
    · rw [hnet, hstart]
      rfl

/-- **A run that succeeds with buffering off has its command confirmed.**  If a run ends without
an error and is not about the help, it prints the output of its command, which was sent, wholly
taken by a socket and answered there without an error.  With buffering on this is not so: the
command is queued, the network is not touched, and no reply confirms what is printed. -/
theorem run_confirms {net : ω} {files : Files} {texts : List String}
    (hsuccess : (run net files texts).1.exitCode = 0) :
    (Arguments.read files texts = .ok .usage ∧ run net files texts = (.success usage, net)) ∨
    ∃ arguments printed, Arguments.read files texts = .ok (.command arguments) ∧
      (run net files texts).1 = .success printed ∧
      (arguments.config.buffering = false → Confirmed net arguments printed) ∧
      (arguments.config.buffering = true →
        Queued net arguments printed ∧ (run net files texts).2 = net ∧
          ¬ Confirmed net arguments printed) := by
  rcases run_cases net files texts with
    ⟨error, hrun⟩ | husage | ⟨arguments, start, hread, hconfig, hrun⟩
  · rw [hrun] at hsuccess
    cases hsuccess
  · exact .inl husage
  rw [hrun] at hsuccess ⊢
  cases hperform : (perform arguments (start.withSink .discard)).1 with
  | error error =>
      rw [hperform] at hsuccess
      cases hsuccess
  | ok printed =>
      refine .inr ⟨arguments, printed, hread, rfl, ?_⟩
      rcases confirmed_or_queued hconfig hperform with
        ⟨hdirect, hconfirmed⟩ | ⟨hbuffering, hqueued, hnet⟩
      · rw [hdirect]
        exact ⟨fun _ => hconfirmed, nofun⟩
      · rw [hbuffering]
        exact ⟨nofun, fun _ => ⟨hqueued, hnet, hqueued.not_confirmed printed⟩⟩

/-- A round trip is confirmed when its reply comes. -/
theorem run_confirms_noop :
    (run Script.ponging Script.noFiles ["noop"]).1.exitCode = 0 ∧
      Confirmed Script.ponging { Arguments.none with words := ["noop"] } "OK\n" := by
  have hreport : (run Script.ponging Script.noFiles ["noop"]).1 = .success "OK\n" := by
    decide +kernel
  have hexit := congrArg Report.exitCode hreport
  have hread : Arguments.read Script.noFiles ["noop"]
      = .ok (.command { Arguments.none with words := ["noop"] }) := rfl
  refine ⟨hexit, ?_⟩
  rcases run_confirms hexit with ⟨husage, -⟩ | ⟨arguments, printed, hsame, hprinted, hconfirmed, -⟩
  · cases hread.symm.trans husage
  · cases hread.symm.trans hsame
    cases congrArg Report.output (hreport.symm.trans hprinted)
    exact hconfirmed rfl

/-- With buffering on a removal is reported that no server confirmed. -/
theorem unconfirmed_delete :
    Arguments.read Script.bufferingFile ["--config", "c", "delete", "k"]
        = .ok (.command Script.bufferedDelete) ∧
      (run (Script.mk 0 [] []) Script.bufferingFile ["--config", "c", "delete", "k"]).1
        = .success "DELETED\n" ∧
      ∀ printed, ¬ Confirmed (Script.mk 0 [] []) Script.bufferedDelete printed := by
  have hread : Arguments.read Script.bufferingFile ["--config", "c", "delete", "k"]
      = .ok (.command Script.bufferedDelete) := by decide +kernel
  have hreport : (run (Script.mk 0 [] []) Script.bufferingFile ["--config", "c", "delete", "k"]).1
      = .success "DELETED\n" := by decide +kernel
  refine ⟨hread, hreport, ?_⟩
  rcases run_cases (Script.mk 0 [] []) Script.bufferingFile ["--config", "c", "delete", "k"] with
    ⟨error, hrun⟩ | ⟨husage, -⟩ | ⟨arguments, start, hsame, hconfig, hrun⟩
  · rw [hrun] at hreport
    cases congrArg Report.exitCode hreport
  · cases hread.symm.trans husage
  · cases hread.symm.trans hsame
    rw [hrun] at hreport
    rcases confirmed_or_queued hconfig (Report.ofOutcome_eq_success.mp hreport) with
      ⟨hdirect, -⟩ | ⟨-, hqueued, -⟩
    · cases hdirect
    · exact hqueued.not_confirmed

end Runs

end CommandLine

end CachePool

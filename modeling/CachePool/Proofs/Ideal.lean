/-
# An ideal client

What a caller sees of a client: the answers of its calls.  Next to the client stands an ideal
one, without links and octets: it has a store for every server, which executes each command at
once when it is issued.

* `Client.answer`, `Client.converse` : what calls return, with what they fetch;
* `Client.ask_eq` : a data operation reads the result of its command;
* `Ideal.perform`, `Ideal.converse` : what the ideal client answers;
* `Command.read_of_outcome` : a result has the shape that its command fetches.
-/
import CachePool.Proofs.Calls
import CachePool.Proofs.Conversation
import CachePool.Store.Basic

namespace CachePool

/-! ## What calls return -/

/-- What a data operation fetches. -/
inductive Value where
  | item (item : Item)
  /-- The version of an item that was stored. -/
  | stored (cas : UInt64)
  | done
  | counter (value : UInt64)
  | text (text : String)
  | stats (stats : Stats)

/-- What a caller gets from a call. -/
inductive Answer where
  | fetched (value : Value)
  | other (outcome : Outcome)

/-- What a command fetches with an output, if it has the shape that the command reads. -/
def Command.read : Command → Output → Option Value
  | .get .., output => (Client.item? output).map .item
  | .set .., output | .add .., output | .replace .., output =>
    (Client.storedCas? output).map .stored
  | .delete _, output | .noop _, output => (Client.done? output).map fun _ => .done
  | .increment .., output | .decrement .., output => (Client.counter? output).map .counter
  | .version _, output =>
    (Client.item? output).map fun item => .text (Utf8.decodeLossy item.value)
  | .stat .., output => (Client.stats? output).map .stats

/-- The answer to a command with a result. -/
def Command.answer? (command : Command) : Except ClientError Output → Option Answer
  | .error error => some (.other (.failed error))
  | .ok output => (command.read output).map .fetched

namespace Client

variable {ω : Type}

/-- A data operation, whatever it fetches. -/
def fetching {α : Type} (value : α → Value)
    (outcome : Except ClientError (Reply α) × Client ω) :
    Except ClientError (Reply Value) × Client ω :=
  match outcome with
  | (.error error, client) => (.error error, client)
  | (.ok .buffered, client) => (.ok .buffered, client)
  | (.ok (.ready fetched), client) => (.ok (.ready (value fetched)), client)

variable [Network ω]

/-- A data operation, with what it fetches. -/
def ask (client : Client ω) (timeout : Option Nat) :
    Command → Except ClientError (Reply Value) × Client ω
  | .get key fields => fetching .item (client.get key fields timeout)
  | .set key value parameters => fetching .stored (client.set key value parameters timeout)
  | .add key value parameters => fetching .stored (client.add key value parameters timeout)
  | .replace key value parameters => fetching .stored (client.replace key value parameters timeout)
  | .delete key => fetching (fun _ => .done) (client.delete key timeout)
  | .increment key parameters => fetching .counter (client.increment key parameters timeout)
  | .decrement key parameters => fetching .counter (client.decrement key parameters timeout)
  | .noop server => fetching (fun _ => .done) (client.noop server timeout)
  | .version server => fetching .text (client.version server timeout)
  | .stat group server => fetching .stats (client.stat group server timeout)

/-- What a call returns. -/
def answer (client : Client ω) : Call → Answer × Client ω
  | .issue command timeout =>
    match client.ask timeout command with
    | (.error error, client) => (.other (.failed error), client)
    | (.ok .buffered, client) => (.other .buffered, client)
    | (.ok (.ready value), client) => (.fetched value, client)
  | call => (.other (client.perform call).1, (client.perform call).2)

/-- What calls return, one after the other. -/
def converse (client : Client ω) : List Call → List Answer × Client ω
  | [] => ([], client)
  | call :: calls =>
    let (answer, client) := client.answer call
    let (answers, client) := client.converse calls
    (answer :: answers, client)

omit [Network ω] in
theorem fetching_readReply {α : Type} (opcode : Opcode) (extract : Output → Option α)
    (value : α → Value) (outcome : Except ClientError (Reply Output) × Client ω) :
    fetching value (readReply opcode extract outcome)
      = readReply opcode (fun output => (extract output).map value) outcome := by
  rcases outcome with ⟨error | output | _, client⟩
  · rfl
  · cases hextract : extract output <;> simp [readReply, fetching, hextract]
  · rfl

/-- A data operation reads the result of its command. -/
theorem ask_eq (client : Client ω) (command : Command) (timeout : Option Nat) :
    client.ask timeout command
      = readReply command.request.opcode command.read (client.issue command timeout) := by
  have hversion : (fun output => ((item? output).map fun item => Utf8.decodeLossy item.value).map
      Value.text) = fun output => (item? output).map fun item =>
        .text (Utf8.decodeLossy item.value) := by
    funext output
    rw [Option.map_map]
    rfl
  cases command with
  | version server =>
      refine (fetching_readReply _ _ _ _).trans ?_
      rw [hversion]
      rfl
  | _ => exact fetching_readReply _ _ _ _

/-- A call changes the client as it does when nobody looks at what it fetches. -/
theorem answer_snd (client : Client ω) (call : Call) :
    (client.answer call).2 = (client.perform call).2 := by
  cases call with
  | issue command timeout =>
      rw [(perform_issue client command timeout).1]
      unfold answer
      dsimp only
      rw [ask_eq]
      rcases client.issue command timeout with ⟨error | output | _, after⟩
      · rfl
      · unfold readReply
        dsimp only
        split
        · rename_i hmatch
          split at hmatch <;> cases hmatch
          rfl
        · rename_i hmatch
          split at hmatch <;> cases hmatch
        · rename_i hmatch
          split at hmatch <;> cases hmatch
          rfl
      · rfl
  | _ => rfl

end Client

/-! ## Calls within limits -/

/-- How many octets a call queues. -/
def Call.octets : Call → Nat
  | .issue command _ => command.request.frameLength
  | _ => 0

/-- A call within the limits of the protocol, to one of some servers: a data operation, a flush
or a change of the mode. -/
def Call.Within (count : Nat) : Call → Prop
  | .issue command _ =>
    command.request.validate = .ok () ∧ ∀ server, command.server? = some server → server < count
  | .flush _ | .setBuffering _ => True
  | _ => False

/-! ## The ideal client -/

/-- A client whose servers execute every command when it is issued. -/
structure Ideal where
  /-- The store of every server. -/
  stores : Nat → Store
  /-- How many commands each server has executed. -/
  executed : Nat → Nat
  /-- How many commands were issued. -/
  issued : Nat
  /-- Whether results are held back for a flush. -/
  buffering : Bool
  /-- The outcomes for the next flush, in the order of issue. -/
  held : List Completion

namespace Ideal

/-- The ideal client before its first call. -/
def start (stores : Nat → Store) (buffering : Bool) : Ideal where
  stores := stores
  executed _ := 0
  issued := 0
  buffering := buffering
  held := []

/-- The request of the next command. -/
def request (ideal : Ideal) (command : Command) : Request :=
  { command.request with tag := UInt32.ofNat ideal.issued }

/-- The slot of the next command, which takes the replies to it. -/
def slot (ideal : Ideal) (command : Command) : Slot where
  seq := ideal.issued
  tag := UInt32.ofNat ideal.issued
  opcode := command.request.opcode
  key := command.request.key
  expect := command.expect
  delivery := if ideal.buffering then .buffered else .direct
  frameLength := command.request.frameLength
  abandoned := false
  stats := []

/-- The responses to the next command, and the store that gave them. -/
def respond (ideal : Ideal) (clock : Nat → Nat → Nat) (server : Nat) (command : Command) :
    List Response × Store :=
  (ideal.stores server).execute (clock server (ideal.executed server)) (ideal.request command)

/-- The ideal client after the next command was executed. -/
def next (ideal : Ideal) (server : Nat) (store : Store) : Ideal :=
  { ideal with
    stores := Function.update ideal.stores server store
    executed := Function.update ideal.executed server (ideal.executed server + 1)
    issued := ideal.issued + 1 }

/-- Issues a command to a server: its result is held back or answered. -/
def issue (ideal : Ideal) (clock : Nat → Nat → Nat) (server : Nat) (command : Command) :
    Option (Answer × Ideal) := do
  let (responses, store) := ideal.respond clock server command
  let result ← (ideal.slot command).outcome? responses
  let after := ideal.next server store
  if ideal.buffering then
    let completion : Completion :=
      { server, opcode := command.request.opcode, key := command.request.key, result }
    return (.other .buffered, { after with held := ideal.held ++ [completion] })
  else
    let answer ← command.answer? result
    return (answer, after)

section Issue

variable {ideal : Ideal} {clock : Nat → Nat → Nat} {server : Nat} {command : Command}
  {result : Except ClientError Output}

theorem issue_buffered (hbuffering : ideal.buffering = true)
    (houtcome : (ideal.slot command).outcome? (ideal.respond clock server command).1
      = some result) :
    ideal.issue clock server command
      = some (.other .buffered, { ideal.next server (ideal.respond clock server command).2 with
          held := ideal.held ++ [{ server, opcode := command.request.opcode
                                   key := command.request.key, result }] }) := by
  unfold issue
  dsimp only
  rw [houtcome]
  show (if ideal.buffering = true then _ else _) = _
  rw [if_pos hbuffering]
  rfl

theorem issue_direct {answer : Answer} (hbuffering : ideal.buffering = false)
    (houtcome : (ideal.slot command).outcome? (ideal.respond clock server command).1
      = some result) (hanswer : command.answer? result = some answer) :
    ideal.issue clock server command
      = some (answer, ideal.next server (ideal.respond clock server command).2) := by
  unfold issue
  dsimp only
  rw [houtcome]
  show (if ideal.buffering = true then _ else _) = _
  rw [hbuffering, if_neg Bool.false_ne_true, hanswer]
  rfl

end Issue

/-- Makes a call; a server executes the command at a place in its order at the time that a clock
tells, and a command without a server of its own is routed. -/
def perform (ideal : Ideal) (clock : Nat → Nat → Nat) (route : Command → Option Nat) :
    Call → Option (Answer × Ideal)
  | .issue command _ => do
    let server ← route command
    ideal.issue clock server command
  | .flush _ => some (.other (.flushed ideal.held), { ideal with held := [] })
  | .setBuffering buffering => some (.other .done, { ideal with buffering })
  | _ => none

/-- The answers to calls, one after the other. -/
def converse (ideal : Ideal) (clock : Nat → Nat → Nat) (route : Command → Option Nat) :
    List Call → Option (List Answer)
  | [] => some []
  | call :: calls => do
    let (answer, after) ← ideal.perform clock route call
    let answers ← after.converse clock route calls
    return answer :: answers

end Ideal

/-! ## Shapes of results -/

/-- A result has the shape that its command reads. -/
theorem Command.read_of_outcome {command : Command} {slot : Slot} {responses : List Response}
    {output : Output} (hexpect : slot.expect = command.expect)
    (houtcome : slot.outcome? responses = some (.ok output)) :
    ∃ value, command.read output = some value := by
  induction responses generalizing slot with
  | nil => cases houtcome
  | cons response responses ih =>
      rw [Slot.outcome?] at houtcome
      split at houtcome
      · rename_i more haccept
        obtain ⟨-, -, -, hmore⟩ := Slot.accept_more haccept
        exact ih (by rw [hmore]; exact hexpect) houtcome
      · rename_i result haccept
        split at houtcome
        · cases houtcome
          unfold Slot.accept at haccept
          rw [hexpect] at haccept
          cases command with
          | _ =>
              simp only [Command.expect] at haccept
              repeat' split at haccept
              all_goals cases haccept
              all_goals exact ⟨_, rfl⟩
        · cases houtcome

/-- Every result of a command has an answer. -/
theorem Command.answer?_of_outcome {command : Command} {slot : Slot} {responses : List Response}
    {result : Except ClientError Output} (hexpect : slot.expect = command.expect)
    (houtcome : slot.outcome? responses = some result) :
    ∃ answer, command.answer? result = some answer := by
  cases result with
  | error error => exact ⟨_, rfl⟩
  | ok output =>
      obtain ⟨value, hvalue⟩ := Command.read_of_outcome hexpect houtcome
      exact ⟨.fetched value, by rw [answer?, hvalue]; rfl⟩

/-- What a data operation answers whose command has a result. -/
theorem Client.answer_issue {ω : Type} [Network ω] {client after : Client ω} {command : Command}
    {timeout : Option Nat} {result : Except ClientError Output} {answer : Answer}
    (hissue : client.issue command timeout = (result.map .ready, after))
    (hanswer : command.answer? result = some answer) :
    client.answer (.issue command timeout) = (answer, after) := by
  unfold Client.answer
  dsimp only
  rw [ask_eq, hissue]
  cases result with
  | error error =>
      cases hanswer
      rfl
  | ok output =>
      rw [Command.answer?] at hanswer
      cases hread : command.read output with
      | none =>
          rw [hread] at hanswer
          cases hanswer
      | some value =>
          rw [hread] at hanswer
          cases hanswer
          unfold readReply
          dsimp only [Except.map]
          rw [hread]

/-- What a data operation answers whose command is held back. -/
theorem Client.answer_buffered {ω : Type} [Network ω] {client after : Client ω} {command : Command}
    {timeout : Option Nat} (hissue : client.issue command timeout = (.ok .buffered, after)) :
    client.answer (.issue command timeout) = (.other .buffered, after) := by
  unfold Client.answer
  dsimp only
  rw [ask_eq, hissue]
  rfl

end CachePool

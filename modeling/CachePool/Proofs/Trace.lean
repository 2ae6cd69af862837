/-
# Traces

What happens to a client, one incident after the other, as the theorems about whole
histories see it: commands accepted, octets that pass its sockets, replies given to
commands, and commands that end.

A socket is known as a `Line`: the link that opened it and the number of the
connect.  A command is known by its place in the order of issue, and its `Ticket`
keeps what was queued for it.  The projections of a trace read off what passed one
line (`taken`, `sent`, `given`, `answers`) and what became of the commands
(`tickets`, `endings`, `drops`).
-/
import CachePool.Client.Calls

namespace CachePool

/-- The socket that a link opened in its `attempt`-th connect. -/
structure Line where
  token : Token
  attempt : Nat
  deriving DecidableEq

/-- A command as it was accepted. -/
structure Ticket where
  slot : Slot
  request : Request

/-- The slot of a command as it was before its caller gave up. -/
def Slot.unmarked (slot : Slot) : Slot :=
  { slot with abandoned := false }

/-- The slot of a command as it was issued. -/
def Slot.original (slot : Slot) : Slot :=
  { slot with abandoned := false, stats := [] }

@[simp] theorem Slot.seq_original (slot : Slot) : slot.original.seq = slot.seq := rfl

@[simp] theorem Slot.original_unmarked (slot : Slot) :
    slot.unmarked.original = slot.original := rfl

/-! ## Entries -/

/-- One thing that happens to a client. -/
inductive Incident where
  /-- A command was accepted and its frame queued. -/
  | issued (ticket : Ticket)
  /-- A connect was started. -/
  | opened (line : Line)
  /-- A connect has completed. -/
  | established (line : Line)
  /-- A socket took octets. -/
  | took (line : Line) (octets : Bytes)
  /-- The last octet of a command's frame was taken. -/
  | sent (line : Line) (seq : Nat)
  /-- A socket gave octets. -/
  | gave (line : Line) (octets : Bytes)
  /-- A socket gave octets and then an error, so that nobody looks at the octets. -/
  | wasted (line : Line) (octets : Bytes)
  /-- A reply was given to the command at a place. -/
  | answered (line : Line) (seq : Nat) (response : Response)
  /-- A command ended. -/
  | ended (finished : Finished)
  /-- A command was given up without a result. -/
  | dropped (slot : Slot)
  /-- A socket reported an error or the end of its stream. -/
  | reported (line : Line)
  /-- So many abandoned slots were found on a link. -/
  | examined (line : Line) (abandoned : Nat)
  /-- A link was torn down. -/
  | lost (line : Line) (failure : Failure)

namespace Incident

/-- The line whose octets, frames or replies an incident is about. -/
def line? : Incident → Option Line
  | took line _ => some line
  | sent line _ => some line
  | gave line _ => some line
  | wasted line _ => some line
  | answered line _ _ => some line
  | _ => none

/-- The command an incident accepts. -/
def tickets : Incident → List Ticket
  | issued ticket => [ticket]
  | _ => []

/-- The octets taken on a line. -/
def taken (line : Line) : Incident → Bytes
  | took other octets => if other = line then octets else []
  | _ => []

/-- The command whose frame was finished on a line. -/
def sentOn (line : Line) : Incident → List Nat
  | sent other seq => if other = line then [seq] else []
  | _ => []

/-- The octets given on a line. -/
def given (line : Line) : Incident → Bytes
  | gave other octets => if other = line then octets else []
  | _ => []

/-- The reply given to a command on a line. -/
def answers (line : Line) : Incident → List (Nat × Response)
  | answered other seq response => if other = line then [(seq, response)] else []
  | _ => []

/-- The command that ended. -/
def endings : Incident → List Finished
  | ended finished => [finished]
  | _ => []

/-- The command that was given up without a result. -/
def drops : Incident → List Slot
  | dropped slot => [slot]
  | _ => []

/-- An incident in which a command is given up: without a result, or with a timeout. -/
def GivesUp (seq : Nat) : Incident → Prop
  | dropped slot => slot.seq = seq
  | ended finished => finished.slot.seq = seq ∧ finished.result = .error .timeout
  | _ => False

/-- An incident in which no command is given up. -/
def Keeps (incident : Incident) : Prop :=
  ∀ seq, ¬ incident.GivesUp seq

/-- An incident that leaves the link of its line in the pool. -/
def Stays : Incident → Prop
  | lost _ failure => failure ≠ .removed
  | _ => True

/-- An incident in which no command is given up and no link leaves the pool. -/
structure Routine (incident : Incident) : Prop where
  keeps : incident.Keeps
  stays : incident.Stays

/-- An incident in which only commands that satisfy a condition are given up. -/
def GivesUpOnly (may : Slot → Prop) : Incident → Prop
  | dropped slot => may slot
  | ended finished => finished.result = .error .timeout → may finished.slot
  | _ => True

/-- Where no command is given up the condition does not matter. -/
theorem Keeps.givesUpOnly {incident : Incident} (hkeeps : incident.Keeps) (may : Slot → Prop) :
    incident.GivesUpOnly may := by
  cases incident with
  | dropped slot => exact absurd rfl (hkeeps slot.seq)
  | ended finished =>
      intro htimeout
      exact absurd ⟨rfl, htimeout⟩ (hkeeps finished.slot.seq)
  | _ => trivial

end Incident

/-! ## Projections -/

/-- What happened to a client, in order. -/
abbrev Trace := List Incident

namespace Trace

/-- The commands accepted, in the order of issue. -/
def tickets (trace : Trace) : List Ticket :=
  trace.flatMap Incident.tickets

/-- The octets a line took, since it was opened. -/
def taken (trace : Trace) (line : Line) : Bytes :=
  trace.flatMap (Incident.taken line)

/-- The places of the commands whose frames were wholly taken by a line, in order. -/
def sent (trace : Trace) (line : Line) : List Nat :=
  trace.flatMap (Incident.sentOn line)

/-- The octets a line gave, since it was opened. -/
def given (trace : Trace) (line : Line) : Bytes :=
  trace.flatMap (Incident.given line)

/-- The replies given to commands on a line, each with the place of its command. -/
def answers (trace : Trace) (line : Line) : List (Nat × Response) :=
  trace.flatMap (Incident.answers line)

/-- The replies given to one command on a line. -/
def answersTo (trace : Trace) (line : Line) (seq : Nat) : List Response :=
  ((trace.answers line).filter fun answer => answer.1 = seq).map (·.2)

/-- The commands that ended, in order. -/
def endings (trace : Trace) : List Finished :=
  trace.flatMap Incident.endings

/-- The commands given up without a result, in order. -/
def drops (trace : Trace) : List Slot :=
  trace.flatMap Incident.drops

/-- The whole frames in the octets a line gave. -/
def replies (trace : Trace) (line : Line) : List Response :=
  (Response.kind.split (trace.given line)).frames.map (·.1)

/-- The whole frames in the octets a line took, as its peer reads them. -/
def requests (trace : Trace) (line : Line) : List Request :=
  (Request.kind.split (trace.taken line)).frames.map (·.1)

/-- The frames of commands, one after the other. -/
def frames (tickets : List Ticket) : Bytes :=
  tickets.flatMap fun ticket => ticket.request.frame

section Append

variable (first second : Trace) (line : Line) (seq : Nat)

@[simp] theorem tickets_append : tickets (first ++ second) = tickets first ++ tickets second :=
  List.flatMap_append

@[simp] theorem taken_append :
    taken (first ++ second) line = taken first line ++ taken second line :=
  List.flatMap_append

@[simp] theorem sent_append :
    sent (first ++ second) line = sent first line ++ sent second line :=
  List.flatMap_append

@[simp] theorem given_append :
    given (first ++ second) line = given first line ++ given second line :=
  List.flatMap_append

@[simp] theorem answers_append :
    answers (first ++ second) line = answers first line ++ answers second line :=
  List.flatMap_append

@[simp] theorem answersTo_append :
    answersTo (first ++ second) line seq
      = answersTo first line seq ++ answersTo second line seq := by
  rw [answersTo, answers_append, List.filter_append, List.map_append, ← answersTo, ← answersTo]

@[simp] theorem endings_append : endings (first ++ second) = endings first ++ endings second :=
  List.flatMap_append

@[simp] theorem drops_append : drops (first ++ second) = drops first ++ drops second :=
  List.flatMap_append

@[simp] theorem frames_append (front back : List Ticket) :
    frames (front ++ back) = frames front ++ frames back :=
  List.flatMap_append

end Append

section Cons

variable (incident : Incident) (trace : Trace) (line : Line)

@[simp] theorem tickets_cons : tickets (incident :: trace) = incident.tickets ++ tickets trace :=
  List.flatMap_cons

@[simp] theorem taken_cons :
    taken (incident :: trace) line = incident.taken line ++ taken trace line :=
  List.flatMap_cons

@[simp] theorem sent_cons :
    sent (incident :: trace) line = incident.sentOn line ++ sent trace line :=
  List.flatMap_cons

@[simp] theorem given_cons :
    given (incident :: trace) line = incident.given line ++ given trace line :=
  List.flatMap_cons

@[simp] theorem answers_cons :
    answers (incident :: trace) line = incident.answers line ++ answers trace line :=
  List.flatMap_cons

@[simp] theorem endings_cons : endings (incident :: trace) = incident.endings ++ endings trace :=
  List.flatMap_cons

@[simp] theorem drops_cons : drops (incident :: trace) = incident.drops ++ drops trace :=
  List.flatMap_cons

@[simp] theorem frames_cons (ticket : Ticket) (others : List Ticket) :
    frames (ticket :: others) = ticket.request.frame ++ frames others :=
  List.flatMap_cons

end Cons

/-- What was accepted stays accepted. -/
theorem tickets_subset (first second : Trace) : tickets first ⊆ tickets (first ++ second) := by
  rw [tickets_append]
  exact List.subset_append_left _ _

/-! ## Lines nothing happens on -/

/-- A line on which nothing passes. -/
def Silent (trace : Trace) (line : Line) : Prop :=
  ∀ incident ∈ trace, incident.line? ≠ some line

/-- A projection that only looks at one line gives nothing on a silent line. -/
theorem flatMap_eq_nil_of_silent {α : Type} {trace : Trace} {line : Line}
    {project : Incident → List α} (hsilent : trace.Silent line)
    (hproject : ∀ incident : Incident, incident.line? ≠ some line → project incident = []) :
    trace.flatMap project = [] := by
  rw [List.flatMap_eq_nil_iff]
  intro incident hmem
  exact hproject incident (hsilent incident hmem)

section Silent

variable {trace : Trace} {line : Line}

theorem taken_of_silent (hsilent : trace.Silent line) : trace.taken line = [] := by
  apply flatMap_eq_nil_of_silent hsilent
  intro incident hline
  cases incident <;> simp_all [Incident.taken, Incident.line?]

theorem sent_of_silent (hsilent : trace.Silent line) : trace.sent line = [] := by
  apply flatMap_eq_nil_of_silent hsilent
  intro incident hline
  cases incident <;> simp_all [Incident.sentOn, Incident.line?]

theorem given_of_silent (hsilent : trace.Silent line) : trace.given line = [] := by
  apply flatMap_eq_nil_of_silent hsilent
  intro incident hline
  cases incident <;> simp_all [Incident.given, Incident.line?]

theorem answers_of_silent (hsilent : trace.Silent line) : trace.answers line = [] := by
  apply flatMap_eq_nil_of_silent hsilent
  intro incident hline
  cases incident <;> simp_all [Incident.answers, Incident.line?]

end Silent

/-- Where nothing happens nothing passes. -/
theorem silent_nil (line : Line) : Silent [] line :=
  fun _ hmem => nomatch hmem

/-- An incident that is about no line. -/
theorem silent_singleton {incident : Incident} (hnone : incident.line? = none) (line : Line) :
    Silent [incident] line := by
  intro other hmem
  rw [List.mem_singleton.mp hmem, hnone]
  intro hline
  cases hline

/-- A trace is silent on a line if both its parts are. -/
theorem Silent.append {first second : Trace} {line : Line} (hfirst : first.Silent line)
    (hsecond : second.Silent line) : Silent (first ++ second) line := by
  intro incident hmem
  rcases List.mem_append.mp hmem with hmem | hmem
  · exact hfirst incident hmem
  · exact hsecond incident hmem

/-- The end of a command passes on no line. -/
theorem silent_map_ended (finished : List Finished) (line : Line) :
    Silent (finished.map .ended) line := by
  intro incident hmem
  obtain ⟨first, -, rfl⟩ := List.mem_map.mp hmem
  intro hline
  cases hline

/-- Giving up a command passes on no line. -/
theorem silent_map_dropped (slots : List Slot) (line : Line) :
    Silent (slots.map .dropped) line := by
  intro incident hmem
  obtain ⟨first, -, rfl⟩ := List.mem_map.mp hmem
  intro hline
  cases hline

/-! ## Commands and links that are kept -/

/-- No command is given up and no link leaves the pool. -/
def Routine (trace : Trace) : Prop :=
  ∀ incident ∈ trace, incident.Routine

theorem routine_nil : Routine [] :=
  fun _ hmem => nomatch hmem

theorem Routine.append {first second : Trace} (hfirst : first.Routine) (hsecond : second.Routine) :
    Routine (first ++ second) :=
  fun incident hmem => (List.mem_append.mp hmem).elim (hfirst incident) (hsecond incident)

theorem Routine.cons {incident : Incident} {trace : Trace} (htrace : trace.Routine)
    (hincident : incident.Routine) : Routine (incident :: trace) :=
  List.forall_mem_cons.mpr ⟨hincident, htrace⟩

theorem routine_singleton {incident : Incident} (hincident : incident.Routine) :
    Routine [incident] :=
  routine_nil.cons hincident

/-- Commands that end with a result of their own are not given up. -/
theorem routine_map_ended {finished : List Finished}
    (hresult : ∀ first ∈ finished, first.result ≠ .error .timeout) :
    Routine (finished.map .ended) := by
  intro incident hmem
  obtain ⟨first, hfirst, rfl⟩ := List.mem_map.mp hmem
  exact ⟨fun _ hgives => hresult first hfirst hgives.2, trivial⟩

/-- The commands that ended are those that end in some incident. -/
theorem mem_endings {trace : Trace} {finished : Finished} :
    finished ∈ trace.endings ↔ .ended finished ∈ trace := by
  constructor
  · intro hmem
    obtain ⟨incident, hincident, hended⟩ := List.mem_flatMap.mp hmem
    cases incident with
    | ended other =>
        rw [List.mem_singleton.mp hended]
        exact hincident
    | _ => cases hended
  · intro hincident
    exact List.mem_flatMap.mpr ⟨_, hincident, List.mem_singleton_self _⟩

/-- The slots that are given up without a result are those dropped in some incident. -/
theorem mem_drops {trace : Trace} {slot : Slot} :
    slot ∈ trace.drops ↔ .dropped slot ∈ trace := by
  constructor
  · intro hmem
    obtain ⟨incident, hincident, hslot⟩ := List.mem_flatMap.mp hmem
    cases incident with
    | dropped other =>
        rw [List.mem_singleton.mp hslot]
        exact hincident
    | _ => cases hslot
  · intro hincident
    exact List.mem_flatMap.mpr ⟨_, hincident, List.mem_singleton_self _⟩

/-- Endings of commands, and nothing else. -/
@[simp] theorem endings_map_ended (finished : List Finished) :
    endings (finished.map Incident.ended) = finished := by
  induction finished with
  | nil => rfl
  | cons first others ih =>
      rw [List.map_cons, endings_cons, ih]
      rfl

end Trace

end CachePool

/-
# The replies of a store

What a store answers when it executes requests one by one, each at its own time: one group
of responses for every request, which are replies that belong to the request.

* `Store.answers` : the responses to requests, in groups;
* `Store.isReplyTo_execute` : a group belongs to its request;
* `Store.fields_execute` : the fields of a response are as short as the wire wants them;
* `Store.executeAll_eq` : a server that executes a chunk of requests gives the same.
-/
import CachePool.Proofs.Answering
import CachePool.Proofs.Streams
import CachePool.Store.Serving

namespace CachePool

namespace Store

variable {store : Store} {now : Nat} {request : Request}

/-! ## Requests one by one -/

/-- The responses to requests that are executed in order, each at its time: one group for
every request. -/
def answers (store : Store) : List (Nat × Request) → List (List Response)
  | [] => []
  | (time, request) :: later =>
    (store.execute time request).1 :: (store.execute time request).2.answers later

/-- The store when requests were executed. -/
def executed (store : Store) (requests : List (Nat × Request)) : Store :=
  requests.foldl (fun store (time, request) => (store.execute time request).2) store

@[simp] theorem length_answers (store : Store) (requests : List (Nat × Request)) :
    (store.answers requests).length = requests.length := by
  induction requests generalizing store with
  | nil => rfl
  | cons first later ih => rw [answers, List.length_cons, List.length_cons, ih]

theorem executed_append (store : Store) (first second : List (Nat × Request)) :
    store.executed (first ++ second) = (store.executed first).executed second :=
  List.foldl_append

/-- Requests that come later are answered by the store as it is then. -/
theorem answers_append (store : Store) (first second : List (Nat × Request)) :
    store.answers (first ++ second)
      = store.answers first ++ (store.executed first).answers second := by
  induction first generalizing store with
  | nil => rfl
  | cons request first ih => exact congrArg (_ :: ·) (ih _)

/-- Later requests do not change the responses to earlier ones. -/
theorem prefix_answers (store : Store) {first second : List (Nat × Request)}
    (hfront : first <+: second) : store.answers first <+: store.answers second := by
  obtain ⟨later, rfl⟩ := hfront
  rw [answers_append]
  exact List.prefix_append _ _

/-- A server that executes a chunk of requests at one time gives their responses, one group
behind the other. -/
theorem executeAll_eq (store : Store) (now : Nat) (requests : List Request) :
    store.executeAll now requests
      = ((store.answers (requests.map (now, ·))).flatten,
        store.executed (requests.map (now, ·))) := by
  induction requests generalizing store with
  | nil => rfl
  | cons request requests ih =>
      unfold executeAll
      dsimp only
      rw [ih]
      rfl

/-! ## One response -/

/-- The response is for the request: it carries its opcode and tag, its key and extras are
as short as their fields, and its status has a name. -/
structure RepliesTo (request : Request) (response : Response) : Prop where
  opcode : response.opcode = request.opcode
  tag : response.tag = request.tag
  key : response.key.length < 65536
  extras : response.extras.length < 256
  status : Status.ofWord response.status.word = response.status

/-- A reply without content, with more fields. -/
theorem repliesTo_reply {status : Status} (hstatus : Status.ofWord status.word = status)
    (cas : UInt64) (value : Bytes) {key extras : Bytes} (hkey : key.length < 65536)
    (hextras : extras.length < 256) :
    RepliesTo request { reply request status with cas, value, key, extras } :=
  ⟨rfl, rfl, hkey, hextras, hstatus⟩

/-- A reply without key and extras. -/
theorem repliesTo_bare {status : Status} (hstatus : Status.ofWord status.word = status)
    (cas : UInt64) (value : Bytes) :
    RepliesTo request { reply request status with cas, value } :=
  repliesTo_reply hstatus cas value (Nat.zero_lt_succ _) (Nat.zero_lt_succ _)

theorem repliesTo_executeGet : RepliesTo request (store.executeGet now request).1 := by
  unfold executeGet
  dsimp only
  split
  · exact repliesTo_reply rfl _ _ (Nat.zero_lt_succ _) (by simp [Response.flagsExtras])
  · exact repliesTo_bare rfl _ _

/-- A storing request is refused with one of two statuses. -/
theorem named_of_storeRefusal {current : Option UInt64} {status : Status}
    (hrefusal : storeRefusal request current = some status) :
    status = .keyExists ∨ status = .keyNotFound := by
  unfold storeRefusal at hrefusal
  repeat' split at hrefusal
  all_goals cases hrefusal
  · exact .inl rfl
  · exact .inl rfl
  · exact .inr rfl
  · exact .inr rfl

theorem repliesTo_executeStore : RepliesTo request (store.executeStore now request).1 := by
  unfold executeStore
  dsimp only
  split
  · split
    · rename_i status hrefusal
      rcases named_of_storeRefusal hrefusal with rfl | rfl
      · exact repliesTo_bare rfl _ _
      · exact repliesTo_bare rfl _ _
    · exact repliesTo_bare rfl _ _
  · exact repliesTo_bare rfl _ _

theorem repliesTo_executeDelete : RepliesTo request (store.executeDelete now request).1 := by
  unfold executeDelete
  dsimp only
  split
  · exact repliesTo_bare rfl _ _
  · split
    · exact repliesTo_bare rfl _ _
    · exact repliesTo_bare rfl _ _

theorem repliesTo_executeCount : RepliesTo request (store.executeCount now request).1 := by
  unfold executeCount
  split
  · dsimp only
    split
    · split
      · exact repliesTo_bare rfl _ _
      · exact repliesTo_bare rfl _ _
    · split
      · exact repliesTo_bare rfl _ _
      · split
        · exact repliesTo_bare rfl _ _
        · exact repliesTo_bare rfl _ _
  · exact repliesTo_bare rfl _ _

/-! ## Statistics -/

/-- A name of a statistic is a text that fits the key of a response. -/
def IsName (name : String) : Prop :=
  Bytes.ofString name ≠ [] ∧ (Bytes.ofString name).length < 65536

theorem isName_generalStats (store : Store) (now : Nat) :
    ∀ entry ∈ store.generalStats now, IsName entry.1 := by
  unfold generalStats
  simp only [List.forall_mem_cons]
  refine ⟨?_, ?_, ?_, ?_, ?_, ?_, ?_, ?_, ?_, fun _ hnone => (nomatch hnone)⟩
  all_goals exact ⟨by decide, by decide⟩

theorem isName_settingsStats : ∀ entry ∈ settingsStats, IsName entry.1 := by
  unfold settingsStats
  simp only [List.forall_mem_cons]
  refine ⟨?_, ?_, fun _ hnone => (nomatch hnone)⟩
  all_goals exact ⟨by decide, by decide⟩

theorem repliesTo_statReplies {stats : List (String × String)}
    (hnames : ∀ entry ∈ stats, IsName entry.1) :
    ∀ response ∈ statReplies request stats, RepliesTo request response := by
  intro response hmem
  rcases List.mem_append.mp hmem with hmem | hmem
  · obtain ⟨entry, hentry, rfl⟩ := List.mem_map.mp hmem
    exact repliesTo_reply rfl _ _ (hnames entry hentry).2 (Nat.zero_lt_succ _)
  · rw [List.mem_singleton.mp hmem]
    exact repliesTo_bare rfl _ _

/-- **Every response is for its request.** -/
theorem fields_execute (store : Store) (now : Nat) (request : Request) :
    ∀ response ∈ (store.execute now request).1, RepliesTo request response := by
  have hsingle {first : Response} (hfirst : RepliesTo request first) :
      ∀ response ∈ [first], RepliesTo request response := by
    intro response hmem
    rw [List.mem_singleton.mp hmem]
    exact hfirst
  unfold execute
  dsimp only
  split
  · exact hsingle repliesTo_executeGet
  · exact hsingle repliesTo_executeStore
  · exact hsingle repliesTo_executeStore
  · exact hsingle repliesTo_executeStore
  · exact hsingle repliesTo_executeDelete
  · exact hsingle repliesTo_executeCount
  · exact hsingle repliesTo_executeCount
  · exact hsingle (repliesTo_bare rfl _ _)
  · exact hsingle (repliesTo_bare rfl _ _)
  · dsimp only [executeStat]
    split
    · exact repliesTo_statReplies (isName_generalStats store now)
    · split
      · exact repliesTo_statReplies isName_settingsStats
      · exact hsingle (repliesTo_bare rfl _ _)

/-- Statistics are entries and a terminator. -/
theorem shape_statReplies {stats : List (String × String)} (hstat : request.opcode = .stat)
    (hnames : ∀ entry ∈ stats, IsName entry.1) :
    ∃ entries last, statReplies request stats = entries ++ [last] ∧
      (∀ entry ∈ entries,
        request.opcode = .stat ∧ entry.status.isSuccess = true ∧ entry.endsStats = false) ∧
      (request.opcode = .stat → last.status.isSuccess = true → last.endsStats = true) := by
  refine ⟨_, _, rfl, ?_, fun _ _ => ?_⟩
  · intro response hmem
    obtain ⟨entry, hentry, rfl⟩ := List.mem_map.mp hmem
    exact ⟨hstat, rfl, by simp [Response.endsStats, (hnames entry hentry).1]⟩
  · simp [Response.endsStats, reply, Response.make, hstat]

/-- Every command but that for statistics has one response. -/
theorem execute_single (store : Store) (now : Nat) (hother : request.opcode ≠ .stat) :
    ∃ response, (store.execute now request).1 = [response] := by
  unfold execute
  dsimp only
  split
  all_goals first
    | exact ⟨_, rfl⟩
    | exact absurd ‹_› hother

theorem execute_stat (store : Store) (now : Nat) (hstat : request.opcode = .stat) :
    (store.execute now request).1 = store.executeStat now request := by
  unfold execute
  rw [hstat]

/-- **The responses to a request are replies that belong to it.** -/
theorem isReplyTo_execute (store : Store) (now : Nat) (request : Request) :
    IsReplyTo request (store.execute now request).1 where
  own response hmem :=
    ⟨(fields_execute store now request response hmem).tag,
      (fields_execute store now request response hmem).opcode⟩
  shape := by
    by_cases hstat : request.opcode = .stat
    · rw [execute_stat store now hstat, executeStat]
      split
      · exact shape_statReplies hstat (isName_generalStats store now)
      · split
        · exact shape_statReplies hstat isName_settingsStats
        · refine ⟨[], _, rfl, fun _ hnone => (nomatch hnone), fun _ hsuccess => ?_⟩
          cases hsuccess
    · obtain ⟨response, hsingle⟩ := execute_single store now hstat
      rw [hsingle]
      exact ⟨[], response, rfl, fun _ hnone => (nomatch hnone), fun hother => absurd hother hstat⟩

/-- **Every group of responses belongs to its request.** -/
theorem forall₂_answers (store : Store) (requests : List (Nat × Request)) :
    List.Forall₂ (fun request group => IsReplyTo request.2 group) requests
      (store.answers requests) := by
  induction requests generalizing store with
  | nil => exact .nil
  | cons first later ih => exact .cons (isReplyTo_execute _ _ _) (ih _)

/-- Responses whose bodies are not too long fit the wire. -/
theorem fits_answers {requests : List (Nat × Request)}
    (hbodies : ∀ response ∈ (store.answers requests).flatten,
      response.bodyLength ≤ maxBodyLength) :
    ∀ response ∈ (store.answers requests).flatten, response.Fits := by
  intro response hmem
  refine ⟨?_, ?_, hbodies response hmem, ?_⟩
  all_goals
    clear hbodies
    induction requests generalizing store with
    | nil => cases hmem
    | cons first later ih =>
        rw [answers, List.flatten_cons] at hmem
        rcases List.mem_append.mp hmem with hmem | hmem
        · obtain ⟨-, -, hkey, hextras, hstatus⟩ := fields_execute _ _ _ response hmem
          assumption
        · exact ih hmem

end Store

end CachePool

/-
# Sessions, call by call

What a call makes of a client, one case for each thing it can do, so that a property of
sessions is proved by looking at these cases.

* `Client.Performs`, `Client.performs` : the cases, and that there are no others;
* `Client.Session.reaches` : a session is a history of steps;
* `Client.Session.keeps` : what every call keeps holds throughout a session.
-/
import CachePool.Proofs.Completions

namespace CachePool

namespace Client

variable {ω : Type} [Network ω]

/-- What a call makes of a client. -/
inductive Performs (client : Client ω) : Call → Client ω → Prop
  /-- A call that is refused leaves the client as it is. -/
  | refused (call : Call) : Performs client call client
  | queued {command : Command} {timeout : Option Nat} {server seq : Nat} {after : Client ω}
      (hqueue : client.queue server command.request command.expect = .ok (seq, .buffered, after)) :
      Performs client (.issue command timeout) after
  | awaited {command : Command} {timeout : Option Nat} {server seq : Nat} {queued : Client ω}
      (hqueue : client.queue server command.request command.expect = .ok (seq, .direct, queued)) :
      Performs client (.issue command timeout)
        (queued.await seq (client.deadlineOf timeout)).2
  | flushed (timeout : Option Nat) : Performs client (.flush timeout) (client.flush timeout).2
  | reset : Performs client .resetBuffers client.resetBuffers
  | switched (buffering : Bool) :
      Performs client (.setBuffering buffering) (client.setBuffering buffering)
  | installed {servers : ServerList} {addresses : List ServerAddress} {after : Client ω}
      (hinstall : client.installServers addresses = .ok after) :
      Performs client (.setServers servers) after
  | timed {timeouts : Timeouts} (hvalid : timeouts.validate = .ok ()) :
      Performs client (.setTimeouts timeouts) { client with timeouts }
  | sunk (sink : LogSink) : Performs client (.setSink sink) (client.withSink sink)

/-- **Every call is one of these.** -/
theorem performs (client : Client ω) (call : Call) :
    client.Performs call (client.perform call).2 := by
  cases call with
  | issue command timeout =>
      rw [(perform_issue client command timeout).1]
      rcases issue_cases client command timeout with
        ⟨error, -, hrefused⟩ |
          ⟨server, seq, delivery, queued, hqueue, ⟨rfl, hissue⟩ | ⟨rfl, hissue⟩⟩
      · rw [hrefused]
        exact .refused _
      · rw [hissue]
        exact .queued hqueue
      · rw [hissue]
        exact .awaited hqueue
  | flush timeout =>
      have hflush := @Performs.flushed ω _ client timeout
      show client.Performs _ (outcomeOfFlush (client.flush timeout)).2
      generalize client.flush timeout = result at hflush ⊢
      rcases result with ⟨error | completions, after⟩
      all_goals exact hflush
  | resetBuffers => exact .reset
  | setBuffering buffering => exact .switched buffering
  | setServers servers =>
      show client.Performs _ (outcomeOfUnit (client.setServers servers)).2
      unfold setServers
      split
      · exact .refused _
      split
      · exact .refused _
      · rename_i addresses hparse _ after hinstall
        exact .installed hinstall
  | setTimeouts timeouts =>
      show client.Performs _ (outcomeOfUnit (client.setTimeouts timeouts)).2
      unfold setTimeouts
      split
      · exact .refused _
      · rename_i hvalid
        exact .timed hvalid
  | setSink sink => exact .sunk sink

/-- Every client of a session is reached. -/
theorem Session.reaches {start client : Client ω} {books : Books}
    (hsession : start.Session books client) : ∃ trace, start.Reaches trace client := by
  induction hsession with
  | opened => exact ⟨[], .start⟩
  | called _ net call ih =>
      obtain ⟨trace, hreach⟩ := ih
      obtain ⟨incidents, -, hafter⟩ := reaches_perform (hreach.elapsed net) call
      exact ⟨trace ++ incidents, hafter⟩

/-- **What every call keeps holds throughout a session.** -/
theorem Session.keeps {start client : Client ω} {books : Books} {holds : Client ω → Prop}
    (hsession : start.Session books client) (hstart : holds start)
    (hnet : ∀ (client : Client ω) (net : ω), holds client → holds { client with net })
    (hcall : ∀ (client after : Client ω) (call : Call), holds client →
      client.Performs call after → holds after) : holds client := by
  induction hsession with
  | opened => exact hstart
  | called hsession net call ih => exact hcall _ _ call (hnet _ net ih) (performs _ call)

end Client

end CachePool

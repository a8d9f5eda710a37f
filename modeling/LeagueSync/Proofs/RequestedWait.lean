import LeagueSync.Proofs.CallAttempts
import LeagueSync.Proofs.RetryWaits
import LeagueSync.Proofs.TimestampText
import Mathlib.Data.List.Induction

/-!
# LeagueSync.Proofs.RequestedWait

The wait that a server asks for when it answers 429. A number of seconds is honoured up to the
ceiling of the policy, but only if it fits into a word of 64 bits: a longer one is read as a date,
which it is not, and then the answer counts as one that asks for nothing.

* `Timestamp.readMail?_digits`: three digits in a row are no date.
* `retryAfter?_digits`: what is read of a number.
* `Client.HearsAt.resultAt_eq`: what a reply that is heard makes of an attempt.
* `requested_wait`: the waits of a call, and when one is as long as was asked for.
* `wait_of_long_number`: a wait of five milliseconds where a minute is due.
-/

namespace LeagueSync
namespace Text

theorem digitsValue_lt_pow {cs : List Char} (digit : ∀ c ∈ cs, isDigit c = true) :
    digitsValue cs < 10 ^ cs.length := by
  induction cs using List.reverseRecOn with
  | nil => decide
  | append_singleton cs c ih =>
    have small : c.toNat ≤ 57 := by
      have last := digit c (by simp)
      simp only [isDigit, Bool.and_eq_true, decide_eq_true_eq] at last
      exact last.2
    have front := ih fun d mem => digit d (List.mem_append_left _ mem)
    rw [digitsValue_append, List.length_append, List.length_singleton, Nat.pow_succ]
    omega

theorem skipBlanks_append {bs cs : List Char} (blank : ∀ c ∈ bs, isBlank c = true)
    (solid : ∀ c ∈ cs.head?, isBlank c = false) : skipBlanks (bs ++ cs) = cs := by
  rw [skipBlanks, List.dropWhile_append_of_pos blank]
  cases cs with
  | nil => rfl
  | cons c cs => exact skipBlanks_cons (solid c rfl)

theorem trimBlanks_append {before cs after : List Char}
    (blank : ∀ c ∈ before ++ after, isBlank c = true) (some : cs ≠ [])
    (solid : ∀ c ∈ cs, isBlank c = false) : trimBlanks (before ++ cs ++ after) = cs := by
  obtain ⟨front, back⟩ := List.forall_mem_append.1 blank
  have first : skipBlanks (before ++ cs ++ after) = cs ++ after := by
    rw [List.append_assoc]
    refine skipBlanks_append front fun c head => solid c ?_
    obtain ⟨d, ds, rfl⟩ := List.exists_cons_of_ne_nil some
    cases head
    exact List.mem_cons_self
  have last : skipBlanks (after.reverse ++ cs.reverse) = cs.reverse := by
    refine skipBlanks_append (fun c mem => back c (List.mem_reverse.1 mem)) fun c head => solid c ?_
    exact List.mem_reverse.1 (List.mem_of_mem_head? head)
  rw [trimBlanks, first, List.reverse_append, last, List.reverse_reverse]

theorem toLower_of_isDigit {c : Char} (h : isDigit c = true) : c.toLower = c := by
  simp only [isDigit, Bool.and_eq_true, decide_eq_true_eq] at h
  refine dif_neg fun upper => ?_
  have above : 65 ≤ c.toNat := UInt32.le_iff_toNat_le.1 upper.1
  omega

theorem unsigned?_digits {ds : List Char} (some_digit : ds ≠ [])
    (digit : ∀ c ∈ ds, isDigit c = true) (bound : Nat) :
    unsigned? bound ds = if digitsValue ds < bound then some (digitsValue ds) else none := by
  have decimal : decimal? ds = some (digitsValue ds) :=
    if_pos ⟨some_digit, List.all_eq_true.2 digit⟩
  unfold unsigned?
  split
  · exact absurd (digit '+' List.mem_cons_self) (by decide)
  · simp only [decimal]

end Text

namespace Timestamp

open Text

/-- No name of a day begins with a digit. -/
theorem dayName?_of_isDigit {c : Char} (digit : isDigit c = true) (cs : List Char) :
    dayName? (c :: cs) = some (none, c :: cs) := by
  have letters : ∀ name ∈ dayNames, name.toList.head?.any isDigit = false := by decide
  have other : ∀ name ∈ dayNames,
      (name == String.ofList (((c :: cs).take 3).map Char.toLower)) = false := by
    intro name mem
    have letter := letters name mem
    rw [List.take_succ_cons, List.map_cons, toLower_of_isDigit digit, beq_eq_false_iff_ne]
    rintro rfl
    simp [digit] at letter
  rw [dayName?, shortName?, List.findIdx?_eq_none_iff.2 other]
  rfl

/-- More than two digits in a row are no date. -/
theorem readMail?_digits {ds : List Char} (digit : ∀ c ∈ ds, isDigit c = true)
    (long : 2 < ds.length) : readMail? ds = none := by
  obtain ⟨a, b, c, rest, rfl⟩ : ∃ a b c rest, ds = a :: b :: c :: rest := by
    match ds, long with
    | a :: b :: c :: rest, _ => exact ⟨a, b, c, rest, rfl⟩
  have first : skipBlanks (a :: b :: c :: rest) = a :: b :: c :: rest :=
    skipBlanks_cons (isBlank_of_isDigit (digit a (by simp)))
  have third : someBlanks? (c :: rest) = none := by
    rw [someBlanks?, isBlank_of_isDigit (digit c (by simp))]
    rfl
  have unnamed : dayName? (a :: b :: c :: rest) = some (none, a :: b :: c :: rest) :=
    dayName?_of_isDigit (digit a (by simp)) _
  have two : ∀ d ∈ [a, b], isDigit d = true := fun d mem =>
    digit d (List.mem_append_left (c :: rest) mem)
  have day : number? 1 2 ([a, b] ++ c :: rest) = some (digitsValue [a, b], c :: rest) :=
    number?_digits (List.cons_ne_nil _ _) two (by simp) (by simp) (.inl rfl)
  rw [readMail?, first, unnamed, Option.bind_eq_bind, Option.bind_some]
  dsimp only
  rw [List.cons_append, List.cons_append, List.nil_append] at day
  rw [day, Option.bind_eq_bind, Option.bind_some]
  dsimp only
  rw [third, Option.bind_eq_bind, Option.bind_none]

end Timestamp

open Text in
/-- What is read of a number of seconds, which a word of 64 bits must hold. -/
theorem retryAfter?_digits {value : String} {before ds after : List Char}
    (text : value.toList = before ++ ds ++ after)
    (blank : ∀ c ∈ before ++ after, c = ' ' ∨ c = '\t') (some_digit : ds ≠ [])
    (digit : ∀ c ∈ ds, isDigit c = true) (now : Timestamp) :
    retryAfter? now value = if digitsValue ds < 2 ^ 64 then some (digitsValue ds) else none := by
  have trimmed : trimBlanks value.toList = ds := by
    rw [text]
    refine trimBlanks_append (fun c mem => ?_) some_digit
      fun c mem => isBlank_of_isDigit (digit c mem)
    rcases blank c mem with rfl | rfl <;> decide
  have size : UInt64.size = 2 ^ 64 := rfl
  simp only [retryAfter?, trimmed, unsigned?_digits some_digit digit, size]
  by_cases fits : digitsValue ds < 2 ^ 64
  · simp only [if_pos fits]
  · have long : 2 < ds.length := by
      refine Nat.lt_of_not_le fun short => fits ?_
      have few : 10 ^ ds.length ≤ 10 ^ 2 := Nat.pow_le_pow_right (by decide) short
      have small := digitsValue_lt_pow digit
      omega
    simp only [if_neg fits, Timestamp.readMail?_digits digit long, Option.map_none]

theorem isPlainHeaderValue_digits {value : String} {before ds after : List Char}
    (text : value.toList = before ++ ds ++ after)
    (blank : ∀ c ∈ before ++ after, c = ' ' ∨ c = '\t')
    (digit : ∀ c ∈ ds, Text.isDigit c = true) : isPlainHeaderValue value = true := by
  rw [isPlainHeaderValue, List.all_eq_true, text]
  intro c mem
  have place : c ∈ before ++ after ∨ c ∈ ds := by
    simp only [List.mem_append] at mem ⊢
    tauto
  rcases place with around | inside
  · rcases blank c around with rfl | rfl <;> decide
  · have range := digit c inside
    simp only [Text.isDigit, Bool.and_eq_true, decide_eq_true_eq] at range
    simp only [Bool.or_eq_true, Bool.and_eq_true, decide_eq_true_eq]
    omega

/-- A header asks for a number of seconds: these digits, and blanks around them. -/
def AsksFor (headers : List (String × String)) (digits : List Char) : Prop :=
  ∃ value before after, headerValue? "retry-after" headers = some value ∧
    value.toList = before ++ digits ++ after ∧ (∀ c ∈ before ++ after, c = ' ' ∨ c = '\t') ∧
    digits ≠ [] ∧ ∀ c ∈ digits, Text.isDigit c = true

/-- What such a reply means. -/
theorem AsksFor.outcome {headers : List (String × String)} {digits : List Char}
    (h : AsksFor headers digits) (body : Option String) (now : Timestamp) :
    (Reply.answer 429 headers body).outcome now = .error (.rateLimited
      (if Text.digitsValue digits < 2 ^ 64 then some (Text.digitsValue digits) else none)) := by
  obtain ⟨value, before, after, found, text, blank, some_digit, digit⟩ := h
  have plain := isPlainHeaderValue_digits text blank digit
  have success : ¬ (200 ≤ 429 ∧ 429 < 300) := by decide
  have read := retryAfter?_digits text blank some_digit digit now
  simp only [Reply.outcome, if_neg success, found, Option.filter_some, plain, if_true,
    Option.bind_some, read]

namespace Client

variable {c : Client} {env : Surroundings} {call : Call} {request : Request} {l : Link} {n : Nat}

/-- The attempt with this number is sent, and this reply comes in time. -/
def HearsAt (c : Client) (env : Surroundings) (call : Call) (request : Request) (l : Link) (n : Nat)
    (reply : Reply) : Prop :=
  let m := c.linkAt env call request l n
  (takeToken c.mode m).1 = .ok () ∧
    ∃ after, (env.transport m.sent request).reply? = some (after, reply) ∧ after < c.limit call

theorem HearsAt.resultAt_eq {reply : Reply} (h : c.HearsAt env call request l n reply) :
    ∃ now, c.resultAt env call request l n = reply.outcome now := by
  obtain ⟨token, after, came, inTime⟩ := h
  rw [resultAt]
  generalize c.linkAt env call request l n = m at token came ⊢
  obtain ⟨now, bucket, taken, -, -⟩ := takeToken_link c.mode m
  have took : takeToken c.mode m = (.ok (), { m with now, bucket }) := Prod.ext token taken
  simp only [attempt, took, send, Exchange.outcome, came, if_neg (Nat.not_le.2 inTime)]
  exact ⟨_, rfl⟩

end Client

/-- The attempts of a call with nothing wrong with its path and headers, and the waits between them.
Suppose that an attempt hears the answer 429 with a header that asks for a number of seconds, and
that another attempt is allowed. Then there is one, and the wait before it is as long as was asked
for, up to the ceiling of the policy, just if the number fits into a word of 64 bits or the client
would have waited as long anyway. -/
theorem requested_wait (c : Client) (env : Surroundings) (l : Link) (call : Call)
    (path : call.path ≠ "") (headers : headerFault? call.headers = none) :
    let p := c.policy
    let request : Request :=
      ⟨call.method, addressOf c.baseUrl call.path, call.query, call.headers, call.body⟩
    let k := c.lastOf env call request l
    ∃ waits : Nat → Nat,
      c.request env call l =
        (p.conclude (c.resultAt env call request l k), c.linkAfter env call request l k) ∧
      c.eventsOf env call request l = ((List.range' 1 (k - 1)).flatMap fun i =>
        [.attempt i, .sleep (waits i)]) ++ [.attempt k] ∧
      ∀ i replied body digits, 1 ≤ i → i ≤ k → i < max 1 p.maxAttempts →
        (∀ asked, p.retries (.rateLimited asked) = true) →
        c.HearsAt env call request l i (.answer 429 replied body) → AsksFor replied digits →
        let asked := min (Text.digitsValue digits * 1000) p.maxRetryAfter
        let usual := p.maxDelay + env.jitter l.calls i
        i < k ∧ (Text.digitsValue digits < 2 ^ 64 → asked ≤ waits i) ∧
          (2 ^ 64 ≤ Text.digitsValue digits → waits i = usual) ∧
          (asked ≤ waits i ↔ Text.digitsValue digits < 2 ^ 64 ∨ asked ≤ usual) := by
  intro p request k
  have resolved := Call.resolve?_eq_ok path headers c.baseUrl
  obtain ⟨errors, retried⟩ := p.exists_errors (c.resultAt env call request l)
  obtain ⟨-, -, -, unfinished⟩ := p.lastAttempt_spec (c.resultAt env call request l)
  refine ⟨fun i => p.wait i (errors i) + env.jitter l.calls i, Client.request_eq resolved,
    Policy.events_run rfl fun i low high => (retried i low high).1, ?_⟩
  intro i replied body digits low high more again hears asks asked usual
  obtain ⟨now, heard⟩ := hears.resultAt_eq
  rw [asks.outcome] at heard
  have earlier : i < k := by
    refine Nat.lt_of_le_of_ne high fun last => ?_
    have final : p.isFinal (c.resultAt env call request l k) = false :=
      (p.isFinal_eq_false_iff _).2 ⟨_, last ▸ heard, again _⟩
    have all : k = max 1 p.maxAttempts := unfinished final
    omega
  have error := Except.error.inj ((retried i low earlier).1.symm.trans heard)
  have wait : p.wait i (errors i) = max p.maxDelay
      (min ((if Text.digitsValue digits < 2 ^ 64 then some (Text.digitsValue digits)
        else none).getD 0 * 1000) p.maxRetryAfter) := by
    rw [error, p.wait_eq_leastWait]
    rfl
  dsimp only
  rw [wait]
  by_cases fits : Text.digitsValue digits < 2 ^ 64
  · simp only [if_pos fits, Option.getD_some]
    omega
  · simp only [if_neg fits, Option.getD_none]
    omega

/-- A server that asks for seven seconds is not asked again before they are over. -/
theorem requested_wait_seven :
    let c : Client := {
      baseUrl := "https://host"
      policy := .ofConfig { maxAttempts := 3, baseDelayMs := 1, maxDelayMs := 5, jitterMaxMs := 0 }
      mode := .wait
      timeouts := {}
      permits := 1 }
    let headers := [("Date", "today"), ("Retry-After", " 007\t")]
    let env : Surroundings := {
      transport := fun n _ => ⟨some (3, .answer (if n = 0 then 429 else 200) headers (some ""))⟩
      timeOfDay := fun _ => .epoch }
    let call : Call := { path := "/x" }
    let request : Request := ⟨"GET", addressOf "https://host" "/x", [], [], none⟩
    let l : Link := { bucket := ⟨9, 9, 10, 9, 0, by decide, by decide⟩ }
    AsksFor headers ['0', '0', '7'] ∧
      c.HearsAt env call request l 1 (.answer 429 headers (some "")) ∧
      ∃ waits : Nat → Nat,
        c.eventsOf env call request l = [.attempt 1, .sleep (waits 1), .attempt 2] ∧
        7000 ≤ waits 1 := by
  intro c headers env call request l
  have asks : AsksFor headers ['0', '0', '7'] :=
    ⟨" 007\t", [' '], ['\t'], by decide +kernel, by decide +kernel, by simp, by decide,
      List.all_eq_true.1 (by decide)⟩
  have hears : c.HearsAt env call request l 1 (.answer 429 headers (some "")) :=
    ⟨by decide, 3, rfl, by decide⟩
  obtain ⟨waits, -, events, each⟩ := requested_wait c env l call (by decide) rfl
  have last : c.lastOf env call request l = 2 := by decide +kernel
  obtain ⟨-, long, -⟩ := each 1 headers (some "") ['0', '0', '7'] (by decide)
    (last ▸ by decide) (by decide) (fun _ => rfl) hears asks
  have asked : min (Text.digitsValue ['0', '0', '7'] * 1000) c.policy.maxRetryAfter = 7000 := by
    decide +kernel
  have long := long (by decide +kernel)
  rw [last] at events
  rw [asked] at long
  exact ⟨asks, hears, waits, events, long⟩

/-- A server that asks for 2^64 seconds is asked again after five milliseconds, where a minute is
the ceiling. -/
theorem wait_of_long_number :
    let c : Client := {
      baseUrl := "https://host"
      policy := .ofConfig {
        maxAttempts := 2, baseDelayMs := 1, maxDelayMs := 5, jitterMaxMs := 0
        maxRetryAfterSecs := 60 }
      mode := .wait
      timeouts := {}
      permits := 1 }
    let headers := [("Retry-After", "18446744073709551616")]
    let env : Surroundings := {
      transport := fun n _ => ⟨some (0, .answer (if n = 0 then 429 else 200) headers (some ""))⟩
      timeOfDay := fun _ => .epoch }
    let call : Call := { path := "/x" }
    let request : Request := ⟨"GET", addressOf "https://host" "/x", [], [], none⟩
    let l : Link := { bucket := ⟨9, 9, 10, 9, 0, by decide, by decide⟩ }
    AsksFor headers "18446744073709551616".toList ∧
      Text.digitsValue "18446744073709551616".toList = 2 ^ 64 ∧
      c.HearsAt env call request l 1 (.answer 429 headers (some "")) ∧
      c.eventsOf env call request l = [.attempt 1, .sleep 5, .attempt 2] ∧
      ¬ min (2 ^ 64 * 1000) c.policy.maxRetryAfter ≤ 5 := by
  intro c headers env call request l
  have asks : AsksFor headers "18446744073709551616".toList :=
    ⟨"18446744073709551616", [], [], by decide +kernel, by simp, by simp, by decide +kernel,
      List.all_eq_true.1 (by decide +kernel)⟩
  have hears : c.HearsAt env call request l 1 (.answer 429 headers (some "")) :=
    ⟨by decide, 0, rfl, by decide⟩
  exact ⟨asks, by decide +kernel, hears, by decide +kernel, by decide⟩

end LeagueSync

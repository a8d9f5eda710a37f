import LeagueSync.Http.Crowd
import LeagueSync.Proofs.RefusalHint
import LeagueSync.Proofs.RequestCourse
import LeagueSync.Proofs.SharedLimiter
import Mathlib.Algebra.GroupWithZero.Nat
import Mathlib.Algebra.Order.BigOperators.Group.List
import Mathlib.Algebra.Order.Group.Nat
import Mathlib.Data.Nat.Find

/-!
# LeagueSync.Proofs.WaitingRoom

Tasks that wait for tokens of one bucket. Each asks for a token until it has one, and sleeps in
between until the next refill; who is first in line is decided anew each time, by nothing in
particular. A sleep takes `nap ms` milliseconds if `ms` are asked for: some time, and no longer than
that. In the room it is the sleeps alone that let time pass. Who is refused means to sleep until the
next refill, or for a millisecond at least; where the time of the refill is past what 64 bits hold,
it means to sleep for less.

Nobody waits for ever, because after each refill at least the tokens of one interval, or the whole
capacity, are given out before anyone is refused again. That is the invariant `Waiter.Fares`: the
tokens given so far, and those that a waiter finds when it wakes up, make a full share for each
refill that it has waited for.

* `Bucket.sleepsUntil_slept`: how many sleeps there are, by what one sleep adds to them.
* `WaitingRoom.Orderly.step?`: every turn keeps the account of the room and of each waiter.
* `WaitingRoom.exists_step?`: as long as someone waits, someone's turn comes.
* `WaitingRoom.takeToken_eq`: one waiter alone ends up as `Client.takeToken` says.
* `Crowd.move_holding`: a call of a crowd that waits for its token takes such a turn.
* `waiters_served`: everyone is served, how soon, and after how many sleeps.
* `slept_more_than_once`: tasks that are alone and sleep more than once.
-/

namespace LeagueSync

inductive WaiterStage where
  /-- Asks for a token at a time. -/
  | due (time : Nat)
  /-- Was given its token at a time. -/
  | served (time : Nat)
  deriving DecidableEq, Repr

def WaiterStage.time : WaiterStage → Nat
  | due time => time
  | served time => time

structure Waiter where
  /-- When it asked for the first time. -/
  since : Nat
  sleeps : Nat
  stage : WaiterStage
  deriving DecidableEq, Repr

structure WaitingRoom where
  now : Nat
  bucket : Bucket
  waiters : List Waiter
  deriving DecidableEq

namespace Waiter

/-- The tokens that a waiter was given. -/
def tokens (w : Waiter) : Nat :=
  match w.stage with
  | .due _ => 0
  | .served _ => 1

def notBefore (time : Nat) (w : Waiter) : Bool :=
  match w.stage with
  | .due t => time ≤ t
  | .served _ => true

/-- One turn of a waiter: it has its token, or sleeps until the next refill. -/
def ask (nap : Nat → Nat) (w : Waiter) (b : Bucket) (now : Nat) : Waiter × Bucket :=
  match b.take now 1 with
  | (.ok (), b) => ({ w with stage := .served now }, b)
  | (.error refusal, b) =>
    ({ w with sleeps := w.sleeps + 1, stage := .due (now + nap (max 1 refusal.nextIn)) }, b)

end Waiter

namespace WaitingRoom

/-- Waiters that begin to ask at these times, or now if a time has passed. -/
def opened (b : Bucket) (now : Nat) (starts : List Nat) : WaitingRoom where
  now := now
  bucket := b
  waiters := starts.map fun s => ⟨max now s, 0, .due (max now s)⟩

/-- Gives a waiter its turn when its time has come, if nobody is due before it. -/
def step? (nap : Nat → Nat) (room : WaitingRoom) (i : Nat) : Option WaitingRoom :=
  (room.waiters[i]?).bind fun w =>
    match w.stage with
    | .served _ => none
    | .due time =>
      if room.waiters.all (·.notBefore time) then
        let now := max room.now time
        let asked := w.ask nap room.bucket now
        some ⟨now, asked.2, room.waiters.set i asked.1⟩
      else none

/-- Gives these waiters their turns, one after another. -/
def replay? (nap : Nat → Nat) (room : WaitingRoom) : List Nat → Option WaitingRoom
  | [] => some room
  | i :: turns => (room.step? nap i).bind fun next => next.replay? nap turns

/-- The tokens that were given to all. -/
def given (room : WaitingRoom) : Nat :=
  (room.waiters.map Waiter.tokens).sum

def sleeps (room : WaitingRoom) : Nat :=
  (room.waiters.map Waiter.sleeps).sum

end WaitingRoom

namespace Bucket

variable {b : Bucket} {s t n : Nat}

/-- What is sure to be there after a refill. -/
def share (b : Bucket) : Nat :=
  min b.capacity b.tokensPerInterval

/-- The time of the refill with this number, counting from `s`. -/
def refillTime (b : Bucket) (s k : Nat) : Nat :=
  (b.refill s).lastRefill + k * b.interval

theorem refillTime_eq (b : Bucket) (s k : Nat) :
    b.refillTime s k = b.lastRefill + (b.steps s + k) * b.interval := by
  rw [Nat.add_mul, ← Nat.add_assoc]
  rfl

theorem due_refill (b : Bucket) (s : Nat) : (b.refill s).due = b.refillTime s 1 := by
  rw [refillTime, Nat.one_mul]
  rfl

theorem steps_mono (b : Bucket) (h : s ≤ t) : b.steps s ≤ b.steps t :=
  Nat.div_le_div_right (Nat.sub_le_sub_right h _)

theorem steps_refillTime (b : Bucket) (s k : Nat) : b.steps (b.refillTime s k) = b.steps s + k := by
  rw [steps, refillTime_eq, Nat.add_sub_cancel_left, Nat.mul_div_cancel _ b.interval_pos]

theorem steps_eq_of_lt (h : s ≤ t) (early : t < b.refillTime s 1) : b.steps t = b.steps s := by
  refine Nat.le_antisymm (Nat.le_of_lt_succ ?_) (b.steps_mono h)
  have positive := Nat.mul_pos (Nat.succ_pos (b.steps s)) b.interval_pos
  rw [refillTime_eq] at early
  refine Nat.div_lt_of_lt_mul ?_
  rw [Nat.mul_comm]
  simp only [Nat.succ_eq_add_one] at positive ⊢
  omega

theorem refillTime_mono (b : Bucket) (s : Nat) {j k : Nat} (h : j ≤ k) :
    b.refillTime s j ≤ b.refillTime s k :=
  Nat.add_le_add_left (Nat.mul_le_mul_right _ h) _

theorem lt_refillTime (b : Bucket) (s : Nat) {k : Nat} (h : 1 ≤ k) : s < b.refillTime s k := by
  have next := b.lt_due_refill s
  rw [due_refill] at next
  exact Nat.lt_of_lt_of_le next (b.refillTime_mono s h)

/-- Where the bucket is empty, the next refill brings the share that this refill adds. -/
theorem shares_le {d : Bucket} {u given : Nat} (rule : d.rule = b.rule)
    (next : d.due = b.refillTime t 1) (none : d.tokens = 0) (began : s ≤ t)
    (waited : (b.steps t - b.steps s) * b.share ≤ given) (later : t ≤ u)
    (soon : u ≤ b.refillTime t 1) :
    (b.steps u - b.steps s) * b.share ≤ given + (d.refill u).tokens := by
  by_cases early : u < b.refillTime t 1
  · rw [steps_eq_of_lt later early]
    exact Nat.le_trans waited (Nat.le_add_right ..)
  · have due : u = d.due := by omega
    have gained : (d.refill d.due).tokens = b.share := by
      obtain ⟨capacity, gain⟩ := Prod.mk.inj rule
      rw [d.tokens_refill_due, none, Nat.zero_add, capacity, gain, share]
    have fewer := b.steps_mono began
    have passed : b.steps d.due - b.steps s = b.steps t - b.steps s + 1 := by
      rw [next, b.steps_refillTime]
      omega
    rw [due, gained, passed, Nat.add_mul, Nat.one_mul]
    exact Nat.add_le_add_right waited _

/-- How long who is refused at a time means to sleep. -/
def pause (b : Bucket) (now : Nat) : Nat :=
  max 1 ((b.refill now).nextRefill - now)

theorem pause_pos (b : Bucket) (now : Nat) : 0 < b.pause now :=
  Nat.le_max_left ..

theorem pause_le (b : Bucket) (now : Nat) : b.pause now ≤ b.refillTime now 1 - now := by
  have ahead := b.lt_due_refill now
  have told := (b.refill now).nextRefill_le
  rw [← due_refill, pause]
  omega

theorem pause_of_fits {b : Bucket} {now : Nat} (fits : b.refillTime now 1 < UInt64.size) :
    b.pause now = b.refillTime now 1 - now := by
  have ahead := b.lt_refillTime now (Nat.le_refl 1)
  rw [← due_refill] at fits ahead ⊢
  rw [pause, nextRefill_of_fits fits, Nat.max_eq_right (Nat.sub_pos_of_lt ahead)]

/-- How many sleeps it takes from `s` until the first refill after `t`, each refill on the way being
slept for anew. -/
def sleepsUntil (b : Bucket) (s t : Nat) : Nat :=
  sleepsFor (b.refillTime s 1 - s) + (b.steps t - b.steps s) * sleepsFor b.interval

/-- A sleep that reaches the next refill is the last one before it, and any other brings it one
sleep nearer. -/
theorem sleepsUntil_slept {sleeps : Nat} (le : s ≤ t) (fits : b.refillTime t 1 < UInt64.size)
    (count : sleeps + sleepsFor (b.refillTime t 1 - t) ≤ b.sleepsUntil s t) :
    let u := t + slept (b.pause t)
    sleeps + 1 + sleepsFor (b.refillTime u 1 - u) ≤ b.sleepsUntil s u := by
  intro u
  have ahead := b.lt_refillTime t (Nat.le_refl 1)
  have whole := pause_of_fits fits
  have short : slept (b.pause t) ≤ b.pause t := Nat.min_le_left ..
  have nearer := sleepsFor_sub_slept (b.pause_pos t)
  rw [← whole] at count
  have reached : u = t + slept (b.pause t) := rfl
  by_cases early : u < b.refillTime t 1
  · have same : b.steps u = b.steps t := steps_eq_of_lt (Nat.le_add_right ..) early
    have next : b.refillTime u 1 = b.refillTime t 1 := by
      rw [refillTime_eq, refillTime_eq, same]
    have left : b.refillTime t 1 - u = b.pause t - slept (b.pause t) := by omega
    rw [sleepsUntil, same, next, left]
    rw [sleepsUntil] at count
    omega
  · have moment : u = b.refillTime t 1 := by omega
    have none : b.pause t - slept (b.pause t) = 0 := by omega
    have zero : sleepsFor 0 = 0 := by decide
    have fewer := b.steps_mono le
    have passed : b.steps u - b.steps s = b.steps t - b.steps s + 1 := by
      rw [moment, b.steps_refillTime]
      omega
    have next : b.refillTime u 1 - u = b.interval := by
      rw [moment, refillTime_eq, b.steps_refillTime, refillTime_eq, Nat.add_mul _ 1, Nat.one_mul]
      omega
    rw [none, zero] at nearer
    rw [sleepsUntil] at count
    rw [sleepsUntil, next, passed, Nat.add_mul, Nat.one_mul]
    omega

/-- Tokens that are spent are missing later on, or fewer of them where they had no room. -/
theorem tokens_refill_le_spend (b : Bucket) (n t : Nat) :
    (b.refill t).tokens ≤ n + ((b.spend n).refill t).tokens := by
  show min b.capacity (b.tokens + b.steps t * b.tokensPerInterval) ≤
    n + min b.capacity (b.tokens - n + b.steps t * b.tokensPerInterval)
  omega

end Bucket

namespace Waiter

variable {nap : Nat → Nat} {w : Waiter} {b : Bucket} {now : Nat}

theorem ask_of_pos (h : 1 ≤ (b.refill now).tokens) :
    w.ask nap b now = ({ w with stage := .served now }, (b.refill now).spend 1) := by
  rw [ask, Bucket.take_of_le h]

theorem ask_of_zero (h : (b.refill now).tokens = 0) :
    w.ask nap b now = ({ w with
      sleeps := w.sleeps + 1
      stage := .due (now + nap (b.pause now)) }, b.refill now) := by
  rw [ask, Bucket.take_of_lt (by omega)]
  rfl

theorem tokens_le_one (w : Waiter) : w.tokens ≤ 1 := by
  unfold tokens
  split <;> decide

/-- A turn gives a token or takes a sleep. -/
theorem ask_spends (nap : Nat → Nat) (w : Waiter) (b : Bucket) (now : Nat) :
    (w.ask nap b now).2 = (b.refill now).spend (w.ask nap b now).1.tokens ∧
      b.use now (.ask (.take 1)) = ((w.ask nap b now).1.tokens, (w.ask nap b now).2) ∧
      (w.ask nap b now).1.sleeps + (w.ask nap b now).1.tokens = w.sleeps + 1 ∧
      (w.ask nap b now).1.since = w.since := by
  by_cases some : 1 ≤ (b.refill now).tokens
  · rw [ask_of_pos some]
    exact ⟨rfl, Bucket.use_take_ok (Bucket.take_of_le some), rfl, rfl⟩
  · have none : (b.refill now).tokens = 0 := by omega
    rw [ask_of_zero none]
    exact ⟨rfl, Bucket.use_take_error (Bucket.take_of_lt (by omega)), rfl, rfl⟩

end Waiter

theorem sum_map_set {α : Type} {f : α → Nat} {as : List α} {i : Nat} {a b : α}
    (h : as[i]? = some a) : ((as.set i b).map f).sum + f a = (as.map f).sum + f b := by
  induction as generalizing i with
  | nil => cases h
  | cons c as ih =>
    cases i with
    | zero =>
      cases h
      simp only [List.set_cons_zero, List.map_cons, List.sum_cons]
      omega
    | succ i =>
      have := ih h
      simp only [List.set_cons_succ, List.map_cons, List.sum_cons]
      omega

namespace WaitingRoom

/-- How a waiter fares in a room that began with the bucket `b` and may take `most` refills. -/
structure Fares (nap : Nat → Nat) (b : Bucket) (most : Nat) (room : WaitingRoom) (w : Waiter) :
    Prop where
  /-- Every sleep takes some time. -/
  slept : w.since + w.sleeps ≤ w.stage.time
  soon : w.stage.time ≤ b.refillTime w.since most
  /-- As long as 64 bits can hold the times, there have been so few sleeps that there are enough
  left for the next refill. -/
  counted : nap = LeagueSync.slept → b.refillTime w.since most < UInt64.size →
    w.sleeps + sleepsFor (b.refillTime w.stage.time 1 - w.stage.time) ≤
      b.sleepsUntil w.since w.stage.time
  /-- Each refill that was waited for gave a share. -/
  shares : ∀ t, w.stage = .due t → room.now ≤ t ∧
    (b.steps t - b.steps w.since) * b.share ≤ room.given + (room.bucket.refill t).tokens

/-- The account of a room after some turns, if it began with the bucket `b`. -/
structure Orderly (nap : Nat → Nat) (b : Bucket) (turns : Nat) (room : WaitingRoom) : Prop where
  asked : ∃ asked : List Nat, asked.length = turns ∧
    b.useAll (asked.map (·, .ask (.take 1))) = (room.given, room.bucket)
  count : turns = room.sleeps + room.given
  rule : room.bucket.rule = b.rule
  interval : room.bucket.interval = b.interval
  phase : ∀ t, room.now ≤ t → (room.bucket.refill t).lastRefill = (b.refill t).lastRefill
  fares : ∀ w ∈ room.waiters,
    room.Fares nap b ((room.waiters.length + b.share - 1) / b.share) w

section

variable {nap : Nat → Nat} {b : Bucket} {turns i : Nat} {room next : WaitingRoom}

theorem step?_eq_some (h : room.step? nap i = some next) :
    ∃ w t, room.waiters[i]? = some w ∧ w.stage = .due t ∧
      (∀ u ∈ room.waiters, ∀ s, u.stage = .due s → t ≤ s) ∧
      next = ⟨max room.now t, (w.ask nap room.bucket (max room.now t)).2,
        room.waiters.set i (w.ask nap room.bucket (max room.now t)).1⟩ := by
  obtain ⟨w, found, h⟩ := Option.bind_eq_some_iff.1 h
  cases due : w.stage with
  | served t => simp [due] at h
  | due t =>
    rw [due] at h
    dsimp only at h
    split at h
    · next first =>
      cases h
      refine ⟨w, t, found, due, fun u mem s later => ?_, rfl⟩
      have notBefore := List.all_eq_true.1 first u mem
      rw [Waiter.notBefore, later] at notBefore
      exact of_decide_eq_true notBefore
    · cases h

theorem tokens_of_due {w : Waiter} {t : Nat} (due : w.stage = .due t) : w.tokens = 0 := by
  rw [Waiter.tokens, due]

/-- Who still waits has no token. -/
theorem given_lt_length {w : Waiter} {t : Nat} (found : room.waiters[i]? = some w)
    (due : w.stage = .due t) : room.given < room.waiters.length := by
  have all (us : List Waiter) : (us.map Waiter.tokens).sum ≤ us.length := by
    induction us with
    | nil => exact Nat.le_refl _
    | cons u us ih =>
      have := u.tokens_le_one
      simp only [List.map_cons, List.sum_cons, List.length_cons]
      omega
  -- with a token for this waiter, there would still be one for each at most
  have more := sum_map_set (f := Waiter.tokens) (b := { w with stage := .served t }) found
  have few := all (room.waiters.set i { w with stage := .served t })
  rw [List.length_set] at few
  rw [tokens_of_due due] at more
  have served : Waiter.tokens { w with stage := .served t } = 1 := rfl
  unfold given
  omega

end

namespace Fares

variable {nap : Nat → Nat} {b : Bucket} {most t : Nat} {room : WaitingRoom} {w : Waiter}

theorem still (h : room.Fares nap b most w) {next : WaitingRoom}
    (same : ∀ s, w.stage = .due s → next.now ≤ s ∧
      room.given + (room.bucket.refill s).tokens ≤ next.given + (next.bucket.refill s).tokens) :
    next.Fares nap b most w := by
  refine ⟨h.slept, h.soon, h.counted, fun s due => ?_⟩
  obtain ⟨later, tokens⟩ := same s due
  exact ⟨later, Nat.le_trans (h.shares s due).2 tokens⟩

theorem served (h : room.Fares nap b most w) (due : w.stage = .due t) (next : WaitingRoom) :
    next.Fares nap b most { w with stage := .served t } := by
  have time : w.stage.time = t := by rw [due]; rfl
  obtain ⟨slept, soon, counted, -⟩ := h
  rw [time] at slept soon counted
  exact ⟨slept, soon, counted, fun s none => by cases none⟩

/-- A waiter that is refused has waited for fewer refills than it may, and sleeps until the next one
at most, where a share is waiting. -/
theorem refused (naps : ∀ ms, 0 < ms → 0 < nap ms ∧ nap ms ≤ ms) (h : room.Fares nap b most w)
    (due : w.stage = .due t) {d : Bucket} (rule : d.rule = b.rule)
    (next : d.due = b.refillTime t 1) (none : d.tokens = 0)
    (spent : room.bucket.refill t = d)
    (few : (b.steps t - b.steps w.since) * b.share ≤ room.given →
      b.steps t - b.steps w.since < most)
    (waiters : List Waiter) (given : given ⟨t, d, waiters⟩ = room.given) :
    Fares nap b most ⟨t, d, waiters⟩
      { w with sleeps := w.sleeps + 1, stage := .due (t + nap (room.bucket.pause t)) } := by
  have time : w.stage.time = t := by rw [due]; rfl
  obtain ⟨slept, -, counted, shares⟩ := h
  have waited := (shares t due).2
  rw [time] at slept counted
  rw [spent, none, Nat.add_zero] at waited
  have fewer := few waited
  have later : w.since ≤ t := Nat.le_trans (Nat.le_add_right ..) slept
  have began := b.steps_mono later
  have same : room.bucket.pause t = b.pause t := by
    rw [Bucket.pause, Bucket.pause, Bucket.nextRefill, Bucket.nextRefill, spent, next,
      b.due_refill]
  have most_le := b.pause_le t
  obtain ⟨long, short⟩ := naps (b.pause t) (b.pause_pos t)
  have last : b.refillTime t 1 ≤ b.refillTime w.since most := by
    rw [Bucket.refillTime_eq, Bucket.refillTime_eq]
    exact Nat.add_le_add_left (Nat.mul_le_mul_right _ (by omega)) _
  have ahead := b.lt_refillTime t (Nat.le_refl 1)
  rw [same]
  refine ⟨?_, ?_, fun timer fits => ?_, fun s reached => ?_⟩
  · show w.since + (w.sleeps + 1) ≤ t + nap (b.pause t)
    omega
  · show t + nap (b.pause t) ≤ b.refillTime w.since most
    omega
  · have count := counted timer fits
    subst timer
    exact Bucket.sleepsUntil_slept later (Nat.lt_of_le_of_lt last fits) count
  · cases reached
    refine ⟨Nat.le_add_right .., ?_⟩
    rw [given]
    exact Bucket.shares_le rule next none later waited (Nat.le_add_right ..) (by omega)

/-- There are no more sleeps than it takes to reach the last refill that a waiter may wait for. -/
theorem sleeps_le (h : room.Fares LeagueSync.slept b most w) (some : 1 ≤ most)
    (fits : b.refillTime w.since most < UInt64.size) :
    w.sleeps ≤
      sleepsFor (b.refillTime w.since 1 - w.since) + (most - 1) * sleepsFor b.interval := by
  have count := h.counted rfl fits
  have last := b.steps_mono h.soon
  rw [b.steps_refillTime] at last
  rw [Bucket.sleepsUntil] at count
  rcases Nat.lt_or_eq_of_le (show b.steps w.stage.time - b.steps w.since ≤ most by omega) with
    before | reached
  · have refills := Nat.mul_le_mul_right (sleepsFor b.interval) (Nat.le_sub_one_of_lt before)
    omega
  · -- it was served at that refill, and the next one is a whole interval away
    have passed : b.steps w.stage.time = b.steps w.since + most := by omega
    have here := Nat.div_mul_le_self (w.stage.time - b.lastRefill) b.interval
    have there : b.refillTime w.since most ≤ w.stage.time := by
      have some : 0 < b.steps w.stage.time * b.interval :=
        Nat.mul_pos (by omega) b.interval_pos
      rw [Bucket.refillTime_eq, ← passed]
      rw [← Bucket.steps] at here
      omega
    have moment := Nat.le_antisymm h.soon there
    have whole : b.refillTime w.stage.time 1 - w.stage.time = b.interval := by
      rw [Bucket.refillTime_eq, passed, Nat.add_mul _ 1, Nat.one_mul]
      rw [Bucket.refillTime_eq] at moment
      omega
    rw [whole, reached] at count
    have total : (most - 1) * sleepsFor b.interval + sleepsFor b.interval =
        most * sleepsFor b.interval := by
      rw [← Nat.succ_mul, Nat.succ_eq_add_one, Nat.sub_add_cancel some]
    omega

end Fares

namespace Orderly

variable {nap : Nat → Nat} {b : Bucket} {turns i : Nat} {room next : WaitingRoom}

/-- How the waiter fares whose turn it is. -/
theorem fares_ask (naps : ∀ ms, 0 < ms → 0 < nap ms ∧ nap ms ≤ ms) (positive : 0 < b.share)
    (h : room.Orderly nap b turns) {w : Waiter} {t : Nat} (found : room.waiters[i]? = some w)
    (due : w.stage = .due t) (here : room.now ≤ t) :
    Fares nap b ((room.waiters.length + b.share - 1) / b.share)
      ⟨t, (w.ask nap room.bucket t).2, room.waiters.set i (w.ask nap room.bucket t).1⟩
      (w.ask nap room.bucket t).1 := by
  have fares := h.fares w (List.mem_of_getElem? found)
  have given := sum_map_set (f := Waiter.tokens) (b := (w.ask nap room.bucket t).1) found
  rw [tokens_of_due due, Nat.add_zero] at given
  by_cases some : 1 ≤ (room.bucket.refill t).tokens
  · rw [Waiter.ask_of_pos some]
    exact fares.served due _
  · have none : (room.bucket.refill t).tokens = 0 := by omega
    rw [Waiter.ask_of_zero none] at given ⊢
    have next : (room.bucket.refill t).due = b.refillTime t 1 := by
      rw [← b.due_refill, Bucket.due, Bucket.due, h.phase t here]
      exact congrArg _ h.interval
    have waiting := given_lt_length found due
    have few (waited : (b.steps t - b.steps w.since) * b.share ≤ room.given) :
        b.steps t - b.steps w.since < (room.waiters.length + b.share - 1) / b.share := by
      rw [Nat.lt_div_iff_mul_lt positive]
      omega
    exact fares.refused (d := room.bucket.refill t) naps due h.rule next none rfl few _ given

theorem step? (naps : ∀ ms, 0 < ms → 0 < nap ms ∧ nap ms ≤ ms) (positive : 0 < b.share)
    (h : room.Orderly nap b turns) (stepped : room.step? nap i = some next) :
    next.Orderly nap b (turns + 1) := by
  obtain ⟨w, t, found, due, first, rfl⟩ := step?_eq_some stepped
  have fares := h.fares w (List.mem_of_getElem? found)
  obtain ⟨here, -⟩ := fares.shares t due
  rw [Nat.max_eq_right here]
  obtain ⟨spent, used, once, -⟩ := w.ask_spends nap room.bucket t
  have given := sum_map_set (f := Waiter.tokens) (b := (w.ask nap room.bucket t).1) found
  have sleeps := sum_map_set (f := Waiter.sleeps) (b := (w.ask nap room.bucket t).1) found
  rw [tokens_of_due due, Nat.add_zero] at given
  obtain ⟨asked, length, uses⟩ := h.asked
  refine ⟨⟨asked ++ [t], by simp [length], ?_⟩, ?_, ?_, ?_, fun s later => ?_, ?_⟩
  · rw [List.map_append, Bucket.useAll_append, uses]
    simp only [List.map_cons, List.map_nil, Bucket.useAll, used]
    exact Prod.ext given.symm rfl
  · have count := h.count
    unfold WaitingRoom.sleeps WaitingRoom.given at count ⊢
    dsimp only
    omega
  · rw [spent]
    exact h.rule
  · rw [spent]
    exact h.interval
  · rw [spent]
    show ((room.bucket.refill t).refill s).lastRefill = _
    rw [room.bucket.refill_refill later]
    exact h.phase s (Nat.le_trans here later)
  · intro u mem
    rw [List.length_set] at *
    rcases List.mem_or_eq_of_mem_set mem with mem | rfl
    · refine (h.fares u mem).still fun s later => ⟨first u mem s later, ?_⟩
      have less :=
        (room.bucket.refill t).tokens_refill_le_spend (w.ask nap room.bucket t).1.tokens s
      rw [room.bucket.refill_refill (first u mem s later), ← spent] at less
      show room.given + _ ≤ (List.map _ _).sum + _
      rw [given, Nat.add_assoc]
      exact Nat.add_le_add_left less _
    · exact h.fares_ask naps positive found due here

theorem replay? (naps : ∀ ms, 0 < ms → 0 < nap ms ∧ nap ms ≤ ms) (positive : 0 < b.share)
    {is : List Nat} (h : room.Orderly nap b turns) (ran : room.replay? nap is = some next) :
    next.Orderly nap b (turns + is.length) := by
  induction is generalizing room turns with
  | nil =>
    cases ran
    exact h
  | cons i is ih =>
    obtain ⟨middle, stepped, rest⟩ := Option.bind_eq_some_iff.1 ran
    have := ih (h.step? naps positive stepped) rest
    rwa [Nat.add_right_comm] at this

end Orderly

theorem replay?_invariant {nap : Nat → Nat} {I : WaitingRoom → Prop}
    (step : ∀ room next i, I room → room.step? nap i = some next → I next)
    {room next : WaitingRoom} {is : List Nat} (start : I room)
    (ran : room.replay? nap is = some next) : I next := by
  induction is generalizing room with
  | nil =>
    cases ran
    exact start
  | cons i is ih =>
    obtain ⟨middle, stepped, rest⟩ := Option.bind_eq_some_iff.1 ran
    exact ih (step room middle i start stepped) rest

theorem since_step? {nap : Nat → Nat} {room next : WaitingRoom} {i : Nat}
    (stepped : room.step? nap i = some next) :
    next.waiters.map Waiter.since = room.waiters.map Waiter.since := by
  obtain ⟨w, t, found, -, -, rfl⟩ := step?_eq_some stepped
  obtain ⟨-, -, -, same⟩ := w.ask_spends nap room.bucket (max room.now t)
  exact Fleet.map_set_of_same found same

theorem since_replay? {nap : Nat → Nat} {b : Bucket} {now : Nat} {starts turns : List Nat}
    {room : WaitingRoom} (ran : (opened b now starts).replay? nap turns = some room) :
    room.waiters.map Waiter.since = starts.map (max now) := by
  refine replay?_invariant (I := fun room => room.waiters.map Waiter.since = starts.map (max now))
    (fun _ _ _ held stepped => (since_step? stepped).trans held) ?_ ran
  simp [opened]

theorem orderly_opened (nap : Nat → Nat) {b : Bucket} (positive : 0 < b.share) (now : Nat)
    (starts : List Nat) : (opened b now starts).Orderly nap b 0 := by
  have given : (opened b now starts).given = 0 := by
    simp [WaitingRoom.given, opened, Waiter.tokens, Function.comp_def, List.map_const']
  have sleeps : (opened b now starts).sleeps = 0 := by
    simp [WaitingRoom.sleeps, opened, Function.comp_def, List.map_const']
  refine ⟨⟨[], rfl, ?_⟩, ?_, rfl, rfl, fun t _ => rfl, fun w mem => ?_⟩
  · rw [given]
    rfl
  · rw [given, sleeps]
  · have some : 0 < (opened b now starts).waiters.length := List.length_pos_of_mem mem
    have most : 1 ≤ ((opened b now starts).waiters.length + b.share - 1) / b.share :=
      (Nat.one_le_div_iff positive).2 (by omega)
    obtain ⟨s, -, rfl⟩ := List.mem_map.1 mem
    refine ⟨Nat.le_refl _, Nat.le_of_lt (b.lt_refillTime _ most), fun _ _ => ?_, fun t due => ?_⟩
    · show 0 + _ ≤ b.sleepsUntil (max now s) (max now s)
      rw [Bucket.sleepsUntil, Nat.zero_add]
      exact Nat.le_add_right ..
    cases due
    refine ⟨Nat.le_max_left .., ?_⟩
    rw [Nat.sub_self, Nat.zero_mul]
    exact Nat.zero_le _

/-- As long as someone waits, it is someone's turn: whoever is due first. -/
theorem exists_step? {room : WaitingRoom} {w : Waiter} {t : Nat} (nap : Nat → Nat)
    (mem : w ∈ room.waiters) (due : w.stage = .due t) : ∃ i, room.step? nap i ≠ none := by
  have waiting : ∃ s, ∃ u ∈ room.waiters, u.stage = .due s := ⟨t, w, mem, due⟩
  classical
  obtain ⟨u, mem, first⟩ := Nat.find_spec waiting
  obtain ⟨i, found⟩ := List.getElem?_of_mem mem
  have all : ∀ v ∈ room.waiters, v.notBefore (Nat.find waiting) = true := by
    intro v mem
    unfold Waiter.notBefore
    split
    · next s later => exact decide_eq_true (Nat.find_le ⟨v, mem, later⟩)
    · rfl
  refine ⟨i, ?_⟩
  simpa [step?, found, first] using all

theorem served_of_done {nap : Nat → Nat} {room : WaitingRoom}
    (done : ∀ i, room.step? nap i = none) : ∀ w ∈ room.waiters, ∃ t, w.stage = .served t := by
  intro w mem
  cases stage : w.stage with
  | served t => exact ⟨t, rfl⟩
  | due t =>
    obtain ⟨i, goes⟩ := exists_step? nap mem stage
    exact absurd (done i) goes

/-! ## All waiters -/

theorem turns_le {nap : Nat → Nat} {b : Bucket} {most : Nat} {room : WaitingRoom}
    (fares : ∀ w ∈ room.waiters, room.Fares nap b most w) :
    room.sleeps + room.given ≤
      (room.waiters.map fun w => b.refillTime w.since most - w.since + 1).sum := by
  rw [sleeps, given, ← List.sum_map_add]
  refine List.sum_le_sum fun w mem => ?_
  have slept := (fares w mem).slept
  have soon := (fares w mem).soon
  have one : w.tokens ≤ 1 := w.tokens_le_one
  omega

theorem given_of_served {room : WaitingRoom}
    (served : ∀ w ∈ room.waiters, ∃ t, w.stage = .served t) :
    room.given = room.waiters.length := by
  have one : ∀ w ∈ room.waiters, w.tokens = 1 := by
    intro w mem
    obtain ⟨t, served⟩ := served w mem
    rw [Waiter.tokens, served]
  rw [given, List.map_congr_left one, List.map_const', List.sum_replicate_nat, Nat.mul_one]

/-! ## One waiter alone -/

theorem takeToken_of_zero {l : Link} (refills : l.bucket.Refills)
    (none : (l.bucket.refill l.now).tokens = 0) :
    Client.takeToken .wait l = (.ok (), { l with
      now := (l.bucket.refill l.now).due
      bucket := ((l.bucket.refill l.now).refill (l.bucket.refill l.now).due).spend 1 }) := by
  have refills : (l.bucket.refill l.now).Refills := refills
  have short : (l.bucket.refill l.now).tokens < 1 := by omega
  simp only [Client.takeToken, Bucket.take_of_lt short,
    Bucket.take_of_le (refills.tokens_pos (Nat.le_refl _))]

/-- Where a link's only waiter stands. -/
inductive Alone (l : Link) : WaitingRoom → Prop where
  | fresh : Alone l (opened l.bucket l.now [l.now])
  | asleep (w : Waiter) (now t : Nat) (due : w.stage = .due t) (waits : now ≤ t)
      (none : (l.bucket.refill l.now).tokens = 0)
      (before : t ≤ (l.bucket.refill l.now).due) :
      Alone l ⟨now, l.bucket.refill l.now, [w]⟩
  | served (w : Waiter) (now t : Nat) (bucket : Bucket) (served : w.stage = .served t)
      (took : Client.takeToken .wait l = (.ok (), { l with now, bucket })) :
      Alone l ⟨now, bucket, [w]⟩

theorem Alone.step? {nap : Nat → Nat} (naps : ∀ ms, 0 < ms → 0 < nap ms ∧ nap ms ≤ ms) {l : Link}
    (refills : l.bucket.Refills) {room next : WaitingRoom} {i : Nat} (h : Alone l room)
    (stepped : room.step? nap i = some next) : Alone l next := by
  obtain ⟨w, t, found, due, -, rfl⟩ := step?_eq_some stepped
  have ahead := l.bucket.lt_due_refill l.now
  cases h with
  | fresh =>
    simp only [opened, List.map_cons, List.map_nil, Nat.max_self, List.getElem?_singleton] at found
    split at found
    · next first =>
      cases found
      cases due
      rw [first, opened, Nat.max_self]
      by_cases some : 1 ≤ (l.bucket.refill l.now).tokens
      · rw [Waiter.ask_of_pos some]
        refine .served _ _ l.now _ rfl ?_
        rw [Client.takeToken, Bucket.take_of_le some]
      · have none : (l.bucket.refill l.now).tokens = 0 := by omega
        rw [Waiter.ask_of_zero none]
        have short := (naps _ (l.bucket.pause_pos l.now)).2
        have soon := l.bucket.pause_le l.now
        rw [← Bucket.due_refill] at soon
        exact .asleep _ _ _ rfl (Nat.le_add_right ..) none (by omega)
    · cases found
  | asleep v now s due' waits none before =>
    rw [List.getElem?_singleton] at found
    split at found
    · next first =>
      cases found
      cases due.symm.trans due'
      rw [first]
      dsimp only
      rw [Nat.max_eq_right waits]
      by_cases early : t < (l.bucket.refill l.now).due
      · have same := Bucket.refill_of_lt early
        have short := (naps _ ((l.bucket.refill l.now).pause_pos t)).2
        have soon := (l.bucket.refill l.now).pause_le t
        rw [← Bucket.due_refill, same] at soon
        rw [Waiter.ask_of_zero (by rw [same]; exact none), same]
        exact .asleep _ _ _ rfl (Nat.le_add_right ..) none (by omega)
      · have moment : t = (l.bucket.refill l.now).due := by omega
        have refills : (l.bucket.refill l.now).Refills := refills
        rw [moment, Waiter.ask_of_pos (refills.tokens_pos (Nat.le_refl _))]
        exact .served _ _ _ _ rfl (takeToken_of_zero refills none)
    · cases found
  | served v now s bucket served took =>
    rw [List.getElem?_singleton] at found
    split at found
    · cases found
      cases due.symm.trans served
    · cases found

/-- A waiter that has nobody beside it ends up where `Client.takeToken` does, however often its
sleep is cut short. -/
theorem takeToken_eq {nap : Nat → Nat} (naps : ∀ ms, 0 < ms → 0 < nap ms ∧ nap ms ≤ ms) {l : Link}
    (refills : l.bucket.Refills) {is : List Nat} {room : WaitingRoom}
    (ran : (opened l.bucket l.now [l.now]).replay? nap is = some room)
    (done : ∀ i, room.step? nap i = none) :
    Client.takeToken .wait l = (.ok (), { l with now := room.now, bucket := room.bucket }) := by
  have alone := replay?_invariant (I := Alone l)
    (fun _ _ _ held stepped => held.step? naps refills stepped) .fresh ran
  have served := served_of_done done
  cases alone with
  | fresh =>
    obtain ⟨t, stage⟩ := served _ (List.mem_singleton_self _)
    cases stage
  | asleep w now t due =>
    obtain ⟨s, stage⟩ := served w (List.mem_singleton_self w)
    cases due.symm.trans stage
  | served w now t bucket served took => exact took

end WaitingRoom

/-- A call of a crowd that waits for its token takes the turn of a waiter whose sleeps are whole. -/
theorem Crowd.move_holding {c : Client} (env : Surroundings) (crowd : Crowd) (i : Nat) {t : Task}
    {attempt time : Nat} (wait : c.mode = .wait) (holds : t.stage = .holding attempt time)
    (w : Waiter) :
    let asked := w.ask id crowd.link.bucket crowd.link.now
    let next := crowd.move c env i t
    next.link.bucket = asked.2 ∧
      ∃ stage, next.tasks = (crowd.setStage i stage).tasks ∧
        match asked.1.stage with
        | .due time => stage = .holding attempt time
        | .served time => ∃ duration result,
          stage = .sending attempt (time + duration) duration result := by
  intro asked next
  by_cases some : 1 ≤ (crowd.link.bucket.refill crowd.link.now).tokens
  · have turn : asked = _ := Waiter.ask_of_pos some
    have moved : next = crowd.move c env i t := rfl
    simp only [Crowd.move, holds, Bucket.take_of_le some] at moved
    rw [turn, moved]
    exact ⟨rfl, _, rfl, _, _, rfl⟩
  · have none : (crowd.link.bucket.refill crowd.link.now).tokens = 0 := by omega
    have turn : asked = _ := Waiter.ask_of_zero none
    have moved : next = crowd.move c env i t := rfl
    simp only [Crowd.move, holds, wait, Bucket.take_of_lt (Nat.not_le.1 some)] at moved
    rw [turn, moved]
    exact ⟨rfl, _, rfl, rfl⟩

/-- Unless the clock was turned back, the refills come at whole intervals after the start. -/
theorem Bucket.Account.refillTime_eq {c : RateLimitConfig} {start given seen s : Nat} {b : Bucket}
    (h : Account c start given seen b) (later : seen ≤ s) (k : Nat) :
    b.refillTime s k = start + ((s - start) / b.interval + k) * b.interval := by
  obtain ⟨steps, last, -⟩ := h.balance
  have reached := Nat.le_trans h.lastRefill_le later
  have fewer : steps ≤ (s - start) / b.interval := by
    rw [Nat.le_div_iff_mul_le b.interval_pos]
    omega
  have passed : b.steps s = (s - start) / b.interval - steps := by
    rw [Bucket.steps, last, ← Nat.sub_sub, Nat.mul_comm, Nat.sub_mul_div]
  have total := Nat.sub_add_cancel fewer
  rw [Bucket.refillTime_eq, passed, last, Nat.add_assoc, ← Nat.add_mul]
  exact congrArg (start + · * b.interval) (by omega)

/-- Tasks that wait for tokens of a bucket of an accepted configuration, as any uses may have left
it, and that nobody else takes tokens from. Let `most` be the number of tasks by the share of a
refill, rounded up, and the refill of that number after each task began one that 64 bits can hold.
In whatever order they have their turns: one token is given for each that is served; the turns are
bounded, and when they are over everyone is served. Nobody waits past that refill, and nobody sleeps
more often than it takes to reach the first refill and then each one up to that. So a task that is
alone sleeps once, if a sleep can last until the first refill. That is one interval away at most,
and the refills come at whole intervals, unless the clock was turned back. A client that takes a
token alone ends up as such a task does. -/
theorem waiters_served (cfg : Config) (valid : cfg.check = .ok cfg) (start : Nat)
    (uses : List (Nat × BucketUse)) (now : Nat) (starts turns : List Nat) (room : WaitingRoom)
    (ran : (WaitingRoom.opened ((Bucket.full cfg.http.rateLimit start).useAll uses).2 now
      starts).replay? slept turns = some room) :
    let b := ((Bucket.full cfg.http.rateLimit start).useAll uses).2
    let interval := cfg.http.rateLimit.intervalMs.toNat
    let share := min cfg.http.rateLimit.capacity.toNat cfg.http.rateLimit.tokensPerInterval.toNat
    let most := (starts.length + share - 1) / share
    (∀ s ∈ starts, b.refillTime (max now s) most < UInt64.size) →
      room.waiters.map Waiter.since = starts.map (max now) ∧
      (∃ asked : List Nat, asked.length = turns.length ∧
        b.useAll (asked.map (·, .ask (.take 1))) = (room.given, room.bucket)) ∧
      turns.length ≤ ((starts.map (max now)).map fun s => b.refillTime s most - s + 1).sum ∧
      ((∀ i, room.step? slept i = none) →
        room.given = starts.length ∧ ∀ w ∈ room.waiters, ∃ t, w.stage = .served t) ∧
      (∀ w ∈ room.waiters, w.stage.time ≤ b.refillTime w.since most ∧
        w.sleeps ≤ sleepsFor (b.refillTime w.since 1 - w.since) + (most - 1) * sleepsFor interval) ∧
      (starts.length = 1 → most = 1 ∧ ∀ w ∈ room.waiters,
        b.refillTime w.since 1 - w.since ≤ longestSleep → w.sleeps ≤ 1) ∧
      (start ≤ now → (∀ u ∈ uses, u.1 ≤ now) → ∀ s, now ≤ s →
        b.refillTime s 1 - s ≤ interval ∧
        ∀ k, b.refillTime s k = start + ((s - start) / interval + k) * interval) ∧
      ∀ l : Link, l.bucket = b → l.now = now → starts = [now] →
        (∀ i, room.step? slept i = none) →
        Client.takeToken .wait l = (.ok (), { l with now := room.now, bucket := room.bucket }) := by
  intro b interval share most fits
  have naps : ∀ ms, 0 < ms → 0 < slept ms ∧ slept ms ≤ ms := fun ms some =>
    ⟨slept_pos some, Nat.min_le_left ..⟩
  have positive := (Config.check_eq_ok_iff cfg).1 valid
  have account := (Bucket.account_full cfg.http.rateLimit start).useAll uses
  have interval_eq : b.interval = interval :=
    account.interval.trans (Nat.max_eq_right (Nat.pos_of_ne_zero (positive .intervalMs)))
  have share_eq : b.share = share := by
    rw [Bucket.share, account.capacity, account.tokensPerInterval]
  have shared : 0 < share := Nat.lt_min.2
    ⟨Nat.pos_of_ne_zero (positive .capacity), Nat.pos_of_ne_zero (positive .tokensPerInterval)⟩
  have orderly := (WaitingRoom.orderly_opened slept (share_eq ▸ shared) now starts).replay? naps
    (share_eq ▸ shared) ran
  have since := WaitingRoom.since_replay? ran
  have length : room.waiters.length = starts.length := by
    have := congrArg List.length since
    rwa [List.length_map, List.length_map] at this
  have fares : ∀ w ∈ room.waiters, room.Fares slept b most w := by
    have fares := orderly.fares
    rw [length, share_eq] at fares
    exact fares
  have sleeps : ∀ w ∈ room.waiters, w.sleeps ≤
      sleepsFor (b.refillTime w.since 1 - w.since) + (most - 1) * sleepsFor interval := by
    intro w mem
    have began : w.since ∈ starts.map (max now) := since ▸ List.mem_map_of_mem mem
    obtain ⟨s, listed, begun⟩ := List.mem_map.1 began
    have some : 1 ≤ most := (Nat.one_le_div_iff shared).2 (by
      have := List.length_pos_of_mem listed
      omega)
    rw [← interval_eq]
    exact (fares w mem).sleeps_le some (begun ▸ fits s listed)
  refine ⟨since, ?_, ?_, fun done => ?_, fun w mem => ⟨(fares w mem).soon, sleeps w mem⟩,
    fun one => ?_, fun started past s later => ?_, ?_⟩
  · have asked := orderly.asked
    rwa [Nat.zero_add] at asked
  · have count := orderly.count
    rw [Nat.zero_add] at count
    rw [← since, List.map_map, count]
    exact WaitingRoom.turns_le fares
  · have served := WaitingRoom.served_of_done done
    exact ⟨(WaitingRoom.given_of_served served).trans length, served⟩
  · have once : most = 1 := by
      show (starts.length + share - 1) / share = 1
      rw [one, Nat.add_sub_cancel_left, Nat.div_self shared]
    refine ⟨once, fun w mem short => ?_⟩
    have few := sleeps w mem
    rw [once, Nat.sub_self, Nat.zero_mul, Nat.add_zero] at few
    exact Nat.le_trans few (sleepsFor_of_le short)
  · have seen := Nat.le_trans (readings_le started past) later
    refine ⟨?_, fun k => by rw [account.refillTime_eq seen k, interval_eq]⟩
    have near : b.refillTime s 1 ≤ s + interval := by
      rw [← Bucket.due_refill, ← interval_eq]
      exact Bucket.due_refill_le (Nat.le_trans account.lastRefill_le seen)
    omega
  · intro l bucket time alone done
    have refills : l.bucket.Refills := by
      rw [bucket]
      exact account.refills (positive .capacity) (positive .tokensPerInterval)
    rw [alone, ← time] at ran
    have ran : (WaitingRoom.opened b l.now [l.now]).replay? slept turns = some room := ran
    rw [← bucket] at ran
    exact WaitingRoom.takeToken_eq naps refills ran done

/-- One token every ten milliseconds from time 3, and room for two, which are taken at 5. Of three
tasks that begin at 7, 7 and 9 the last is served first, at the refill at 13, and the first is
served last, at 33, after three sleeps. -/
theorem waiters_served_out_of_order :
    let cfg : Config := {
      http := { rateLimit := { capacity := 2, tokensPerInterval := 1, intervalMs := 10 } } }
    let uses := [(5, .ask (.take 2))]
    let b := ((Bucket.full cfg.http.rateLimit 3).useAll uses).2
    let turns := [1, 0, 2, 2, 0, 1, 1, 0, 0]
    let room : WaitingRoom := ⟨33, ⟨2, 1, 10, 0, 33, by decide, by decide⟩,
      [⟨7, 3, .served 33⟩, ⟨7, 2, .served 23⟩, ⟨9, 1, .served 13⟩]⟩
    cfg.check = .ok cfg ∧ (WaitingRoom.opened b 7 [7, 7, 9]).replay? slept turns = some room ∧
      (∃ asked : List Nat, asked.length = 9 ∧
        b.useAll (asked.map (·, .ask (.take 1))) = (3, room.bucket)) ∧
      (∀ w ∈ room.waiters, w.stage.time ≤ b.refillTime w.since 3 ∧ w.sleeps ≤ 3) ∧
      b.refillTime 7 3 = 33 := by
  intro cfg uses b turns room
  have valid : cfg.check = .ok cfg := rfl
  have ran : (WaitingRoom.opened b 7 [7, 7, 9]).replay? slept turns = some room := by decide
  obtain ⟨-, asked, -, -, each, -, moments, -⟩ :=
    waiters_served cfg valid 3 uses 7 [7, 7, 9] turns room ran (by decide)
  have share :
      min cfg.http.rateLimit.capacity.toNat cfg.http.rateLimit.tokensPerInterval.toNat = 1 := rfl
  rw [share, Nat.div_one, Nat.add_sub_cancel] at each
  have near : ∀ w ∈ room.waiters,
      sleepsFor (b.refillTime w.since 1 - w.since) + (3 - 1) * sleepsFor 10 ≤ 3 := by decide
  exact ⟨valid, ran, asked, fun w mem => ⟨(each w mem).1, Nat.le_trans (each w mem).2 (near w mem)⟩,
    ((moments (by decide) (by decide) 7 (by decide)).2 3).trans (by decide)⟩

/-- One token every 2^40 milliseconds, and it was taken at 0: a task that asks then has slept twice
when it is served, first for thirty years and then for almost five. With the longest interval there
is, and the token taken at 1, the next refill is past what 64 bits hold: a task that asks then is
told of no wait, and sleeps for a millisecond again and again. -/
theorem slept_more_than_once :
    let rare : Config := { http := { rateLimit :=
      { capacity := 1, tokensPerInterval := 1, intervalMs := 1099511627776 } } }
    let b := ((Bucket.full rare.http.rateLimit 0).useAll [(0, .ask (.take 1))]).2
    let rarest : Config := { http := { rateLimit :=
      { capacity := 1, tokensPerInterval := 1, intervalMs := 18446744073709551615 } } }
    let d := ((Bucket.full rarest.http.rateLimit 1).useAll [(1, .ask (.take 1))]).2
    rare.check = .ok rare ∧
      ((WaitingRoom.opened b 0 [0]).replay? slept [0, 0, 0]).map (·.waiters) =
        some [⟨0, 2, .served 1099511627776⟩] ∧
      rarest.check = .ok rarest ∧
      ((WaitingRoom.opened d 1 [1]).replay? slept [0, 0, 0]).map (·.waiters) =
        some [⟨1, 3, .due 4⟩] := by
  intro rare b rarest d
  exact ⟨rfl, by decide, rfl, by decide⟩

end LeagueSync

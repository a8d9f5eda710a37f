import LeagueSync.Http.Client

/-!
# LeagueSync.Http.Crowd

Calls that are made at the same time over one client. Each attempt first holds a permit, which are
few and are given in the order of asking, then takes a token, and then is sent; permit and token
are waited for with everything else going on. `Crowd.step` moves the one call whose time comes
first, `Crowd.run` all of them to their ends.
-/

namespace LeagueSync

inductive Stage where
  /-- Wants a permit at a time. -/
  | asking (attempt time : Nat)
  /-- Stands in line for a permit. -/
  | inLine (attempt : Nat)
  /-- Has a permit and wants a token at a time. -/
  | holding (attempt time : Nat)
  /-- Has a permit; the exchange ends at a time. -/
  | sending (attempt time duration : Nat) (result : Except HttpError Response)
  | ended (result : Except HttpError Response)

structure Task where
  call : Call
  request : Request
  stage : Stage

structure Crowd where
  link : Link
  /-- Permits that nobody holds. -/
  free : Nat
  /-- The tasks that wait for a permit, first come first. -/
  line : List Nat
  tasks : Array Task

/-- When a task moves next by itself. -/
def Stage.time? : Stage → Option Nat
  | asking _ time => some time
  | inLine _ => none
  | holding _ time => some time
  | sending _ time _ _ => some time
  | ended _ => none

def Stage.result? : Stage → Option (Except HttpError Response)
  | ended result => some result
  | _ => none

namespace Crowd

def setStage (w : Crowd) (i : Nat) (stage : Stage) : Crowd :=
  { w with tasks := w.tasks.modify i fun t => { t with stage } }

/-- Gives a permit back: the first in line has it at once. -/
def release (w : Crowd) : Crowd :=
  match w.line with
  | [] => { w with free := w.free + 1 }
  | i :: line =>
    match (w.tasks[i]?).map Task.stage with
    | some (.inLine attempt) => { w with line }.setStage i (.holding attempt w.link.now)
    | _ => { w with line }

/-- Ends an attempt: the permit is given back, and the call ends or rests. -/
def finish (c : Client) (w : Crowd) (i attempt : Nat) (result : Except HttpError Response) : Crowd :=
  let stage := match result with
    | .ok response => Stage.ended (.ok response)
    | .error e => match c.policy.next attempt e with
      | .error e => .ended (.error e)
      | .ok wait => .asking (attempt + 1) (w.link.now + slept wait)
  (w.setStage i stage).release

def move (c : Client) (env : Surroundings) (w : Crowd) (i : Nat) (t : Task) : Crowd :=
  match t.stage with
  | .asking attempt _ =>
    match w.free with
    | 0 => { w with line := w.line ++ [i] }.setStage i (.inLine attempt)
    | free + 1 => { w with free }.setStage i (.holding attempt w.link.now)
  | .holding attempt _ =>
    match w.link.bucket.take w.link.now 1 with
    | (.ok (), bucket) =>
      let exchange := env.transport w.link.sent t.request
      let duration := exchange.duration (c.limit t.call)
      let time := w.link.now + duration
      let result := exchange.outcome (c.limit t.call) (env.timeOfDay time)
      { w with link := { w.link with bucket, sent := w.link.sent + 1 } }.setStage i
        (.sending attempt time duration result)
    | (.error refusal, bucket) =>
      let w := { w with link := { w.link with bucket } }
      match c.mode with
      | .failFast => w.finish c i attempt (.error refusal.error)
      | .wait => w.setStage i (.holding attempt (w.link.now + max 1 refusal.nextIn))
  | .sending attempt _ duration result =>
    let record := RequestRecord.ofResult t.call attempt duration result
    let link := { w.link with
      records := w.link.records ++ [record]
      metrics := w.link.metrics.addRequest record }
    { w with link }.finish c i attempt result
  | _ => w

/-- The task that moves next, and when: the earliest, and of several the first. -/
def nextUp? (w : Crowd) : Option (Nat × Nat) :=
  let times := w.tasks.toList.zipIdx.filterMap fun (t, i) => t.stage.time?.map fun time => (time, i)
  times.foldl (fun best x =>
    match best with
    | none => some x
    | some b => if x.1 < b.1 then some x else some b) none

/-- Moves the task that is next, letting time pass until then. -/
def step? (c : Client) (env : Surroundings) (w : Crowd) : Option Crowd := do
  let (time, i) ← w.nextUp?
  let t ← w.tasks[i]?
  let w := { w with link := { w.link with now := max w.link.now time } }
  some (w.move c env i t)

/-- Moves tasks until none can, at most `fuel` times. -/
def run (c : Client) (env : Surroundings) : Nat → Crowd → Crowd
  | 0, w => w
  | fuel + 1, w =>
    match w.step? c env with
    | some w => run c env fuel w
    | none => w

/-- A number of moves that is enough: of all attempts, one gets a token at each refill. -/
def moves (c : Client) (calls : Nat) : Nat :=
  let attempts := calls * c.policy.attempts + 1
  attempts * (attempts + 4)

end Crowd

namespace Client

/-- Starts a call of a crowd; one that cannot be made has ended. -/
def enter (c : Client) (now : Nat) (call : Call) : Task :=
  match call.resolve? c.baseUrl with
  | .error fault => ⟨call, ⟨"", "", [], [], none⟩, .ended (.error (.invalid fault))⟩
  | .ok request => ⟨call, request, .asking 1 now⟩

/-- Makes calls at the same time. The results are in the order of the calls; a call that is still
under way has none. -/
def requestAll (c : Client) (env : Surroundings) (calls : List Call) (l : Link) :
    List (Option (Except HttpError Response)) × Link :=
  let start : Crowd := ⟨l, c.permits, [], (calls.map (c.enter l.now)).toArray⟩
  let w := start.run c env (Crowd.moves c calls.length)
  (w.tasks.toList.map (·.stage.result?), w.link)

end Client
end LeagueSync

import Mathlib.Data.List.Basic
import LeagueSync.Http.Crowd
import LeagueSync.Throttle.Limiter

/-!
# LeagueSync.Proofs.PermitAccount

The permits of a client with several calls under way. A permit is held while an attempt waits for
its token and while it is sent, and at no other time.

* `Crowd.Permitted`: the invariant. All permits are free or held by such an attempt, and who stands
  in line is there once and holds none.
* `Crowd.permitted_move`: every move of a call keeps it. A call that stops holding its permit gives
  it back, whichever way its attempt ended (`Crowd.permitted_finish`).
* `Crowd.link_move`: what a move does to the bucket and to the number of requests sent.
-/

namespace LeagueSync

def Stage.holdsPermit : Stage → Bool
  | holding .. | sending .. => true
  | asking .. | inLine .. | ended .. => false

namespace Crowd

/-- How many attempts hold a permit. -/
def underWay (w : Crowd) : Nat :=
  w.tasks.toList.countP (·.stage.holdsPermit)

structure Permitted (permits : Nat) (w : Crowd) : Prop where
  account : w.free + w.underWay = permits
  nodup : w.line.Nodup
  waits : ∀ i ∈ w.line, ∃ t attempt, w.tasks[i]? = some t ∧ t.stage = .inLine attempt

theorem countP_modify {α : Type} {p : α → Bool} {f : α → α} {as : List α} {i : Nat} {a : α}
    (h : as[i]? = some a) :
    (as.modify i f).countP p + (p a).toNat = as.countP p + (p (f a)).toNat := by
  have count (b : α) (bs : List α) : (b :: bs).countP p = (p b).toNat + bs.countP p := by
    cases pb : p b <;> simp [pb, Nat.add_comm]
  induction as generalizing i with
  | nil => cases h
  | cons b as ih =>
    cases i with
    | zero =>
      cases h
      rw [List.modify_zero_cons, count, count]
      omega
    | succ i =>
      have := ih h
      rw [List.modify_succ_cons, count, count]
      omega

section Stages

variable {w : Crowd} {i j : Nat} {t : Task} {stage : Stage}

theorem underWay_setStage (h : w.tasks[i]? = some t) (stage : Stage) :
    (w.setStage i stage).underWay + t.stage.holdsPermit.toNat =
      w.underWay + stage.holdsPermit.toNat := by
  have found : w.tasks.toList[i]? = some t := by rw [Array.getElem?_toList, h]
  rw [underWay, setStage, Array.toList_modify]
  exact countP_modify found

theorem getElem?_setStage_of_ne (h : i ≠ j) : (w.setStage i stage).tasks[j]? = w.tasks[j]? := by
  rw [setStage, Array.getElem?_modify, if_neg h]

theorem getElem?_setStage_self (h : w.tasks[i]? = some t) :
    (w.setStage i stage).tasks[i]? = some { t with stage } := by
  rw [setStage, Array.getElem?_modify, if_pos rfl, h, Option.map_some]

end Stages

variable {permits : Nat} {w : Crowd} {i : Nat} {t : Task}

theorem Permitted.not_mem_line (h : w.Permitted permits) (found : w.tasks[i]? = some t)
    (here : ∀ attempt, t.stage ≠ .inLine attempt) : i ∉ w.line := by
  intro mem
  obtain ⟨u, attempt, same, waits⟩ := h.waits i mem
  cases found.symm.trans same
  exact here attempt waits

/-- A call goes on to another stage and keeps its permit, or keeps having none. -/
theorem Permitted.setStage (h : w.Permitted permits) (found : w.tasks[i]? = some t)
    (here : ∀ attempt, t.stage ≠ .inLine attempt) {stage : Stage}
    (same : stage.holdsPermit = t.stage.holdsPermit) : (w.setStage i stage).Permitted permits := by
  have apart := h.not_mem_line found here
  refine ⟨?_, h.nodup, fun j mem => ?_⟩
  · have count := underWay_setStage found stage
    rw [same] at count
    rw [← h.account]
    exact congrArg (w.free + ·) (Nat.add_right_cancel count)
  · rw [getElem?_setStage_of_ne (ne_of_mem_of_not_mem mem apart).symm]
    exact h.waits j mem

/-- A permit is given back: it is free, or the first in line has it. -/
theorem permitted_release (account : w.free + w.underWay + 1 = permits) (nodup : w.line.Nodup)
    (waits : ∀ i ∈ w.line, ∃ t attempt, w.tasks[i]? = some t ∧ t.stage = .inLine attempt) :
    w.release.Permitted permits := by
  unfold release
  split
  · next none =>
    refine ⟨?_, nodup, waits⟩
    rw [← account]
    exact Nat.add_right_comm ..
  · next i line some =>
    rw [some] at nodup waits
    obtain ⟨t, attempt, found, inLine⟩ := waits i (List.mem_cons_self ..)
    obtain ⟨apart, nodup⟩ := List.nodup_cons.1 nodup
    simp only [found, Option.map_some, inLine]
    refine ⟨?_, nodup, fun j mem => ?_⟩
    · have count := underWay_setStage (w := { w with line }) found (.holding attempt w.link.now)
      rw [inLine] at count
      have : underWay { w with line } = w.underWay := rfl
      have : (Crowd.setStage { w with line } i (.holding attempt w.link.now)).free = w.free := rfl
      simp only [Stage.holdsPermit, Bool.toNat_true, Bool.toNat_false] at count
      omega
    · rw [getElem?_setStage_of_ne (ne_of_mem_of_not_mem mem apart).symm]
      exact waits j (List.mem_cons_of_mem _ mem)

/-- After an attempt the call is over or rests. -/
theorem exists_finish (c : Client) (w : Crowd) (i attempt : Nat)
    (result : Except HttpError Response) :
    ∃ stage, w.finish c i attempt result = (w.setStage i stage).release ∧
      stage.holdsPermit = false := by
  refine ⟨_, rfl, ?_⟩
  split
  · rfl
  · split <;> rfl

theorem permitted_finish (h : w.Permitted permits) (found : w.tasks[i]? = some t)
    (holds : t.stage.holdsPermit = true) (c : Client) (attempt : Nat)
    (result : Except HttpError Response) : (w.finish c i attempt result).Permitted permits := by
  have apart : i ∉ w.line := h.not_mem_line found fun attempt inLine => by
    rw [inLine] at holds
    cases holds
  obtain ⟨stage, finished, gone⟩ := exists_finish c w i attempt result
  rw [finished]
  refine permitted_release ?_ h.nodup fun j mem => ?_
  · have count := underWay_setStage found stage
    have account := h.account
    have : (w.setStage i stage).free = w.free := rfl
    rw [holds, gone] at count
    simp only [Bool.toNat_true, Bool.toNat_false] at count
    omega
  · rw [getElem?_setStage_of_ne (ne_of_mem_of_not_mem mem apart).symm]
    exact h.waits j mem

theorem Permitted.relink (h : w.Permitted permits) (link : Link) :
    Permitted permits { w with link } :=
  ⟨h.account, h.nodup, h.waits⟩

theorem permitted_stand (h : w.Permitted permits) (found : w.tasks[i]? = some t)
    (here : ∀ attempt, t.stage ≠ .inLine attempt) (free : t.stage.holdsPermit = false)
    (attempt : Nat) :
    (setStage { w with line := w.line ++ [i] } i (.inLine attempt)).Permitted permits := by
  have apart := h.not_mem_line found here
  refine ⟨?_, ?_, fun j mem => ?_⟩
  · have count := underWay_setStage found (.inLine attempt)
    rw [free] at count
    exact (congrArg (w.free + ·) (Nat.add_right_cancel count)).trans h.account
  · refine List.nodup_append.2 ⟨h.nodup, List.pairwise_singleton _ i, fun j mem k last => ?_⟩
    rw [List.mem_singleton.1 last]
    exact ne_of_mem_of_not_mem mem apart
  · rcases List.mem_append.1 mem with mem | mem
    · rw [getElem?_setStage_of_ne (ne_of_mem_of_not_mem mem apart).symm]
      exact h.waits j mem
    · rw [List.mem_singleton.1 mem]
      exact ⟨_, attempt, getElem?_setStage_self (w := { w with line := w.line ++ [i] }) found, rfl⟩

theorem permitted_hold (h : w.Permitted permits) (found : w.tasks[i]? = some t)
    (here : ∀ attempt, t.stage ≠ .inLine attempt) (none : t.stage.holdsPermit = false) {free : Nat}
    (some : w.free = free + 1) {stage : Stage} (holds : stage.holdsPermit = true) :
    (setStage { w with free } i stage).Permitted permits := by
  have apart := h.not_mem_line found here
  refine ⟨?_, h.nodup, fun j mem => ?_⟩
  · have count := underWay_setStage found stage
    have account := h.account
    rw [none, holds] at count
    simp only [Bool.toNat_true, Bool.toNat_false] at count
    show free + (w.setStage i stage).underWay = permits
    omega
  · rw [getElem?_setStage_of_ne (ne_of_mem_of_not_mem mem apart).symm]
    exact h.waits j mem

theorem permitted_move (c : Client) (env : Surroundings) (h : w.Permitted permits)
    (found : w.tasks[i]? = some t) : (w.move c env i t).Permitted permits := by
  unfold move
  cases stage : t.stage with
  | asking attempt time =>
    have here : ∀ attempt, t.stage ≠ .inLine attempt := by simp [stage]
    have none : t.stage.holdsPermit = false := by rw [stage]; rfl
    dsimp only
    split
    · exact permitted_stand h found here none attempt
    · next free some => exact permitted_hold h found here none some rfl
  | inLine attempt => exact h
  | holding attempt time =>
    have here : ∀ attempt, t.stage ≠ .inLine attempt := by simp [stage]
    have holds : t.stage.holdsPermit = true := by rw [stage]; rfl
    dsimp only
    split
    · apply (h.relink _).setStage
      · exact found
      · exact here
      · exact holds.symm
    · split
      · apply permitted_finish (h.relink _)
        · exact found
        · exact holds
      · apply (h.relink _).setStage
        · exact found
        · exact here
        · exact holds.symm
  | sending attempt time duration result =>
    have holds : t.stage.holdsPermit = true := by rw [stage]; rfl
    apply permitted_finish (h.relink _)
    · exact found
    · exact holds
  | ended result => exact h

theorem holdsPermit_enter (c : Client) (now : Nat) (call : Call) :
    (c.enter now call).stage.holdsPermit = false := by
  unfold Client.enter
  split <;> rfl

theorem permitted_push (h : w.Permitted permits) (none : t.stage.holdsPermit = false) :
    Permitted permits { w with tasks := w.tasks.push t } := by
  refine ⟨?_, h.nodup, fun i mem => ?_⟩
  · have more : underWay { w with tasks := w.tasks.push t } = w.underWay := by
      rw [underWay, Array.toList_push, List.countP_append, List.countP_singleton, none]
      rfl
    rw [more]
    exact h.account
  · obtain ⟨u, attempt, found, inLine⟩ := h.waits i mem
    have inside := (Array.getElem?_eq_some_iff.1 found).1
    refine ⟨u, attempt, ?_, inLine⟩
    rw [Array.getElem?_push, if_neg (Nat.ne_of_lt inside)]
    exact found

theorem link_release (w : Crowd) : w.release.link = w.link := by
  unfold release
  split
  · rfl
  · split <;> rfl

theorem link_finish (c : Client) (w : Crowd) (i attempt : Nat)
    (result : Except HttpError Response) : (w.finish c i attempt result).link = w.link :=
  link_release _

/-- A move asks the bucket for one token or leaves it alone, and sends a request if it gets one. -/
theorem link_move (c : Client) (env : Surroundings) (w : Crowd) (i : Nat) (t : Task) :
    ∃ u, (w.move c env i t).link.sent = w.link.sent + (w.link.bucket.use w.link.now u).1 ∧
      (w.move c env i t).link.bucket = (w.link.bucket.use w.link.now u).2 := by
  unfold move
  cases t.stage with
  | asking attempt time =>
    refine ⟨.look, ?_⟩
    cases w.free <;> exact ⟨rfl, rfl⟩
  | inLine attempt => exact ⟨.look, rfl, rfl⟩
  | holding attempt time =>
    refine ⟨.ask (.take 1), ?_⟩
    dsimp only
    split
    · next bucket took =>
      rw [Bucket.use_take_ok took]
      exact ⟨rfl, rfl⟩
    · next refusal bucket took =>
      rw [Bucket.use_take_error took]
      split
      · rw [link_finish]
        exact ⟨rfl, rfl⟩
      · exact ⟨rfl, rfl⟩
  | sending attempt time duration result =>
    refine ⟨.look, ?_⟩
    dsimp only
    rw [link_finish]
    exact ⟨rfl, rfl⟩
  | ended result => exact ⟨.look, rfl, rfl⟩

end Crowd
end LeagueSync

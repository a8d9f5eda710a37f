import LeagueSync.Proofs.CacheReads

/-!
# LeagueSync.Proofs.CacheCalls

What stores call their backend for. `Noted` is any backend with the calls that were made of it, in
order; a store does on it what it does on the backend inside, so what is noted are the calls that
the store makes. Whatever each call leaves as it is, so do the operations of a store and runs of
them, because they reach the backend in no other way.

* `Shelf.Leads`: calls at one moment lead from one shelf to another, as each operation does;
  `Shelf.LeadsWithin`: and they change nothing but under certain keys.
* `Store.getOrLoad_forget`, `Store.run_forget`: noting the calls changes nothing.
* `Store.run_of_callsOf`: what is kept by each call that is made in a run is kept by the run.
-/

namespace LeagueSync

variable {σ : Type} [Backend σ]

/-! ## Calls -/

inductive CacheCall where
  | get (key : String)
  | set (key data : String) (ttl : Option Nat)
  | setMany (values : List (String × String)) (ttl : Option Nat)
  | delete (key : String)
  deriving DecidableEq, Repr

namespace CacheCall

/-- What a call at a time makes of a backend. -/
def after (now : Nat) (b : σ) : CacheCall → σ
  | get key => (Backend.get now key b).2
  | set key data ttl => (Backend.set now key data ttl b).2
  | setMany values ttl => (Backend.setMany now values ttl b).2
  | delete key => (Backend.delete key b).2

def Writes (key : String) : CacheCall → Prop
  | get _ => False
  | set k _ _ => k = key
  | setMany values _ => key ∈ values.map Prod.fst
  | delete _ => False

/-- Whether a call writes under the key or drops it. -/
def Changes (key : String) (c : CacheCall) : Prop :=
  c.Writes key ∨ c = delete key

/-- Whether a call writes and drops values under these keys only. -/
def Within (keys : String → Prop) (c : CacheCall) : Prop :=
  ∀ key, c.Changes key → keys key

variable {keys : String → Prop}

theorem within_get (key : String) : (get key).Within keys := by
  intro k changes
  rcases changes with written | dropped
  · cases written
  · cases dropped

theorem within_set {key : String} (own : keys key) (data : String) (ttl : Option Nat) :
    (set key data ttl).Within keys := by
  intro k changes
  rcases changes with written | dropped
  · exact (show key = k from written) ▸ own
  · cases dropped

theorem within_setMany {values : List (String × String)} (own : ∀ v ∈ values, keys v.1)
    (ttl : Option Nat) : (setMany values ttl).Within keys := by
  intro k changes
  rcases changes with written | dropped
  · obtain ⟨v, member, rfl⟩ := List.mem_map.1 written
    exact own v member
  · cases dropped

theorem within_delete {key : String} (own : keys key) : (delete key).Within keys := by
  intro k changes
  rcases changes with written | dropped
  · cases written
  · cases dropped
    exact own

end CacheCall

/-- A backend and the calls that were made of it. -/
structure Noted (σ : Type) where
  backend : σ
  calls : List CacheCall := []

namespace Noted

instance : Backend (Noted σ) where
  get now key b :=
    let (answer, backend) := Backend.get now key b.backend
    (answer, ⟨backend, b.calls ++ [.get key]⟩)
  set now key data ttl b :=
    let (result, backend) := Backend.set now key data ttl b.backend
    (result, ⟨backend, b.calls ++ [.set key data ttl]⟩)
  setMany now values ttl b :=
    let (result, backend) := Backend.setMany now values ttl b.backend
    (result, ⟨backend, b.calls ++ [.setMany values ttl]⟩)
  delete key b :=
    let (result, backend) := Backend.delete key b.backend
    (result, ⟨backend, b.calls ++ [.delete key]⟩)

theorem after_eq (now : Nat) (b : Noted σ) (c : CacheCall) :
    c.after now b = ⟨c.after now b.backend, b.calls ++ [c]⟩ := by
  cases c <;> rfl

end Noted

/-- What is forgotten of a backend makes no difference to what it answers. -/
structure Forgets {ρ : Type} [Backend ρ] (view : ρ → σ) : Prop where
  get : ∀ now key b, Backend.get now key (view b) =
    ((Backend.get now key b).1, view (Backend.get now key b).2)
  set : ∀ now key data ttl b, Backend.set now key data ttl (view b) =
    ((Backend.set now key data ttl b).1, view (Backend.set now key data ttl b).2)
  setMany : ∀ now values ttl b, Backend.setMany now values ttl (view b) =
    ((Backend.setMany now values ttl b).1, view (Backend.setMany now values ttl b).2)
  delete : ∀ key b, Backend.delete key (view b) =
    ((Backend.delete key b).1, view (Backend.delete key b).2)

theorem Forgets.all : Forgets (id : σ → σ) :=
  ⟨fun _ _ _ => rfl, fun _ _ _ _ _ => rfl, fun _ _ _ _ => rfl, fun _ _ => rfl⟩

theorem Noted.forgets : Forgets (Noted.backend : Noted σ → σ) :=
  ⟨fun _ _ _ => rfl, fun _ _ _ _ _ => rfl, fun _ _ _ _ => rfl, fun _ _ => rfl⟩

namespace Shelf

/-- The shelf with a note of the calls that will be made. -/
def noting (h : Shelf σ) : Shelf (Noted σ) :=
  ⟨h.now, ⟨h.backend, []⟩, h.stats, h.metrics⟩

/-- The shelf with what a view shows of its backend. -/
def seen {ρ : Type} (view : ρ → σ) (h : Shelf ρ) : Shelf σ :=
  ⟨h.now, view h.backend, h.stats, h.metrics⟩

def forget (h : Shelf (Noted σ)) : Shelf σ :=
  ⟨h.now, h.backend.backend, h.stats, h.metrics⟩

omit [Backend σ] in
theorem now_countFailure {α : Type} (h : Shelf σ) (result : Except CacheError α) :
    (h.countFailure result).now = h.now := by
  cases result <;> rfl

omit [Backend σ] in
theorem backend_countFailure {α : Type} (h : Shelf σ) (result : Except CacheError α) :
    (h.countFailure result).backend = h.backend := by
  cases result <;> rfl

/-- Calls of the backend lead from one shelf to the other, and no time passes. -/
structure Leads (h h' : Shelf σ) : Prop where
  now : h'.now = h.now
  calls : ∃ calls : List CacheCall, h'.backend = calls.foldl (CacheCall.after h.now) h.backend

/-- What each call at this moment keeps is kept on the way. -/
theorem Leads.invariant {h h' : Shelf σ} (led : h.Leads h') {P : σ → Prop}
    (keeps : ∀ (c : CacheCall) b, P b → P (c.after h.now b)) (start : P h.backend) :
    P h'.backend := by
  obtain ⟨-, calls, led⟩ := led
  rw [led]
  exact List.foldlRecOn calls _ start fun b holds c _ => keeps c b holds

/-- Calls that change values under these keys only lead from one shelf to the other, and no time
passes. -/
structure LeadsWithin (keys : String → Prop) (h h' : Shelf σ) : Prop where
  now : h'.now = h.now
  calls : ∃ calls : List CacheCall, (∀ c ∈ calls, c.Within keys) ∧
    h'.backend = calls.foldl (CacheCall.after h.now) h.backend

namespace LeadsWithin

variable {keys : String → Prop} {h h' h'' : Shelf σ}

theorem leads (led : h.LeadsWithin (fun _ => True) h') : h.Leads h' := by
  obtain ⟨now, calls, -, led⟩ := led
  exact ⟨now, calls, led⟩

theorem refl (h : Shelf σ) : h.LeadsWithin keys h :=
  ⟨rfl, [], List.forall_mem_nil _, rfl⟩

theorem trans (first : h.LeadsWithin keys h') (second : h'.LeadsWithin keys h'') :
    h.LeadsWithin keys h'' := by
  obtain ⟨now, calls, within, led⟩ := first
  obtain ⟨now', calls', within', led'⟩ := second
  refine ⟨now'.trans now, calls ++ calls', List.forall_mem_append.2 ⟨within, within'⟩, ?_⟩
  rw [List.foldl_append, ← led, ← now, led']

theorem countLoad (led : h.LeadsWithin keys h') : h.LeadsWithin keys h'.countLoad :=
  ⟨led.now, led.calls⟩

theorem of_call {c : CacheCall} (within : c.Within keys) (now : h'.now = h.now)
    (backend : h'.backend = c.after h.now h.backend) : h.LeadsWithin keys h' :=
  ⟨now, [c], List.forall_mem_singleton.2 within, backend⟩

end LeadsWithin

theorem leads_invalidate {keys : String → Prop} (h : Shelf σ) {key : CacheKey}
    (own : keys key.text) : h.LeadsWithin keys (h.invalidate key).2 :=
  .of_call (CacheCall.within_delete own) (now_countFailure ..) (backend_countFailure ..)

variable {ρ : Type} {view : ρ → σ}

omit [Backend σ] in
theorem seen_countLoad (h : Shelf ρ) : h.countLoad.seen view = (h.seen view).countLoad := rfl

theorem invalidate_seen [Backend ρ] (forgets : Forgets view) (h : Shelf ρ) (key : CacheKey) :
    (h.seen view).invalidate key = ((h.invalidate key).1, (h.invalidate key).2.seen view) := by
  simp only [invalidate, seen, forgets.delete]
  cases Backend.delete key.text h.backend with
  | mk result b => cases result <;> rfl

end Shelf

/-! ## Operations -/

namespace Store

variable {V τ ε : Type} (s : Store V)

/-! ### What leads to their backends -/

section

variable {keys : String → Prop}

theorem leads_get (key : CacheKey) (h : Shelf σ) : h.LeadsWithin keys (s.get key h).2 := by
  obtain ⟨stats, got⟩ := s.get_eq key h
  rw [got]
  exact .of_call (CacheCall.within_get key.text) rfl rfl

theorem leads_set {key : CacheKey} (own : keys key.text) (v : V) (ttl : Option Nat) (h : Shelf σ) :
    h.LeadsWithin keys (s.set key v ttl h).2 :=
  .of_call (CacheCall.within_set own (s.write h.now v) (ttl.or s.ttl)) (Shelf.now_countFailure ..)
    (Shelf.backend_countFailure ..)

theorem leads_cacheMany {values : List (CacheKey × V)} (own : ∀ kv ∈ values, keys kv.1.text)
    (h : Shelf σ) : h.LeadsWithin keys (s.cacheMany values h) := by
  rw [cacheMany]
  split
  · exact .refl h
  · refine .of_call (CacheCall.within_setMany (fun v member => ?_) s.ttl)
      (Shelf.now_countFailure ..) (Shelf.backend_countFailure ..)
    obtain ⟨kv, listed, rfl⟩ := List.mem_map.1 member
    exact own kv listed

theorem leads_getEach (asked : List CacheKey) (h : Shelf σ) :
    h.LeadsWithin keys (s.getEach asked h).2 := by
  induction asked generalizing h with
  | nil => exact .refl h
  | cons key asked ih =>
    rw [getEach]
    have led : h.LeadsWithin keys _ := (s.leads_get key h).trans (ih (s.get key h).2)
    cases found : (s.get key h).1 with
    | none => simpa only [found] using led
    | some v => simpa only [found] using led

theorem leads_getOrLoad {key : CacheKey} (own : keys key.text) (load : τ → Except ε V × τ)
    (h : Shelf σ) (w : τ) : h.LeadsWithin keys (s.getOrLoad key load h w).2.1 := by
  have led : h.LeadsWithin keys _ := s.leads_get key h
  rw [getOrLoad]
  split
  · next v h' got =>
    rw [got] at led
    exact led
  · next h' got =>
    rw [got] at led
    dsimp only
    split
    · exact led.countLoad
    · exact led.countLoad.trans (s.leads_set own ..)

theorem leads_getAllOrLoad (asked : List CacheKey)
    (load : List CacheKey → τ → Except ε (List (CacheKey × V)) × τ) (h : Shelf σ) (w : τ)
    (own : ∀ missing loaded, (load missing w).1 = .ok loaded → ∀ kv ∈ loaded, keys kv.1.text) :
    h.LeadsWithin keys (s.getAllOrLoad asked load h w).2.1 := by
  have led : h.LeadsWithin keys _ := s.leads_getEach asked.eraseDups h
  rw [getAllOrLoad]
  dsimp only
  split
  · exact led
  · split
    · exact led.countLoad
    · next loaded w' gave =>
      exact led.countLoad.trans (s.leads_cacheMany (own _ loaded (congrArg Prod.fst gave)) _)

theorem leads_warmUp (load : τ → Except ε (List (CacheKey × V)) × τ) (h : Shelf σ) (w : τ)
    (own : ∀ loaded, (load w).1 = .ok loaded → ∀ kv ∈ loaded, keys kv.1.text) :
    h.LeadsWithin keys (s.warmUp load h w).2.1 := by
  rw [warmUp]
  split
  · exact (Shelf.LeadsWithin.refl h).countLoad
  · next loaded w' gave =>
    exact (Shelf.LeadsWithin.refl h).countLoad.trans
      (s.leads_cacheMany (own loaded (congrArg Prod.fst gave)) _)

end

/-! ### What is forgotten -/

section

variable {ρ : Type} [Backend ρ] {view : ρ → σ} (forgets : Forgets view)
include forgets

theorem get_seen (key : CacheKey) (h : Shelf ρ) :
    s.get key (h.seen view) = ((s.get key h).1, (s.get key h).2.seen view) := by
  simp only [get, Shelf.seen, forgets.get]
  cases Backend.get h.now key.text h.backend with
  | mk answer b =>
    cases answer with
    | error e => rfl
    | ok text? =>
      cases text? with
      | none => rfl
      | some text => cases read : s.read text <;> simp only [read] <;> rfl

theorem set_seen (key : CacheKey) (v : V) (ttl : Option Nat) (h : Shelf ρ) :
    s.set key v ttl (h.seen view) = ((s.set key v ttl h).1, (s.set key v ttl h).2.seen view) := by
  simp only [set, Shelf.seen, forgets.set]
  cases Backend.set h.now key.text (s.write h.now v) (ttl.or s.ttl) h.backend with
  | mk result b => cases result <;> rfl

theorem cacheMany_seen (values : List (CacheKey × V)) (h : Shelf ρ) :
    s.cacheMany values (h.seen view) = (s.cacheMany values h).seen view := by
  simp only [cacheMany]
  split
  · rfl
  · simp only [Shelf.seen, forgets.setMany]
    cases Backend.setMany h.now (values.map fun kv => (kv.1.text, s.write h.now kv.2)) s.ttl
      h.backend with
    | mk result b => cases result <;> rfl

theorem getEach_seen (keys : List CacheKey) (h : Shelf ρ) :
    s.getEach keys (h.seen view) = ((s.getEach keys h).1, (s.getEach keys h).2.seen view) := by
  induction keys generalizing h with
  | nil => rfl
  | cons key keys ih =>
    simp only [getEach, s.get_seen forgets, ih]
    cases (s.get key h).1 <;> rfl

variable {υ : Type} (shown : τ → υ)

/-! What a loader works on may be more than is shown, as long as it loads the same. -/

theorem getOrLoad_seen (key : CacheKey) (load : τ → Except ε V × τ) (load' : υ → Except ε V × υ)
    (alike : ∀ w, load' (shown w) = ((load w).1, shown (load w).2)) (h : Shelf ρ) (w : τ) :
    s.getOrLoad key load' (h.seen view) (shown w) = ((s.getOrLoad key load h w).1,
      (s.getOrLoad key load h w).2.1.seen view, shown (s.getOrLoad key load h w).2.2) := by
  simp only [getOrLoad, s.get_seen forgets, alike]
  generalize s.get key h = looked
  obtain ⟨found, h'⟩ := looked
  cases found with
  | some v => rfl
  | none =>
    simp only
    cases load w with
    | mk result w' =>
      cases result with
      | error e => rfl
      | ok v => simp only [writeThrough, ← Shelf.seen_countLoad, s.set_seen forgets]

theorem getAllOrLoad_seen (keys : List CacheKey)
    (load : List CacheKey → τ → Except ε (List (CacheKey × V)) × τ)
    (load' : List CacheKey → υ → Except ε (List (CacheKey × V)) × υ)
    (alike : ∀ missing w, load' missing (shown w) = ((load missing w).1, shown (load missing w).2))
    (h : Shelf ρ) (w : τ) :
    s.getAllOrLoad keys load' (h.seen view) (shown w) = ((s.getAllOrLoad keys load h w).1,
      (s.getAllOrLoad keys load h w).2.1.seen view, shown (s.getAllOrLoad keys load h w).2.2) := by
  simp only [getAllOrLoad, s.getEach_seen forgets, alike]
  split
  · rfl
  · cases load (s.getEach keys.eraseDups h).1.2 w with
    | mk result w' =>
      cases result with
      | error e => rfl
      | ok loaded => simp only [← Shelf.seen_countLoad, s.cacheMany_seen forgets]

theorem warmUp_seen (load : τ → Except ε (List (CacheKey × V)) × τ)
    (load' : υ → Except ε (List (CacheKey × V)) × υ)
    (alike : ∀ w, load' (shown w) = ((load w).1, shown (load w).2)) (h : Shelf ρ) (w : τ) :
    s.warmUp load' (h.seen view) (shown w) = ((s.warmUp load h w).1,
      (s.warmUp load h w).2.1.seen view, shown (s.warmUp load h w).2.2) := by
  simp only [warmUp, alike]
  cases load w with
  | mk result w' =>
    cases result with
    | error e => rfl
    | ok values => simp only [← Shelf.seen_countLoad, s.cacheMany_seen forgets]

end

theorem getOrLoad_forget (key : CacheKey) (load : τ → Except ε V × τ) (h : Shelf (Noted σ))
    (w : τ) :
    s.getOrLoad key load h.forget w = ((s.getOrLoad key load h w).1,
      (s.getOrLoad key load h w).2.1.forget, (s.getOrLoad key load h w).2.2) :=
  s.getOrLoad_seen Noted.forgets id key load load (fun _ => rfl) h w

theorem getAllOrLoad_forget (keys : List CacheKey)
    (load : List CacheKey → τ → Except ε (List (CacheKey × V)) × τ) (h : Shelf (Noted σ)) (w : τ) :
    s.getAllOrLoad keys load h.forget w = ((s.getAllOrLoad keys load h w).1,
      (s.getAllOrLoad keys load h w).2.1.forget, (s.getAllOrLoad keys load h w).2.2) :=
  s.getAllOrLoad_seen Noted.forgets id keys load load (fun _ _ => rfl) h w

theorem warmUp_forget (load : τ → Except ε (List (CacheKey × V)) × τ) (h : Shelf (Noted σ))
    (w : τ) :
    s.warmUp load h.forget w = ((s.warmUp load h w).1, (s.warmUp load h w).2.1.forget,
      (s.warmUp load h w).2.2) :=
  s.warmUp_seen Noted.forgets id load load (fun _ => rfl) h w

end Store

/-! ## Runs -/

/-- An operation of a store, a while in which nothing is done, or what someone else calls the same
backend for. -/
inductive StoreStep (ε V : Type) where
  | get (key : CacheKey)
  | set (key : CacheKey) (v : V) (ttl : Option Nat)
  | writeThrough (key : CacheKey) (v : V)
  | getOrLoad (key : CacheKey) (loaded : Except ε V)
  | getAllOrLoad (keys : List CacheKey) (load : List CacheKey → Except ε (List (CacheKey × V)))
  | cacheMany (values : List (CacheKey × V))
  | warmUp (loaded : Except ε (List (CacheKey × V)))
  | invalidate (key : CacheKey)
  | wait (ms : Nat)
  | other (c : CacheCall)

namespace Store

variable {V ε : Type}

def step (s : Store V) (h : Shelf σ) : StoreStep ε V → Shelf σ
  | .get key => (s.get key h).2
  | .set key v ttl => (s.set key v ttl h).2
  | .writeThrough key v => s.writeThrough key v h
  | .getOrLoad key loaded => (s.getOrLoad key (fun () => (loaded, ())) h ()).2.1
  | .getAllOrLoad keys load => (s.getAllOrLoad keys (fun missing () => (load missing, ())) h ()).2.1
  | .cacheMany values => s.cacheMany values h
  | .warmUp loaded => (s.warmUp (fun () => (loaded, ())) h ()).2.1
  | .invalidate key => (h.invalidate key).2
  | .wait ms => { h with now := h.now + ms }
  | .other c => { h with backend := c.after h.now h.backend }

def run (s : Store V) (h : Shelf σ) (steps : List (StoreStep ε V)) : Shelf σ :=
  steps.foldl s.step h

def callsOf (s : Store V) (h : Shelf σ) (steps : List (StoreStep ε V)) : List CacheCall :=
  (s.run h.noting steps).backend.calls

variable (s : Store V)

theorem step_cases (h : Shelf σ) (c : StoreStep ε V) :
    h.Leads (s.step h c) ∨ ∃ ms, s.step h c = { h with now := h.now + ms } := by
  cases c with
  | get key => exact .inl (s.leads_get key h).leads
  | set key v ttl => exact .inl (s.leads_set trivial v ttl h).leads
  | writeThrough key v => exact .inl (s.leads_set trivial v none h).leads
  | getOrLoad key loaded => exact .inl (s.leads_getOrLoad trivial _ h ()).leads
  | getAllOrLoad keys load =>
    exact .inl (s.leads_getAllOrLoad keys _ h () fun _ _ _ _ _ => trivial).leads
  | cacheMany values => exact .inl (s.leads_cacheMany (fun _ _ => trivial) h).leads
  | warmUp loaded => exact .inl (s.leads_warmUp _ h () fun _ _ _ _ => trivial).leads
  | invalidate key => exact .inl (h.leads_invalidate trivial).leads
  | wait ms => exact .inr ⟨ms, rfl⟩
  | other c => exact .inl ⟨rfl, [c], rfl⟩

theorem now_le_step (h : Shelf σ) (c : StoreStep ε V) : h.now ≤ (s.step h c).now := by
  rcases s.step_cases h c with led | ⟨ms, same⟩
  · exact Nat.le_of_eq led.now.symm
  · rw [same]
    exact Nat.le_add_right ..

theorem now_le_run (h : Shelf σ) (steps : List (StoreStep ε V)) : h.now ≤ (s.run h steps).now := by
  induction steps generalizing h with
  | nil => exact Nat.le_refl _
  | cons c steps ih => exact Nat.le_trans (s.now_le_step h c) (ih (s.step h c))

/-- What each call until the end of a run keeps is kept by the run. -/
theorem run_invariant {P : σ → Prop} {last : Nat}
    (keeps : ∀ now ≤ last, ∀ (c : CacheCall) b, P b → P (c.after now b)) {h : Shelf σ}
    (start : P h.backend) (steps : List (StoreStep ε V)) (inTime : (s.run h steps).now ≤ last) :
    P (s.run h steps).backend := by
  induction steps generalizing h with
  | nil => exact start
  | cons c steps ih =>
    have later : (s.step h c).now ≤ last := Nat.le_trans (s.now_le_run _ steps) inTime
    refine ih ?_ inTime
    rcases s.step_cases h c with led | ⟨ms, same⟩
    · exact led.invariant (keeps h.now (led.now ▸ later)) start
    · rw [same]
      exact start

theorem step_forget (h : Shelf (Noted σ)) (c : StoreStep ε V) :
    s.step h.forget c = (s.step h c).forget := by
  have forgets : Forgets (Noted.backend : Noted σ → σ) := Noted.forgets
  cases c with
  | get key => exact congrArg Prod.snd (s.get_seen forgets key h)
  | set key v ttl => exact congrArg Prod.snd (s.set_seen forgets key v ttl h)
  | writeThrough key v => exact congrArg Prod.snd (s.set_seen forgets key v none h)
  | getOrLoad key loaded => simp only [step, getOrLoad_forget]
  | getAllOrLoad keys load => simp only [step, getAllOrLoad_forget]
  | cacheMany values => exact s.cacheMany_seen forgets values h
  | warmUp loaded => simp only [step, warmUp_forget]
  | invalidate key => exact congrArg Prod.snd (h.invalidate_seen forgets key)
  | wait ms => rfl
  | other c => simp only [step, Shelf.forget, Noted.after_eq]

theorem run_forget (h : Shelf (Noted σ)) (steps : List (StoreStep ε V)) :
    s.run h.forget steps = (s.run h steps).forget := by
  induction steps generalizing h with
  | nil => rfl
  | cons c steps ih =>
    show s.run (s.step h.forget c) steps = _
    rw [step_forget, ih]
    rfl

/-- What all calls keep but those that are not made is kept by a run. -/
theorem run_of_callsOf {P : σ → Prop} {made : CacheCall → Prop} {h : Shelf σ}
    {steps : List (StoreStep ε V)}
    (keeps : ∀ now ≤ (s.run h steps).now, ∀ c : CacheCall, made c → ∀ b, P b → P (c.after now b))
    (calls : ∀ c ∈ s.callsOf h steps, made c) (start : P h.backend) :
    P (s.run h steps).backend := by
  have same : (s.run h.noting steps).forget = s.run h steps := (s.run_forget h.noting steps).symm
  have now : (s.run h.noting steps).now = (s.run h steps).now := congrArg Shelf.now same
  have kept : (∀ c ∈ (s.run h.noting steps).backend.calls, made c) →
      P (s.run h.noting steps).backend.backend := by
    refine s.run_invariant (P := fun b => (∀ c ∈ b.calls, made c) → P b.backend)
      (fun time le c b holds calls => ?_) (fun _ => start) steps (Nat.le_of_eq now)
    rw [Noted.after_eq] at calls ⊢
    have all := List.forall_mem_append.1 calls
    exact keeps time le c (all.2 c (List.mem_singleton_self c)) _ (holds all.1)
  rw [← same]
  exact kept calls

end Store
end LeagueSync

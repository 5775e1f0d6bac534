import LoadTest.Proofs.Simulation.Change
import LoadTest.Proofs.Table

/-!
# LoadTest.Proofs.Simulation.Course

The course of a run from phase to phase, and what a phase hands on to the next. **A run leaves its phase
only when it goes on itself** (`Step.course`), and then for one of a few others (`Passage`). What becomes of
a request is settled by the log alone: the target answers by how many requests of the same key are noted
before it (`sent_eq_asked`).
-/

namespace LoadTest.Simulation

open Crowd Relation

variable {setting : Setting}

/-! ### Requests in the log -/

/-- The request that an event tells of. -/
def Event.request? : Event → Option Request
  | .sent _ request | .probed request => some request
  | _ => none

namespace Crowd

variable {crowd after : Crowd}

/-- How many requests of a key a log tells of. -/
def asked (key : String) (log : List (Nat × Event)) : Nat :=
  log.countP fun entry => entry.2.request?.any fun request => request.key == key

/-- The count of requests is that of the log. -/
def Counts (crowd : Crowd) : Prop := ∀ key, (crowd.sent.find? key).getD 0 = asked key crowd.log

namespace Counts

theorem quiet (h : crowd.Counts) (hsent : after.sent = crowd.sent)
    (notes : NotesOnly (fun event => event.request? = none) crowd after) : after.Counts := by
  obtain ⟨events, hlog, hnone⟩ := notes
  intro key
  have hevents : asked key events = 0 := List.countP_eq_zero.mpr fun entry mem => by simp [hnone entry mem]
  rw [hsent, hlog, asked, List.countP_append, ← asked, ← asked, hevents, Nat.zero_add]
  exact h key

/-- A request is counted and noted. -/
theorem send (setting : Setting) {request : Request} {event : Event} (h : crowd.Counts)
    (hsent : after.sent = (crowd.send setting request).2.sent)
    (hlog : after.log = (crowd.now, event) :: crowd.log) (hevent : event.request? = some request) :
    after.Counts := by
  intro key
  have hcount := h request.key
  rw [hsent, hlog, asked, List.countP_cons, ← asked, ← h key]
  simp only [Crowd.send, Table.find?_insert, hevent, Option.any_some]
  by_cases hkey : request.key = key
  · subst hkey
    simp
  · simp [hkey, Ne.symm hkey]

theorem turn {user : User} (h : crowd.Counts) (turn : Turn setting crowd user after) : after.Counts := by
  cases turn with
  | halt quiet cause => exact h.quiet rfl (.of_log rfl)
  | send quiet untold running unpaused => exact h.send setting rfl rfl rfl
  | record sending arrived => exact h.quiet rfl (.single rfl rfl)

theorem move (h : crowd.Counts) (move : Move setting crowd after) : after.Counts := by
  cases move with
  | spawn => exact h.quiet rfl (.single rfl rfl)
  | dismiss =>
      unfold Crowd.dismiss
      cases crowd.active with
      | nil => exact h
      | cons id active => exact h.quiet rfl (.single rfl rfl)
  | reap =>
      unfold Crowd.reap
      simp only [foldl_note_reaped]
      exact h.quiet rfl (.each rfl fun _ => rfl)
  | turn mem can => exact h.turn (turn_stepUser can)
  | abort mem awake expired => exact h.quiet rfl (.single rfl rfl)
  | probe request => exact h.send setting rfl rfl rfl
  | tick clock target => exact h.quiet rfl (.single rfl rfl)
  | check taken verdict => exact h.quiet rfl (.single rfl rfl)
  | close => exact h.quiet rfl (.single rfl rfl)
  | outside later kept => exact h.quiet rfl (.of_log rfl)

/-- Nobody sends a request by being aborted. -/
theorem abort (h : crowd.Counts) : crowd.abort.Counts := by
  obtain ⟨users, heq, -⟩ := foldl_abortUser_eq (crowd.draining.filter fun id => !crowd.isOver id) crowd
  rw [Crowd.abort, heq]
  exact h.quiet rfl (.each rfl fun _ => rfl)

end Counts

theorem sent_eq_asked (moves : Moves setting (initial setting) crowd) : crowd.Counts := by
  induction moves with
  | refl => exact fun key => rfl
  | tail _ move ih => exact ih.move move

/-- What becomes of a request that follows a log. -/
def replyAfter (setting : Setting) (log : List (Nat × Event)) (request : Request) : Reply :=
  (setting.target request (asked request.key log)).within setting.plan.requestTimeout

/-- The reply to a request is the one that the log calls for. -/
theorem Counts.reply_eq (h : crowd.Counts) (request : Request) :
    (crowd.send setting request).1 = replyAfter setting crowd.log request := by
  rw [replyAfter, ← h request.key]
  rfl

end Crowd

/-! ### Requests of no user -/

/-- Whether an event is a request of no user. -/
def Event.isProbe : Event → Bool
  | .probed _ => true
  | _ => false

namespace Crowd

variable {crowd after : Crowd} {user : User}

/-- A change in which only users send requests. -/
abbrev Unprobed (before after : Crowd) : Prop := NotesOnly (fun event => event.isProbe = false) before after

theorem unprobed_scaleTo (setting : Setting) (target : Nat) (crowd : Crowd) :
    Unprobed crowd (crowd.scaleTo setting target) := by
  have hspawn (after : Crowd) (h : Unprobed crowd after) : Unprobed crowd (after.spawn setting) :=
    h.trans (.single rfl rfl)
  have hdismiss (after : Crowd) (h : Unprobed crowd after) : Unprobed crowd after.dismiss := by
    unfold Crowd.dismiss
    cases after.active with
    | nil => exact h
    | cons id active => exact h.trans (.single rfl rfl)
  exact scaleTo_induction hspawn hdismiss (.of_log rfl) target

theorem unprobed_reap (crowd : Crowd) : Unprobed crowd crowd.reap := by
  unfold Crowd.reap
  simp only [foldl_note_reaped]
  exact .each rfl fun _ => rfl

theorem unprobed_abort (crowd : Crowd) : Unprobed crowd crowd.abort := notes_abort (fun _ => rfl) crowd

theorem Turn.unprobed (turn : Turn setting crowd user after) : Unprobed crowd after := by
  cases turn with
  | halt quiet cause => exact .of_log rfl
  | send quiet untold running unpaused => exact .single rfl rfl
  | record sending arrived => exact .single rfl rfl

end Crowd

namespace State

variable {state next : State} {load : Load}

theorem unprobed_enterDrain (setting : Setting) (load : Load) (state : State) :
    Unprobed state.crowd (state.enterDrain setting load).crowd := by
  have hclosed : Unprobed state.crowd (state.crowd.note (.closed state.crowd.cancelled)) := .single rfl rfl
  exact hclosed.trans (unprobed_scaleTo setting 0 _)

theorem unprobed_scaled (setting : Setting) (load : Load) (state : State) :
    Unprobed state.crowd (state.scaled setting load) := by
  have hheed : Unprobed state.crowd state.heed.crowd := .of_log (log_heed state)
  exact ((hheed.trans (unprobed_reap _)).trans (unprobed_scaleTo setting _ _)).trans (.single rfl rfl)

/-- Under load only users send requests. -/
theorem Look.unprobed (look : Look setting load state next) : Unprobed state.crowd next.crowd := by
  have hscaled := unprobed_scaled setting load state
  cases look with
  | drop cancelled => exact unprobed_enterDrain setting load state
  | close running cause =>
      have hheed : Unprobed state.crowd state.heed.crowd := .of_log (log_heed state)
      exact hheed.trans (unprobed_enterDrain setting load state.heed)
  | scale running unfinished tick hcrowd hpeak =>
      rcases hcrowd with rfl | ⟨clock, rfl⟩
      · exact hscaled
      · exact hscaled.trans (.single rfl rfl)
  | @fail running unfinished load' time hpeak =>
      have hchecked : Unprobed state.crowd
          { (state.scaled setting load).note (.checked time false) with cancelled := true } :=
        hscaled.trans (.single rfl rfl)
      exact hchecked.trans (unprobed_enterDrain setting load' _)
  | overflow running unfinished => exact hscaled

end State

/-! ### The stock -/

/-- The request for the stock of the target. -/
def stockRequest (setting : Setting) (probe : InventoryProbe) : Request :=
  Probe.request (Probe.joinUrl setting.plan.baseUrl probe.path)

/-- The stock that the request for it reveals after what a log tells of. -/
def stockAfter (setting : Setting) (probe : InventoryProbe) (log : List (Nat × Event)) :
    Except ProbeError Int :=
  Probe.readInventory (Probe.joinUrl setting.plan.baseUrl probe.path) probe.field
    (replyAfter setting log (stockRequest setting probe)).exchange

namespace State

variable {state next : State}

/-! ### Passages -/

/-- A run comes nearer to its load: it opens connections in advance, looks at the stock, or begins. -/
inductive Approach (setting : Setting) (state : State) : State → Prop where
  | warm {crowd : Crowd} (due : Nat) (probed : Probed state.crowd crowd) :
      Approach setting state { state with crowd, phase := .warming due }
  | stock {probe : InventoryProbe} (set : setting.plan.inventory = some probe) (due : Nat) :
      Approach setting state { state with
        crowd := (state.crowd.send setting (stockRequest setting probe)).2.note
          (.probed (stockRequest setting probe))
        phase := .stocking (Probe.joinUrl setting.plan.baseUrl probe.path) probe.field
          (state.crowd.send setting (stockRequest setting probe)).1.exchange due }
  | load (unset : setting.plan.inventory = none) : Approach setting state (state.enterLoad none)

theorem approach_enterStocking (setting : Setting) (state : State) :
    Approach setting state (state.enterStocking setting) := by
  unfold enterStocking
  cases hprobe : setting.plan.inventory with
  | none => exact .load hprobe
  | some probe => exact .stock hprobe _

theorem approach_enterWarmup (setting : Setting) (state : State) :
    Approach setting state (state.enterWarmup setting) := by
  unfold enterWarmup
  cases setting.plan.warmup with
  | none => exact approach_enterStocking setting state
  | some url =>
      obtain ⟨crowd, heq, hprobed⟩ :=
        probed_probeMany setting (Probe.warmup url) Probe.warmupConnections state
      simp only [heq]
      exact .warm _ hprobed

/-- What a look at the schedule leaves of the load: it goes on, it has ended, or what was recorded cannot
be summed up. -/
inductive Kept (load : Load) (next : State) : Prop where
  | loading {load' : Load} {tick : Nat} (phase : next.phase = .loading load' tick)
      (same : load'.stockBefore = load.stockBefore)
  | draining {load' : Load} {deadline : Nat} (phase : next.phase = .draining load' deadline)
      (same : load'.stockBefore = load.stockBefore)
  | overflowed (phase : next.phase = .ended .overflowed) (unsummable : next.crowd.sink.snapshot? = none)

theorem kept_checkThresholds {load load' : Load} (same : load'.stockBefore = load.stockBefore)
    (clock : Duration) (tick : Nat) : Kept load (state.checkThresholds setting load' clock tick) := by
  unfold checkThresholds
  cases hsnapshot : state.crowd.sink.snapshot? with
  | none => exact .overflowed rfl hsnapshot
  | some snapshot =>
      simp only
      split
      · exact .loading rfl same
      · exact .draining rfl same

theorem kept_tick (load : Load) (due : Nat) (state : State) : Kept load (state.tick setting load due) := by
  unfold tick
  simp only
  split
  · exact .draining rfl rfl
  · split
    · exact .draining rfl rfl
    · split
      · have same (state : State) (clock : Duration) :
            (state.scale setting load clock).1.stockBefore = load.stockBefore := rfl
        exact kept_checkThresholds (same _ _) _ _
      · exact .loading rfl rfl

/-- **How a run goes on itself.** -/
inductive Passage (setting : Setting) (state : State) : State → Prop where
  /-- The target is not healthy. -/
  | refuse {url : String} {exchange : Exchange} {due : Nat} {error : ProbeError}
      (checking : state.phase = .checking url exchange due)
      (unhealthy : Probe.readHealth url exchange = .error error) :
      Passage setting state (state.endWith (.unhealthy error))
  | approve {url : String} {exchange : Exchange} {due : Nat} {next : State}
      (checking : state.phase = .checking url exchange due)
      (healthy : Probe.readHealth url exchange = .ok ()) (approach : Approach setting state next) :
      Passage setting state next
  | warmed {due : Nat} {next : State} (warming : state.phase = .warming due)
      (approach : Approach setting state next) : Passage setting state next
  | stocked {url field : String} {exchange : Exchange} {due : Nat}
      (stocking : state.phase = .stocking url field exchange due) :
      Passage setting state (state.enterLoad (Probe.readInventory url field exchange).toOption)
  | look {load : Load} {tick : Nat} {next : State} (loading : state.phase = .loading load tick)
      (kept : Kept load next) (unprobed : Unprobed state.crowd next.crowd) : Passage setting state next
  | finish {load : Load} {deadline : Nat} (draining : state.phase = .draining load deadline) :
      Passage setting state ((state.withCrowd (·.abort)).enterRestocking setting load)
  | report {load : Load} {lasted active : Duration} {url field : String} {exchange : Exchange} {due : Nat}
      (restocking : state.phase = .restocking load lasted active url field exchange due) :
      Passage setting state (state.conclude setting load lasted active
        (Probe.readInventory url field exchange).toOption)

theorem passage_advance (can : state.canAdvance = true) :
    Passage setting state (state.advance setting) := by
  have hlook {load : Load} {tick : Nat} (loading : state.phase = .loading load tick) :
      Unprobed state.crowd (state.advance setting).crowd := (look_advance loading).unprobed
  unfold State.advance at hlook ⊢
  cases hphase : state.phase with
  | checking url exchange due =>
      simp only
      cases hhealth : Probe.readHealth url exchange with
      | ok _ => exact .approve hphase hhealth (approach_enterWarmup setting state)
      | error error => exact .refuse hphase hhealth
  | warming due => exact .warmed hphase (approach_enterStocking setting state)
  | stocking url field exchange due => exact .stocked hphase
  | loading load tick =>
      have hunprobed := hlook hphase
      rw [hphase] at hunprobed
      refine .look hphase ?_ hunprobed
      simp only
      split
      · exact .draining rfl rfl
      · exact kept_tick load tick state
  | draining load deadline => exact .finish hphase
  | restocking load lasted active url field exchange due => exact .report hphase
  | ended outcome => simp [canAdvance, hphase] at can

/-! ### Steps -/

/-- A step that is none of the run itself: its phase stays. -/
structure Still (state next : State) : Prop where
  phase : next.phase = state.phase
  unprobed : Unprobed state.crowd next.crowd
  /-- Where there are no users, time passes and the run may be cancelled, and no more. -/
  alone : state.crowd.users = [] → ∃ now cancelled, next.crowd = { state.crowd with now, cancelled }

/-- **The course of a run:** a step leaves the phase, or the run itself goes on. -/
theorem Step.course (step : Step setting state next) : Still state next ∨ Passage setting state next := by
  cases step with
  | pass later => exact .inl ⟨rfl, .of_log rfl, fun _ => ⟨_, _, rfl⟩⟩
  | @act action enabled =>
      cases action with
      | deliver =>
          left
          cases hupcoming : state.upcoming <;> simp only [perform, hupcoming] <;>
            exact ⟨rfl, .of_log rfl, fun _ => ⟨_, _, rfl⟩⟩
      | cancel => exact .inl ⟨rfl, .of_log rfl, fun _ => ⟨_, _, rfl⟩⟩
      | advance => exact .inr (passage_advance enabled)
      | user user =>
          obtain ⟨mem, can⟩ := isEnabled_user_iff.mp enabled
          have hturn : Turn setting state.crowd user (state.crowd.stepUser setting user) := turn_stepUser can
          exact .inl ⟨rfl, hturn.unprobed, fun nobody => by simp [nobody] at mem⟩
      | wait => simp [isEnabled] at enabled

end State

end LoadTest.Simulation

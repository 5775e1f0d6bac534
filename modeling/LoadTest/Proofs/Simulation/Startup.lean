import LoadTest.Config.Resolve
import LoadTest.Proofs.Fallible
import LoadTest.Proofs.Outcome.Conservation
import LoadTest.Proofs.Simulation.Course
import LoadTest.Proofs.Simulation.Progress

/-!
# LoadTest.Proofs.Simulation.Startup

Runs that fail to start. **A run comes to an error exactly if the target is not found healthy, and then it
leaves no trace** (`fails_iff_refused`): the health check is the only request there ever was, nobody was
spawned and nothing was recorded. No other reply ever makes a run an error.
-/

namespace LoadTest.Simulation

open LoadTest.Metric Crowd Relation

variable {setting : Setting} {upcoming : List (Nat × Command)} {cancelAt : Option Nat}

/-! ### The health check -/

/-- The address that has to answer before a run of a plan with a path for it starts. -/
def healthUrl (setting : Setting) (path : String) : String := Probe.joinUrl setting.plan.baseUrl path

/-- What becomes of the health check, which follows no other request. -/
def healthExchange (setting : Setting) (path : String) : Exchange :=
  (replyAfter setting [] (Probe.request (healthUrl setting path))).exchange

/-- The target is not found healthy: the check gets no response, or one with a status other than 200. -/
inductive Refused (setting : Setting) : ProbeError → Prop where
  | unreachable {path : String} {cause : TransportError} (set : setting.plan.healthCheck = some path)
      (lost : healthExchange setting path = .error cause) :
      Refused setting (.healthUnreachable (healthUrl setting path))
  | status {path : String} {response : Response} (set : setting.plan.healthCheck = some path)
      (answered : healthExchange setting path = .ok response) (bad : response.status ≠ 200) :
      Refused setting (.healthStatus (healthUrl setting path) response.status)

/-- The target is refused by what is read from the check. -/
theorem refused_iff {error : ProbeError} : Refused setting error ↔ ∃ path,
    setting.plan.healthCheck = some path
      ∧ Probe.readHealth (healthUrl setting path) (healthExchange setting path) = .error error := by
  constructor
  · rintro (⟨set, lost⟩ | ⟨set, answered, bad⟩)
    · exact ⟨_, set, by rw [lost, Probe.readHealth]⟩
    · exact ⟨_, set, by rw [answered, Probe.readHealth, if_neg bad]⟩
  · rintro ⟨path, set, hread⟩
    cases hexchange : healthExchange setting path with
    | error cause =>
        rw [hexchange, Probe.readHealth, Except.error.injEq] at hread
        exact hread ▸ .unreachable set hexchange
    | ok response =>
        rw [hexchange, Probe.readHealth] at hread
        split at hread
        · simp at hread
        · next bad =>
            rw [Except.error.injEq] at hread
            exact hread ▸ .status set hexchange bad

/-- Whether a run came to an error before it began. -/
def Outcome.isError : Outcome → Bool
  | .unhealthy _ | .missingSeries _ => true
  | .reported _ | .overflowed => false

/-! ### No trace -/

/-- **Nothing but a health check has happened.** -/
structure Untouched (setting : Setting) (path : String) (crowd : Crowd) : Prop where
  /-- No connection in advance, no look at the stock, and nothing that a user did. -/
  log : crowd.log = [(0, .probed (Probe.request (healthUrl setting path)))]
  sent : crowd.sentTotal = 1
  users : crowd.users = []
  kinds : ∀ name, crowd.sink.kindOf? name = setting.plan.scenario.kindOf? name
  counters : ∀ name, (name, Kind.counter) ∈ setting.plan.scenario.catalog →
    crowd.sink.counters.find? name = some .zero
  rates : ∀ name, (name, Kind.rate) ∈ setting.plan.scenario.catalog →
    crowd.sink.rates.find? name = some .zero
  trends : ∀ name, (name, Kind.trend) ∈ setting.plan.scenario.catalog →
    ∃ trend, crowd.sink.trends.find? name = some trend ∧ trend.samples = []

namespace Untouched

variable {path : String} {crowd : Crowd}

/-- The passing of time leaves no trace, nor does a cancellation. -/
theorem alone (h : Untouched setting path crowd) (now : Nat) (cancelled : Bool) :
    Untouched setting path { crowd with now, cancelled } :=
  ⟨h.log, h.sent, h.users, h.kinds, h.counters, h.rates, h.trends⟩

theorem of_initial (setting : Setting) (path : String) :
    Untouched setting path (((initial setting).send setting (Probe.request (healthUrl setting path))).2.note
      (.probed (Probe.request (healthUrl setting path)))) := by
  have hsink : (((initial setting).send setting (Probe.request (healthUrl setting path))).2.note
      (.probed (Probe.request (healthUrl setting path)))).sink
        = setting.plan.scenario.sink setting.plan.shards := by
    simp only [note, send, initial]
  constructor
  case kinds =>
    intro name
    rw [hsink, Outcome.kindOf?_sink]
  case counters =>
    intro name declared
    rw [hsink, Scenario.sink, Sink.find?_counters_ofSeries, if_pos declared]
  case rates =>
    intro name declared
    rw [hsink, Scenario.sink, Sink.find?_rates_ofSeries, if_pos declared]
  case trends =>
    intro name declared
    rw [hsink, Scenario.sink, Sink.find?_trends_ofSeries, if_pos declared]
    exact ⟨_, rfl, Trend.samples_ofShards _⟩
  all_goals rfl

end Untouched

/-! ### The start -/

/-- What holds before a run has begun, or of one that came to an error; any other run was not refused. -/
def Opened (setting : Setting) (crowd : Crowd) : Phase → Prop
  | .checking url exchange _ => ∃ path, setting.plan.healthCheck = some path
      ∧ url = healthUrl setting path ∧ exchange = healthExchange setting path
      ∧ Untouched setting path crowd
  | .ended (.unhealthy error) => Refused setting error
      ∧ ∃ path, setting.plan.healthCheck = some path ∧ Untouched setting path crowd
  | .ended (.missingSeries _) => False
  | _ => ∀ error, ¬Refused setting error

/-- Whether a run has gone beyond the health check. -/
def Phase.isBeyond : Phase → Bool
  | .checking .. | .ended (.unhealthy _) | .ended (.missingSeries _) => false
  | _ => true

theorem opened_iff_of_isBeyond {crowd : Crowd} {phase : Phase} (h : phase.isBeyond = true) :
    Opened setting crowd phase ↔ ∀ error, ¬Refused setting error := by
  cases phase with
  | ended outcome =>
      cases outcome with
      | reported report => rfl
      | overflowed => rfl
      | unhealthy error => simp [Phase.isBeyond] at h
      | missingSeries error => simp [Phase.isBeyond] at h
  | checking url exchange due => simp [Phase.isBeyond] at h
  | _ => rfl

namespace State

variable {state next : State}

/-- A run that is reported ends, and not with an error. -/
theorem exists_outcome_conclude (setting : Setting) (load : Load) (lasted active : Duration)
    (stock : Option Int) (state : State) :
    ∃ outcome, (state.conclude setting load lasted active stock).outcome? = some outcome
      ∧ outcome.isError = false := by
  unfold conclude
  simp only
  cases inventory? load.stockBefore stock <;> cases state.crowd.sink.snapshot? <;> exact ⟨_, rfl, rfl⟩

theorem isBeyond_conclude (load : Load) (lasted active : Duration) (stock : Option Int) (state : State) :
    (state.conclude setting load lasted active stock).phase.isBeyond = true := by
  obtain ⟨outcome, houtcome, hno⟩ := exists_outcome_conclude setting load lasted active stock state
  rw [phase_of_outcome? houtcome]
  cases outcome with
  | reported report => rfl
  | overflowed => rfl
  | unhealthy error => simp [Outcome.isError] at hno
  | missingSeries error => simp [Outcome.isError] at hno

theorem isBeyond_enterRestocking (load : Load) (state : State) :
    (state.enterRestocking setting load).phase.isBeyond = true := by
  unfold enterRestocking
  cases setting.plan.inventory with
  | none => exact isBeyond_conclude ..
  | some probe => rfl

theorem Approach.isBeyond (approach : Approach setting state next) : next.phase.isBeyond = true := by
  cases approach <;> rfl

theorem Kept.isBeyond {load : Load} (kept : Kept load next) : next.phase.isBeyond = true := by
  cases kept with
  | loading phase => rw [phase]; rfl
  | draining phase => rw [phase]; rfl
  | overflowed phase => rw [phase]; rfl

end State

namespace Opened

variable {state next : State}

/-- A run goes beyond the health check, unless the check refuses the target. -/
theorem passage (h : Opened setting state.crowd state.phase) (passage : State.Passage setting state next) :
    Opened setting next.crowd next.phase := by
  have hbeyond (before : state.phase.isBeyond = true) (after : next.phase.isBeyond = true) :
      Opened setting next.crowd next.phase :=
    (opened_iff_of_isBeyond after).mpr ((opened_iff_of_isBeyond before).mp h)
  cases passage with
  | refuse checking unhealthy =>
      rw [checking] at h
      obtain ⟨path, set, rfl, rfl, untouched⟩ := h
      exact ⟨refused_iff.mpr ⟨path, set, unhealthy⟩, path, set, untouched⟩
  | approve checking healthy approach =>
      rw [checking] at h
      obtain ⟨path, set, rfl, rfl, -⟩ := h
      refine (opened_iff_of_isBeyond approach.isBeyond).mpr fun error refused => ?_
      obtain ⟨path', set', hread⟩ := refused_iff.mp refused
      obtain rfl : path = path' := Option.some.inj (set.symm.trans set')
      simp [healthy] at hread
  | warmed warming approach => exact hbeyond (by rw [warming]; rfl) approach.isBeyond
  | stocked stocking => exact hbeyond (by rw [stocking]; rfl) rfl
  | look loading kept unprobed => exact hbeyond (by rw [loading]; rfl) kept.isBeyond
  | finish draining => exact hbeyond (by rw [draining]; rfl) (State.isBeyond_enterRestocking ..)
  | report restocking => exact hbeyond (by rw [restocking]; rfl) (State.isBeyond_conclude ..)

theorem step (h : Opened setting state.crowd state.phase) (step : State.Step setting state next) :
    Opened setting next.crowd next.phase := by
  rcases step.course with still | passage
  · rw [still.phase]
    cases hphase : state.phase with
    | checking url exchange due =>
        rw [hphase] at h
        obtain ⟨path, set, hurl, hexchange, untouched⟩ := h
        obtain ⟨now, cancelled, hcrowd⟩ := still.alone untouched.users
        exact ⟨path, set, hurl, hexchange, hcrowd ▸ untouched.alone now cancelled⟩
    | ended outcome =>
        rw [hphase] at h
        cases outcome with
        | unhealthy error =>
            obtain ⟨refused, path, set, untouched⟩ := h
            obtain ⟨now, cancelled, hcrowd⟩ := still.alone untouched.users
            exact ⟨refused, path, set, hcrowd ▸ untouched.alone now cancelled⟩
        | _ => exact h
    | _ =>
        rw [hphase] at h
        exact h
  · exact h.passage passage

end Opened

namespace State

variable {state : State}

/-- A run begins with the health check, if there is one. -/
theorem start_eq (setting : Setting) (upcoming : List (Nat × Command)) (cancelAt : Option Nat) :
    start setting upcoming cancelAt = (blank setting upcoming cancelAt).enterCheck setting := by
  unfold start
  simp only [Outcome.checkSink_sink]
  rfl

theorem opened_start (setting : Setting) (upcoming : List (Nat × Command)) (cancelAt : Option Nat) :
    Opened setting (start setting upcoming cancelAt).crowd (start setting upcoming cancelAt).phase := by
  rw [start_eq, enterCheck]
  cases hcheck : setting.plan.healthCheck with
  | none =>
      refine (opened_iff_of_isBeyond (approach_enterWarmup ..).isBeyond).mpr fun error refused => ?_
      obtain ⟨path, set, -⟩ := refused_iff.mp refused
      simp [hcheck] at set
  | some path => exact ⟨path, hcheck, rfl, rfl, .of_initial setting path⟩

theorem opened_of_reaches (reaches : Reaches setting upcoming cancelAt state) :
    Opened setting state.crowd state.phase := by
  induction reaches with
  | refl => exact opened_start setting upcoming cancelAt
  | tail _ step ih => exact ih.step step

end State

/-! ### Runs that fail to start -/

/-- **A run fails to start with an error:** it ends, in whatever order things happen with that error and no
other outcome, and it leaves no trace. -/
structure FailsToStart (setting : Setting) (upcoming : List (Nat × Command)) (cancelAt : Option Nat)
    (error : ProbeError) : Prop where
  ends : ∃ fuel, ((State.start setting upcoming cancelAt).run setting fuel).outcome?
    = some (.unhealthy error)
  only : ∀ state outcome, State.Reaches setting upcoming cancelAt state →
    state.outcome? = some outcome → outcome = .unhealthy error
  untouched : ∀ state, State.Reaches setting upcoming cancelAt state →
    ∃ path, setting.plan.healthCheck = some path ∧ Untouched setting path state.crowd

/-- There is one reason for which a target is refused. -/
theorem Refused.unique {error other : ProbeError} (h : Refused setting error) (h' : Refused setting other) :
    error = other := by
  obtain ⟨path, set, hread⟩ := refused_iff.mp h
  obtain ⟨path', set', hread'⟩ := refused_iff.mp h'
  obtain rfl : path = path' := Option.some.inj (set.symm.trans set')
  exact Except.error.inj (hread.symm.trans hread')

/-- A run that came to an error was refused. -/
theorem Opened.refused_of_isError {crowd : Crowd} {outcome : Outcome}
    (h : Opened setting crowd (.ended outcome)) (herror : outcome.isError = true) :
    ∃ error, Refused setting error := by
  cases outcome with
  | unhealthy error => exact ⟨error, h.1⟩
  | missingSeries error => exact h.elim
  | reported report => simp [Outcome.isError] at herror
  | overflowed => simp [Outcome.isError] at herror

/-- A run that is refused never gets beyond the check. -/
theorem Opened.of_refused {crowd : Crowd} {phase : Phase} {error : ProbeError}
    (h : Opened setting crowd phase) (refused : Refused setting error) :
    (∃ path, setting.plan.healthCheck = some path ∧ Untouched setting path crowd)
      ∧ ∀ outcome, phase = .ended outcome → outcome = .unhealthy error := by
  by_cases hbeyond : phase.isBeyond = true
  · exact absurd refused ((opened_iff_of_isBeyond hbeyond).mp h error)
  cases phase with
  | checking url exchange due =>
      obtain ⟨path, set, -, -, untouched⟩ := h
      exact ⟨⟨path, set, untouched⟩, fun outcome ended => Phase.noConfusion ended⟩
  | ended outcome =>
      cases outcome with
      | unhealthy other =>
          obtain rfl := h.1.unique refused
          exact ⟨h.2, fun outcome ended => (Phase.ended.inj ended).symm⟩
      | missingSeries other => exact h.elim
      | _ => simp [Phase.isBeyond] at hbeyond
  | _ => simp [Phase.isBeyond] at hbeyond

namespace State

/-- Where the target is refused the check is the first thing, and the error the last. -/
theorem ends_of_refused (upcoming : List (Nat × Command)) (cancelAt : Option Nat) {error : ProbeError}
    (refused : Refused setting error) :
    ∃ fuel, ((start setting upcoming cancelAt).run setting fuel).outcome? = some (.unhealthy error) := by
  obtain ⟨path, set, hread⟩ := refused_iff.mp refused
  obtain ⟨due, hphase, husers⟩ : ∃ due, (start setting upcoming cancelAt).phase
      = .checking (healthUrl setting path) (healthExchange setting path) due
      ∧ (start setting upcoming cancelAt).crowd.users = [] := by
    rw [start_eq, enterCheck, set]
    exact ⟨_, rfl, rfl⟩
  have numbered : (start setting upcoming cancelAt).crowd.Numbered := by simp [Numbered, husers]
  have resigned : (start setting upcoming cancelAt).crowd.Resigned := by simp [Resigned, husers]
  obtain ⟨next, leads, hsame, -, hadvance⟩ :=
    leads_to_advance setting numbered resigned (by rw [hphase]; rfl)
  obtain ⟨fuel, hrun⟩ := leads.trans hadvance
  refine ⟨fuel, ?_⟩
  rw [hrun, advance, hsame, hphase]
  simp only [hread]
  rfl

end State

/-- **What makes a run an error.** It is the health check alone, whatever the target answers to any other
request and whatever comes from outside; and then the run leaves no trace. -/
theorem fails_iff_refused (setting : Setting) (upcoming : List (Nat × Command)) (cancelAt : Option Nat) :
    ((∃ state outcome, State.Reaches setting upcoming cancelAt state ∧ state.outcome? = some outcome
        ∧ outcome.isError = true) ↔ ∃ error, Refused setting error)
      ∧ ∀ error, Refused setting error → FailsToStart setting upcoming cancelAt error := by
  refine ⟨⟨?_, ?_⟩, fun error refused => ⟨State.ends_of_refused upcoming cancelAt refused, ?_, ?_⟩⟩
  · rintro ⟨state, outcome, reaches, houtcome, herror⟩
    have opened := State.opened_of_reaches reaches
    rw [State.phase_of_outcome? houtcome] at opened
    exact opened.refused_of_isError herror
  · rintro ⟨error, refused⟩
    obtain ⟨fuel, hends⟩ := State.ends_of_refused upcoming cancelAt refused
    exact ⟨_, _, State.reaches_run setting upcoming cancelAt fuel, hends, rfl⟩
  · intro state outcome reaches houtcome
    exact ((State.opened_of_reaches reaches).of_refused refused).2 outcome
      (State.phase_of_outcome? houtcome)
  · intro state reaches
    exact ((State.opened_of_reaches reaches).of_refused refused).1

/-! ### A target that is down -/

/-- A run that asks for the health of its target, looks at its stock and opens connections in advance. -/
def cautious : Config where
  baseUrl := some "http://t"
  scenario := some (.couponIssue none none)
  healthCheck := some "/health"
  warmup := some "http://t/"

/-- A plan against a target that answers that it is unavailable. -/
def unavailable (plan : Plan) : Setting :=
  { plan, target := .ofRoutes [("GET http://t/health", [⟨.ofMillis 3, .ok ⟨503, .ofMillis 3, []⟩⟩])] }

/-- Whether there is everything to do before the load of a plan, and the target says that it is unavailable. -/
def findsUnavailable (plan : Plan) : Bool :=
  plan.inventory.isSome && plan.warmup.isSome && decide (plan.healthCheck = some "/health")
    && decide (healthUrl (unavailable plan) "/health" = "http://t/health")
    && decide (healthExchange (unavailable plan) "/health" = .ok ⟨503, .ofMillis 3, []⟩)

theorem unavailable_leaves_no_trace : ∃ plan, cautious.resolve = .ok plan
    ∧ plan.inventory.isSome = true ∧ plan.warmup.isSome = true
    ∧ FailsToStart (unavailable plan) [] (some 2_000_000) (.healthStatus "http://t/health" 503) := by
  have hany : cautious.resolve.toOption.any findsUnavailable = true := by decide +kernel
  obtain ⟨plan, hplan, hfinds⟩ := exists_ok_of_any hany
  simp only [findsUnavailable, Bool.and_eq_true, decide_eq_true_eq] at hfinds
  obtain ⟨⟨⟨⟨hinventory, hwarmup⟩, hset⟩, hurl⟩, hexchange⟩ := hfinds
  have set : (unavailable plan).plan.healthCheck = some "/health" := hset
  have refused := Refused.status set hexchange (by decide)
  rw [hurl] at refused
  exact ⟨plan, hplan, hinventory, hwarmup, (fails_iff_refused _ [] _).2 _ refused⟩

end LoadTest.Simulation

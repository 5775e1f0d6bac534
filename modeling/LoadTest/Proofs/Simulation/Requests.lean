import LoadTest.Proofs.Address
import LoadTest.Proofs.Config.Resolve
import LoadTest.Proofs.Simulation.Startup

/-!
# LoadTest.Proofs.Simulation.Requests

Where the requests of a run go. **Every request is one of four that the plan names** (`Planned`), each step adds
no other, and so what holds of those four holds of all that a run ever sends. Under an accepted configuration
they go to addresses under its base (`requests_addressed`), which names a host if the configuration does.
-/

namespace LoadTest.Simulation

open Crowd Relation

variable {setting : Setting} {upcoming : List (Nat × Command)} {cancelAt : Option Nat}

/-! ### Requests of a plan -/

/-- The requests that a plan has a run send. -/
inductive Planned (setting : Setting) : Request → Prop where
  | iteration (parameters : Parameters) :
      Planned setting (setting.plan.scenario.request setting.plan.baseUrl parameters)
  | health {path : String} (set : setting.plan.healthCheck = some path) :
      Planned setting (Probe.request (Probe.joinUrl setting.plan.baseUrl path))
  | warmup {url : String} (set : setting.plan.warmup = some url) : Planned setting (Probe.warmup url)
  | stock {probe : InventoryProbe} (set : setting.plan.inventory = some probe) :
      Planned setting (stockRequest setting probe)

/-- An event that tells of no request but one of the plan. -/
def Event.IsPlanned (setting : Setting) (event : Event) : Prop :=
  ∀ request ∈ event.request?, Planned setting request

theorem Event.isPlanned_of_none {event : Event} (h : event.request? = none) : event.IsPlanned setting := by
  intro request mem
  simp [h] at mem

theorem Event.isPlanned_probed {request : Request} (h : Planned setting request) :
    (Event.probed request).IsPlanned setting := by
  intro other mem
  obtain rfl : request = other := Option.some.inj mem
  exact h

namespace Crowd

variable {crowd after : Crowd} {user : User}

/-- A change that notes no request but those of the plan. -/
abbrev Asks (setting : Setting) (before after : Crowd) : Prop := NotesOnly (Event.IsPlanned setting) before after

theorem Asks.of_none (h : NotesOnly (fun event => event.request? = none) crowd after) : Asks setting crowd after :=
  h.mono fun _ => Event.isPlanned_of_none

theorem Turn.asks (turn : Turn setting crowd user after) : Asks setting crowd after := by
  cases turn with
  | halt quiet cause => exact .of_log rfl
  | @send parameters words quiet untold running unpaused =>
      refine .single rfl ?_
      intro request mem
      obtain rfl := Option.some.inj mem
      exact .iteration parameters
  | record sending arrived => exact .of_none (.single rfl rfl)

end Crowd

/-! ### Steps -/

namespace State

variable {state next : State}

theorem asks_probeMany {request : Request} (h : Planned setting request) (n : Nat) (state : State) :
    Asks setting state.crowd (state.probeMany setting request n).2.crowd := by
  induction n generalizing state with
  | zero => exact .of_log rfl
  | succ n ih =>
      have hfirst : Asks setting state.crowd (state.probe setting request).2.crowd :=
        .single rfl (Event.isPlanned_probed h)
      rw [probeMany_succ]
      exact hfirst.trans (ih _)

theorem asks_enterStocking (state : State) : Asks setting state.crowd (state.enterStocking setting).crowd := by
  unfold enterStocking
  cases hprobe : setting.plan.inventory with
  | none => exact .of_log rfl
  | some probe => exact .single rfl (Event.isPlanned_probed (.stock hprobe))

theorem asks_enterWarmup (state : State) : Asks setting state.crowd (state.enterWarmup setting).crowd := by
  unfold enterWarmup
  cases hurl : setting.plan.warmup with
  | none => exact asks_enterStocking state
  | some url => exact asks_probeMany (.warmup hurl) Probe.warmupConnections state

theorem asks_enterCheck (state : State) : Asks setting state.crowd (state.enterCheck setting).crowd := by
  unfold enterCheck
  cases hpath : setting.plan.healthCheck with
  | none => exact asks_enterWarmup state
  | some path => exact .single rfl (Event.isPlanned_probed (.health hpath))

theorem asks_enterRestocking (load : Load) (state : State) :
    Asks setting state.crowd (state.enterRestocking setting load).crowd := by
  unfold enterRestocking
  cases hprobe : setting.plan.inventory with
  | none => exact .of_log rfl
  | some probe => exact .single rfl (Event.isPlanned_probed (.stock hprobe))

/-- A look at the schedule sends nothing: no user goes on, and nobody else asks for anything. -/
theorem Look.asks {load : Load} (look : Look setting load state next) : Asks setting state.crowd next.crowd := by
  obtain ⟨events, hlog, hunlived⟩ := look.idle.unlived
  obtain ⟨others, hothers, hunprobed⟩ := look.unprobed
  obtain rfl : events = others := List.append_cancel_right (hlog.symm.trans hothers)
  refine .of_none ⟨events, hlog, ?_⟩
  intro entry mem
  have hunlived := hunlived entry mem
  have hunprobed := hunprobed entry mem
  cases hevent : entry.2 <;> simp_all [Event.user?, Event.isProbe, Event.request?]

theorem asks_advance (state : State) : Asks setting state.crowd (state.advance setting).crowd := by
  cases hphase : state.phase with
  | checking url exchange due =>
      simp only [State.advance, hphase]
      cases Probe.readHealth url exchange with
      | ok _ => exact asks_enterWarmup state
      | error _ => exact .of_log rfl
  | warming due =>
      simp only [State.advance, hphase]
      exact asks_enterStocking state
  | stocking url field exchange due =>
      simp only [State.advance, hphase]
      exact .of_log rfl
  | loading load tick => exact (look_advance hphase).asks
  | draining load deadline =>
      simp only [State.advance, hphase]
      have habort : Asks setting state.crowd state.crowd.abort := .of_none (notes_abort (fun _ => rfl) state.crowd)
      exact habort.trans (asks_enterRestocking load _)
  | restocking load lasted active url field exchange due =>
      simp only [State.advance, hphase]
      exact .of_log rfl
  | ended outcome =>
      simp only [State.advance, hphase]
      exact .of_log rfl

/-- **A step sends no request but one of the plan.** -/
theorem Step.asks (step : Step setting state next) : Asks setting state.crowd next.crowd := by
  cases step with
  | pass later => exact .of_log rfl
  | @act action enabled =>
      cases action with
      | deliver =>
          have hsame : (state.perform setting .deliver).crowd = state.crowd := by
            cases hupcoming : state.upcoming <;> simp only [perform, hupcoming]
          exact .of_log (by rw [hsame])
      | cancel => exact .of_log rfl
      | advance => exact asks_advance state
      | user user => exact (turn_stepUser (isEnabled_user_iff.mp enabled).2).asks
      | wait => simp [isEnabled] at enabled

/-- **All requests of a run are those of its plan.** -/
theorem planned_of_reaches (reaches : Reaches setting upcoming cancelAt state) :
    ∀ entry ∈ state.crowd.log, entry.2.IsPlanned setting := by
  have hasks : Asks setting (initial setting) state.crowd := by
    induction reaches with
    | refl =>
        rw [start_eq]
        exact asks_enterCheck (blank setting upcoming cancelAt)
    | tail _ step ih => exact ih.trans step.asks
  obtain ⟨events, hlog, hplanned⟩ := hasks
  have hempty : state.crowd.log = events := hlog.trans (List.append_nil events)
  rwa [hempty]

end State

/-! ### Addresses -/

/-- **A request of a plan is under its base,** unless the plan names another address for it. -/
theorem Planned.under {request : Request} (h : Planned setting request) : Under setting.plan.baseUrl request.url
    ∨ (Probe.isAbsolute request.url = true ∧ (setting.plan.healthCheck = some request.url
      ∨ ∃ probe, setting.plan.inventory = some probe ∧ probe.path = request.url))
    ∨ setting.plan.warmup = some request.url := by
  have hjoin (path : String) : Under setting.plan.baseUrl (Probe.joinUrl setting.plan.baseUrl path)
      ∨ (Probe.isAbsolute path = true ∧ Probe.joinUrl setting.plan.baseUrl path = path) := by
    cases habsolute : Probe.isAbsolute path with
    | false => exact .inl (Probe.under_joinUrl _ habsolute)
    | true => exact .inr ⟨rfl, by rw [Probe.joinUrl, if_pos habsolute]⟩
  cases h with
  | iteration parameters => exact .inl (Scenario.under_request ..)
  | @health path set =>
      rcases hjoin path with hunder | ⟨habsolute, heq⟩
      · exact .inl hunder
      · simp only [Probe.request, heq]
        exact .inr (.inl ⟨habsolute, .inl set⟩)
  | warmup set => exact .inr (.inr set)
  | @stock probe set =>
      rcases hjoin probe.path with hunder | ⟨habsolute, heq⟩
      · exact .inl hunder
      · simp only [stockRequest, Probe.request, heq]
        exact .inr (.inl ⟨habsolute, .inr ⟨probe, set, rfl⟩⟩)

/-- More slashes at the end of its base do not make a configuration another. -/
theorem resolve_slashes {config : Config} {plan : Plan} (resolved : config.resolve = .ok plan) (n : Nat) :
    { config with baseUrl := some (plan.baseUrl ++ slashes n) }.resolve
      = .ok { plan with baseUrl := plan.baseUrl ++ slashes n } := by
  have h := Config.resolve_eq_ok_iff.mp resolved
  obtain ⟨given, -, htrim, hne, habsolute⟩ := Config.resolveBaseUrl_eq_ok_iff.mp h.baseUrl
  refine Config.resolve_eq_ok_iff.mpr { h with baseUrl := Config.resolveBaseUrl_eq_ok_iff.mpr ?_ }
  have htrimmed : Text.Trimmed (plan.baseUrl ++ slashes n).toList := by
    rw [String.toList_append, toList_slashes, htrim]
    refine (Text.trimmed_trim given).append ?_
    intro c mem
    rw [List.eq_of_mem_replicate mem]
    decide
  refine ⟨_, rfl, (Text.trim_eq_self htrimmed).symm, ?_, Probe.isAbsolute_append habsolute _⟩
  simp [hne]

/-- **Where the requests of a run go** whose configuration is accepted. -/
structure Addressed (config : Config) (setting : Setting) (state : State) : Prop where
  /-- The base is what is left of the given address without slashes at its end; it has a host, or is nothing
  but the name of a scheme. -/
  base : ∃ given n, config.baseUrl = some given
    ∧ Text.trim given = Scenario.trimBase setting.plan.baseUrl ++ slashes n
  scheme : Hosted (Scenario.trimBase setting.plan.baseUrl)
    ∨ Scenario.trimBase setting.plan.baseUrl ∈ ["http:", "https:"]
  host : Hosted (Scenario.trimBase setting.plan.baseUrl) ↔ NamesHost setting.plan.baseUrl
  /-- One slash stands between the base and what an iteration or a probe asks for. -/
  iterations : ∀ parameters,
    Under setting.plan.baseUrl (setting.plan.scenario.request setting.plan.baseUrl parameters).url
  probes : ∀ path, Probe.isAbsolute path = false →
    Under setting.plan.baseUrl (Probe.joinUrl setting.plan.baseUrl path)
  /-- How many slashes the configuration has at the end of its address makes no difference. -/
  trailing : ∀ n, ∃ plan, { config with baseUrl := some (setting.plan.baseUrl ++ slashes n) }.resolve = .ok plan
    ∧ (∀ parameters, plan.scenario.request plan.baseUrl parameters
      = setting.plan.scenario.request setting.plan.baseUrl parameters)
    ∧ ∀ path, Probe.joinUrl plan.baseUrl path = Probe.joinUrl setting.plan.baseUrl path
  /-- Nor does it make one how many there are at the beginning of a path. -/
  leading : ∀ path, Probe.isAbsolute path = false → ∀ n,
    Probe.joinUrl setting.plan.baseUrl (slashes n ++ path) = Probe.joinUrl setting.plan.baseUrl path
  /-- Whatever the run has sent went to an address under the base, or to one that the plan names in full. -/
  sent : ∀ entry ∈ state.crowd.log, ∀ request ∈ entry.2.request?, Under setting.plan.baseUrl request.url
    ∨ (Probe.isAbsolute request.url = true ∧ (setting.plan.healthCheck = some request.url
      ∨ ∃ probe, setting.plan.inventory = some probe ∧ probe.path = request.url))
    ∨ setting.plan.warmup = some request.url

/-- **Requests of runs go to addresses under their base.** -/
theorem requests_addressed {config : Config} {state : State} (resolved : config.resolve = .ok setting.plan)
    (reaches : State.Reaches setting upcoming cancelAt state) : Addressed config setting state := by
  have h := Config.resolve_eq_ok_iff.mp resolved
  obtain ⟨given, hgiven, htrim, -, habsolute⟩ := Config.resolveBaseUrl_eq_ok_iff.mp h.baseUrl
  obtain ⟨n, hslashes⟩ := Scenario.exists_slashes setting.plan.baseUrl
  refine {
    base := ⟨given, n, hgiven, htrim.symm.trans hslashes⟩
    scheme := ?_
    host := hosted_trimBase_iff setting.plan.baseUrl
    iterations := setting.plan.scenario.under_request setting.plan.baseUrl
    probes := fun path => Probe.under_joinUrl setting.plan.baseUrl
    trailing := ?_
    leading := fun path => Probe.joinUrl_leading setting.plan.baseUrl
    sent := ?_ }
  · by_cases hhosted : Hosted (Scenario.trimBase setting.plan.baseUrl)
    · exact .inl hhosted
    · exact .inr (trimBase_of_not_hosted habsolute hhosted)
  · intro n
    refine ⟨_, resolve_slashes resolved n, ?_, ?_⟩
    · exact setting.plan.scenario.request_slashes setting.plan.baseUrl n
    · intro path
      exact Probe.joinUrl_slashes setting.plan.baseUrl path n
  · intro entry mem request hrequest
    exact (State.planned_of_reaches reaches entry mem request hrequest).under

/-! ### A run of one user -/

/-- A run of one user, against an address. -/
def lone (address : String) : Config where
  baseUrl := some address
  scenario := some (.couponIssue none none)
  stages := some [⟨"0ms", 1⟩, ⟨"1s", 1⟩]
  healthCheck := some "//up"
  inventory := some { enabled := some false }

/-- A target that says yes to everything. -/
def agreeable (plan : Plan) : Setting :=
  { plan, target := fun _ _ => ⟨.ofMillis 500, .ok ⟨200, .ofMillis 500, []⟩⟩ }

/-- That run after some steps. -/
def loneAfter (plan : Plan) : State := (State.start (agreeable plan) [] none).run (agreeable plan) 6

/-- Whether the user of that run has sent a request to an address. -/
def loneSends (url : String) (plan : Plan) : Bool :=
  (loneAfter plan).crowd.log.any fun entry => entry.2.request?.any fun request => decide (request.url = url)

theorem of_loneSends {address url : String} (h : (lone address).resolve.toOption.any (loneSends url) = true) :
    ∃ plan, (lone address).resolve = .ok plan ∧ State.Reaches (agreeable plan) [] none (loneAfter plan)
      ∧ ∃ entry ∈ (loneAfter plan).crowd.log, ∃ request ∈ entry.2.request?, request.url = url := by
  obtain ⟨plan, hresolve, hsends⟩ := exists_ok_of_any h
  obtain ⟨entry, mem, hany⟩ := List.any_eq_true.mp hsends
  obtain ⟨request, hrequest, hurl⟩ := (Option.any_eq_true ..).mp hany
  exact ⟨plan, hresolve, State.reaches_run _ [] none 6, entry, mem, request, hrequest, of_decide_eq_true hurl⟩

/-- Blanks around an address and slashes at its end are not there in what is asked for. -/
theorem lone_user_addressed : ∃ plan, (lone " https://t/api// ").resolve = .ok plan
    ∧ Addressed (lone " https://t/api// ") (agreeable plan) (loneAfter plan)
    ∧ ∃ entry ∈ (loneAfter plan).crowd.log, ∃ request ∈ entry.2.request?,
      request.url = "https://t/api/coupons/1/issue" := by
  have hany : (lone " https://t/api// ").resolve.toOption.any (loneSends "https://t/api/coupons/1/issue") = true := by
    decide +kernel
  obtain ⟨plan, resolved, reaches, hsent⟩ := of_loneSends hany
  exact ⟨plan, resolved, requests_addressed resolved reaches, hsent⟩

/-- **An address of a scheme alone is accepted,** and every request goes to an address without it. -/
theorem scheme_alone_accepted : ∃ plan, (lone "http://").resolve = .ok plan
    ∧ ¬ Hosted (Scenario.trimBase plan.baseUrl)
    ∧ State.Reaches (agreeable plan) [] none (loneAfter plan)
    ∧ ∃ entry ∈ (loneAfter plan).crowd.log, ∃ request ∈ entry.2.request?,
      request.url = "http:/coupons/1/issue" ∧ Probe.isAbsolute request.url = false := by
  have hany : (lone "http://").resolve.toOption.any (loneSends "http:/coupons/1/issue") = true := by decide +kernel
  obtain ⟨plan, resolved, reaches, entry, mem, request, hrequest, hurl⟩ := of_loneSends hany
  refine ⟨plan, resolved, ?_, reaches, entry, mem, request, hrequest, hurl, ?_⟩
  · have h := Config.resolve_eq_ok_iff.mp resolved
    obtain ⟨given, hgiven, htrim, -, -⟩ := Config.resolveBaseUrl_eq_ok_iff.mp h.baseUrl
    obtain rfl : "http://" = given := Option.some.inj hgiven
    rw [htrim]
    exact mt Hosted.isAbsolute (by decide)
  · rw [hurl]
    decide

end LoadTest.Simulation

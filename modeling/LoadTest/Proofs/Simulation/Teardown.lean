import LoadTest.Proofs.Simulation.EarlyEnd
import LoadTest.Proofs.Simulation.Startup

/-!
# LoadTest.Proofs.Simulation.Teardown

What the looks at the stock do to the report of a run. **A look that fails costs the report nothing but its
inventory,** before the load as after it; two looks that succeed are reported with their exact difference.
Only where that difference has no 64 bits is there no report, and everything that was measured is lost
(`report_of_readings`).
-/

namespace LoadTest.Simulation

open Crowd Relation

variable {setting : Setting} {probe : InventoryProbe} {upcoming : List (Nat × Command)}
  {cancelAt : Option Nat}

/-! ### Readings -/

/-- A reading of the stock. -/
abbrev Reading := Except ProbeError Int

/-- The inventory of two readings: there is one if both succeeded. -/
def inventoryOf : Reading → Reading → Option Inventory
  | .ok before, .ok after => some ⟨before, after, before - after⟩
  | _, _ => none

/-- The difference of two readings has 64 bits. -/
def Near (before after : Reading) : Prop := ∀ first second, before = .ok first → after = .ok second →
  -signedLimit ≤ first - second ∧ first - second < signedLimit

/-- What a report says of two readings, if it says anything. -/
theorem inventory?_eq {before after : Reading} (near : Near before after) :
    State.inventory? before.toOption after.toOption = some (inventoryOf before after) := by
  cases before with
  | error cause => rfl
  | ok first =>
      cases after with
      | error cause => rfl
      | ok second =>
          have hrange := near first second rfl rfl
          simp [State.inventory?, Except.toOption, Inventory.ofReadings?, inventoryOf, hrange]

theorem inventory?_eq_none {before after : Reading} (far : ¬Near before after) :
    State.inventory? before.toOption after.toOption = none := by
  simp only [Near, not_forall] at far
  obtain ⟨first, second, rfl, rfl, hrange⟩ := far
  simp only [State.inventory?, Except.toOption, Inventory.ofReadings?, if_neg hrange, Option.map_none]

/-- A log in which the stock has been read once: before that the run sent requests of its own, and after that
only users did. -/
inductive ReadOnce (setting : Setting) (probe : InventoryProbe) (log : List (Nat × Event))
    (reading : Reading) : Prop where
  | intro {since before : List (Nat × Event)} (time : Nat)
      (split : log = since ++ (time, .probed (stockRequest setting probe)) :: before)
      (load : ∀ entry ∈ since, entry.2.isProbe = false) (early : ∀ entry ∈ before, entry.2.isProbe = true)
      (read : reading = stockAfter setting probe before)

/-- A log in which the stock has been read twice, before the load and after its end. -/
inductive ReadTwice (setting : Setting) (probe : InventoryProbe) (log : List (Nat × Event))
    (first second : Reading) : Prop where
  | intro {since before : List (Nat × Event)} (time : Nat)
      (split : log = since ++ (time, .probed (stockRequest setting probe)) :: before)
      (late : ∀ entry ∈ since, entry.2.isProbe = false) (once : ReadOnce setting probe before first)
      (closed : ∃ time cancelled, (time, .closed cancelled) ∈ before)
      (read : second = stockAfter setting probe before)

theorem ReadOnce.mono {crowd after : Crowd} {reading : Reading}
    (h : ReadOnce setting probe crowd.log reading) (unprobed : Unprobed crowd after) :
    ReadOnce setting probe after.log reading := by
  obtain ⟨events, hlog, hevents⟩ := unprobed
  obtain ⟨time, split, load, early, read⟩ := h
  exact ⟨time, by rw [hlog, split, List.append_assoc], List.forall_mem_append.mpr ⟨hevents, load⟩, early, read⟩

theorem ReadTwice.mono {crowd after : Crowd} {first second : Reading}
    (h : ReadTwice setting probe crowd.log first second) (unprobed : Unprobed crowd after) :
    ReadTwice setting probe after.log first second := by
  obtain ⟨events, hlog, hevents⟩ := unprobed
  obtain ⟨time, split, late, once, closed, read⟩ := h
  exact ⟨time, by rw [hlog, split, List.append_assoc], List.forall_mem_append.mpr ⟨hevents, late⟩, once,
    closed, read⟩

/-- The last request of no user is found in one place of a log. -/
theorem eq_of_last_probe {since since' before before' : List (Nat × Event)} {last last' : Nat × Event}
    (same : since ++ last :: before = since' ++ last' :: before')
    (h : ∀ entry ∈ since, entry.2.isProbe = false) (h' : ∀ entry ∈ since', entry.2.isProbe = false)
    (probe : last.2.isProbe = true) (probe' : last'.2.isProbe = true) : before = before' := by
  have hdrop := congrArg (List.dropWhile fun entry : Nat × Event => !entry.2.isProbe) same
  rw [List.dropWhile_append_of_pos fun entry mem => by simp [h entry mem],
    List.dropWhile_append_of_pos fun entry mem => by simp [h' entry mem],
    List.dropWhile_cons_of_neg (by simp [probe]), List.dropWhile_cons_of_neg (by simp [probe'])] at hdrop
  exact (List.cons.inj hdrop).2

theorem ReadOnce.unique {log : List (Nat × Event)} {reading reading' : Reading}
    (h : ReadOnce setting probe log reading) (h' : ReadOnce setting probe log reading') :
    reading = reading' := by
  obtain ⟨time, split, load, -, read⟩ := h
  obtain ⟨time', split', load', -, read'⟩ := h'
  rw [read, read', eq_of_last_probe (split.symm.trans split') load load' rfl rfl]

/-- A log has one reading before the load, and one after it. -/
theorem ReadTwice.unique {log : List (Nat × Event)} {first first' second second' : Reading}
    (h : ReadTwice setting probe log first second) (h' : ReadTwice setting probe log first' second') :
    first = first' ∧ second = second' := by
  obtain ⟨time, split, late, once, -, read⟩ := h
  obtain ⟨time', split', late', once', -, read'⟩ := h'
  obtain rfl := eq_of_last_probe (split.symm.trans split') late late' rfl rfl
  exact ⟨once.unique once', read.trans read'.symm⟩

/-! ### Ends -/

/-- What was recorded in a log can be summed up. -/
def Summable (setting : Setting) (log : List (Nat × Event)) : Prop :=
  (sinkAfter setting (deliveries log)).snapshot?.isSome = true

theorem not_summable {crowd : Crowd} (accounted : Accounted setting crowd)
    (lost : crowd.sink.snapshot? = none) : ¬Summable setting crowd.log := by
  rw [Summable, sinkAfter, ← accounted.sink, lost]
  exact Bool.false_ne_true

/-- **How a run that began can end**, given its log. -/
inductive Ends (setting : Setting) (probe : InventoryProbe) (log : List (Nat × Event)) : Outcome → Prop where
  /-- The report has an inventory exactly if both readings succeeded. -/
  | reported {first second : Reading} {report : Report} (read : ReadTwice setting probe log first second)
      (near : Near first second) (inventory : report.inventory = inventoryOf first second) :
      Ends setting probe log (.reported report)
  /-- The two readings are too far apart, and there is no report. -/
  | distant {first second : Reading} (read : ReadTwice setting probe log first second)
      (far : ¬Near first second) : Ends setting probe log .overflowed
  /-- There is no report because what was recorded by some time cannot be summed up. -/
  | unsummable {earlier : List (Nat × Event)} (suffix : earlier <:+ log) (lost : ¬Summable setting earlier) :
      Ends setting probe log .overflowed

theorem Ends.mono {crowd after : Crowd} {outcome : Outcome} (h : Ends setting probe crowd.log outcome)
    (unprobed : Unprobed crowd after) : Ends setting probe after.log outcome := by
  cases h with
  | reported read near inventory => exact .reported (read.mono unprobed) near inventory
  | distant read far => exact .distant (read.mono unprobed) far
  | unsummable suffix lost =>
      obtain ⟨events, hlog, -⟩ := unprobed
      exact .unsummable (hlog ▸ suffix.trans (List.suffix_append ..)) lost

/-- Where the readings are near and everything can be summed up, there is a report. -/
theorem Ends.exists_report {log : List (Nat × Event)} {outcome : Outcome} {first second : Reading}
    (h : Ends setting probe log outcome) (read : ReadTwice setting probe log first second)
    (near : Near first second) (summable : ∀ earlier, earlier <:+ log → Summable setting earlier) :
    ∃ report, outcome = .reported report ∧ report.inventory = inventoryOf first second := by
  cases h with
  | reported read' _ inventory =>
      obtain ⟨rfl, rfl⟩ := read.unique read'
      exact ⟨_, rfl, inventory⟩
  | distant read' far =>
      obtain ⟨rfl, rfl⟩ := read.unique read'
      exact absurd near far
  | unsummable suffix lost => exact absurd (summable _ suffix) lost

/-! ### Phases -/

/-- What has been read of the stock in a phase. -/
def Surveyed (setting : Setting) (probe : InventoryProbe) (crowd : Crowd) : Phase → Prop
  | .checking .. | .warming _ => crowd.users = [] ∧ ∀ entry ∈ crowd.log, entry.2.isProbe = true
  | .stocking url field exchange _ =>
      ReadOnce setting probe crowd.log (Probe.readInventory url field exchange)
  | .loading load _ | .draining load _ =>
      ∃ first, ReadOnce setting probe crowd.log first ∧ load.stockBefore = first.toOption
  | .restocking load _ _ url field exchange _ => ∃ first,
      ReadTwice setting probe crowd.log first (Probe.readInventory url field exchange)
        ∧ load.stockBefore = first.toOption
  | .ended outcome => outcome.isError = false → Ends setting probe crowd.log outcome

namespace Surveyed

variable {state next : State}

theorem still (h : Surveyed setting probe state.crowd state.phase) (still : State.Still state next) :
    Surveyed setting probe next.crowd next.phase := by
  rw [still.phase]
  have early (h : state.crowd.users = [] ∧ ∀ entry ∈ state.crowd.log, entry.2.isProbe = true) :
      next.crowd.users = [] ∧ ∀ entry ∈ next.crowd.log, entry.2.isProbe = true := by
    obtain ⟨now, cancelled, hcrowd⟩ := still.alone h.1
    rw [hcrowd]
    exact h
  cases hphase : state.phase with
  | checking url exchange due =>
      rw [hphase] at h
      exact early h
  | warming due =>
      rw [hphase] at h
      exact early h
  | stocking url field exchange due =>
      rw [hphase] at h
      exact ReadOnce.mono h still.unprobed
  | loading load tick =>
      rw [hphase] at h
      obtain ⟨first, read, hload⟩ := h
      exact ⟨first, read.mono still.unprobed, hload⟩
  | draining load deadline =>
      rw [hphase] at h
      obtain ⟨first, read, hload⟩ := h
      exact ⟨first, read.mono still.unprobed, hload⟩
  | restocking load lasted active url field exchange due =>
      rw [hphase] at h
      obtain ⟨first, read, hload⟩ := h
      exact ⟨first, read.mono still.unprobed, hload⟩
  | ended outcome =>
      rw [hphase] at h
      exact fun herror => (h herror).mono still.unprobed

/-- The stock is read before the load. -/
theorem approach (counts : state.crowd.Counts) (set : setting.plan.inventory = some probe)
    (early : ∀ entry ∈ state.crowd.log, entry.2.isProbe = true) (nobody : state.crowd.users = [])
    (approach : State.Approach setting state next) : Surveyed setting probe next.crowd next.phase := by
  cases approach with
  | warm due probed =>
      obtain ⟨sent, hprobes⟩ := probed
      refine ⟨nobody, List.forall_mem_append.mpr ⟨fun entry mem => ?_, early⟩⟩
      obtain ⟨request, heq⟩ := hprobes entry mem
      rw [heq]
      rfl
  | @stock probe' set' due =>
      obtain rfl : probe' = probe := Option.some.inj (set'.symm.trans set)
      refine .intro state.crowd.now rfl (List.forall_mem_nil _) early ?_
      rw [counts.reply_eq, stockAfter]
  | load unset => simp [set] at unset

/-- The stock is read again after the load. -/
theorem finish (state : State) {load : Load} {first : Reading} (counts : state.crowd.Counts)
    (set : setting.plan.inventory = some probe) (once : ReadOnce setting probe state.crowd.log first)
    (hload : load.stockBefore = first.toOption)
    (closed : ∃ time cancelled, (time, .closed cancelled) ∈ state.crowd.log) :
    Surveyed setting probe (state.enterRestocking setting load).crowd
      (state.enterRestocking setting load).phase := by
  simp only [State.enterRestocking, set]
  refine ⟨first, ?_, hload⟩
  refine .intro state.crowd.now rfl (List.forall_mem_nil _) once closed ?_
  exact congrArg (fun reply : Reply => Probe.readInventory _ probe.field reply.exchange)
    (counts.reply_eq (stockRequest setting probe))

/-- The report is made of the two readings. -/
theorem conclude {load : Load} {first second : Reading} (lasted active : Duration)
    (accounted : Accounted setting state.crowd) (twice : ReadTwice setting probe state.crowd.log first second)
    (hload : load.stockBefore = first.toOption) :
    Surveyed setting probe (state.conclude setting load lasted active second.toOption).crowd
      (state.conclude setting load lasted active second.toOption).phase := by
  unfold State.conclude
  rw [hload]
  by_cases near : Near first second
  · rw [inventory?_eq near]
    cases hsnapshot : state.crowd.sink.snapshot? with
    | some snapshot => exact fun _ => .reported twice near rfl
    | none => exact fun _ => .unsummable List.suffix_rfl (not_summable accounted hsnapshot)
  · rw [inventory?_eq_none near]
    exact fun _ => .distant twice near

theorem passage (set : setting.plan.inventory = some probe) (sound : State.Sound setting state)
    (accounted : Accounted setting next.crowd) (h : Surveyed setting probe state.crowd state.phase)
    (passage : State.Passage setting state next) : Surveyed setting probe next.crowd next.phase := by
  have counts : state.crowd.Counts := sent_eq_asked sound.moves
  cases passage with
  | refuse checking unhealthy => exact fun herror => Bool.noConfusion herror
  | approve checking healthy approach =>
      rw [checking] at h
      exact Surveyed.approach counts set h.2 h.1 approach
  | warmed warming approach =>
      rw [warming] at h
      exact Surveyed.approach counts set h.2 h.1 approach
  | stocked stocking =>
      rw [stocking] at h
      exact ⟨_, h, rfl⟩
  | look loading kept unprobed =>
      rw [loading] at h
      obtain ⟨first, once, hload⟩ := h
      cases kept with
      | loading phase same =>
          rw [phase]
          exact ⟨first, once.mono unprobed, same.trans hload⟩
      | draining phase same =>
          rw [phase]
          exact ⟨first, once.mono unprobed, same.trans hload⟩
      | overflowed phase unsummable =>
          rw [phase]
          exact fun _ => .unsummable List.suffix_rfl (not_summable accounted unsummable)
  | finish draining =>
      have hfits := sound.fits
      rw [draining] at h hfits
      obtain ⟨first, once, hload⟩ := h
      obtain ⟨-, ⟨time, cancelled, hclosed, -⟩, -⟩ := hfits
      have unprobed : Unprobed state.crowd state.crowd.abort := unprobed_abort state.crowd
      obtain ⟨events, hlog, -⟩ := unprobed_abort state.crowd
      have closed : (time, .closed cancelled) ∈ state.crowd.abort.log := by
        rw [hlog]
        exact List.mem_append_right _ hclosed
      exact Surveyed.finish (state.withCrowd (·.abort)) counts.abort set (once.mono unprobed) hload
        ⟨time, cancelled, closed⟩
  | report restocking =>
      rw [restocking] at h
      obtain ⟨first, twice, hload⟩ := h
      exact Surveyed.conclude _ _ (accounted_of_moves sound.moves) twice hload

/-- A step keeps to what has been read. -/
theorem step (set : setting.plan.inventory = some probe) (sound : State.Sound setting state)
    (h : Surveyed setting probe state.crowd state.phase) (step : State.Step setting state next) :
    Surveyed setting probe next.crowd next.phase := by
  rcases step.course with still | passage
  · exact h.still still
  · exact h.passage set sound (accounted_of_moves (sound.step step).moves) passage

end Surveyed

/-- Whether the load is over and the run has not ended. -/
def Phase.isLate : Phase → Bool
  | .draining .. | .restocking .. => true
  | _ => false

namespace State

variable {state : State}

theorem surveyed_start (set : setting.plan.inventory = some probe) (upcoming : List (Nat × Command))
    (cancelAt : Option Nat) : Surveyed setting probe (start setting upcoming cancelAt).crowd
      (start setting upcoming cancelAt).phase := by
  rw [start_eq, enterCheck]
  cases setting.plan.healthCheck with
  | none =>
      exact Surveyed.approach (fun _ => rfl) set (List.forall_mem_nil _) rfl
        (approach_enterWarmup setting (blank setting upcoming cancelAt))
  | some path => exact ⟨rfl, List.forall_mem_singleton.mpr rfl⟩

theorem surveyed_of_reaches (set : setting.plan.inventory = some probe)
    (reaches : Reaches setting upcoming cancelAt state) : Surveyed setting probe state.crowd state.phase := by
  induction reaches with
  | refl => exact surveyed_start set upcoming cancelAt
  | tail reached step ih => exact ih.step set (sound_of_reaches reached) step

/-! ### After the load -/

/-- A look at the stock after the load ends with the run. -/
theorem leads_of_restocking (sound : Sound setting state) {load : Load} {lasted active : Duration}
    {url field : String} {exchange : Exchange} {due : Nat}
    (restocking : state.phase = .restocking load lasted active url field exchange due) :
    ∃ last outcome, Leads setting state last ∧ last.outcome? = some outcome
      ∧ outcome.isError = false := by
  have hfits := sound.fits
  rw [restocking] at hfits
  obtain ⟨next, leads, hphase, -, hadvance⟩ := leads_to_advance setting
    (tracked_of_moves sound.moves).numbered (resigned_of_allOver hfits.1) (by rw [restocking]; rfl)
  have hconclude : next.advance setting
      = next.conclude setting load lasted active (Probe.readInventory url field exchange).toOption := by
    rw [advance, hphase, restocking]
  obtain ⟨outcome, houtcome, hno⟩ := exists_outcome_conclude setting load lasted active
    (Probe.readInventory url field exchange).toOption next
  exact ⟨_, outcome, leads.trans hadvance, hconclude ▸ houtcome, hno⟩

/-- When users drain the run comes to look at the stock once more. -/
theorem leads_of_draining (set : setting.plan.inventory = some probe) (sound : Sound setting state)
    {load : Load} {deadline : Nat} (draining : state.phase = .draining load deadline) :
    ∃ next, Leads setting state next ∧ ∃ lasted active url field exchange due,
      next.phase = .restocking load lasted active url field exchange due := by
  have hfits := sound.fits
  rw [draining] at hfits
  have htracked := tracked_of_moves sound.moves
  obtain ⟨next, leads, hphase, -, hadvance⟩ := leads_to_advance setting htracked.numbered
    (htracked.resigned hfits.1) (by rw [draining]; rfl)
  have hrestock : next.advance setting = (next.withCrowd (·.abort)).enterRestocking setting load := by
    rw [advance, hphase, draining]
  refine ⟨_, leads.trans hadvance, ?_⟩
  rw [hrestock]
  simp only [enterRestocking, set]
  exact ⟨_, _, _, _, _, _, rfl⟩

/-- Once its load is over a run ends, and not with an error. -/
theorem leads_of_isLate (set : setting.plan.inventory = some probe)
    (reaches : Reaches setting upcoming cancelAt state) (late : state.phase.isLate = true) :
    ∃ last outcome, Leads setting state last ∧ last.outcome? = some outcome
      ∧ outcome.isError = false := by
  have sound := sound_of_reaches reaches
  cases hphase : state.phase with
  | draining load deadline =>
      obtain ⟨next, leads, _, _, _, _, _, _, restocking⟩ := leads_of_draining set sound hphase
      obtain ⟨last, outcome, hlast, hends⟩ :=
        leads_of_restocking (sound_of_reaches (leads.reaches reaches)) restocking
      exact ⟨last, outcome, leads.trans hlast, hends⟩
  | restocking load lasted active url field exchange due => exact leads_of_restocking sound hphase
  | _ => simp [hphase, Phase.isLate] at late

end State

/-- **What becomes of the report.** A run that began ends with a report, whatever came of the two looks at the
stock; it has an inventory exactly if both succeeded, and then that of their exact difference. It ends without
one only where that difference has no 64 bits, or what was recorded cannot be summed up. Once the load is over
it does end. -/
theorem report_of_readings {state : State} (set : setting.plan.inventory = some probe)
    (reaches : State.Reaches setting upcoming cancelAt state) :
    (∀ outcome, state.outcome? = some outcome → outcome.isError = false →
        Ends setting probe state.crowd.log outcome
          ∧ ∀ first second, ReadTwice setting probe state.crowd.log first second → Near first second →
            (∀ earlier, earlier <:+ state.crowd.log → Summable setting earlier) →
            ∃ report, outcome = .reported report ∧ report.inventory = inventoryOf first second)
      ∧ (state.phase.isLate = true → ∃ last outcome, State.Leads setting state last
        ∧ last.outcome? = some outcome ∧ Ends setting probe last.crowd.log outcome) := by
  have hends {state : State} {outcome : Outcome} (reaches : State.Reaches setting upcoming cancelAt state)
      (houtcome : state.outcome? = some outcome) (hno : outcome.isError = false) :
      Ends setting probe state.crowd.log outcome := by
    have surveyed := State.surveyed_of_reaches set reaches
    rw [State.phase_of_outcome? houtcome] at surveyed
    exact surveyed hno
  refine ⟨fun outcome houtcome hno => ⟨hends reaches houtcome hno, ?_⟩, fun late => ?_⟩
  · exact fun first second twice near summable =>
      (hends reaches houtcome hno).exists_report twice near summable
  · obtain ⟨last, outcome, leads, houtcome, hno⟩ := State.leads_of_isLate set reaches late
    exact ⟨last, outcome, leads, houtcome, hends (leads.reaches reaches) houtcome hno⟩

/-! ### A run of one user -/

/-- A short run of one user, that looks at the stock of its coupon. -/
def brief : Config where
  baseUrl := some "http://t"
  scenario := some (.couponIssue none (some ⟨none, some 0, none⟩))
  stages := some [⟨"0ms", 1⟩, ⟨"200ms", 1⟩]
  thresholds := some Table.empty
  thinkTime := some ⟨"1s", "1s"⟩

/-- Where its stock is found. -/
def couponStock : InventoryProbe := ⟨"/api/coupons/1", "quantity"⟩

/-- The answer that so many are in stock. -/
def inStock (quantity : Int) : Reply :=
  let text := "\x7b\"quantity\":" ++ toString quantity ++ "\x7d"
  ⟨.ofMillis 1, .ok ⟨200, .ofMillis 1, text.toList.map fun c => UInt8.ofNat c.toNat⟩⟩

/-- A plan against a target that has so many in stock, in turn. -/
def stocked (quantities : List Int) (plan : Plan) : Setting :=
  { plan, target := .ofRoutes [("GET http://t/api/coupons/1", quantities.map inStock)] }

/-- The end of that run. -/
def endStocked (quantities : List Int) (plan : Plan) : State :=
  (State.start (stocked quantities plan) [] none).run (stocked quantities plan) 40

/-- Whether that run looks at the stock, ends in some way, and could be summed up at any time. -/
def endsStocked (quantities : List Int) (p : Outcome → Bool) (plan : Plan) : Bool :=
  decide (plan.inventory = some couponStock) && (endStocked quantities plan).outcome?.any p
    && (endStocked quantities plan).crowd.log.tails.all fun earlier =>
      (sinkAfter (stocked quantities plan) (deliveries earlier)).snapshot?.isSome

theorem of_endsStocked {quantities : List Int} {p : Outcome → Bool} {plan : Plan}
    (h : endsStocked quantities p plan = true) : plan.inventory = some couponStock
      ∧ State.Reaches (stocked quantities plan) [] none (endStocked quantities plan)
      ∧ (∃ outcome, (endStocked quantities plan).outcome? = some outcome ∧ p outcome = true)
      ∧ ∀ earlier, earlier <:+ (endStocked quantities plan).crowd.log →
        Summable (stocked quantities plan) earlier := by
  simp only [endsStocked, Bool.and_eq_true, decide_eq_true_eq, Option.any_eq_true, List.all_eq_true,
    List.mem_tails] at h
  obtain ⟨⟨hset, houtcome⟩, hsummable⟩ := h
  exact ⟨hset, State.reaches_run _ [] none 40, houtcome, hsummable⟩

/-- Whether a run is reported with an inventory. -/
def Outcome.reports (inventory : Inventory) : Outcome → Bool
  | .reported report => decide (report.inventory = some inventory)
  | _ => false

/-- Everything there ever can be is consumed, and the report says so. -/
theorem whole_stock_reported : ∃ plan report, brief.resolve = .ok plan ∧ plan.inventory = some couponStock
    ∧ (endStocked [signedLimit - 1, 0] plan).outcome? = some (.reported report)
    ∧ report.inventory = some ⟨signedLimit - 1, 0, signedLimit - 1⟩
    ∧ Ends (stocked [signedLimit - 1, 0] plan) couponStock (endStocked [signedLimit - 1, 0] plan).crowd.log
      (.reported report) := by
  have hany : brief.resolve.toOption.any (endsStocked [signedLimit - 1, 0]
      (Outcome.reports ⟨signedLimit - 1, 0, signedLimit - 1⟩)) = true := by decide +kernel
  obtain ⟨plan, hplan, hends⟩ := exists_ok_of_any hany
  obtain ⟨hset, reaches, ⟨outcome, houtcome, hreports⟩, -⟩ := of_endsStocked hends
  cases outcome with
  | reported report =>
      have hinventory : report.inventory = some ⟨signedLimit - 1, 0, signedLimit - 1⟩ := by
        simpa [Outcome.reports] using hreports
      exact ⟨plan, report, hplan, hset, houtcome, hinventory,
        ((report_of_readings hset reaches).1 _ houtcome rfl).1⟩
  | _ => simp [Outcome.reports] at hreports

/-- **A report may be lost to the last look at the stock.** Both looks succeed, and what was recorded can be
summed up; but the stock has fallen by more than a 64-bit integer holds. -/
theorem overdrawn_stock_loses_report : ∃ plan, brief.resolve = .ok plan
    ∧ plan.inventory = some couponStock
    ∧ (endStocked [signedLimit - 1, -1] plan).outcome? = some .overflowed
    ∧ (∀ earlier, earlier <:+ (endStocked [signedLimit - 1, -1] plan).crowd.log →
      Summable (stocked [signedLimit - 1, -1] plan) earlier)
    ∧ ∃ first second : Int, ReadTwice (stocked [signedLimit - 1, -1] plan) couponStock
      (endStocked [signedLimit - 1, -1] plan).crowd.log (.ok first) (.ok second) := by
  have hany : brief.resolve.toOption.any (endsStocked [signedLimit - 1, -1]
      fun outcome => outcome matches .overflowed) = true := by decide +kernel
  obtain ⟨plan, hplan, hends⟩ := exists_ok_of_any hany
  obtain ⟨hset, reaches, ⟨outcome, houtcome, hoverflowed⟩, summable⟩ := of_endsStocked hends
  obtain rfl : outcome = .overflowed := by cases outcome <;> simp_all
  have surveyed := State.surveyed_of_reaches hset reaches
  rw [State.phase_of_outcome? houtcome] at surveyed
  refine ⟨plan, hplan, hset, houtcome, summable, ?_⟩
  cases surveyed rfl with
  | distant twice far =>
      simp only [Near, not_forall] at far
      obtain ⟨first, second, rfl, rfl, -⟩ := far
      exact ⟨first, second, twice⟩
  | unsummable suffix lost => exact absurd (summable _ suffix) lost

end LoadTest.Simulation

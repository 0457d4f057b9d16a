import GameExport.Proofs.Export.Confinement
import GameExport.Proofs.Export.Proceeding
import GameExport.Proofs.Queue.WaitLoop

/-! # Exports whose jobs take too long

A call that has taken too long is ended, and the token of the export fires. Main statements: if the
export looks at its token after that and before it finds that no job is pending, it ends because of
the timeout; if it first finds that no job is pending, it goes on with whatever the call has left.
-/

namespace GameExport

open ExportM

/-! ## What is seen -/

/-- While an export waited for a job, the call took too long, and the export was about to look at
its token at some moment after that. -/
def SubmittedJob.IsSeenExpired (token : Token) (record : SubmittedJob) : Prop :=
  ∃ (start middle : Workshop) (earlier later : List Move),
    Workshop.Waits token (start.submit record.job) .looking earlier middle .asleep ∧
    .of .expired record.job ∈ earlier ∧
    Workshop.Waits token middle .asleep later record.ended.workshop (.over record.ended.isIdle)

variable {tool : ExportTool} {request : ExportRequest} {await : Awaiting}

def ExportState.IsInTime (request : ExportRequest) (state : ExportState) : Prop :=
  ∀ record ∈ state.jobs, record.job.token = request.token ∧ record.ended.isIdle = true

/-- If a wait for a job has not ended in time, that has ended the export. -/
def ExportState.IsInterrupted (tool : ExportTool) (request : ExportRequest) (error : ExportError)
    (state : ExportState) : Prop :=
  (∀ record ∈ state.jobs, record.job.token = request.token) ∧
    (state.IsInTime request ∨ error = interruption tool request state.workshop.world)

theorem ExportState.IsInTime.isInterrupted {state : ExportState} (inTime : state.IsInTime request)
    (error : ExportError) : state.IsInterrupted tool request error :=
  ⟨fun record member => (inTime record member).1, .inl inTime⟩

theorem proceeding_isInTime :
    Proceeding request (ExportState.IsInTime request)
      (fun error => ExportState.IsInterrupted tool request error) where
  said := fun _ _ _ => id
  progressed := fun _ _ => id
  recorded := fun error => (keepsJobs_of_core (keeps_record request error)).meets
    (fun jobs => ∀ record ∈ jobs, record.job.token = request.token ∧ record.ended.isIdle = true)
    fun _ _ inTime => ExportState.IsInTime.isInterrupted inTime _
  failed := fun error _ _ inTime => inTime.isInterrupted error
  changed := fun _ _ => id
  kept := fun _ _ _ _ _ _ => id

/-- An export goes on only while each wait for a job ends in time. -/
theorem carries_exportStages_isInTime :
    Carries (ExportState.IsInTime request)
      (fun error => ExportState.IsInterrupted tool request error)
      (await.exportStages tool request) := by
  apply proceeding_isInTime.exportStages
  · exact fun _ _ => id
  · apply meets_waitForQueue
    · exact fun _ inTime _ => inTime
    · intro state inTime _
      have resumed : (state.resumed (await.ends state.workshop)).IsInTime request := inTime
      exact resumed.isInterrupted _
  · intro job submits
    have sameToken := submits.token
    apply meets_waited
    · exact fun _ inTime _ => inTime.isInterrupted _
    · intro state inTime _ idle record member
      rcases List.mem_append.mp member with member | member
      · exact inTime record member
      · rw [List.mem_singleton.mp member]
        exact ⟨sameToken, idle⟩
    · intro state inTime _ _
      refine ⟨fun record member => ?_, .inr rfl⟩
      rcases List.mem_append.mp member with member | member
      · exact (inTime record member).1
      · rw [List.mem_singleton.mp member]
        exact sameToken

/-- If a job of an export takes too long, and the export looks at its token after that and before it
finds that no job is pending, then it ends because of that, whatever else happens. -/
theorem exportGame_timesOut (await : Awaiting) (tool : ExportTool) (request : ExportRequest)
    (workshop : Workshop) {record : SubmittedJob}
    (submitted : record ∈ ((await.exportStages tool request).run.run
      (.initial workshop request.project)).2.jobs)
    (seen : record.IsSeenExpired request.token)
    (uncancelled : ((await.exportStages tool request).run.run
      (.initial workshop request.project)).2.workshop.world.hasFired request.caller = false) :
    (await.exportGame tool request workshop).report.failure =
      some (.timedOut (tool.settings.jobLimit.getD ⟨0⟩)) := by
  have carries : Carries (ExportState.IsInTime request)
      (fun error => ExportState.IsInterrupted tool request error)
      (await.exportStages tool request) := carries_exportStages_isInTime
  have start : (ExportState.initial workshop request.project).IsInTime request :=
    fun _ member => (List.not_mem_nil member).elim
  have outcome := carries _ start
  rw [Awaiting.report_exportGame]
  generalize (await.exportStages tool request).run.run (.initial workshop request.project) = run
    at outcome submitted uncancelled ⊢
  rcases run with ⟨result, state⟩
  obtain ⟨start, middle, earlier, later, before, expired, after⟩ := seen
  have late (sameToken : record.job.token = request.token) : record.ended.isIdle = false := by
    rw [← sameToken] at before after
    exact before.cancelled_of_expired expired after
  have untimely (inTime : state.IsInTime request) : False := by
    obtain ⟨sameToken, idle⟩ := inTime record submitted
    rw [late sameToken] at idle
    cases idle
  cases result with
  | ok => exact (untimely outcome).elim
  | error error =>
      rcases outcome.2 with inTime | same
      · exact (untimely inTime).elim
      · change some error = _
        rw [same, interruption, uncancelled]
        rfl

/-! ## A call that takes too long -/

def partialOutput (files : FileTree) (output : Path) : FileTree :=
  (files.write output [1]).toOption.getD files

/-- How a wait for a job ends whose call makes a part of its output and then takes too long. Whoever
waits either is about to look at the token, or first lets the host be free until the worker has
counted the job as done. -/
def expiringEnds (isNoticed : Bool) (workshop : Workshop) : Workshop.WaitEnd :=
  match workshop.queue.waiting with
  | [] => ⟨workshop, true, 0⟩
  | job :: _ =>
      let begun := workshop.take.prepare job
      let cut := begun.expire job (partialOutput begun.world.files job.call.output)
      if isNoticed then ⟨cut, false, 0⟩ else ⟨cut.release, true, 1⟩

def Queue.IsLimited (queue : Queue) : Prop := queue.IsEmpty ∧ queue.limit.isSome = true

abbrev SubmittedJob.IsCut (token : Token) (isNoticed : Bool) (record : SubmittedJob) : Prop :=
  record.IsWaitedFor ⟨expiringEnds isNoticed⟩ Queue.IsLimited token

namespace Workshop

variable {start : Workshop} {job : Job}

theorem expiringEnds_submit (isNoticed : Bool) (empty : start.queue.IsEmpty) :
    expiringEnds isNoticed (start.submit job) =
      let begun := (start.submit job).take.prepare job
      let cut := begun.expire job (partialOutput begun.world.files job.call.output)
      if isNoticed then ⟨cut, false, 0⟩ else ⟨cut.release, true, 1⟩ := by
  rw [expiringEnds, waiting_submit empty]

theorem isEmpty_expiringEnds (empty : start.queue.IsEmpty)
    (limited : start.queue.limit.isSome = true)
    (unfired : start.world.hasFired job.token = false) :
    (expiringEnds false (start.submit job)).workshop.queue.IsEmpty ∧
      (expiringEnds false (start.submit job)).workshop.queue.limit.isSome = true := by
  have still : (start.submit job).take.world.hasFired job.token = false := by
    rw [take_submit empty]
    exact unfired
  obtain ⟨notes, phase, _, _, shape⟩ := queue_prepare still
  rw [take_submit empty] at shape
  rw [expiringEnds_submit false empty, take_submit empty]
  refine ⟨⟨?_, ?_, rfl, ?_⟩, ?_⟩
  · change (prepare _ job).queue.announced = []
    rw [shape]
    exact empty.announced
  · change (prepare _ job).queue.waiting = []
    rw [shape]
    exact empty.waiting
  · change (prepare _ job).queue.pending - 1 = 0
    rw [shape]
    exact Nat.sub_self 1
  · change (prepare _ job).queue.limit.isSome = true
    rw [shape]
    exact limited

theorem waits_begun (empty : start.queue.IsEmpty)
    (unfired : start.world.hasFired job.token = false) (plain : job.preparation = none) :
    let begun := (start.submit job).take.prepare job
    Waits job.token (start.submit job) .looking [.of .taken job, .of .started job] begun .asleep ∧
      begun.queue.running = some (job, .compiling) ∧ begun.queue.pending = 1 ∧
      begun.queue.limit = start.queue.limit ∧ begun.world.fired = start.world.fired := by
  have still : (start.submit job).take.world.hasFired job.token = false := by
    rw [take_submit empty]
    exact unfired
  have unskipped : ¬ (start.submit job).take.world.hasFired job.token = true := by simp [still]
  have shape : (start.submit job).take.prepare job = begin { (start.submit job).take with
      world := { (start.submit job).take.world with
        files := clearOutput (start.submit job).take.world.files job.call.output } } job := by
    rw [prepare, if_neg unskipped, plain]
  have pending : (start.submit job).queue.pending ≠ 0 := by
    simp [submit, Queue.submit, Queue.announce, Queue.send, empty.announced]
  have free : (start.submit job).queue.running = none := by
    simp [submit, Queue.submit, Queue.announce, Queue.send, empty.announced, empty.running]
  have taken : (start.submit job).take.queue.running = some (job, .taken) := by
    rw [take_submit empty]
  have later :
      (start.submit job).take.world.IsLater ((start.submit job).take.prepare job).world := by
    rw [shape]
    exact fun _ => id
  refine ⟨.others (.others (.own .refl (.busy pending)) (.take free (waiting_submit empty)))
    (.start taken still later), ?_⟩
  rw [shape, take_submit empty]
  exact ⟨rfl, rfl, rfl, rfl⟩

/-- A call has taken too long, and the token ends the wait. -/
theorem waits_noticed (empty : start.queue.IsEmpty) (limited : start.queue.limit.isSome = true)
    (unfired : start.world.hasFired job.token = false) (plain : job.preparation = none) :
    ∃ middle,
      Waits job.token (start.submit job) .looking
        [.of .taken job, .of .started job, .of .expired job] middle .asleep ∧
      Waits job.token middle .asleep [] (expiringEnds true (start.submit job)).workshop
        (.over (expiringEnds true (start.submit job)).isIdle) := by
  obtain ⟨waits, running, -, limit, -⟩ := waits_begun empty unfired plain
  rw [← limit] at limited
  rw [expiringEnds_submit true empty]
  exact ⟨_, .others waits (.expire running limited _), .own .refl
    (.cancelled (World.hasFired_fire_self _ _))⟩

/-- A call has taken too long while the host was free, and whoever waits then finds that no job is
pending. -/
theorem waits_unnoticed (empty : start.queue.IsEmpty) (limited : start.queue.limit.isSome = true)
    (unfired : start.world.hasFired job.token = false) (plain : job.preparation = none) :
    Waits job.token (start.submit job) .looking
      [.of .taken job, .of .started job, .of .expired job, .of .released job]
      (expiringEnds false (start.submit job)).workshop
      (.over (expiringEnds false (start.submit job)).isIdle) := by
  obtain ⟨waits, running, pending, limit, fired⟩ := waits_begun empty unfired plain
  rw [← limit] at limited
  have still : ((start.submit job).take.prepare job).world.hasFired job.token = false := by
    rw [World.hasFired, fired]
    exact unfired
  rw [expiringEnds_submit false empty]
  let begun := (start.submit job).take.prepare job
  have away := (waits.own (.uncancelled still)).own .free
  have cut := away.others
    (.expire running limited (partialOutput begun.world.files job.call.output))
  have done := cut.others (.release rfl)
  exact (done.own .back).own (.idle (Nat.sub_eq_zero_of_le (Nat.le_of_eq pending)))

end Workshop

/-! ## Exports whose calls all take too long -/

variable (tool request) in
theorem carries_exportStages_cut (isNoticed : Bool) :
    Carries
      (fun state => state.workshop.queue.IsLimited ∧
        ∀ record ∈ state.jobs, record.IsCut request.token isNoticed)
      (fun _ state => ∀ record ∈ state.jobs, record.IsCut request.token isNoticed)
      (Awaiting.exportStages ⟨expiringEnds isNoticed⟩ tool request) := by
  apply carries_exportStages_ready
  · intro workshop limited _
    dsimp only
    rw [expiringEnds, limited.1.waiting]
    exact limited
  · intro start job limited unfired _ inTime
    cases isNoticed with
    | true =>
        dsimp only at inTime
        rw [Workshop.expiringEnds_submit true limited.1] at inTime
        cases inTime
    | false => exact Workshop.isEmpty_expiringEnds limited.1 limited.2 unfired

def limitedWorkshop : Workshop :=
  { runtimeWorkshop with queue := .idle ⟨"/log"⟩ (some ⟨1⟩) }

def expiringStages (isNoticed : Bool) : Except ExportError Unit × ExportState :=
  (Awaiting.exportStages ⟨expiringEnds isNoticed⟩ obligingTool (launcherRequest "Hero")).run.run
    (.initial limitedWorkshop (launcherRequest "Hero").project)

theorem cut_of_expiringStages {isNoticed : Bool}
    (once : (expiringStages isNoticed).2.jobs.map (·.job.preparation.isNone) = [true]) :
    ∃ record, (expiringStages isNoticed).2.jobs = [record] ∧ record.job.preparation = none ∧
      record.IsCut (launcherRequest "Hero").token isNoticed := by
  have outcome := carries_exportStages_cut obligingTool (launcherRequest "Hero") isNoticed
    (.initial limitedWorkshop (launcherRequest "Hero").project)
    ⟨⟨⟨rfl, rfl, rfl, rfl⟩, rfl⟩, fun _ member => (List.not_mem_nil member).elim⟩
  unfold expiringStages at once ⊢
  generalize (Awaiting.exportStages ⟨expiringEnds isNoticed⟩ obligingTool
    (launcherRequest "Hero")).run.run _ = stages at once outcome ⊢
  rcases stages with ⟨result, state⟩
  have cut : ∀ record ∈ state.jobs, record.IsCut (launcherRequest "Hero").token isNoticed := by
    cases result with
    | ok => exact outcome.2
    | error => exact outcome
  obtain ⟨record, same, isNone⟩ := List.map_eq_singleton_iff.mp once
  have member : record ∈ state.jobs := by
    rw [same]
    exact List.mem_singleton_self record
  exact ⟨record, same, Option.isNone_iff_eq_none.mp isNone, cut record member⟩

/-- The only job of a game takes too long, and the export looks at its token. -/
theorem exportGame_timesOut_noticed :
    ∃ record ∈ (expiringStages true).2.jobs,
      record.IsSeenExpired (launcherRequest "Hero").token ∧
      (expiringStages true).2.workshop.world.hasFired (launcherRequest "Hero").caller = false ∧
      (Awaiting.exportGame ⟨expiringEnds true⟩ obligingTool (launcherRequest "Hero")
        limitedWorkshop).report.failure = some (.timedOut ⟨0⟩) := by
  have run : (expiringStages true).2.jobs.map (·.job.preparation.isNone) = [true] ∧
      (expiringStages true).2.workshop.world.hasFired (launcherRequest "Hero").caller = false := by
    decide +kernel
  obtain ⟨once, uncancelled⟩ := run
  obtain ⟨record, same, plain, start, ⟨empty, limited⟩, unfired, sameToken, ended⟩ :=
    cut_of_expiringStages once
  have member : record ∈ (expiringStages true).2.jobs := by
    rw [same]
    exact List.mem_singleton_self record
  rw [← sameToken] at unfired
  obtain ⟨middle, before, after⟩ := Workshop.waits_noticed empty limited unfired plain
  have seen : record.IsSeenExpired (launcherRequest "Hero").token :=
    ⟨start, middle, _, [], sameToken ▸ before, by simp, by rw [ended, ← sameToken]; exact after⟩
  exact ⟨record, member, seen, uncancelled,
    exportGame_timesOut ⟨expiringEnds true⟩ obligingTool (launcherRequest "Hero") limitedWorkshop
      member seen uncancelled⟩

/-- The call of the only job of a game takes too long while the host is free. Its token has fired,
but by the time the export goes on no job is pending: the export ends without any error, and the
library of the game is what the call has left. -/
theorem not_always_timesOut :
    ∃ (record : SubmittedJob) (start : Workshop) (moves : List Move),
      (expiringStages false).2.jobs = [record] ∧
      Workshop.Waits (launcherRequest "Hero").token (start.submit record.job) .looking moves
        record.ended.workshop (.over record.ended.isIdle) ∧
      .of .expired record.job ∈ moves ∧
      (expiringStages false).2.workshop.world.hasFired (launcherRequest "Hero").token = true ∧
      (expiringStages false).2.workshop.world.hasFired (launcherRequest "Hero").caller = false ∧
      (Awaiting.exportGame ⟨expiringEnds false⟩ obligingTool (launcherRequest "Hero")
        limitedWorkshop).report.isSuccess = true ∧
      (Awaiting.exportGame ⟨expiringEnds false⟩ obligingTool (launcherRequest "Hero")
        limitedWorkshop).workshop.world.files.node? ["out", "Code.so"] = some (.file [1]) := by
  have run : (expiringStages false).2.jobs.map (·.job.preparation.isNone) = [true] ∧
      (expiringStages false).2.workshop.world.hasFired (launcherRequest "Hero").token = true ∧
      (expiringStages false).2.workshop.world.hasFired (launcherRequest "Hero").caller = false ∧
      (Awaiting.exportGame ⟨expiringEnds false⟩ obligingTool (launcherRequest "Hero")
        limitedWorkshop).report.isSuccess = true ∧
      (Awaiting.exportGame ⟨expiringEnds false⟩ obligingTool (launcherRequest "Hero")
        limitedWorkshop).workshop.world.files.node? ["out", "Code.so"] = some (.file [1]) := by
    decide +kernel
  obtain ⟨once, rest⟩ := run
  obtain ⟨record, same, plain, start, ⟨empty, limited⟩, unfired, sameToken, ended⟩ :=
    cut_of_expiringStages once
  rw [← sameToken] at unfired
  have ended : record.ended = expiringEnds false (start.submit record.job) := ended
  have waits := Workshop.waits_unnoticed empty limited unfired plain
  rw [← ended, sameToken] at waits
  exact ⟨record, start, _, same, waits, by simp, rest⟩

end GameExport

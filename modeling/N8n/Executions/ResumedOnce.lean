import N8n.Executions.WaitTracker
import N8n.Library.Loop
import N8n.Library.Runs

/-! # One resume for each wait

How often `wait-tracker.ts` calls `run` for an execution while
its row waits.  At most one thing is on its way to the call: an armed timer, a
call of `startExecution`, or the call of `run` itself.
-/

namespace N8n.Executions

def Timer.isArmedFor (executionId : ExecutionId) (timer : Timer) : Bool :=
  timer.executionId = executionId && timer.status = .armed

def Resume.isPendingFor (executionId : ExecutionId) (resume : Resume) : Bool :=
  resume.executionId = executionId && resume.stage ≠ .left

namespace WaitTracker

/-- While its row waits, `run` is called at most once for an execution. -/
def ResumedOnce (tracker : WaitTracker) : Prop :=
  ∀ executionId ∈ tracker.waiting, tracker.runs.count executionId ≤ 1

/-- A call of `startExecution` has not come to `run`, or `run` was called and the row still waits. -/
def UnderWay (tracker : WaitTracker) (executionId : ExecutionId) : Prop :=
  (∃ resume ∈ tracker.resumes, resume.isPendingFor executionId = true) ∨
    (executionId ∈ tracker.waiting ∧ executionId ∈ tracker.runs)

/-- No poll sets a timer for an execution that is being resumed, and no child execution starts its parent when that is
being resumed or about to be. -/
def StartsNoneTwice (tracker : WaitTracker) : WaitEvent → Prop
  | .pollReturns poll => ∀ executionIds, tracker.polls[poll]? = some (.answered executionIds) →
    ∀ executionId ∈ executionIds, tracker.waitingExecutions.get? executionId = none → ¬ tracker.UnderWay executionId
  | .startExecution executionId => ¬ tracker.UnderWay executionId ∧
    ∀ timer ∈ tracker.timers, timer.isArmedFor executionId = false
  | _ => True

/-- The calls of `run` in this wait. -/
def runsInWait (tracker : WaitTracker) (executionId : ExecutionId) : Nat :=
  if executionId ∈ tracker.waiting then tracker.runs.count executionId else 0

/-- What is on its way to a call of `run`, and the calls in this wait. -/
def onItsWay (tracker : WaitTracker) (executionId : ExecutionId) : Nat :=
  tracker.timers.countP (Timer.isArmedFor executionId) + tracker.resumes.countP (Resume.isPendingFor executionId) +
    tracker.runsInWait executionId

structure Single (tracker : WaitTracker) : Prop where
  atMostOne : ∀ executionId, tracker.onItsWay executionId ≤ 1
  entry : ∀ (timer : Nat) executionId, tracker.timers[timer]? = some { executionId, status := .armed } →
    tracker.waitingExecutions.get? executionId = some timer

variable {tracker : WaitTracker}

theorem Single.resumedOnce (single : tracker.Single) : tracker.ResumedOnce := by
  intro executionId waits
  have atMostOne := single.atMostOne executionId
  rw [onItsWay, runsInWait, if_pos waits] at atMostOne
  omega

variable {executionId : ExecutionId}

theorem isArmedFor_iff {timer : Timer} :
    timer.isArmedFor executionId = true ↔ timer = { executionId, status := .armed } := by
  obtain ⟨executionId', status⟩ := timer
  simp [Timer.isArmedFor]

theorem clear_not_armed (executionId : ExecutionId) (timer : Timer) : timer.clear.isArmedFor executionId = false := by
  obtain ⟨executionId', status⟩ := timer
  cases status <;> simp [Timer.clear, Timer.isArmedFor]

theorem not_underWay_iff :
    ¬ tracker.UnderWay executionId ↔
      tracker.resumes.countP (Resume.isPendingFor executionId) = 0 ∧ tracker.runsInWait executionId = 0 := by
  rw [UnderWay, not_or, List.countP_eq_zero, runsInWait]
  refine and_congr (by simp) ?_
  split
  · rename_i waits
    simp [waits, List.count_eq_zero]
  · rename_i gone
    simp [gone]

theorem noTimer_of_none (single : tracker.Single) (absent : tracker.waitingExecutions.get? executionId = none) :
    tracker.timers.countP (Timer.isArmedFor executionId) = 0 := by
  rw [List.countP_eq_zero]
  intro timer member armed
  rw [isArmedFor_iff] at armed
  subst armed
  obtain ⟨number, isTimer⟩ := List.mem_iff_getElem?.mp member
  rw [single.entry number executionId isTimer] at absent
  cases absent

/-! ## What each part of a step adds -/

theorem single_setTimer (single : tracker.Single)
    (idle : tracker.waitingExecutions.get? executionId = none → ¬ tracker.UnderWay executionId) :
    (tracker.setTimer executionId).Single := by
  unfold setTimer
  split
  · exact single
  · rename_i absent
    obtain ⟨notPending, notRun⟩ := not_underWay_iff.mp (idle absent)
    have noTimer := noTimer_of_none single absent
    refine ⟨fun other => ?_, fun timer other isTimer => ?_⟩
    · change (tracker.timers ++ [_]).countP _ + _ + tracker.runsInWait other ≤ 1
      rw [List.countP_append, List.countP_singleton]
      by_cases same : other = executionId
      · subst same
        rw [noTimer, notPending, notRun]
        split <;> omega
      · have notArmed : ({ executionId, status := .armed } : Timer).isArmedFor other = false := by
          simp [Timer.isArmedFor, Ne.symm same]
        rw [notArmed]
        simpa [onItsWay] using single.atMostOne other
    · rcases Numbered.concat_iff.mp isTimer with before | ⟨rfl, added⟩
      · have isEntry := single.entry timer other before
        have different : other ≠ executionId := by
          rintro rfl
          rw [isEntry] at absent
          cases absent
        exact (OrderedMap.get?_set_of_ne _ _ different).trans isEntry
      · obtain rfl : other = executionId := congrArg Timer.executionId added
        exact OrderedMap.get?_set_self _ _ _

theorem single_setTimers (single : tracker.Single) {executionIds : List ExecutionId}
    (idle : ∀ executionId ∈ executionIds, tracker.waitingExecutions.get? executionId = none →
      ¬ tracker.UnderWay executionId) : (tracker.setTimers executionIds).Single := by
  have begun : ({ tracker with returned := executionIds } : WaitTracker).Single := ⟨single.atMostOne, single.entry⟩
  refine (Loop.foldl_preserves (fun tracker' : WaitTracker => tracker'.Single ∧
      (∀ executionId, tracker'.UnderWay executionId → tracker.UnderWay executionId) ∧
      ∀ executionId, tracker'.waitingExecutions.get? executionId = none →
        tracker.waitingExecutions.get? executionId = none)
    (fun executionId member tracker' kept => ?_)
    ⟨begun, fun _ under => under, fun _ absent => absent⟩).1
  obtain ⟨single', under, absent⟩ := kept
  refine ⟨single_setTimer single' fun absent' under' =>
    idle executionId member (absent executionId absent') (under executionId under'), fun other under' => ?_,
    fun other absent' => ?_⟩
  · refine under other ?_
    unfold setTimer at under'
    split at under' <;> exact under'
  · refine absent other ?_
    unfold setTimer at absent'
    split at absent'
    · exact absent'
    · by_cases same : other = executionId
      · subst same
        assumption
      · rwa [OrderedMap.get?_set_of_ne _ _ same] at absent'

theorem single_stopTracking (single : tracker.Single) : tracker.stopTracking.Single := by
  refine ⟨fun executionId => ?_, fun timer executionId isTimer => ?_⟩
  · have fewer : tracker.stopTracking.timers.countP (Timer.isArmedFor executionId) ≤
        tracker.timers.countP (Timer.isArmedFor executionId) :=
      Loop.foldl_preserves (fun timers : List Timer => timers.countP (Timer.isArmedFor executionId) ≤
          tracker.timers.countP (Timer.isArmedFor executionId))
        (fun timer _ timers below => Nat.le_trans (Numbered.countP_modify_le timers timer fun entry armed => by
          rw [clear_not_armed] at armed
          cases armed) below) (Nat.le_refl _)
    exact Nat.le_trans (Nat.add_le_add_right (Nat.add_le_add_right fewer _) _) (single.atMostOne executionId)
  · have changed := Numbered.foldl_modify Timer.clear_clear tracker.waitingExecutions.values tracker.timers timer
    change tracker.stopTracking.timers[timer]? = _ at changed
    rw [isTimer] at changed
    obtain ⟨before, isBefore, same⟩ := Option.map_eq_some_iff.mp changed.symm
    split at same
    · have notArmed := clear_not_armed executionId before
      rw [same] at notArmed
      simp [Timer.isArmedFor] at notArmed
    · subst same
      exact single.entry timer executionId isBefore

theorem single_startExecution {timers : List Timer}
    (idle : timers.countP (Timer.isArmedFor executionId) +
      tracker.resumes.countP (Resume.isPendingFor executionId) + tracker.runsInWait executionId = 0)
    (fewer : ∀ other, timers.countP (Timer.isArmedFor other) ≤ tracker.timers.countP (Timer.isArmedFor other))
    (same : ∀ (timer : Nat) entry, timers[timer]? = some entry → entry.status = .armed →
      tracker.timers[timer]? = some entry) (single : tracker.Single) :
    ({ tracker with timers }.startExecution executionId).Single := by
  refine ⟨fun other => ?_, fun timer other isTimer => ?_⟩
  · have atMostOne := single.atMostOne other
    have below := fewer other
    change timers.countP _ + (tracker.resumes ++ [_]).countP _ + tracker.runsInWait other ≤ 1
    rw [onItsWay] at atMostOne
    rw [List.countP_append, List.countP_singleton]
    by_cases isStarted : other = executionId
    · subst isStarted
      split <;> omega
    · have notPending : ({ executionId, stage := .loading } : Resume).isPendingFor other = false := by
        simp [Resume.isPendingFor, Ne.symm isStarted]
      rw [notPending]
      simp only [Bool.false_eq_true, if_false]
      omega
  · have different : other ≠ executionId := by
      rintro rfl
      have none : timers.countP (Timer.isArmedFor other) = 0 := by omega
      exact List.countP_eq_zero.mp none _ (List.mem_of_getElem? isTimer) (isArmedFor_iff.mpr rfl)
    exact (OrderedMap.get?_erase_of_ne _ different).trans (single.entry timer other (same timer _ isTimer rfl))

theorem single_timerFires (single : tracker.Single) {timer : Nat}
    (isTimer : tracker.timers[timer]? = some { executionId, status := .armed }) :
    ({ tracker with
        timers := tracker.timers.modify timer fun entry => { entry with status := .fired } }.startExecution
          executionId).Single := by
  have notArmed : ∀ other, ({ executionId, status := .fired } : Timer).isArmedFor other = false := by
    simp [Timer.isArmedFor]
  have atMostOne := single.atMostOne executionId
  have counts := Numbered.countP_modify isTimer (fun entry => { entry with status := .fired })
    (Timer.isArmedFor executionId)
  rw [if_pos (isArmedFor_iff.mpr rfl), notArmed] at counts
  rw [onItsWay] at atMostOne
  refine single_startExecution ?_ (fun other => ?_) (fun number entry isEntry armed => ?_) single
  · simp only [Bool.false_eq_true, if_false] at counts
    omega
  · refine Numbered.countP_modify_le _ _ fun entry armed => ?_
    rw [isArmedFor_iff] at armed
    cases entry
    cases armed
  · rw [Numbered.modify_of_some isTimer] at isEntry
    split at isEntry
    · obtain rfl := Option.some.inj isEntry
      cases armed
    · exact isEntry

theorem single_stopExecution (single : tracker.Single) (executionId : ExecutionId) :
    (tracker.stopExecution executionId).Single := by
  unfold stopExecution
  split
  · exact single
  · rename_i timer found
    refine ⟨fun other => ?_, fun number other isTimer => ?_⟩
    · have fewer : (tracker.timers.modify timer Timer.clear).countP (Timer.isArmedFor other) ≤
          tracker.timers.countP (Timer.isArmedFor other) :=
        Numbered.countP_modify_le tracker.timers timer fun entry armed => by
          rw [clear_not_armed] at armed
          cases armed
      exact Nat.le_trans (Nat.add_le_add_right (Nat.add_le_add_right fewer _) _) (single.atMostOne other)
    · rw [List.getElem?_modify] at isTimer
      obtain ⟨before, isBefore, same⟩ := Option.map_eq_some_iff.mp isTimer
      split at same
      · -- the timer of the entry is not armed any more
        have notArmed := clear_not_armed other before
        rw [same] at notArmed
        simp [Timer.isArmedFor] at notArmed
      · rename_i different
        subst same
        have isEntry := single.entry number other isBefore
        refine (OrderedMap.get?_erase_of_ne _ ?_).trans isEntry
        rintro rfl
        exact different (Option.some.inj (found.symm.trans isEntry))

theorem single_withStage (single : tracker.Single) {resume : Nat} {entry : Resume}
    (isResume : tracker.resumes[resume]? = some entry) (pending : entry.stage ≠ .left) (stage : ResumeStage) :
    (tracker.withStage resume stage).Single ∧
      (stage = .left → ((tracker.withStage resume stage).run entry.executionId).Single) := by
  have counts := fun other => Numbered.countP_modify isResume (fun entry => { entry with stage })
    (Resume.isPendingFor other)
  have wasPending : ∀ other, entry.isPendingFor other = true ↔ entry.executionId = other := by
    simp [Resume.isPendingFor, pending]
  have isPending : ∀ other, ({ entry with stage } : Resume).isPendingFor other = true ↔
      entry.executionId = other ∧ stage ≠ .left := by
    simp [Resume.isPendingFor]
  constructor
  · refine ⟨fun other => ?_, single.entry⟩
    have atMostOne := single.atMostOne other
    have count := counts other
    simp only [wasPending, isPending] at count
    change tracker.timers.countP _ + (tracker.resumes.modify resume _).countP _ + tracker.runsInWait other ≤ 1
    rw [onItsWay] at atMostOne
    by_cases same : entry.executionId = other ∧ stage ≠ .left
    · rw [if_pos same, if_pos same.1] at count
      omega
    · rw [if_neg same] at count
      omega
  · rintro rfl
    have left : ∀ other, (tracker.withStage resume .left).resumes.countP (Resume.isPendingFor other) +
        (if entry.executionId = other then 1 else 0) = tracker.resumes.countP (Resume.isPendingFor other) := by
      intro other
      simpa [withStage, wasPending, isPending] using counts other
    have runs : ∀ other, ((tracker.withStage resume .left).run entry.executionId).runsInWait other ≤
        tracker.runsInWait other + (if entry.executionId = other then 1 else 0) := by
      intro other
      unfold run
      split
      · change (if other ∈ tracker.waiting then (tracker.runs ++ [entry.executionId]).count other else 0) ≤ _
        rw [runsInWait]
        split
        · rw [List.count_append, List.count_singleton]
          simp
        · exact Nat.zero_le _
      · exact Nat.le_add_right _ _
    refine ⟨fun other => ?_, fun timer other isTimer => ?_⟩
    · have atMostOne := single.atMostOne other
      have fewer := left other
      have more := runs other
      have timers : ((tracker.withStage resume .left).run entry.executionId).timers = tracker.timers ∧
          ((tracker.withStage resume .left).run entry.executionId).resumes =
            (tracker.withStage resume .left).resumes := by
        unfold run
        split <;> exact ⟨rfl, rfl⟩
      rw [onItsWay] at atMostOne ⊢
      rw [timers.1, timers.2]
      omega
    · unfold run at isTimer ⊢
      split at isTimer <;> split <;> exact single.entry timer other isTimer

theorem single_rowUpdated (single : tracker.Single) (executionId : ExecutionId) :
    (tracker.step (.rowUpdated executionId)).Single := by
  refine ⟨fun other => ?_, single.entry⟩
  have fewer : (tracker.step (.rowUpdated executionId)).runsInWait other ≤ tracker.runsInWait other := by
    change (if other ∈ tracker.waiting.filter (· ≠ executionId) then tracker.runs.count other else 0) ≤ _
    rw [runsInWait]
    split
    · rename_i member
      exact Nat.le_of_eq (if_pos (List.mem_of_mem_filter member)).symm
    · exact Nat.zero_le _
  exact Nat.le_trans (Nat.add_le_add_left fewer _) (single.atMostOne other)

theorem single_putToWait (single : tracker.Single) (executionId : ExecutionId) :
    (tracker.step (.putToWait executionId)).Single := by
  simp only [step]
  split
  · exact single
  · refine ⟨fun other => ?_, single.entry⟩
    have fewer : (if other ∈ tracker.waiting ++ [executionId] then (tracker.runs.filter (· ≠ executionId)).count other
        else 0) ≤ tracker.runsInWait other := by
      rw [runsInWait]
      by_cases same : other = executionId
      · have none : (tracker.runs.filter (· ≠ executionId)).count other = 0 :=
          List.count_eq_zero.mpr fun member => by simp [same] at member
        rw [none]
        split <;> exact Nat.zero_le _
      · by_cases waits : other ∈ tracker.waiting
        · simp only [waits, List.mem_append, true_or, if_true]
          exact List.filter_sublist.count_le other
        · simp [waits, same]
    exact Nat.le_trans (Nat.add_le_add_left fewer _) (single.atMostOne other)

theorem single_step {event : WaitEvent} (starts : tracker.StartsNoneTwice event) (single : tracker.Single) :
    (tracker.step event).Single := by
  cases event with
  | leaderTakeover => exact ⟨single.atMostOne, single.entry⟩
  | leaderStepdown => exact single_stopTracking single
  | poll => exact ⟨single.atMostOne, single.entry⟩
  | answer poll executionIds =>
    simp only [step]
    split
    · exact ⟨single.atMostOne, single.entry⟩
    · exact single
  | pollReturns poll =>
    simp only [step]
    split
    · rename_i executionIds isPoll
      have ended : (tracker.endPoll poll).Single := ⟨single.atMostOne, single.entry⟩
      exact single_setTimers ended (starts executionIds isPoll)
    · exact single
  | pollThrows poll =>
    simp only [step]
    split
    · exact single
    · exact single
    · exact ⟨single.atMostOne, single.entry⟩
  | timerFires timer =>
    simp only [step]
    split
    · rename_i executionId isTimer
      exact single_timerFires single isTimer
    · exact single
  | startExecution executionId =>
    obtain ⟨notUnderWay, notArmed⟩ := starts
    obtain ⟨notPending, notRun⟩ := not_underWay_iff.mp notUnderWay
    have noTimer : tracker.timers.countP (Timer.isArmedFor executionId) = 0 :=
      List.countP_eq_zero.mpr fun timer member => by simp [notArmed timer member]
    exact single_startExecution (by omega) (fun _ => Nat.le_refl _) (fun _ _ isTimer _ => isTimer) single
  | stopExecution executionId => exact single_stopExecution single executionId
  | loaded resume succeeds =>
    simp only [step]
    split
    · rename_i isResume
      exact (single_withStage single isResume (by simp) _).1
    · exact single
  | projectLoaded resume succeeds =>
    simp only [step]
    split
    · rename_i executionId isResume
      split
      · exact (single_withStage single isResume (by simp) .left).2 rfl
      · exact (single_withStage single isResume (by simp) .left).1
    · exact single
  | rowUpdated executionId => exact single_rowUpdated single executionId
  | putToWait executionId => exact single_putToWait single executionId

/-- In a run in which nothing starts an execution that is being resumed already, each wait has one resume. -/
theorem always_resumedOnce (events : List WaitEvent) (every : Runs.Every step StartsNoneTwice new events) :
    Runs.Always step ResumedOnce new events := by
  have begins : new.Single :=
    ⟨fun executionId => Nat.zero_le 1, fun timer executionId impossible => (by cases impossible)⟩
  exact (Runs.always_of_invariant (fun _ _ starts single => single_step starts single) begins every).imp
    fun _ single => single.resumedOnce

/-! A second poll returns before the timer of the first one fires, and after that. -/

theorem late_resumedOnce : Runs.Always step ResumedOnce new
    [.putToWait "1", .leaderTakeover, .answer 0 ["1"], .pollReturns 0, .poll, .answer 1 ["1"], .pollReturns 1,
      .timerFires 0, .loaded 0 true, .projectLoaded 0 true, .rowUpdated "1"] := by
  refine always_resumedOnce _ ⟨trivial, trivial, trivial, fun executionIds isPoll executionId member absent under => ?_,
    trivial, trivial, fun executionIds isPoll executionId member absent => ?_, trivial, trivial, trivial, trivial,
    trivial⟩
  · rcases under with ⟨resume, impossible, _⟩ | ⟨_, impossible⟩
    · cases impossible
    · cases impossible
  · obtain rfl := Poll.answered.inj (Option.some.inj isPoll)
    obtain rfl := List.mem_singleton.mp member
    cases absent

theorem poll_not_resumedOnce : ¬ Runs.Always step ResumedOnce new
    [.putToWait "1", .leaderTakeover, .answer 0 ["1"], .pollReturns 0, .poll, .answer 1 ["1"], .timerFires 0,
      .pollReturns 1, .timerFires 1, .loaded 0 true, .projectLoaded 0 true, .loaded 1 true,
      .projectLoaded 1 true] := by
  intro always
  exact absurd (always.final "1" (by decide)) (by decide)

end WaitTracker

end N8n.Executions

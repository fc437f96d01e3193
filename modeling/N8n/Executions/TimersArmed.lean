import N8n.Executions.WaitTracker
import N8n.Library.Loop
import N8n.Library.Runs

/-! # Armed timers

Whether the waiting executions that the last poll of `wait-tracker.ts`
has returned are going to be started.
-/

namespace N8n.Executions.WaitTracker

def PollInProgress (tracker : WaitTracker) (poll : Nat) : Prop :=
  ∃ entry, tracker.polls[poll]? = some entry ∧ entry ≠ .ended

/-- The execution has an entry, whose timer is scheduled and has not been cleared. -/
def IsArmed (tracker : WaitTracker) (executionId : ExecutionId) : Prop :=
  ∃ timer, tracker.waitingExecutions.get? executionId = some timer ∧
    tracker.timers[timer]? = some { executionId, status := .armed }

/-- While the instance leads and no poll is in progress. -/
def TimersArmed (tracker : WaitTracker) : Prop :=
  tracker.tracking = true → (∀ poll, ¬ tracker.PollInProgress poll) →
    ∀ executionId ∈ tracker.returned, tracker.IsArmed executionId

/-- The last poll in progress returns no execution with an entry that a stepdown has left with a cleared timer. -/
def FindsNoneCleared (tracker : WaitTracker) : WaitEvent → Prop
  | .pollReturns poll => tracker.tracking = true → (∀ other, other ≠ poll → ¬ tracker.PollInProgress other) →
    ∀ executionIds, tracker.polls[poll]? = some (.answered executionIds) → ∀ executionId ∈ executionIds, ∀ timer,
      tracker.waitingExecutions.get? executionId = some timer →
        tracker.timers[timer]? ≠ some { executionId, status := .cleared }
  | _ => True

/-- The timer of an entry is one of its execution, and has not fired. -/
def Owned (tracker : WaitTracker) : Prop :=
  ∀ executionId timer, tracker.waitingExecutions.get? executionId = some timer →
    tracker.timers[timer]? = some { executionId, status := .armed } ∨
      tracker.timers[timer]? = some { executionId, status := .cleared }

/-- Nothing that the timers are about is different. -/
structure SameTimers (tracker tracker' : WaitTracker) : Prop where
  waitingExecutions : tracker'.waitingExecutions = tracker.waitingExecutions
  timers : tracker'.timers = tracker.timers
  tracking : tracker'.tracking = tracker.tracking
  polls : tracker'.polls = tracker.polls
  returned : tracker'.returned = tracker.returned

theorem SameTimers.owned {tracker tracker' : WaitTracker} (same : SameTimers tracker tracker')
    (owned : tracker.Owned) : tracker'.Owned := by
  unfold Owned at owned ⊢
  rw [same.waitingExecutions, same.timers]
  exact owned

theorem SameTimers.timersArmed {tracker tracker' : WaitTracker} (same : SameTimers tracker tracker')
    (armed : tracker.TimersArmed) : tracker'.TimersArmed := by
  unfold TimersArmed IsArmed PollInProgress at armed ⊢
  rw [same.waitingExecutions, same.timers, same.tracking, same.polls, same.returned]
  exact armed

theorem sameTimers_run (tracker : WaitTracker) (executionId : ExecutionId) :
    SameTimers tracker (tracker.run executionId) := by
  unfold run
  split <;> exact ⟨rfl, rfl, rfl, rfl, rfl⟩

theorem sameTimers_loaded (tracker : WaitTracker) (resume : Nat) (succeeds : Bool) :
    SameTimers tracker (tracker.step (.loaded resume succeeds)) := by
  simp only [step]
  split <;> exact ⟨rfl, rfl, rfl, rfl, rfl⟩

theorem sameTimers_projectLoaded (tracker : WaitTracker) (resume : Nat) (succeeds : Bool) :
    SameTimers tracker (tracker.step (.projectLoaded resume succeeds)) := by
  simp only [step]
  split
  · split
    · have same := sameTimers_run (tracker.withStage resume .left)
      exact ⟨(same _).1, (same _).2, (same _).3, (same _).4, (same _).5⟩
    · exact ⟨rfl, rfl, rfl, rfl, rfl⟩
  · exact ⟨rfl, rfl, rfl, rfl, rfl⟩

theorem sameTimers_putToWait (tracker : WaitTracker) (executionId : ExecutionId) :
    SameTimers tracker (tracker.step (.putToWait executionId)) := by
  simp only [step]
  split <;> exact ⟨rfl, rfl, rfl, rfl, rfl⟩

/-! ## The loop of a poll -/

variable {tracker : WaitTracker} {executionId : ExecutionId}

theorem setTimer_of_some {timer : Nat}
    (found : tracker.waitingExecutions.get? executionId = some timer) : tracker.setTimer executionId = tracker := by
  rw [setTimer, found]

theorem setTimer_of_none
    (absent : tracker.waitingExecutions.get? executionId = none) :
    tracker.setTimer executionId =
      { tracker with
        waitingExecutions := tracker.waitingExecutions.set executionId tracker.timers.length
        timers := tracker.timers ++ [{ executionId, status := .armed }] } := by
  rw [setTimer, absent]

theorem setTimer_keeps {timer : Nat} {entry : Timer}
    (found : tracker.waitingExecutions.get? executionId = some timer) (isTimer : tracker.timers[timer]? = some entry)
    (other : ExecutionId) :
    (tracker.setTimer other).waitingExecutions.get? executionId = some timer ∧
      (tracker.setTimer other).timers[timer]? = some entry := by
  cases foundOther : tracker.waitingExecutions.get? other with
  | some _ =>
    rw [setTimer_of_some foundOther]
    exact ⟨found, isTimer⟩
  | none =>
    have different : executionId ≠ other := by
      rintro rfl
      rw [found] at foundOther
      cases foundOther
    rw [setTimer_of_none foundOther]
    exact ⟨(OrderedMap.get?_set_of_ne _ _ different).trans found, Numbered.concat_of_some isTimer _⟩

theorem setTimers_keeps {tracker : WaitTracker} {executionId : ExecutionId} {timer : Nat} {entry : Timer}
    (found : tracker.waitingExecutions.get? executionId = some timer) (isTimer : tracker.timers[timer]? = some entry)
    (executionIds : List ExecutionId) :
    (executionIds.foldl setTimer tracker).waitingExecutions.get? executionId = some timer ∧
      (executionIds.foldl setTimer tracker).timers[timer]? = some entry :=
  Loop.foldl_preserves (fun tracker : WaitTracker => tracker.waitingExecutions.get? executionId = some timer ∧
    tracker.timers[timer]? = some entry) (fun other _ _ kept => setTimer_keeps kept.1 kept.2 other) ⟨found, isTimer⟩

theorem setTimers_arms {executionIds : List ExecutionId}
    (member : executionId ∈ executionIds) (absent : tracker.waitingExecutions.get? executionId = none) :
    (executionIds.foldl setTimer tracker).IsArmed executionId := by
  induction executionIds generalizing tracker with
  | nil => cases member
  | cons first rest ih =>
    rw [List.foldl_cons]
    by_cases same : executionId = first
    · subst same
      obtain ⟨found, isTimer⟩ : (tracker.setTimer executionId).waitingExecutions.get? executionId =
            some tracker.timers.length ∧
          (tracker.setTimer executionId).timers[tracker.timers.length]? = some { executionId, status := .armed } := by
        rw [setTimer_of_none absent]
        simp
      exact ⟨tracker.timers.length, setTimers_keeps found isTimer rest⟩
    · have later : executionId ∈ rest := by simpa [same] using member
      refine ih later ?_
      cases found : tracker.waitingExecutions.get? first with
      | some _ => rw [setTimer_of_some found]; exact absent
      | none =>
        rw [setTimer_of_none found]
        exact (OrderedMap.get?_set_of_ne _ _ same).trans absent

theorem setTimers_rest (tracker : WaitTracker) (executionIds : List ExecutionId) :
    (executionIds.foldl setTimer tracker).tracking = tracker.tracking ∧
      (executionIds.foldl setTimer tracker).polls = tracker.polls ∧
      (executionIds.foldl setTimer tracker).returned = tracker.returned := by
  refine Loop.foldl_preserves (fun tracker' : WaitTracker => tracker'.tracking = tracker.tracking ∧
    tracker'.polls = tracker.polls ∧ tracker'.returned = tracker.returned) (fun executionId _ tracker' kept => ?_)
    ⟨rfl, rfl, rfl⟩
  unfold setTimer
  split <;> exact kept

theorem owned_setTimer (owned : tracker.Owned) (executionId : ExecutionId) :
    (tracker.setTimer executionId).Owned := by
  cases found : tracker.waitingExecutions.get? executionId with
  | some _ =>
    rw [setTimer_of_some found]
    exact owned
  | none =>
    rw [setTimer_of_none found]
    intro other timer isEntry
    rw [OrderedMap.get?_set] at isEntry
    split at isEntry
    · rename_i same
      obtain rfl := Option.some.inj isEntry
      subst same
      exact .inl (by simp)
    · exact (owned other timer isEntry).imp (fun isTimer => Numbered.concat_of_some isTimer _) fun isTimer =>
        Numbered.concat_of_some isTimer _

theorem owned_setTimers (owned : tracker.Owned) (executionIds : List ExecutionId) :
    (tracker.setTimers executionIds).Owned :=
  Loop.foldl_preserves Owned (fun executionId _ _ owned => owned_setTimer owned executionId)
    (SameTimers.owned ⟨rfl, rfl, rfl, rfl, rfl⟩ owned)

/-! ## What every event keeps -/

theorem owned_stopTracking (owned : tracker.Owned) : tracker.stopTracking.Owned := by
  intro executionId timer isEntry
  have listed : timer ∈ tracker.waitingExecutions.values :=
    OrderedMap.mem_values.mpr ⟨executionId, OrderedMap.get?_eq_some.mp isEntry⟩
  have changed := Numbered.foldl_modify Timer.clear_clear tracker.waitingExecutions.values tracker.timers timer
  simp only [listed, if_true] at changed
  change tracker.stopTracking.timers[timer]? = _ at changed
  rcases owned executionId timer isEntry with isTimer | isTimer
  · rw [isTimer] at changed
    exact .inr changed
  · rw [isTimer] at changed
    exact .inr changed

def forget (tracker : WaitTracker) (executionId : ExecutionId) (timers : List Timer) : WaitTracker :=
  { tracker with
    waitingExecutions := tracker.waitingExecutions.erase executionId
    timers
    returned := tracker.returned.filter (· ≠ executionId) }

def KeepsOthers (executionId : ExecutionId) (timers timers' : List Timer) : Prop :=
  ∀ (timer : Nat) entry, timers[timer]? = some entry → entry.executionId ≠ executionId → timers'[timer]? = some entry

theorem keepsOthers_modify {timers : List Timer} {timer : Nat} {entry : Timer} (isTimer : timers[timer]? = some entry)
    (change : Timer → Timer) : KeepsOthers entry.executionId timers (timers.modify timer change) := by
  intro other entry' isOther different
  have distinct : other ≠ timer := by
    rintro rfl
    obtain rfl := Option.some.inj (isTimer.symm.trans isOther)
    exact different rfl
  rw [Numbered.modify_of_some isTimer, if_neg distinct]
  exact isOther

theorem get?_forget {executionId other : ExecutionId} {timers : List Timer} {timer : Nat}
    (found : (tracker.forget executionId timers).waitingExecutions.get? other = some timer) :
    other ≠ executionId ∧ tracker.waitingExecutions.get? other = some timer := by
  have different : other ≠ executionId := by
    rintro rfl
    rw [forget, OrderedMap.get?_erase_self] at found
    cases found
  rw [forget, OrderedMap.get?_erase_of_ne _ different] at found
  exact ⟨different, found⟩

theorem owned_forget (owned : tracker.Owned) {timers : List Timer}
    (others : KeepsOthers executionId tracker.timers timers) : (tracker.forget executionId timers).Owned := by
  intro other timer found
  obtain ⟨different, isEntry⟩ := get?_forget found
  exact (owned other timer isEntry).imp (fun isTimer => others timer _ isTimer different) fun isTimer =>
    others timer _ isTimer different

theorem timersArmed_forget (armed : tracker.TimersArmed)
    {timers : List Timer} (others : KeepsOthers executionId tracker.timers timers) :
    (tracker.forget executionId timers).TimersArmed := by
  intro tracking ended other member
  obtain ⟨isReturned, different⟩ : other ∈ tracker.returned ∧ other ≠ executionId := by
    simpa [forget] using member
  obtain ⟨timer, found, isTimer⟩ := armed tracking ended other isReturned
  exact ⟨timer, (OrderedMap.get?_erase_of_ne _ different).trans found, others timer _ isTimer different⟩

theorem timerFires_cases (tracker : WaitTracker) (timer : Nat) :
    tracker.step (.timerFires timer) = tracker ∨ ∃ executionId,
      tracker.timers[timer]? = some { executionId, status := .armed } ∧
      tracker.step (.timerFires timer) =
        { tracker with
          timers := tracker.timers.modify timer fun entry => { entry with status := .fired } }.startExecution
            executionId := by
  simp only [step]
  split
  · rename_i executionId isTimer
    exact .inr ⟨executionId, isTimer, rfl⟩
  · exact .inl rfl

theorem stopExecution_cases (owned : tracker.Owned) (executionId : ExecutionId) :
    tracker.stopExecution executionId = tracker ∨
      ∃ timers, KeepsOthers executionId tracker.timers timers ∧
        tracker.stopExecution executionId = tracker.forget executionId timers := by
  unfold stopExecution
  split
  · exact .inl rfl
  · rename_i timer found
    refine .inr ⟨_, ?_, rfl⟩
    rcases owned executionId timer found with isTimer | isTimer
    · exact keepsOthers_modify isTimer Timer.clear
    · exact keepsOthers_modify isTimer Timer.clear

theorem pollReturns_cases (tracker : WaitTracker) (poll : Nat) :
    (tracker.step (.pollReturns poll) = tracker ∧
        ∀ executionIds, tracker.polls[poll]? ≠ some (.answered executionIds)) ∨
      ∃ executionIds, tracker.polls[poll]? = some (.answered executionIds) ∧
        tracker.step (.pollReturns poll) = (tracker.endPoll poll).setTimers executionIds := by
  simp only [step]
  split
  · rename_i executionIds isPoll
    exact .inr ⟨executionIds, isPoll, rfl⟩
  · rename_i notAnswered
    exact .inl ⟨rfl, notAnswered⟩

theorem pollThrows_cases (tracker : WaitTracker) (poll : Nat) :
    tracker.step (.pollThrows poll) = tracker ∨
      tracker.step (.pollThrows poll) = { tracker.endPoll poll with returned := [] } := by
  simp only [step]
  split
  · exact .inl rfl
  · exact .inl rfl
  · exact .inr rfl

theorem owned_step (owned : tracker.Owned) (event : WaitEvent) :
    (tracker.step event).Owned := by
  cases event with
  | leaderTakeover => exact owned
  | leaderStepdown => exact owned_stopTracking owned
  | poll => exact owned
  | answer poll executionIds =>
    simp only [step]
    split <;> exact owned
  | pollReturns poll =>
    rcases pollReturns_cases tracker poll with ⟨same, _⟩ | ⟨executionIds, _, next⟩
    · rw [same]
      exact owned
    · rw [next]
      have ownedEnd : (tracker.endPoll poll).Owned := owned
      exact owned_setTimers ownedEnd executionIds
  | pollThrows poll =>
    rcases pollThrows_cases tracker poll with same | next
    · rw [same]
      exact owned
    · rw [next]
      exact owned
  | timerFires timer =>
    rcases timerFires_cases tracker timer with same | ⟨executionId, isTimer, next⟩
    · rw [same]
      exact owned
    · rw [next]
      exact owned_forget owned (keepsOthers_modify isTimer _)
  | startExecution executionId => exact owned_forget owned fun _ _ isTimer _ => isTimer
  | stopExecution executionId =>
    rcases stopExecution_cases owned executionId with same | ⟨timers, others, next⟩
    · rw [step, same]
      exact owned
    · rw [step, next]
      exact owned_forget owned others
  | loaded resume succeeds => exact (sameTimers_loaded tracker resume succeeds).owned owned
  | projectLoaded resume succeeds => exact (sameTimers_projectLoaded tracker resume succeeds).owned owned
  | rowUpdated executionId => exact owned
  | putToWait executionId => exact (sameTimers_putToWait tracker executionId).owned owned

/-! ## When an execution is left without a timer -/

theorem timersArmed_of_poll (tracker : WaitTracker) (tracking : Bool) :
    { tracker with tracking }.beginPoll.TimersArmed := by
  intro _ ended
  have inProgress : { tracker with tracking }.beginPoll.PollInProgress tracker.polls.length :=
    ⟨.querying, by simp [beginPoll], by simp⟩
  exact absurd inProgress (ended tracker.polls.length)

theorem inProgress_endPoll (tracker : WaitTracker) (poll other : Nat) :
    (tracker.endPoll poll).PollInProgress other ↔ other ≠ poll ∧ tracker.PollInProgress other := by
  unfold PollInProgress endPoll
  cases isPoll : tracker.polls[other]? with
  | none => simp [List.getElem?_modify, isPoll]
  | some entry =>
    by_cases same : other = poll
    · subst same
      simp [isPoll]
    · simp [isPoll, Ne.symm same, same]

theorem isArmed_setTimers (owned : tracker.Owned) {executionIds : List ExecutionId}
    (member : executionId ∈ executionIds) :
    (tracker.setTimers executionIds).IsArmed executionId ↔ ∀ timer,
      tracker.waitingExecutions.get? executionId = some timer →
        tracker.timers[timer]? ≠ some { executionId, status := .cleared } := by
  cases found : tracker.waitingExecutions.get? executionId with
  | none => exact iff_of_true (setTimers_arms member found) fun _ impossible => (by cases impossible)
  | some timer =>
    constructor
    · rintro ⟨timer', found', isTimer'⟩ other isEntry isCleared
      obtain rfl := Option.some.inj isEntry
      have kept := @setTimers_keeps { tracker with returned := executionIds } _ _ _ found isCleared executionIds
      obtain rfl := Option.some.inj (found'.symm.trans kept.1)
      rw [setTimers, kept.2] at isTimer'
      cases isTimer'
    · intro notCleared
      rcases owned executionId timer found with isTimer | isCleared
      · exact ⟨timer, @setTimers_keeps { tracker with returned := executionIds } _ _ _ found isTimer executionIds⟩
      · exact absurd isCleared (notCleared timer rfl)

theorem timersArmed_step_iff (owned : tracker.Owned) (armed : tracker.TimersArmed)
    (event : WaitEvent) : (tracker.step event).TimersArmed ↔ tracker.FindsNoneCleared event := by
  cases event with
  | leaderTakeover => exact iff_of_true (timersArmed_of_poll tracker true) trivial
  | leaderStepdown => exact iff_of_true (fun impossible => (by cases impossible)) trivial
  | poll => exact iff_of_true (timersArmed_of_poll tracker tracker.tracking) trivial
  | answer poll executionIds =>
    refine iff_of_true ?_ trivial
    simp only [step]
    split
    · rename_i isPoll
      intro _ ended
      refine absurd ?_ (ended poll)
      exact ⟨_, (Numbered.modify_of_some isPoll _ poll).trans (if_pos rfl), by simp⟩
    · exact armed
  | pollReturns poll =>
    rcases pollReturns_cases tracker poll with ⟨same, notAnswered⟩ | ⟨executionIds, isPoll, next⟩
    · rw [same]
      exact iff_of_true armed fun _ _ executionIds isPoll => absurd isPoll (notAnswered executionIds)
    · rw [next]
      obtain ⟨tracking_eq, polls_eq, returned_eq⟩ :=
        setTimers_rest { tracker.endPoll poll with returned := executionIds } executionIds
      have inProgress : ∀ other, ((tracker.endPoll poll).setTimers executionIds).PollInProgress other ↔
          other ≠ poll ∧ tracker.PollInProgress other := by
        intro other
        rw [← inProgress_endPoll]
        unfold PollInProgress
        rw [setTimers, polls_eq]
      have ownedEnd : (tracker.endPoll poll).Owned := owned
      constructor
      · intro after tracking ended executionIds' isPoll' executionId member
        obtain rfl := Poll.answered.inj (Option.some.inj (isPoll.symm.trans isPoll'))
        have isArmed := after (by rw [setTimers, tracking_eq]; exact tracking)
          (fun other progress => ended other ((inProgress other).mp progress).1 ((inProgress other).mp progress).2)
          executionId (by rw [setTimers, returned_eq]; exact member)
        exact (isArmed_setTimers ownedEnd member).mp isArmed
      · intro noneCleared tracking ended executionId member
        rw [setTimers, tracking_eq] at tracking
        rw [setTimers, returned_eq] at member
        exact (isArmed_setTimers ownedEnd member).mpr (noneCleared tracking (fun other different progress =>
          ended other ((inProgress other).mpr ⟨different, progress⟩)) executionIds isPoll executionId member)
  | pollThrows poll =>
    refine iff_of_true ?_ trivial
    rcases pollThrows_cases tracker poll with same | next
    · rw [same]
      exact armed
    · rw [next]
      intro _ _ _ impossible
      cases impossible
  | timerFires timer =>
    refine iff_of_true ?_ trivial
    rcases timerFires_cases tracker timer with same | ⟨executionId, isTimer, next⟩
    · rw [same]
      exact armed
    · rw [next]
      exact timersArmed_forget armed (keepsOthers_modify isTimer _)
  | startExecution executionId => exact iff_of_true (timersArmed_forget armed fun _ _ isTimer _ => isTimer) trivial
  | stopExecution executionId =>
    refine iff_of_true ?_ trivial
    rcases stopExecution_cases owned executionId with same | ⟨timers, others, next⟩
    · rw [step, same]
      exact armed
    · rw [step, next]
      exact timersArmed_forget armed others
  | loaded resume succeeds => exact iff_of_true ((sameTimers_loaded tracker resume succeeds).timersArmed armed) trivial
  | projectLoaded resume succeeds =>
    exact iff_of_true ((sameTimers_projectLoaded tracker resume succeeds).timersArmed armed) trivial
  | rowUpdated executionId => exact iff_of_true armed trivial
  | putToWait executionId =>
    exact iff_of_true ((sameTimers_putToWait tracker executionId).timersArmed armed) trivial

/-- In every run the timers are armed exactly when no poll comes upon an entry that a stepdown has left behind. -/
theorem always_timersArmed_iff (events : List WaitEvent) :
    Runs.Always step TimersArmed new events ↔ Runs.Every step FindsNoneCleared new events := by
  have begins : new.Owned := fun executionId timer impossible => (by cases impossible)
  exact @Runs.always_iff_every_of_kept _ _ step FindsNoneCleared Owned TimersArmed
    (fun _ event owned => owned_step owned event) (fun _ event owned armed => timersArmed_step_iff owned armed event) _
    begins (fun impossible => (by cases impossible)) events

/-! The leadership is lost and won again while an execution waits. -/

theorem takeover_not_timersArmed : ¬ Runs.Always step TimersArmed new
    [.putToWait "1", .leaderTakeover, .answer 0 ["1"], .pollReturns 0, .leaderStepdown, .leaderTakeover,
      .answer 1 ["1"], .pollReturns 1] := by
  intro always
  have ended : ∀ poll, ¬ PollInProgress (List.foldl step new
      [.putToWait "1", .leaderTakeover, .answer 0 ["1"], .pollReturns 0, .leaderStepdown, .leaderTakeover,
        .answer 1 ["1"], .pollReturns 1]) poll := by
    rintro poll ⟨entry, isPoll, notEnded⟩
    have polls : ∀ entry ∈ [Poll.ended, .ended], entry = .ended := by decide
    exact notEnded (polls entry (List.mem_of_getElem? isPoll))
  obtain ⟨timer, isEntry, isTimer⟩ := always.final (by decide) ended "1" (by decide)
  obtain rfl : 0 = timer := Option.some.inj isEntry
  revert isTimer
  decide

end N8n.Executions.WaitTracker

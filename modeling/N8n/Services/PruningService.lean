import N8n.Library.Runs

/-! # Pruning old executions

`packages/cli/src/services/pruning/pruning.service.ts` on one main instance, with
the timers of the process and the hard deletions that are under way.  The role of
the instance is changed before the handlers of `leader-takeover` and
`leader-stepdown` run.
-/

namespace N8n.Pruning

/-- What stays the same: the configuration, the type of the instance, and the state of the database. -/
structure Settings where
  pruneData : Bool
  /-- `instanceType === 'main'` -/
  isMain : Bool
  isMultiMain : Bool
  /-- `dbConnectionState.migrated` -/
  migrated : Bool
  /-- `rates`, in milliseconds -/
  softDeletionRate : Nat := 60 * 60 * 1000
  hardDeletionRate : Nat := 15 * 60 * 1000
  /-- Max number of executions to hard-delete in a cycle. -/
  batchSize : Nat := 100

/-- A timer that was started and neither cleared nor, if it is a timeout, over. -/
structure Timer where
  id : Nat
  delay : Nat
deriving DecidableEq, Repr

structure PruningService where
  isLeader : Bool
  isShuttingDown : Bool := false
  /-- The timers that were assigned last. -/
  softDeletionInterval : Option Nat := none
  hardDeletionTimeout : Option Nat := none
  intervals : List Timer := []
  timeouts : List Timer := []
  /-- The number of calls of `hardDelete` that have not settled. -/
  hardDeletions : Nat := 0
  /-- The number of timers that were started. -/
  started : Nat := 0
  /-- The instance stepped down or was shut down and did not take over since. -/
  quiet : Bool := false

inductive PruningEvent where
  | leaderTakeover
  | leaderStepdown
  | shutdown
  | intervalFires (id : Nat)
  | timeoutFires (id : Nat)
  /-- `hardDelete` returns after it has found this number of executions. -/
  | hardDeleted (found : Nat)
  | hardDeleteFails
deriving DecidableEq, Repr

namespace PruningService

variable (settings : Settings)

def isEnabled (service : PruningService) : Bool := settings.pruneData && settings.isMain && service.isLeader

def scheduleRollingSoftDeletions (service : PruningService) : PruningService :=
  { service with
    softDeletionInterval := some service.started
    intervals := service.intervals ++ [⟨service.started, settings.softDeletionRate⟩]
    started := service.started + 1 }

def scheduleNextHardDeletion (service : PruningService) (rateMs : Nat) : PruningService :=
  { service with
    hardDeletionTimeout := some service.started
    timeouts := service.timeouts ++ [⟨service.started, rateMs⟩]
    started := service.started + 1 }

/-- `startPruning` goes on behind its guard. -/
def mayStart (service : PruningService) : Bool :=
  service.isEnabled settings && settings.migrated && !service.isShuttingDown

def startPruning (service : PruningService) : PruningService :=
  if service.mayStart settings then
    (service.scheduleRollingSoftDeletions settings).scheduleNextHardDeletion settings.hardDeletionRate
  else service

/-- Clearing a timer that is over does nothing. -/
def stopPruning (service : PruningService) : PruningService :=
  if !service.isEnabled settings then service
  else
    { service with
      intervals := service.intervals.filter fun timer => service.softDeletionInterval ≠ some timer.id
      timeouts := service.timeouts.filter fun timer => service.hardDeletionTimeout ≠ some timer.id }

/-- The delay `hardDelete` returns. -/
def nextRate (found : Nat) : Nat :=
  if found = 0 then settings.hardDeletionRate
  -- if high volume, speed up next hard-deletion
  else if settings.batchSize ≤ found then 1000
  else settings.hardDeletionRate

/-- `init`; the role is set already. -/
def init (isLeader : Bool) : PruningService :=
  let service : PruningService := { isLeader }
  if isLeader then service.startPruning settings else service

/-- The events that can happen; the others leave the service as it is. -/
def Allows (service : PruningService) : PruningEvent → Prop
  | .intervalFires id => id ∈ service.intervals.map (·.id)
  | .timeoutFires id => id ∈ service.timeouts.map (·.id)
  | .hardDeleted _ | .hardDeleteFails => 0 < service.hardDeletions
  | _ => True

instance (service : PruningService) : DecidablePred service.Allows
  | .leaderTakeover => inferInstanceAs (Decidable True)
  | .leaderStepdown => inferInstanceAs (Decidable True)
  | .shutdown => inferInstanceAs (Decidable True)
  | .intervalFires id => inferInstanceAs (Decidable (id ∈ service.intervals.map (·.id)))
  | .timeoutFires id => inferInstanceAs (Decidable (id ∈ service.timeouts.map (·.id)))
  | .hardDeleted _ => inferInstanceAs (Decidable (0 < service.hardDeletions))
  | .hardDeleteFails => inferInstanceAs (Decidable (0 < service.hardDeletions))

/-- The handlers of the leader's events are registered in a multi-main setup only. -/
def step (service : PruningService) (event : PruningEvent) : PruningService :=
  if service.Allows event then
    match event with
    | .leaderTakeover =>
      let leader := { service with isLeader := true, quiet := false }
      if settings.isMultiMain then leader.startPruning settings else leader
    | .leaderStepdown =>
      let follower := { service with isLeader := false, quiet := true }
      if settings.isMultiMain then follower.stopPruning settings else follower
    | .shutdown => { service with isShuttingDown := true, quiet := true }.stopPruning settings
    -- the interval goes on
    | .intervalFires _ => service
    | .timeoutFires id =>
      { service with
        timeouts := service.timeouts.filter (·.id ≠ id)
        hardDeletions := service.hardDeletions + 1 }
    | .hardDeleted found =>
      { service with hardDeletions := service.hardDeletions - 1 }.scheduleNextHardDeletion
        (nextRate settings found)
    | .hardDeleteFails =>
      { service with hardDeletions := service.hardDeletions - 1 }.scheduleNextHardDeletion 1000
  else service

/-! ## Only the leader prunes -/

def StartsDeletion : PruningEvent → Prop
  | .intervalFires _ | .timeoutFires _ => True
  | _ => False

/-- No deletion is started from a stepdown or a shutdown until the next takeover, and there is at most
one interval of soft deletions and one chain of hard deletions. -/
structure PrunesProperly (service : PruningService) : Prop where
  noneStarts : service.quiet = true → ∀ event, StartsDeletion event → ¬service.Allows event
  oneInterval : service.intervals.length ≤ 1
  oneChain : service.timeouts.length + service.hardDeletions ≤ 1

def NoTimer (service : PruningService) : Prop := service.intervals = [] ∧ service.timeouts = []

/-- What an event must meet: the instance steps down only when it has no timer, it starts pruning only
when nothing is left of an earlier time, it is shut down as the leader or without timers, and no hard
deletion settles after it has stepped down or was shut down. -/
def Meets (service : PruningService) : PruningEvent → Prop
  | .leaderTakeover => settings.isMultiMain = true → { service with isLeader := true }.mayStart settings = true →
    service.NoTimer ∧ service.hardDeletions = 0
  | .leaderStepdown => service.NoTimer
  | .shutdown => service.isEnabled settings = true ∨ service.NoTimer
  | .hardDeleted _ | .hardDeleteFails => service.quiet = false
  | .intervalFires _ | .timeoutFires _ => True

variable {settings : Settings} {service : PruningService}

theorem noneStarts_iff :
    (∀ event, StartsDeletion event → ¬service.Allows event) ↔ service.NoTimer := by
  constructor
  · intro noneStarts
    constructor
    · cases intervals : service.intervals with
      | nil => rfl
      | cons timer rest =>
        exact absurd (by simp [Allows, intervals]) (noneStarts (.intervalFires timer.id) trivial)
    · cases timeouts : service.timeouts with
      | nil => rfl
      | cons timer rest =>
        exact absurd (by simp [Allows, timeouts]) (noneStarts (.timeoutFires timer.id) trivial)
  · intro noTimer event starts allowed
    cases event with
    | intervalFires id => simp [Allows, noTimer.1] at allowed
    | timeoutFires id => simp [Allows, noTimer.2] at allowed
    | leaderTakeover => exact starts
    | leaderStepdown => exact starts
    | shutdown => exact starts
    | hardDeleted found => exact starts
    | hardDeleteFails => exact starts

/-- The service prunes properly, and its timers are those it would clear. -/
structure Tidy (service : PruningService) : Prop where
  noTimer : service.quiet = true → service.NoTimer
  oneInterval : service.intervals.length ≤ 1
  oneChain : service.timeouts.length + service.hardDeletions ≤ 1
  intervalKnown : ∀ timer ∈ service.intervals, service.softDeletionInterval = some timer.id
  timeoutKnown : ∀ timer ∈ service.timeouts, service.hardDeletionTimeout = some timer.id

theorem Tidy.prunesProperly (tidy : service.Tidy) : service.PrunesProperly :=
  ⟨fun quiet => noneStarts_iff.mpr (tidy.noTimer quiet), tidy.oneInterval, tidy.oneChain⟩

theorem PrunesProperly.noTimer (properly : service.PrunesProperly) (quiet : service.quiet = true) :
    service.NoTimer := noneStarts_iff.mp (properly.noneStarts quiet)

theorem Tidy.startPruning (noTimer : service.NoTimer) (noneRuns : service.hardDeletions = 0)
    (notQuiet : service.quiet = false) : (service.startPruning settings).Tidy := by
  obtain ⟨noInterval, noTimeout⟩ := noTimer
  rw [PruningService.startPruning]
  split
  · constructor
    · intro quiet
      exact absurd (notQuiet.symm.trans quiet) Bool.false_ne_true
    · simp [scheduleNextHardDeletion, scheduleRollingSoftDeletions, noInterval]
    · simp [scheduleNextHardDeletion, scheduleRollingSoftDeletions, noTimeout, noneRuns]
    · simp [scheduleNextHardDeletion, scheduleRollingSoftDeletions, noInterval]
    · simp [scheduleNextHardDeletion, scheduleRollingSoftDeletions, noTimeout]
  · exact ⟨fun _ => ⟨noInterval, noTimeout⟩, by simp [noInterval], by simp [noTimeout, noneRuns],
      by simp [noInterval], by simp [noTimeout]⟩

theorem tidy_init (isLeader : Bool) : (init settings isLeader).Tidy := by
  have noTimer : ({ isLeader } : PruningService).NoTimer := ⟨rfl, rfl⟩
  cases isLeader with
  | true => exact Tidy.startPruning noTimer rfl rfl
  | false => exact ⟨fun _ => noTimer, Nat.zero_le 1, Nat.zero_le 1, by simp [init], by simp [init]⟩

/-- Clearing the timers that were assigned last clears all of them. -/
theorem noTimer_stopPruning (enabled : service.isEnabled settings = true)
    (intervalKnown : ∀ timer ∈ service.intervals, service.softDeletionInterval = some timer.id)
    (timeoutKnown : ∀ timer ∈ service.timeouts, service.hardDeletionTimeout = some timer.id) :
    (service.stopPruning settings).NoTimer := by
  rw [PruningService.stopPruning, enabled]
  constructor
  · show service.intervals.filter _ = []
    rw [List.filter_eq_nil_iff]
    intro timer member
    simp [intervalKnown timer member]
  · show service.timeouts.filter _ = []
    rw [List.filter_eq_nil_iff]
    intro timer member
    simp [timeoutKnown timer member]

@[simp] theorem hardDeletions_stopPruning :
    (service.stopPruning settings).hardDeletions = service.hardDeletions := by
  rw [PruningService.stopPruning]
  split <;> rfl

theorem NoTimer.stopPruning (noTimer : service.NoTimer) : (service.stopPruning settings).NoTimer := by
  rw [PruningService.stopPruning]
  split
  · exact noTimer
  · exact ⟨by simp [noTimer.1], by simp [noTimer.2]⟩

theorem NoTimer.tidy (noTimer : service.NoTimer) (oneChain : service.hardDeletions ≤ 1) : service.Tidy :=
  ⟨fun _ => noTimer, by simp [noTimer.1], by simp [noTimer.2, oneChain], by simp [noTimer.1], by simp [noTimer.2]⟩

theorem Tidy.hardDeletions_le (tidy : service.Tidy) : service.hardDeletions ≤ 1 :=
  Nat.le_trans (Nat.le_add_left _ _) tidy.oneChain

theorem Tidy.settle (tidy : service.Tidy) (runs : 0 < service.hardDeletions) (notQuiet : service.quiet = false)
    (rateMs : Nat) :
    ({ service with hardDeletions := service.hardDeletions - 1 }.scheduleNextHardDeletion rateMs).Tidy := by
  have oneChain := tidy.oneChain
  have noTimeout : service.timeouts = [] := List.eq_nil_of_length_eq_zero (by omega)
  constructor
  · intro quiet
    exact absurd (notQuiet.symm.trans quiet) Bool.false_ne_true
  · exact tidy.oneInterval
  · simp only [scheduleNextHardDeletion, noTimeout, List.nil_append, List.length_singleton]
    omega
  · exact tidy.intervalKnown
  · simp [scheduleNextHardDeletion, noTimeout]

theorem Tidy.step {event : PruningEvent} (tidy : service.Tidy) (allowed : service.Allows event)
    (meets : service.Meets settings event) : (service.step settings event).Tidy := by
  rw [PruningService.step.eq_def, if_pos allowed]
  cases event with
  | leaderTakeover =>
    dsimp only
    have asLeader : ({ service with isLeader := true, quiet := false } : PruningService).Tidy :=
      ⟨fun quiet => absurd quiet Bool.false_ne_true, tidy.oneInterval, tidy.oneChain, tidy.intervalKnown,
        tidy.timeoutKnown⟩
    split
    · rename_i isMultiMain
      by_cases starts : { service with isLeader := true }.mayStart settings = true
      · obtain ⟨noTimer, noneRuns⟩ := meets isMultiMain starts
        exact Tidy.startPruning noTimer noneRuns rfl
      · have notStarted : ({ service with isLeader := true, quiet := false } : PruningService).mayStart settings =
            false := Bool.eq_false_iff.mpr starts
        rw [PruningService.startPruning, notStarted]
        exact asLeader
    · exact asLeader
  | leaderStepdown =>
    have noTimer : ({ service with isLeader := false, quiet := true } : PruningService).NoTimer := meets
    have follower : ({ service with isLeader := false, quiet := true } : PruningService).Tidy :=
      noTimer.tidy tidy.hardDeletions_le
    dsimp only
    split
    · refine (NoTimer.stopPruning noTimer).tidy ?_
      rw [hardDeletions_stopPruning]
      exact tidy.hardDeletions_le
    · exact follower
  | shutdown =>
    dsimp only
    have noTimer : ({ service with isShuttingDown := true, quiet := true }.stopPruning settings).NoTimer := by
      cases meets with
      | inl enabled =>
        exact noTimer_stopPruning enabled tidy.intervalKnown tidy.timeoutKnown
      | inr noTimer => exact NoTimer.stopPruning noTimer
    refine noTimer.tidy ?_
    rw [hardDeletions_stopPruning]
    exact tidy.hardDeletions_le
  | intervalFires id => exact tidy
  | timeoutFires id =>
    obtain ⟨timer, member, rfl⟩ := List.mem_map.mp allowed
    have oneChain := tidy.oneChain
    have isSome := List.length_pos_of_mem member
    have single : service.timeouts = [timer] := by
      obtain ⟨other, single⟩ := List.length_eq_one_iff.mp (by omega : service.timeouts.length = 1)
      rw [single] at member ⊢
      rw [List.mem_singleton.mp member]
    have noneLeft : service.timeouts.filter (·.id ≠ timer.id) = [] := by simp [single]
    dsimp only
    rw [noneLeft]
    refine ⟨fun quiet => ⟨(tidy.noTimer quiet).1, rfl⟩, tidy.oneInterval, ?_, tidy.intervalKnown, by simp⟩
    show 0 + (service.hardDeletions + 1) ≤ 1
    omega
  | hardDeleted found => exact tidy.settle allowed meets _
  | hardDeleteFails => exact tidy.settle allowed meets 1000

theorem timers_stopPruning_of_follower (notEnabled : service.isEnabled settings = false) :
    service.stopPruning settings = service := by
  rw [PruningService.stopPruning, notEnabled]
  rfl

theorem not_prunesProperly_step {event : PruningEvent} (allowed : service.Allows event)
    (notMet : ¬service.Meets settings event) : ¬(service.step settings event).PrunesProperly := by
  rw [PruningService.step.eq_def, if_pos allowed]
  intro properly
  cases event with
  | leaderTakeover =>
    simp only [Meets, Classical.not_imp] at notMet
    obtain ⟨isMultiMain, starts, leftOver⟩ := notMet
    have mayStart : ({ service with isLeader := true, quiet := false } : PruningService).mayStart settings = true :=
      starts
    dsimp only at properly
    rw [if_pos isMultiMain, PruningService.startPruning, if_pos mayStart] at properly
    have oneInterval := properly.oneInterval
    have oneChain := properly.oneChain
    simp only [scheduleNextHardDeletion, scheduleRollingSoftDeletions, List.length_append, List.length_singleton]
      at oneInterval oneChain
    exact leftOver ⟨⟨List.eq_nil_of_length_eq_zero (by omega), List.eq_nil_of_length_eq_zero (by omega)⟩, by omega⟩
  | leaderStepdown =>
    have follower :
        ({ service with isLeader := false, quiet := true } : PruningService).isEnabled settings = false := by
      simp [isEnabled]
    dsimp only at properly
    rw [timers_stopPruning_of_follower follower, ite_self] at properly
    exact notMet (properly.noTimer rfl)
  | shutdown =>
    simp only [Meets, not_or] at notMet
    have notEnabled :
        ({ service with isShuttingDown := true, quiet := true } : PruningService).isEnabled settings = false :=
      Bool.eq_false_iff.mpr notMet.1
    dsimp only at properly
    rw [timers_stopPruning_of_follower notEnabled] at properly
    exact notMet.2 (properly.noTimer rfl)
  | intervalFires id => exact notMet trivial
  | timeoutFires id => exact notMet trivial
  | hardDeleted found =>
    have quiet : service.quiet = true := by simpa [Meets] using notMet
    have noTimer := (properly.noTimer quiet).2
    simp [scheduleNextHardDeletion] at noTimer
  | hardDeleteFails =>
    have quiet : service.quiet = true := by simpa [Meets] using notMet
    have noTimer := (properly.noTimer quiet).2
    simp [scheduleNextHardDeletion] at noTimer

/-- Only the leader prunes, once at a time, in every state of a run exactly when all its events meet the
condition. -/
theorem only_leader_prunes_iff (settings : Settings) (isLeader : Bool) (events : List PruningEvent)
    (run : Runs.Every (step settings) Allows (init settings isLeader) events) :
    Runs.Always (step settings) PrunesProperly (init settings isLeader) events ↔
      Runs.Every (step settings) (Meets settings) (init settings isLeader) events :=
  Runs.always_iff_every_of_lost (fun _ tidy => tidy.prunesProperly)
    (fun _ _ allowed meets tidy => tidy.step allowed meets)
    (fun _ _ allowed notMet _ => not_prunesProperly_step allowed notMet) (tidy_init isLeader) run

end PruningService

namespace MultiMain

def settings : Settings where
  pruneData := true
  isMain := true
  isMultiMain := true
  migrated := true

/-- Soft and hard deletions of a leader that stays leader, one of which fails, until the shutdown. -/
def events : List PruningEvent := [.intervalFires 0, .timeoutFires 1, .hardDeleted 100, .timeoutFires 2,
  .hardDeleteFails, .intervalFires 0, .shutdown, .leaderStepdown]

theorem only_leader_prunes :
    Runs.Always (PruningService.step settings) PruningService.PrunesProperly (PruningService.init settings true)
      events := by
  refine (PruningService.only_leader_prunes_iff settings true events (by decide)).mpr ?_
  exact ⟨trivial, trivial, rfl, trivial, rfl, trivial, .inl rfl, ⟨rfl, rfl⟩, trivial⟩

/-- After the stepdown the soft deletions go on, and the next takeover adds another interval to them. -/
theorem not_only_leader_prunes :
    ¬Runs.Always (PruningService.step settings) PruningService.PrunesProperly (PruningService.init settings true)
      [.leaderStepdown, .intervalFires 0, .leaderTakeover] := by
  intro always
  have afterStepdown := always.2.start
  exact afterStepdown.noneStarts rfl (.intervalFires 0) trivial (by decide)

end MultiMain

end N8n.Pruning

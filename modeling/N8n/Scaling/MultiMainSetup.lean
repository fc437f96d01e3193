import N8n.Library.Numbered
import N8n.Library.Runs

/-! # The leader key

`packages/cli/src/scaling/multi-main-setup.ee.ts`: any number of main instances
around one key in Redis.  A call of Redis is one step, together with what its
caller does with the answer up to its next call.
-/

namespace N8n.Scaling

abbrev HostId := String

structure LeaderKey where
  holder : HostId
  /-- Whether the key has an expiration. -/
  expires : Bool
deriving DecidableEq, Repr

structure Instance where
  live : Bool
  /-- `shutdown` was called, and no check begins any more. -/
  stopping : Bool
  isLeader : Bool
  /-- `shutdown` is about to clear the key. -/
  clearing : Bool
  /-- Whether a check has ended since the last change of the key that read the key, or set it, no earlier. -/
  checked : Bool
deriving DecidableEq, Repr

/-- The call of Redis that a check makes next. -/
inductive CheckStage where
  /-- `setExpiration`: the key holds the id of the instance. -/
  | renewing
  /-- `setIfNotExists`: the leadership is vacant. -/
  | attempting
  /-- `setExpiration`: the instance has just become leader. -/
  | leading
  | ended
deriving DecidableEq, Repr

structure Check where
  hostId : HostId
  stage : CheckStage
  /-- Whether the key has not changed since the check read it or set it. -/
  current : Bool
deriving DecidableEq, Repr

structure Cluster where
  leaderKey : Option LeaderKey
  instances : HostId → Instance
  checks : List Check
  /-- The keys that were cleared: who did it, and the id that the key held. -/
  cleared : List (HostId × HostId)

inductive ClusterEvent where
  /-- An instance is started, and `init` calls `setIfNotExists`. -/
  | init (hostId : HostId)
  /-- `checkLeader` begins and calls `get`. -/
  | checkLeader (hostId : HostId)
  /-- A check makes its next call. -/
  | goOn (check : Nat)
  | keyExpires
  | shutdown (hostId : HostId)
  | clear (hostId : HostId)
  /-- The process ends, at the end of a shutdown or by a crash. -/
  | crash (hostId : HostId)
deriving DecidableEq, Repr

def Instance.absent : Instance where
  live := false
  stopping := false
  isLeader := false
  clearing := false
  checked := false

namespace Cluster

def start : Cluster where
  leaderKey := none
  instances _ := .absent
  checks := []
  cleared := []

def update (cluster : Cluster) (hostId : HostId) (change : Instance → Instance) : Cluster :=
  { cluster with
    instances := fun other => if other = hostId then change (cluster.instances other) else cluster.instances other }

def begin (cluster : Cluster) (hostId : HostId) (stage : CheckStage) (current : Bool) : Cluster :=
  { cluster with checks := cluster.checks ++ [{ hostId, stage, current }] }

def endCheck (cluster : Cluster) (check : Nat) : Cluster :=
  { cluster with checks := cluster.checks.modify check fun entry => { entry with stage := .ended } }

/-- No check is one since the last change any more. -/
def changeKey (cluster : Cluster) (leaderKey : Option LeaderKey) : Cluster :=
  { cluster with
    leaderKey
    instances := fun hostId => { cluster.instances hostId with checked := false }
    checks := cluster.checks.map fun check => { check with current := false } }

def setExpiration (cluster : Cluster) : Cluster :=
  { cluster with leaderKey := cluster.leaderKey.map fun key => { key with expires := true } }

def finish (cluster : Cluster) (hostId : HostId) (current : Bool) : Cluster :=
  cluster.update hostId fun entry => { entry with checked := entry.checked || current }

/-- `setIfNotExists` of `tryBecomeLeader`. -/
def tryBecomeLeader (cluster : Cluster) (hostId : HostId) (current : Bool) : Cluster :=
  match cluster.leaderKey with
  | none =>
    ((cluster.changeKey (some { holder := hostId, expires := false })).update hostId fun entry =>
      { entry with isLeader := true }).begin hostId .leading true
  | some _ => (cluster.update hostId fun entry => { entry with isLeader := false }).finish hostId current

/-- `get` of `checkLeader`. -/
def checkLeader (cluster : Cluster) (hostId : HostId) : Cluster :=
  match cluster.leaderKey with
  | some key =>
    if key.holder = hostId then cluster.begin hostId .renewing true
    else (cluster.update hostId fun entry => { entry with isLeader := false }).finish hostId true
  | none => (cluster.update hostId fun entry => { entry with isLeader := false }).begin hostId .attempting true

def step (cluster : Cluster) : ClusterEvent → Cluster
  | .init hostId =>
    if (cluster.instances hostId).live then cluster
    else (cluster.update hostId fun _ => { Instance.absent with live := true }).tryBecomeLeader hostId true
  | .checkLeader hostId =>
    if (cluster.instances hostId).live && !(cluster.instances hostId).stopping then cluster.checkLeader hostId
    else cluster
  | .goOn check =>
    match cluster.checks[check]? with
    | none => cluster
    | some entry =>
      match entry.stage with
      | .renewing | .leading => ((cluster.endCheck check).setExpiration).finish entry.hostId entry.current
      | .attempting => (cluster.endCheck check).tryBecomeLeader entry.hostId entry.current
      | .ended => cluster
  | .keyExpires =>
    match cluster.leaderKey with
    | some { expires := true, .. } => cluster.changeKey none
    | _ => cluster
  | .shutdown hostId =>
    if (cluster.instances hostId).live then
      cluster.update hostId fun entry => { entry with stopping := true, clearing := entry.isLeader }
    else cluster
  | .clear hostId =>
    if (cluster.instances hostId).clearing then
      match cluster.leaderKey with
      | none => cluster.update hostId fun entry => { entry with clearing := false }
      | some key =>
        { cluster.changeKey none with cleared := cluster.cleared ++ [(hostId, key.holder)] }.update hostId
          fun entry => { entry with clearing := false }
    else cluster
  | .crash hostId =>
    { cluster.update hostId fun _ => .absent with
      checks := cluster.checks.map fun check =>
        if check.hostId = hostId then { check with stage := .ended } else check }

def holder (cluster : Cluster) : Option HostId := cluster.leaderKey.map LeaderKey.holder

/-- The holder of a key without an expiration is about to set one. -/
def NotOrphaned (cluster : Cluster) : Prop :=
  ∀ key, cluster.leaderKey = some key → key.expires = false →
    ∃ check ∈ cluster.checks, check.hostId = key.holder ∧ check.stage = .leading

structure LeaderKeySafe (cluster : Cluster) : Prop where
  clearedByHolder : ∀ entry ∈ cluster.cleared, entry.1 = entry.2
  notOrphaned : cluster.NotOrphaned
  /-- Once every live instance has checked the key, no one but its holder considers itself leader. -/
  oneLeader : (∀ hostId, (cluster.instances hostId).live = true → (cluster.instances hostId).checked = true) →
    ∀ hostId, (cluster.instances hostId).live = true → (cluster.instances hostId).isLeader = true →
      cluster.holder = some hostId

/-- Who clears the key finds its own id in it, and no holder of the key ends before it has set the expiration. -/
def KeepsKey (cluster : Cluster) : ClusterEvent → Prop
  | .clear hostId => (cluster.instances hostId).clearing = true → ∀ key, cluster.leaderKey = some key →
    key.holder = hostId
  | .crash hostId => ∀ key, cluster.leaderKey = some key → key.holder = hostId → key.expires = true
  | _ => True

/-- A check that the key has not changed since tells who holds it. -/
structure Consistent (cluster : Cluster) : Prop where
  current : ∀ check ∈ cluster.checks, check.stage = .renewing ∨ check.stage = .leading → check.current = true →
    cluster.holder = some check.hostId
  checked : ∀ hostId, (cluster.instances hostId).checked = true → (cluster.instances hostId).isLeader = true →
    cluster.holder = some hostId

/-! ## What every step keeps -/

theorem update_self (cluster : Cluster) (hostId : HostId) (change : Instance → Instance) :
    (cluster.update hostId change).instances hostId = change (cluster.instances hostId) := if_pos rfl

theorem update_of_ne (cluster : Cluster) {hostId other : HostId} (change : Instance → Instance)
    (different : other ≠ hostId) : (cluster.update hostId change).instances other = cluster.instances other :=
  if_neg different

theorem consistent_update {cluster : Cluster} (consistent : cluster.Consistent) {hostId : HostId}
    {change : Instance → Instance}
    (holds : (change (cluster.instances hostId)).checked = true → (change (cluster.instances hostId)).isLeader = true →
      cluster.holder = some hostId) : (cluster.update hostId change).Consistent := by
  refine ⟨consistent.current, fun other checked leads => ?_⟩
  by_cases same : other = hostId
  · subst same
    rw [update_self] at checked leads
    exact holds checked leads
  · rw [update_of_ne _ _ same] at checked leads
    exact consistent.checked other checked leads

variable {cluster : Cluster}

theorem consistent_begin (consistent : cluster.Consistent) {hostId : HostId} {stage : CheckStage} {current : Bool}
    (holds : stage = .renewing ∨ stage = .leading → current = true → cluster.holder = some hostId) :
    (cluster.begin hostId stage current).Consistent := by
  refine ⟨fun check member isStage isCurrent => ?_, consistent.checked⟩
  rcases List.mem_append.mp member with before | added
  · exact consistent.current check before isStage isCurrent
  · obtain rfl := List.mem_singleton.mp added
    exact holds isStage isCurrent

theorem consistent_changeKey (cluster : Cluster) (leaderKey : Option LeaderKey) :
    (cluster.changeKey leaderKey).Consistent := by
  refine ⟨fun check member _ isCurrent => ?_, fun hostId checked => (by cases checked)⟩
  obtain ⟨before, _, rfl⟩ := List.mem_map.mp member
  cases isCurrent

theorem holder_setExpiration (cluster : Cluster) : cluster.setExpiration.holder = cluster.holder := by
  simp [holder, setExpiration, Function.comp_def]

theorem consistent_setExpiration (consistent : cluster.Consistent) :
    cluster.setExpiration.Consistent := by
  constructor
  · rw [holder_setExpiration]
    exact consistent.current
  · rw [holder_setExpiration]
    exact consistent.checked

theorem mem_endCheck {number : Nat} {check : Check} (member : check ∈ (cluster.endCheck number).checks)
    (goesOn : check.stage ≠ .ended) : check ∈ cluster.checks := by
  obtain ⟨index, isCheck⟩ := List.mem_iff_getElem?.mp member
  rw [endCheck, List.getElem?_modify] at isCheck
  obtain ⟨before, isBefore, same⟩ := Option.map_eq_some_iff.mp isCheck
  split at same
  · subst same
    exact absurd rfl goesOn
  · subst same
    exact List.mem_of_getElem? isBefore

theorem consistent_endCheck (consistent : cluster.Consistent) (number : Nat) :
    (cluster.endCheck number).Consistent := by
  refine ⟨fun check member isStage => ?_, consistent.checked⟩
  refine consistent.current check (mem_endCheck member ?_) isStage
  cases isStage with
  | inl renewing => simp [renewing]
  | inr leading => simp [leading]

theorem consistent_finish (consistent : cluster.Consistent) {hostId : HostId} {current : Bool}
    (holds : current = true → (cluster.instances hostId).isLeader = true → cluster.holder = some hostId) :
    (cluster.finish hostId current).Consistent := by
  refine consistent_update consistent fun checked leads => ?_
  rcases Bool.or_eq_true_iff.mp checked with before | isCurrent
  · exact consistent.checked hostId before leads
  · exact holds isCurrent leads

theorem consistent_follower (consistent : cluster.Consistent) (hostId : HostId) (current : Bool) :
    ((cluster.update hostId fun entry => { entry with isLeader := false }).finish hostId current).Consistent := by
  refine consistent_finish (consistent_update consistent fun _ leads => (by cases leads)) fun _ leads => ?_
  rw [update_self] at leads
  cases leads

theorem consistent_tryBecomeLeader (consistent : cluster.Consistent) (hostId : HostId) (current : Bool) :
    (cluster.tryBecomeLeader hostId current).Consistent := by
  unfold tryBecomeLeader
  split
  · exact consistent_begin (consistent_update (consistent_changeKey _ _) fun _ _ => rfl) fun _ _ => rfl
  · exact consistent_follower consistent hostId current

theorem consistent_checkLeader (consistent : cluster.Consistent) (hostId : HostId) :
    (cluster.checkLeader hostId).Consistent := by
  unfold checkLeader
  split
  · rename_i key isKey
    split
    · rename_i isHolder
      exact consistent_begin consistent fun _ _ => by rw [holder, isKey, ← isHolder]; rfl
    · exact consistent_follower consistent hostId true
  · refine consistent_begin (consistent_update consistent fun _ leads => (by cases leads)) fun isStage => ?_
    rcases isStage with renewing | leading
    · cases renewing
    · cases leading

theorem consistent_step {cluster : Cluster} (consistent : cluster.Consistent) (event : ClusterEvent) :
    (cluster.step event).Consistent := by
  cases event with
  | init hostId =>
    simp only [step]
    split
    · exact consistent
    · have started := @consistent_update _ consistent hostId (fun _ => { Instance.absent with live := true })
        fun checked => (by cases checked)
      exact consistent_tryBecomeLeader started hostId true
  | checkLeader hostId =>
    simp only [step]
    split
    · exact consistent_checkLeader consistent hostId
    · exact consistent
  | goOn number =>
    simp only [step]
    cases isCheck : cluster.checks[number]? with
    | none => exact consistent
    | some check =>
      have member := List.mem_of_getElem? isCheck
      have ends := consistent_setExpiration (consistent_endCheck consistent number)
      have renews (isStage : check.stage = .renewing ∨ check.stage = .leading) :
          (((cluster.endCheck number).setExpiration).finish check.hostId check.current).Consistent := by
        refine consistent_finish ends fun isCurrent _ => ?_
        rw [holder_setExpiration]
        exact consistent.current check member isStage isCurrent
      cases stage : check.stage with
      | renewing => simpa only [stage] using renews (.inl stage)
      | leading => simpa only [stage] using renews (.inr stage)
      | attempting =>
        simpa only [stage] using
          consistent_tryBecomeLeader (consistent_endCheck consistent number) check.hostId check.current
      | ended => simpa only [stage] using consistent
  | keyExpires =>
    simp only [step]
    split
    · exact consistent_changeKey cluster none
    · exact consistent
  | shutdown hostId =>
    simp only [step]
    split
    · exact consistent_update consistent fun checked leads => consistent.checked hostId checked leads
    · exact consistent
  | clear hostId =>
    simp only [step]
    split
    · split
      · exact consistent_update consistent fun checked leads => consistent.checked hostId checked leads
      · have changed := consistent_changeKey cluster none
        have cleared (byWhom : List (HostId × HostId)) : { cluster.changeKey none with cleared := byWhom }.Consistent :=
          ⟨changed.current, changed.checked⟩
        exact @consistent_update _ (cleared _) hostId (fun entry => { entry with clearing := false }) fun checked =>
          (by cases checked)
    · exact consistent
  | crash hostId =>
    have updated := @consistent_update _ consistent hostId (fun _ => .absent) fun checked => (by cases checked)
    refine ⟨fun check member isStage isCurrent => ?_, updated.checked⟩
    obtain ⟨before, isBefore, rfl⟩ := List.mem_map.mp member
    split at isStage
    · simp at isStage
    · rename_i other
      rw [if_neg other] at isCurrent ⊢
      exact consistent.current before isBefore isStage isCurrent

/-! ## The key without an expiration -/

theorem notOrphaned_begin {cluster : Cluster} (notOrphaned : cluster.NotOrphaned) (hostId : HostId)
    (stage : CheckStage) (current : Bool) : (cluster.begin hostId stage current).NotOrphaned := by
  intro key isKey noExpiration
  obtain ⟨check, member, itsCheck⟩ := notOrphaned key isKey noExpiration
  exact ⟨check, List.mem_append_left _ member, itsCheck⟩

theorem notOrphaned_setExpiration (cluster : Cluster) : cluster.setExpiration.NotOrphaned := by
  intro key isKey noExpiration
  obtain ⟨before, _, rfl⟩ := Option.map_eq_some_iff.mp isKey
  cases noExpiration

theorem notOrphaned_endCheck (notOrphaned : cluster.NotOrphaned) {number : Nat} {check : Check}
    (isCheck : cluster.checks[number]? = some check) (stage : check.stage ≠ .leading) :
    (cluster.endCheck number).NotOrphaned := by
  intro key isKey noExpiration
  obtain ⟨leading, member, isHolder, isLeading⟩ := notOrphaned key isKey noExpiration
  obtain ⟨index, isIndex⟩ := List.mem_iff_getElem?.mp member
  have different : number ≠ index := by
    rintro rfl
    obtain rfl := Option.some.inj (isCheck.symm.trans isIndex)
    exact stage isLeading
  refine ⟨leading, List.mem_iff_getElem?.mpr ⟨index, ?_⟩, isHolder, isLeading⟩
  rw [endCheck, List.getElem?_modify_ne _ _ different]
  exact isIndex

theorem notOrphaned_tryBecomeLeader {cluster : Cluster} (notOrphaned : cluster.NotOrphaned) (hostId : HostId)
    (current : Bool) : (cluster.tryBecomeLeader hostId current).NotOrphaned := by
  unfold tryBecomeLeader
  split
  · intro key isKey _
    obtain rfl := Option.some.inj isKey
    exact ⟨_, List.mem_append_right _ (List.mem_singleton.mpr rfl), rfl, rfl⟩
  · exact notOrphaned

theorem notOrphaned_checkLeader (notOrphaned : cluster.NotOrphaned) (hostId : HostId) :
    (cluster.checkLeader hostId).NotOrphaned := by
  unfold checkLeader
  split
  · split
    · exact notOrphaned_begin notOrphaned hostId .renewing true
    · exact notOrphaned
  · exact @notOrphaned_begin (cluster.update hostId _) notOrphaned hostId .attempting true

theorem notOrphaned_step {cluster : Cluster} (notOrphaned : cluster.NotOrphaned) {event : ClusterEvent}
    (notCrash : ∀ hostId, event ≠ .crash hostId) : (cluster.step event).NotOrphaned := by
  cases event with
  | init hostId =>
    simp only [step]
    split
    · exact notOrphaned
    · exact @notOrphaned_tryBecomeLeader (cluster.update hostId _) notOrphaned hostId true
  | checkLeader hostId =>
    simp only [step]
    split
    · exact notOrphaned_checkLeader notOrphaned hostId
    · exact notOrphaned
  | goOn number =>
    simp only [step]
    cases isCheck : cluster.checks[number]? with
    | none => exact notOrphaned
    | some check =>
      have renewed := notOrphaned_setExpiration (cluster.endCheck number)
      cases stage : check.stage with
      | renewing =>
        simp only [stage]
        exact renewed
      | leading =>
        simp only [stage]
        exact renewed
      | attempting =>
        have ends := notOrphaned_endCheck notOrphaned isCheck (by simp [stage])
        simpa only [stage] using notOrphaned_tryBecomeLeader ends check.hostId check.current
      | ended => simpa only [stage] using notOrphaned
  | keyExpires =>
    simp only [step]
    split
    · intro key isKey
      cases isKey
    · exact notOrphaned
  | shutdown hostId =>
    simp only [step]
    split <;> exact notOrphaned
  | clear hostId =>
    simp only [step]
    split
    · split
      · exact notOrphaned
      · intro key isKey
        cases isKey
    · exact notOrphaned
  | crash hostId => exact absurd rfl (notCrash hostId)

/-- The end of an instance leaves a key without an expiration behind exactly if the instance holds it. -/
theorem notOrphaned_crash (notOrphaned : cluster.NotOrphaned) (hostId : HostId) :
    (cluster.step (.crash hostId)).NotOrphaned ↔
      ∀ key, cluster.leaderKey = some key → key.holder = hostId → key.expires = true := by
  constructor
  · intro after key isKey isHolder
    by_contra noExpiration
    obtain ⟨check, member, itsHost, leading⟩ := after key isKey (by simpa using noExpiration)
    obtain ⟨before, _, rfl⟩ := List.mem_map.mp member
    -- the checks of the instance have ended with it
    split at leading
    · cases leading
    · rename_i other
      rw [if_neg other] at itsHost
      exact other (itsHost.trans isHolder)
  · intro expires key isKey noExpiration
    obtain ⟨check, member, itsHost, leading⟩ := notOrphaned key isKey noExpiration
    have other : check.hostId ≠ hostId := by
      intro same
      rw [expires key isKey (itsHost.symm.trans same)] at noExpiration
      cases noExpiration
    exact ⟨check, List.mem_map.mpr ⟨check, member, if_neg other⟩, itsHost, leading⟩

/-! ## The cleared keys -/

theorem cleared_tryBecomeLeader (cluster : Cluster) (hostId : HostId) (current : Bool) :
    (cluster.tryBecomeLeader hostId current).cleared = cluster.cleared := by
  unfold tryBecomeLeader
  split <;> rfl

theorem cleared_checkLeader (cluster : Cluster) (hostId : HostId) :
    (cluster.checkLeader hostId).cleared = cluster.cleared := by
  unfold checkLeader
  split
  · split <;> rfl
  · rfl

theorem cleared_step (cluster : Cluster) {event : ClusterEvent} (notClear : ∀ hostId, event ≠ .clear hostId) :
    (cluster.step event).cleared = cluster.cleared := by
  cases event with
  | init hostId =>
    simp only [step]
    split
    · rfl
    · exact cleared_tryBecomeLeader _ hostId true
  | checkLeader hostId =>
    simp only [step]
    split
    · exact cleared_checkLeader cluster hostId
    · rfl
  | goOn number =>
    simp only [step]
    cases cluster.checks[number]? with
    | none => rfl
    | some check =>
      cases stage : check.stage with
      | renewing => simp only [stage]; rfl
      | leading => simp only [stage]; rfl
      | attempting =>
        simp only [stage]
        exact cleared_tryBecomeLeader (cluster.endCheck number) check.hostId check.current
      | ended => simp only [stage]
  | keyExpires =>
    simp only [step]
    split <;> rfl
  | shutdown hostId =>
    simp only [step]
    split <;> rfl
  | clear hostId => exact absurd rfl (notClear hostId)
  | crash hostId => rfl

theorem clearedByHolder_clear (byHolder : ∀ entry ∈ cluster.cleared, entry.1 = entry.2) (hostId : HostId) :
    (∀ entry ∈ (cluster.step (.clear hostId)).cleared, entry.1 = entry.2) ↔ cluster.KeepsKey (.clear hostId) := by
  simp only [step, KeepsKey]
  by_cases clearing : (cluster.instances hostId).clearing = true
  · rw [if_pos clearing]
    cases isKey : cluster.leaderKey with
    | none =>
      refine iff_of_true byHolder fun _ key isKey => ?_
      cases isKey
    | some key =>
      constructor
      · intro after _ other same
        obtain rfl := Option.some.inj same
        exact (after _ (List.mem_append_right _ (List.mem_singleton.mpr rfl))).symm
      · intro own entry member
        rcases List.mem_append.mp member with before | added
        · exact byHolder entry before
        · obtain rfl := List.mem_singleton.mp added
          exact (own clearing key rfl).symm
  · rw [if_neg clearing]
    exact iff_of_true byHolder fun may => absurd may clearing

/-! ## The leader key is safe -/

theorem oneLeader_of_consistent (consistent : cluster.Consistent)
    (allChecked : ∀ hostId, (cluster.instances hostId).live = true → (cluster.instances hostId).checked = true)
    (hostId : HostId) (live : (cluster.instances hostId).live = true)
    (leads : (cluster.instances hostId).isLeader = true) : cluster.holder = some hostId :=
  consistent.checked hostId (allChecked hostId live) leads

theorem leaderKeySafe_step (consistent : cluster.Consistent) (safe : cluster.LeaderKeySafe) (event : ClusterEvent) :
    (cluster.step event).LeaderKeySafe ↔ cluster.KeepsKey event := by
  have oneLeader := oneLeader_of_consistent (consistent_step consistent event)
  cases event with
  | clear hostId =>
    have notOrphaned := @notOrphaned_step _ safe.notOrphaned (.clear hostId) (by simp)
    rw [← clearedByHolder_clear safe.clearedByHolder hostId]
    exact ⟨LeaderKeySafe.clearedByHolder, fun byHolder => ⟨byHolder, notOrphaned, oneLeader⟩⟩
  | crash hostId =>
    have same := @cleared_step cluster (.crash hostId) (by simp)
    have byHolder := safe.clearedByHolder
    rw [← same] at byHolder
    exact ⟨fun after => (notOrphaned_crash safe.notOrphaned hostId).mp after.notOrphaned, fun keeps =>
      ⟨byHolder, (notOrphaned_crash safe.notOrphaned hostId).mpr keeps, oneLeader⟩⟩
  | _ =>
    refine iff_of_true ⟨?_, notOrphaned_step safe.notOrphaned (by simp), oneLeader⟩ trivial
    rw [cleared_step cluster (by simp)]
    exact safe.clearedByHolder

theorem consistent_start : start.Consistent :=
  ⟨fun check member => absurd member List.not_mem_nil, fun _ checked => (by cases checked)⟩

theorem leaderKeySafe_start : start.LeaderKeySafe :=
  ⟨fun entry member => absurd member List.not_mem_nil, fun _ isKey => (by cases isKey),
    oneLeader_of_consistent consistent_start⟩

/-- Whatever the instances do, the leader key is safe exactly in the runs in which nobody clears a key of another one,
and no instance ends between its two calls that set the key and its expiration. -/
theorem always_leaderKeySafe_iff (events : List ClusterEvent) :
    Runs.Always step LeaderKeySafe start events ↔ Runs.Every step KeepsKey start events :=
  @Runs.always_iff_every_of_kept _ _ step KeepsKey Consistent LeaderKeySafe
    (fun _ event consistent => consistent_step consistent event)
    (fun _ event consistent safe => leaderKeySafe_step consistent safe event) _ consistent_start leaderKeySafe_start
    events

/-- Whatever clears the key and whoever crashes: once every live instance has checked the key, at most one leads. -/
theorem always_oneLeader (events : List ClusterEvent) :
    Runs.Always step (fun cluster =>
      (∀ hostId, (cluster.instances hostId).live = true → (cluster.instances hostId).checked = true) →
        ∀ hostId other, (cluster.instances hostId).live = true → (cluster.instances other).live = true →
          (cluster.instances hostId).isLeader = true → (cluster.instances other).isLeader = true → hostId = other)
      start events := by
  have consistent : Runs.Always step Consistent start events :=
    Runs.always_of_invariant (fun _ event _ consistent => consistent_step consistent event) consistent_start
      (Runs.every_true start events)
  refine consistent.imp fun cluster consistent allChecked hostId other live live' leads leads' => ?_
  have holder := oneLeader_of_consistent consistent allChecked hostId live leads
  rw [oneLeader_of_consistent consistent allChecked other live' leads'] at holder
  exact (Option.some.inj holder).symm

/-- The key of "main-1" has expired and "main-2" has set it when the shutdown of "main-1" clears it; and "main-1"
crashes after it has set the key. -/
theorem not_always_leaderKeySafe :
    ¬ Runs.Always step LeaderKeySafe start [.init "main-1", .goOn 0, .keyExpires, .init "main-2", .shutdown "main-1",
      .clear "main-1"] ∧
    ¬ Runs.Always step LeaderKeySafe start [.init "main-1", .crash "main-1"] := by
  constructor
  · intro always
    have byHolder := always.final.clearedByHolder ("main-1", "main-2")
    revert byHolder
    decide
  · intro always
    obtain ⟨check, member, isCheck⟩ := always.final.notOrphaned { holder := "main-1", expires := false } rfl rfl
    have ended : check ∈ [{ hostId := "main-1", stage := .ended, current := true }] := member
    obtain rfl := List.mem_singleton.mp ended
    cases isCheck.2

end Cluster

end N8n.Scaling

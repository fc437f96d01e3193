import N8n.Library.Runs

/-! # The concurrency queue

`packages/cli/src/concurrency/concurrency-queue.ts`.  A signed counter stands
both for the free slots and for the executions that wait.  A promise is a number
here, the number of calls of `enqueue` before it.
-/

namespace N8n.Concurrency

abbrev ExecutionId := String

abbrev Promise := Nat

structure QueueItem where
  executionId : ExecutionId
  resolve : Promise
deriving DecidableEq, Repr

structure ConcurrencyQueue where
  capacity : Int
  queue : List QueueItem
deriving DecidableEq, Repr

/-- What an operation does besides: promises resolve, and listeners hear of it. -/
inductive Effect where
  | resolved (promise : Promise)
  | executionThrottled (executionId : ExecutionId)
  | executionReleased (executionId : ExecutionId)
  | concurrencyCheck (capacity : Int)
deriving DecidableEq, Repr

namespace ConcurrencyQueue

/-- The promise of the call resolves at once unless the execution has to wait. -/
def enqueue (queue : ConcurrencyQueue) (executionId : ExecutionId) (promise : Promise) :
    ConcurrencyQueue × List Effect :=
  let capacity := queue.capacity - 1
  if capacity < 0 then
    ({ capacity, queue := queue.queue ++ [{ executionId, resolve := promise }] },
      [.concurrencyCheck capacity, .executionThrottled executionId])
  else ({ queue with capacity }, [.concurrencyCheck capacity, .resolved promise])

def resolveNext (queue : ConcurrencyQueue) : ConcurrencyQueue × List Effect :=
  match queue.queue with
  | [] => (queue, [])
  | item :: rest => ({ queue with queue := rest }, [.executionReleased item.executionId, .resolved item.resolve])

def dequeue (queue : ConcurrencyQueue) : ConcurrencyQueue × List Effect :=
  resolveNext { queue with capacity := queue.capacity + 1 }

def find (queue : ConcurrencyQueue) (executionId : ExecutionId) : Option QueueItem :=
  queue.queue.find? fun item => item.executionId = executionId

/-- The first item of the execution is taken out, and the next one in line is let through. -/
def remove (queue : ConcurrencyQueue) (executionId : ExecutionId) : ConcurrencyQueue × List Effect :=
  match queue.find executionId with
  | none => (queue, [])
  | some _ => resolveNext
      { capacity := queue.capacity + 1
        queue := queue.queue.eraseP fun item => item.executionId = executionId }

end ConcurrencyQueue

def resolvedPromises (effects : List Effect) : List Promise :=
  effects.filterMap fun effect => match effect with
    | .resolved promise => some promise
    | _ => none

/-! ## Who is let through -/

namespace ConcurrencyQueue

variable (queue : ConcurrencyQueue)

theorem enqueue_cases (executionId : ExecutionId) (promise : Promise) :
    ((queue.enqueue executionId promise).1.queue = queue.queue ++ [⟨executionId, promise⟩] ∧
        resolvedPromises (queue.enqueue executionId promise).2 = []) ∨
      ((queue.enqueue executionId promise).1.queue = queue.queue ∧
        resolvedPromises (queue.enqueue executionId promise).2 = [promise]) := by
  by_cases full : queue.capacity - 1 < 0
  · simp [enqueue, full, resolvedPromises]
  · simp [enqueue, full, resolvedPromises]

theorem resolveNext_served :
    ∃ served : List QueueItem, resolvedPromises queue.resolveNext.2 = served.map QueueItem.resolve ∧
      served ++ queue.resolveNext.1.queue = queue.queue := by
  obtain ⟨capacity, items⟩ := queue
  cases items with
  | nil => exact ⟨[], rfl, rfl⟩
  | cons item rest => exact ⟨[item], rfl, rfl⟩

theorem dequeue_served :
    ∃ served : List QueueItem, resolvedPromises queue.dequeue.2 = served.map QueueItem.resolve ∧
      (served ++ queue.dequeue.1.queue).Sublist queue.queue := by
  obtain ⟨served, resolved, parts⟩ := resolveNext_served { queue with capacity := queue.capacity + 1 }
  exact ⟨served, resolved, by rw [dequeue, parts]⟩

theorem remove_served (executionId : ExecutionId) :
    ∃ served : List QueueItem, resolvedPromises (queue.remove executionId).2 = served.map QueueItem.resolve ∧
      (served ++ (queue.remove executionId).1.queue).Sublist queue.queue := by
  cases found : queue.find executionId with
  | none => exact ⟨[], by simp [remove, found, resolvedPromises], by simp [remove, found]⟩
  | some item =>
    obtain ⟨served, resolved, parts⟩ := resolveNext_served
      ⟨queue.capacity + 1, queue.queue.eraseP fun item => item.executionId = executionId⟩
    refine ⟨served, by simpa only [remove, found] using resolved, ?_⟩
    simp only [remove, found, parts]
    exact List.eraseP_sublist

end ConcurrencyQueue

/-! ## The executions around the queue -/

/-- The queue with the executions that run, the promises in the order in which they resolved, and the ones of the
executions that were removed. -/
structure Session where
  queue : ConcurrencyQueue
  running : List Promise
  released : List Promise
  removed : List Promise
  calls : Nat
deriving DecidableEq, Repr

inductive Operation where
  | enqueue (executionId : ExecutionId)
  /-- The execution that the promise let through is over. -/
  | dequeue (promise : Promise)
  | remove (executionId : ExecutionId)
deriving DecidableEq, Repr

namespace Session

def start (limit : Nat) : Session :=
  { queue := { capacity := limit, queue := [] }, running := [], released := [], removed := [], calls := 0 }

/-- The executions whose promises resolve run from then on. -/
def after (session : Session) (outcome : ConcurrencyQueue × List Effect) : Session :=
  { session with
    queue := outcome.1
    running := session.running ++ resolvedPromises outcome.2
    released := session.released ++ resolvedPromises outcome.2 }

def step (session : Session) : Operation → Session
  | .enqueue executionId =>
    { session.after (session.queue.enqueue executionId session.calls) with calls := session.calls + 1 }
  | .dequeue promise =>
    { session with running := session.running.erase promise }.after session.queue.dequeue
  | .remove executionId =>
    { session with
      removed := session.removed ++ ((session.queue.find executionId).map QueueItem.resolve).toList }.after
        (session.queue.remove executionId)

/-- There is one `dequeue` for each execution that was let through. -/
def Allowed (session : Session) : Operation → Prop
  | .dequeue promise => promise ∈ session.running
  | _ => True

instance (session : Session) (operation : Operation) : Decidable (session.Allowed operation) := by
  cases operation <;> simp only [Allowed] <;> infer_instance

/-- The promises of the executions that wait. -/
def queued (session : Session) : List Promise := session.queue.queue.map QueueItem.resolve

/-- What the queue is there for. -/
structure Limits (limit : Nat) (session : Session) : Prop where
  atMost : session.running.length ≤ limit
  capacity_eq : session.queue.capacity = limit - (session.running.length + session.queued.length)
  busy : session.queued ≠ [] → limit ≤ session.running.length
  once : session.released.Nodup
  inOrder : session.released.Pairwise (· < ·)
  noneSkipped : ∀ later ∈ session.released, ∀ earlier < later,
    earlier ∈ session.released ∨ earlier ∈ session.removed

/-- Nobody else waits when an execution is removed. -/
def RemovesLast (session : Session) : Operation → Prop
  | .remove executionId => ∀ item, session.queue.find executionId = some item → session.queued = [item.resolve]
  | _ => True

/-! ## What every operation keeps -/

/-- Counter, queue and running executions are in step, and the promises resolve in the order of the calls. -/
structure Consistent (limit : Nat) (session : Session) : Prop where
  capacity_eq : session.queue.capacity = limit - (session.running.length + session.queued.length)
  busy : session.queued ≠ [] → limit ≤ session.running.length
  inOrder : (session.released ++ session.queued).Pairwise (· < ·)
  called : ∀ promise ∈ session.released ++ session.queued, promise < session.calls
  accounted : ∀ promise < session.calls,
    promise ∈ session.released ∨ promise ∈ session.queued ∨ promise ∈ session.removed

theorem consistent_start (limit : Nat) : Consistent limit (start limit) where
  capacity_eq := by simp [start, queued]
  busy := by simp [start, queued]
  inOrder := by simp [start, queued]
  called := by simp [start, queued]
  accounted := by simp [start]

theorem after_resolveNext (session : Session) (capacity : Int) (items : List QueueItem) :
    session.after (ConcurrencyQueue.resolveNext ⟨capacity, items⟩) =
      { session with
        queue := ⟨capacity, items.tail⟩
        running := session.running ++ (items.map QueueItem.resolve).take 1
        released := session.released ++ (items.map QueueItem.resolve).take 1 } := by
  cases items with
  | nil => simp [after, ConcurrencyQueue.resolveNext, resolvedPromises]
  | cons item rest => simp [after, ConcurrencyQueue.resolveNext, resolvedPromises]

theorem consistent_enqueue {limit : Nat} {session : Session} (consistent : Consistent limit session)
    (executionId : ExecutionId) : Consistent limit (session.step (.enqueue executionId)) := by
  obtain ⟨capacity_eq, busy, inOrder, called, accounted⟩ := consistent
  have arrives : (session.released ++ session.queued ++ [session.calls]).Pairwise (· < ·) := by
    rw [List.pairwise_append]
    refine ⟨inOrder, List.pairwise_singleton _ _, fun promise member call called' => ?_⟩
    obtain rfl := List.mem_singleton.mp called'
    exact called promise member
  by_cases full : session.queue.capacity - 1 < 0
  · have next : session.step (.enqueue executionId) =
        { session with
          queue := ⟨session.queue.capacity - 1, session.queue.queue ++ [⟨executionId, session.calls⟩]⟩
          calls := session.calls + 1 } := by
      simp [step, after, ConcurrencyQueue.enqueue, full, resolvedPromises]
    have queued_eq : (session.step (.enqueue executionId)).queued = session.queued ++ [session.calls] := by
      simp [next, queued]
    refine ⟨?_, fun _ => ?_, ?_, ?_, ?_⟩
    · rw [queued_eq, next]
      simp only [List.length_append, List.length_singleton]
      omega
    · -- no slot is free, so the executions that run fill the limit when nobody waited before
      rw [next]
      by_cases waits : session.queued = []
      · simp only [waits, List.length_nil] at capacity_eq
        change limit ≤ session.running.length
        omega
      · exact busy waits
    · rw [queued_eq, next, ← List.append_assoc]
      exact arrives
    · rw [queued_eq, next]
      intro promise member
      change promise < session.calls + 1
      rw [← List.append_assoc, List.mem_append] at member
      rcases member with member | member
      · exact Nat.lt_succ_of_lt (called promise member)
      · rw [List.mem_singleton.mp member]
        exact Nat.lt_succ_self _
    · rw [queued_eq, next]
      intro promise below
      change promise < session.calls + 1 at below
      rcases Nat.lt_succ_iff_lt_or_eq.mp below with below | rfl
      · rcases accounted promise below with released | waits | removed
        · exact .inl released
        · exact .inr (.inl (List.mem_append_left _ waits))
        · exact .inr (.inr removed)
      · exact .inr (.inl (List.mem_append_right _ (List.mem_singleton_self _)))
  · have next : session.step (.enqueue executionId) =
        { session with
          queue := { session.queue with capacity := session.queue.capacity - 1 }
          running := session.running ++ [session.calls]
          released := session.released ++ [session.calls]
          calls := session.calls + 1 } := by
      simp [step, after, ConcurrencyQueue.enqueue, full, resolvedPromises]
    -- a slot is free, so nobody waits
    have nobody : session.queued = [] := by
      by_contra waits
      have filled := busy waits
      omega
    have queued_eq : (session.step (.enqueue executionId)).queued = [] := by
      rw [next]
      exact nobody
    simp only [nobody, List.append_nil] at inOrder called arrives
    refine ⟨?_, fun waits => absurd queued_eq waits, ?_, ?_, ?_⟩
    · rw [queued_eq, next]
      simp only [List.length_append, List.length_singleton, List.length_nil, nobody] at capacity_eq ⊢
      omega
    · rw [queued_eq, next, List.append_nil]
      exact arrives
    · rw [queued_eq, next, List.append_nil]
      intro promise member
      change promise < session.calls + 1
      rcases List.mem_append.mp member with member | member
      · exact Nat.lt_succ_of_lt (called promise member)
      · rw [List.mem_singleton.mp member]
        exact Nat.lt_succ_self _
    · rw [queued_eq, next]
      intro promise below
      change promise < session.calls + 1 at below
      rcases Nat.lt_succ_iff_lt_or_eq.mp below with below | rfl
      · rcases accounted promise below with released | waits | removed
        · exact .inl (List.mem_append_left _ released)
        · rw [nobody] at waits
          cases waits
        · exact .inr (.inr removed)
      · exact .inl (List.mem_append_right _ (List.mem_singleton_self _))

variable {limit : Nat} {session : Session}

theorem consistent_after_resolveNext (consistent : Consistent limit session) {capacity : Int} {items : List QueueItem}
    {running removed : List Promise} (remaining : (items.map QueueItem.resolve).Sublist session.queued)
    (others : ∀ promise ∈ session.queued, promise ∈ items.map QueueItem.resolve ∨ promise ∈ removed)
    (kept : ∀ promise ∈ session.removed, promise ∈ removed)
    (capacity_eq : capacity = limit - (running.length + items.length))
    (busy : items.tail ≠ [] → limit ≤ running.length + 1) :
    Consistent limit
      ({ session with running, removed }.after (ConcurrencyQueue.resolveNext ⟨capacity, items⟩)) := by
  rw [after_resolveNext]
  -- what is released and what waits together stay as they were
  have parts : session.released ++ (items.map QueueItem.resolve).take 1 ++ items.tail.map QueueItem.resolve =
      session.released ++ items.map QueueItem.resolve := by
    cases items <;> simp
  have inside : (session.released ++ items.map QueueItem.resolve).Sublist (session.released ++ session.queued) :=
    remaining.append_left _
  refine ⟨?_, fun waits => ?_, ?_, ?_, fun promise below => ?_⟩
  · cases items with
    | nil => simpa [queued] using capacity_eq
    | cons item rest =>
      simp only [queued, List.map_cons, List.take_succ_cons, List.take_zero, List.length_append, List.length_cons,
        List.length_nil, List.tail_cons, List.length_map] at capacity_eq ⊢
      omega
  · have more : items.tail ≠ [] := by
      intro none
      simp [queued, none] at waits
    cases items with
    | nil => exact absurd rfl more
    | cons item rest => simpa using busy more
  · change (session.released ++ (items.map QueueItem.resolve).take 1 ++
      items.tail.map QueueItem.resolve).Pairwise (· < ·)
    rw [parts]
    exact consistent.inOrder.sublist inside
  · change ∀ promise ∈ session.released ++ (items.map QueueItem.resolve).take 1 ++ items.tail.map QueueItem.resolve,
      promise < session.calls
    rw [parts]
    exact fun promise member => consistent.called promise (inside.subset member)
  · change promise ∈ session.released ++ (items.map QueueItem.resolve).take 1 ∨
      promise ∈ items.tail.map QueueItem.resolve ∨ promise ∈ removed
    have placed : promise ∈ session.released ++ items.map QueueItem.resolve ∨ promise ∈ removed := by
      rcases consistent.accounted promise below with released | waits | gone
      · exact .inl (List.mem_append_left _ released)
      · exact (others promise waits).imp_left (List.mem_append_right _)
      · exact .inr (kept promise gone)
    rw [← parts, List.mem_append, or_assoc] at placed
    exact placed

theorem consistent_dequeue (consistent : Consistent limit session) {promise : Promise}
    (runs : promise ∈ session.running) :
    Consistent limit (session.step (.dequeue promise)) := by
  have fewer := List.length_erase_of_mem runs
  have some : 0 < session.running.length := List.length_pos_of_mem runs
  have capacity_eq := consistent.capacity_eq
  refine consistent_after_resolveNext consistent (List.Sublist.refl _) (fun _ member => .inl member)
    (fun _ member => member) ?_ fun waits => ?_
  · simp only [queued, List.length_map] at capacity_eq
    omega
  · have filled := consistent.busy (by
      intro none
      rw [queued, List.map_eq_nil_iff] at none
      simp [none] at waits)
    omega

/-- The item that is found is the one that is taken out. -/
theorem find_split {executionId : ExecutionId} {item : QueueItem} (found : session.queue.find executionId = some item) :
    ∃ before rest, (session.queue.queue.eraseP fun item => item.executionId = executionId) = before ++ rest ∧
      session.queued = before.map QueueItem.resolve ++ item.resolve :: rest.map QueueItem.resolve := by
  obtain ⟨isItem, before, rest, queue_eq, unlike⟩ := List.find?_eq_some_iff_append.mp found
  refine ⟨before, rest, ?_, ?_⟩
  · rw [queue_eq, List.eraseP_append_right _ (by simpa using unlike), List.eraseP_cons, isItem]
    rfl
  · rw [queued, queue_eq]
    simp

theorem consistent_remove (consistent : Consistent limit session) (executionId : ExecutionId) :
    Consistent limit (session.step (.remove executionId)) := by
  cases found : session.queue.find executionId with
  | none =>
    have next : session.step (.remove executionId) = session := by
      simp [step, after, ConcurrencyQueue.remove, found, resolvedPromises]
    rw [next]
    exact consistent
  | some item =>
    have next : session.step (.remove executionId) =
        { session with removed := session.removed ++ [item.resolve] }.after (ConcurrencyQueue.resolveNext
          ⟨session.queue.capacity + 1,
            session.queue.queue.eraseP fun item => item.executionId = executionId⟩) := by
      simp [step, ConcurrencyQueue.remove, found]
    rw [next]
    obtain ⟨before, rest, erased, queued_eq⟩ := find_split found
    have filled : limit ≤ session.running.length := consistent.busy (by simp [queued_eq])
    have capacity_eq := consistent.capacity_eq
    rw [erased]
    refine consistent_after_resolveNext consistent ?_ (fun promise member => ?_)
      (fun promise member => List.mem_append_left _ member) ?_ fun _ => Nat.le_succ_of_le filled
    · rw [queued_eq, List.map_append]
      exact (List.sublist_cons_self _ _).append_left _
    · rw [queued_eq] at member
      rw [List.map_append]
      simp only [List.mem_append, List.mem_cons, List.not_mem_nil, or_false] at member ⊢
      tauto
    · simp only [queued_eq, List.length_append, List.length_cons, List.length_map] at capacity_eq ⊢
      omega

theorem consistent_step {limit : Nat} {session : Session} {operation : Operation}
    (allowed : session.Allowed operation) (consistent : Consistent limit session) :
    Consistent limit (session.step operation) := by
  cases operation with
  | enqueue executionId => exact consistent_enqueue consistent executionId
  | dequeue promise => exact consistent_dequeue consistent allowed
  | remove executionId => exact consistent_remove consistent executionId

/-- All that can go wrong is that too many executions run. -/
theorem limits_iff (consistent : Consistent limit session) :
    Limits limit session ↔ session.running.length ≤ limit := by
  constructor
  · exact Limits.atMost
  · intro atMost
    have inOrder := (List.pairwise_append.mp consistent.inOrder).1
    refine ⟨atMost, consistent.capacity_eq, consistent.busy, inOrder.imp fun below => Nat.ne_of_lt below, inOrder,
      fun later released earlier below => ?_⟩
    have called := consistent.called later (List.mem_append_left _ released)
    rcases consistent.accounted earlier (Nat.lt_trans below called) with isReleased | waits | removed
    · exact .inl isReleased
    · -- who waits has called after all that were released
      have after := (List.pairwise_append.mp consistent.inOrder).2.2 later released earlier waits
      exact absurd after (Nat.not_lt_of_lt below)
    · exact .inr removed

/-! ## When too many executions run -/

theorem running_enqueue (consistent : Consistent limit session) (atMost : session.running.length ≤ limit)
    (executionId : ExecutionId) :
    (session.step (.enqueue executionId)).running.length ≤ limit := by
  have next := consistent_enqueue consistent executionId
  have capacity_eq := consistent.capacity_eq
  by_cases full : session.queue.capacity - 1 < 0
  · simpa [step, after, ConcurrencyQueue.enqueue, full, resolvedPromises] using atMost
  · simp only [step, after, ConcurrencyQueue.enqueue, full, if_false, resolvedPromises, List.filterMap_cons,
      List.filterMap_nil, List.length_append, List.length_singleton]
    omega

theorem running_dequeue {promise : Promise} (runs : promise ∈ session.running)
    (atMost : session.running.length ≤ limit) : (session.step (.dequeue promise)).running.length ≤ limit := by
  have fewer := List.length_erase_of_mem runs
  have some : 0 < session.running.length := List.length_pos_of_mem runs
  rw [step, ConcurrencyQueue.dequeue, after_resolveNext]
  simp only [List.length_append, List.length_take, List.length_map]
  omega

/-- Removing an execution frees no slot, so whoever is let through is one too many. -/
theorem running_remove_iff (consistent : Consistent limit session) (atMost : session.running.length ≤ limit)
    (executionId : ExecutionId) :
    (session.step (.remove executionId)).running.length ≤ limit ↔ session.RemovesLast (.remove executionId) := by
  cases found : session.queue.find executionId with
  | none =>
    have next : session.step (.remove executionId) = session := by
      simp [step, after, ConcurrencyQueue.remove, found, resolvedPromises]
    rw [next]
    exact iff_of_true atMost fun item impossible => by rw [found] at impossible; cases impossible
  | some item =>
    obtain ⟨before, rest, erased, queued_eq⟩ := find_split found
    have filled : limit ≤ session.running.length := consistent.busy (by simp [queued_eq])
    have running_eq : (session.step (.remove executionId)).running =
        session.running ++ ((before ++ rest).map QueueItem.resolve).take 1 := by
      simp only [step, ConcurrencyQueue.remove, found, erased, after_resolveNext]
    rw [running_eq]
    constructor
    · intro stays other isFound
      obtain rfl := Option.some.inj (found.symm.trans isFound)
      have nobody : before ++ rest = [] := by
        cases others : before ++ rest with
        | nil => rfl
        | cons next _ =>
          simp only [others, List.map_cons, List.take_succ_cons, List.take_zero, List.length_append,
            List.length_singleton] at stays
          omega
      obtain ⟨rfl, rfl⟩ := List.append_eq_nil_iff.mp nobody
      rw [queued_eq]
      rfl
    · intro last
      have alone := last item found
      rw [queued_eq, List.append_eq_singleton_iff] at alone
      rcases alone with ⟨noneBefore, onlyItem⟩ | ⟨_, impossible⟩
      · rw [List.map_eq_nil_iff] at noneBefore
        have noneAfter := (List.cons.inj onlyItem).2
        rw [List.map_eq_nil_iff] at noneAfter
        rw [noneBefore, noneAfter]
        simpa using atMost
      · cases impossible

/-- At every moment of a session the limits hold exactly when no execution is removed while another one waits. -/
theorem always_limits_iff (limit : Nat) (operations : List Operation)
    (allowed : Runs.Every step Allowed (start limit) operations) :
    Runs.Always step (Limits limit) (start limit) operations ↔
      Runs.Every step RemovesLast (start limit) operations := by
  refine Runs.always_iff_every (fun session operation => @consistent_step limit session operation)
    (fun session operation isAllowed consistent limits => ?_) (consistent_start limit)
    ((limits_iff (consistent_start limit)).mpr (Nat.zero_le limit)) allowed
  rw [limits_iff (consistent_step isAllowed consistent)]
  cases operation with
  | enqueue executionId => exact iff_of_true (running_enqueue consistent limits.atMost executionId) trivial
  | dequeue promise => exact iff_of_true (running_dequeue isAllowed limits.atMost) trivial
  | remove executionId => exact running_remove_iff consistent limits.atMost executionId

theorem removeLast_limits : Runs.Always step (Limits 1) (start 1) [.enqueue "1", .enqueue "2", .remove "2"] :=
  (always_limits_iff 1 [.enqueue "1", .enqueue "2", .remove "2"] (by decide)).mpr (by
    refine ⟨trivial, trivial, fun item found => ?_, trivial⟩
    obtain rfl : (⟨"2", 1⟩ : QueueItem) = item := Option.some.inj found
    rfl)

theorem removeFirst_not_limits :
    Runs.Every step Allowed (start 1) [.enqueue "1", .enqueue "2", .enqueue "3", .remove "2"] ∧
      ¬ Runs.Always step (Limits 1) (start 1) [.enqueue "1", .enqueue "2", .enqueue "3", .remove "2"] := by
  refine ⟨by decide, fun always => ?_⟩
  have both : ([.enqueue "1", .enqueue "2", .enqueue "3", .remove "2"].foldl step (start 1)).running = [0, 2] := by
    decide
  have atMost := always.final.atMost
  rw [both] at atMost
  exact absurd atMost (by decide)

end Session

end N8n.Concurrency

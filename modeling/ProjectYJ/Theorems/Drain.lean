import ProjectYJ.Lemmas.Server
import ProjectYJ.Lib.HandOver

/-!
# What was received before the disconnect

A comment in `TaskQueue::WorkerThread` says that a session is disconnected only after all its data was received, and the check for
it is commented out. Packets go through the queues of the packet workers and the disconnect through the queue of the task
workers, and nothing orders the two: a packet that is still on its way when a task worker takes its session out of the
`SessionManager` is dropped.
-/

namespace ProjectYJ

open Server HandOver

open RecvState (workerIndex)

namespace Server

/-- The queues, what the packet workers have still to call `HandlePacket` for, and what happened to the items. -/
def handOver (s : Server) : HandOver Int ServerItem where
  queue := s.packetQueue
  hand := fun i => if 0 ≤ i then (s.worker i.toNat).waiting? else none
  dispatched := s.dispatched
  handled := s.handled
  dropped := s.dropped

/-- Of the items dispatched before their connection's task was pushed, none was dropped, and `HandlePacket` was called for those of
the connections that were taken out of the `SessionManager`. -/
def DrainedFirst (s : Server) : Prop :=
  ∀ item ∈ s.dispatched, item.early = true → item ∉ s.dropped ∧ (item.conn ∈ s.conns.removed → item ∈ s.handled)

/-- The task is in the queue, or a task worker has it. -/
def HasTask (s : Server) (task : IoTask) : Prop := task ∈ s.taskQueue ∨ ∃ w, s.task w = some task

/-- The UID that `SetSessionUID` gives next is not that of a session in use or of a task on its way. -/
def UIDFree (s : Server) : Prop :=
  (∀ a, (s.conns.tables.stage a).HasUID → s.uid a ≠ s.conns.tables.nextUID) ∧
    ∀ task, s.HasTask task → task.sessionUID ≠ s.conns.tables.nextUID

/-- The packet worker of the session has no item left that its connection sent before its task was pushed. -/
def Drained (s : Server) (numWorkers session : Nat) : Prop :=
  ∀ item ∈ s.handOver.waiting (workerIndex numWorkers (s.uid session)), item.early = true →
    s.conns.conn session ≠ some item.conn

instance (s : Server) (numWorkers session : Nat) : Decidable (s.Drained numWorkers session) :=
  inferInstanceAs (Decidable (∀ item ∈ _, _))

/-- The step gives no session a UID that is not free. -/
def DrawsFreeUID (s : Server) : ServerStep → Prop
  | .setSessionUID _ => s.UIDFree
  | _ => True

/-- The step takes no session out of the `SessionManager` that is not drained. -/
def Drains (numWorkers : Nat) (s : Server) : ServerStep → Prop
  | .removeSession w => ∀ a < s.conns.tables.made, s.conns.tables.hand w = .got a → s.Drained numWorkers a
  | _ => True

instance (numWorkers : Nat) (s : Server) : (l : ServerStep) → Decidable (s.Drains numWorkers l)
  | .removeSession w =>
    inferInstanceAs (Decidable (∀ a < s.conns.tables.made, s.conns.tables.hand w = .got a → s.Drained numWorkers a))
  | .maker | .addSession _ | .setSessionUID _ | .processRecv _ | .handleRead _ | .overflow _ | .pushOverflow _ | .dispatch _
  | .doRead _ | .readError _ | .handleWrite _ _ | .pushTask _ | .popPacket _ | .getSession _ | .handlePacket _ _ | .handled _
  | .popTask _ | .processIoTask _ | .setNetState _ | .releaseSession _ | .recycle _ => isTrue trivial

end Server

section

variable {stringToUTF8 : String → String} {n m : Nat} {s t : Server}

/-! ## The hand-over -/

theorem Server.handOver_hand (w : Nat) : s.handOver.hand w = (s.worker w).waiting? := by
  simp [Server.handOver]

theorem Server.handOver_setWorker (w : Nat) (worker : PacketWorker) :
    (s.setWorker w worker).handOver = { s.handOver with hand := Function.update s.handOver.hand w worker.waiting? } := by
  have hhand : (s.setWorker w worker).handOver.hand = Function.update s.handOver.hand w worker.waiting? := by
    funext i
    by_cases hi : i = (w : Int)
    · subst hi
      simp [Server.handOver_hand, Server.setWorker]
    · rw [Function.update_of_ne hi]
      simp only [Server.handOver, Server.setWorker]
      split
      · rw [Function.update_of_ne]
        omega
      · rfl
  rw [← hhand]
  rfl

/-! ## The tasks -/

/-- A task worker that is done has no task. -/
theorem Server.HasTask.of_setTask_none {task : IoTask} {w : Nat} (h : (s.setTask w none).HasTask task) : s.HasTask task := by
  refine h.imp_right ?_
  rintro ⟨v, hv⟩
  simp only [Server.setTask, Function.update_apply] at hv
  split at hv
  · cases hv
  · exact ⟨v, hv⟩

/-- A task worker takes the first task. -/
theorem Server.HasTask.of_popTask {task x : IoTask} {rest : List IoTask} (hq : s.taskQueue = x :: rest) {w : Nat}
    (h : ({ s with taskQueue := rest }.setTask w (some x)).HasTask task) : s.HasTask task := by
  rcases h with h | ⟨v, hv⟩
  · exact Or.inl (hq ▸ List.mem_cons_of_mem x h)
  · simp only [Server.setTask, Function.update_apply] at hv
    split at hv
    · obtain rfl := Option.some.inj hv
      exact Or.inl (hq ▸ List.mem_cons_self)
    · exact Or.inr ⟨v, hv⟩

/-- `ProcessDisconnect` pushes a task with the UID of its session. -/
theorem Server.HasTask.of_pushTask {task : IoTask} {a : Nat} (h : (s.pushTask a).HasTask task) :
    s.HasTask task ∨ task = { sessionUID := s.uid a, state := .Disconnect } := by
  rcases h with h | h
  · rcases List.mem_append.1 h with h | h
    · exact Or.inl (Or.inl h)
    · exact Or.inr (List.mem_singleton.1 h)
  · exact Or.inl (Or.inr h)

/-! ## The invariant -/

/-- What holds, besides `ServerInv`, while no UID in use is drawn again and the sessions that are removed are drained: a task is for
a connection that was recorded as disconnected, and only such connections are removed; and an early item that is waiting is of
a connection that is not removed and still has its session. -/
structure DrainInv (n : Nat) (s : Server) : Prop where
  live : LiveInv s.conns
  tasks : ∀ task, s.HasTask task → ∀ a c, s.uid a = task.sessionUID → s.conns.conn a = some c → c ∈ s.disconnected
  hands : ∀ w a c, n ≤ w → (s.conns.tables.hand w).Holds a → s.conns.conn a = some c → c ∈ s.disconnected
  removed : ∀ c ∈ s.conns.removed, c ∈ s.disconnected
  pending : ∀ i, ∀ item ∈ s.handOver.waiting i, item.early = true → item.conn ∉ s.conns.removed ∧
    ∃ a, s.conns.conn a = some item.conn ∧ s.conns.tables.stage a = .connected ∧ s.uid a = item.sessionId
  routed : Routed ServerItem.sessionId (workerIndex n) s.handOver
  accounted : Accounted ServerItem.sessionId (workerIndex n) s.handOver
  nodup : s.dispatched.Nodup
  serial : ∀ item ∈ s.dispatched, item.serial < s.dispatched.length
  dropped : ∀ item ∈ s.dropped, item.early = false

namespace DrainInv

theorem init (n poolSize : Nat) : DrainInv n (Server.init poolSize) where
  live := by
    refine ⟨?_, nofun⟩
    rintro a _ (ha | ha) <;> cases ha
  tasks task := by
    rintro (h | ⟨_, h⟩)
    · cases h
    · cases h
  hands w a c _ := by
    rintro (h | h) <;> cases h
  removed _ h := absurd h List.not_mem_nil
  pending i item h := by
    simp [Server.handOver, Server.init, HandOver.waiting, PacketWorker.waiting?] at h
  routed := ⟨fun _ _ h => absurd h List.not_mem_nil, fun i x h => by
    simp [Server.handOver, Server.init, PacketWorker.waiting?] at h⟩
  accounted x := by simp [Server.handOver, Server.init, HandOver.waiting, PacketWorker.waiting?]
  nodup := List.nodup_nil
  serial _ h := absurd h List.not_mem_nil
  dropped _ h := absurd h List.not_mem_nil

/-- No early item is dropped, and none of a removed connection is left to be handled. -/
theorem drainedFirst (hs : DrainInv n s) : s.DrainedFirst := by
  intro item hitem hearly
  have hdropped : item ∉ s.dropped := by
    intro hmem
    rw [hs.dropped item hmem] at hearly
    cases hearly
  refine ⟨hdropped, fun hremoved => ?_⟩
  rcases hs.accounted.cases hitem with hmem | hmem | hmem
  · exact hmem
  · exact absurd hmem hdropped
  · exact absurd hremoved (hs.pending _ item hmem hearly).1

/-- A step that leaves the connections and takes no new task: items only go from the workers on. -/
theorem handedOver (hs : DrainInv n s) (hconns : t.conns = s.conns) (hdisconnected : t.disconnected = s.disconnected)
    (htasks : ∀ task, t.HasTask task → s.HasTask task)
    (hwaiting : ∀ i, ∀ item ∈ t.handOver.waiting i, item ∈ s.handOver.waiting i) (hdispatched : t.dispatched = s.dispatched)
    (hrouted : Routed ServerItem.sessionId (workerIndex n) t.handOver)
    (haccounted : Accounted ServerItem.sessionId (workerIndex n) t.handOver)
    (hdropped : ∀ item ∈ t.dropped, item.early = false) : DrainInv n t := by
  have huid : t.uid = s.uid := by
    funext a
    rw [Server.uid, hconns, Server.uid]
  refine ⟨hconns ▸ hs.live, ?_, ?_, ?_, ?_, hrouted, haccounted, hdispatched ▸ hs.nodup, ?_, hdropped⟩
  · intro task htask
    rw [huid, hconns, hdisconnected]
    exact hs.tasks task (htasks task htask)
  · rw [hconns, hdisconnected]
    exact hs.hands
  · rw [hconns, hdisconnected]
    exact hs.removed
  · intro i item hitem
    rw [huid, hconns]
    exact hs.pending i item (hwaiting i item hitem)
  · rw [hdispatched]
    exact hs.serial

/-- A step that goes on with handlers, requests or tasks. -/
theorem frame (hs : DrainInv n s) (hconns : t.conns = s.conns) (hdisconnected : t.disconnected = s.disconnected)
    (hover : t.handOver = s.handOver) (htasks : ∀ task, t.HasTask task → s.HasTask task) : DrainInv n t := by
  have hdispatched : t.dispatched = s.dispatched := congrArg HandOver.dispatched hover
  have hdropped : t.dropped = s.dropped := congrArg HandOver.dropped hover
  refine hs.handedOver hconns hdisconnected htasks ?_ hdispatched (hover ▸ hs.routed) (hover ▸ hs.accounted) ?_
  · intro i item hitem
    rw [hover] at hitem
    exact hitem
  · rw [hdropped]
    exact hs.dropped

/-- A step of the session tables: by a task worker for its task, or which removes a session that is drained, or by others. -/
theorem conns_step (hs : DrainInv n s) (hv : ServerInv n m s) {l : TablesStep} {conns : Connections}
    (h : connStep (n + m) s.conns l = some conns) (hfree : ∀ a, l = .setSessionUID a → s.UIDFree)
    (hfind : ∀ w u, l = .getSession w u → n ≤ w → ∃ task, s.task w = some task ∧ task.sessionUID = u)
    (hremove : ∀ w a, l = .removeSession w → s.conns.tables.hand w = .got a → n ≤ w ∧ s.Drained n a) :
    DrainInv n { s with conns := conns } := by
  -- a session that is held serves the same connection as before
  have hold : ∀ {w a c}, (s.conns.tables.hand w).Holds a → conns.conn a = some c → s.conns.conn a = some c := by
    intro w a c ha hc
    rw [← (hv.conns.connected_step h (hv.conns.holds w a ha).2 (hv.conns.recycle_ne h ha)).2.2]
    exact hc
  refine ⟨hs.live.step hv.conns h fun a hl => (hfree a hl).1, ?_, ?_, ?_, ?_, hs.routed, hs.accounted,
    hs.nodup, hs.serial, hs.dropped⟩
  · intro task htask a c huid hc
    rcases connStep_conn h hc with ⟨hc, hsame⟩ | ⟨rfl, hnew⟩
    · exact hs.tasks task htask a c (hsame.symm.trans huid) hc
    · exact absurd (huid.symm.trans hnew) ((hfree a rfl).2 task htask)
  · intro w a c hw ha hc
    by_cases hl : l.thread? = some w
    · rcases connStep_holds h hl ha with ha | ⟨u, rfl, hg⟩
      · exact hs.hands w a c hw ha (hold ha hc)
      · obtain ⟨task, htask, rfl⟩ := hfind w u rfl hw
        have hsame := (hv.conns.connected_step h (hv.conns.manager _ a hg).1 nofun).2.2
        exact hs.tasks task (Or.inr ⟨w, htask⟩) a c (hv.conns.manager _ a hg).2 (hsame.symm.trans hc)
    · rw [connStep_hand h hl] at ha
      exact hs.hands w a c hw ha (hold ha hc)
  · intro c hc
    rcases connStep_removed h hc with hc | ⟨w, a, rfl, ha, hca⟩
    · exact hs.removed c hc
    · exact hs.hands w a c (hremove w a rfl ha).1 (Or.inl ha) hca
  · intro i item hitem hearly
    obtain ⟨hno, a, hca, hst, huid⟩ := hs.pending i item hitem hearly
    have hstay : l ≠ .recycle a := by
      rintro rfl
      obtain ⟨-, ⟨-, hentry, -⟩, -⟩ := tablesStep_recycle (connStep_tables h).1
      exact hentry ⟨_, a⟩ (AList.mem_lookup_iff.1 (hs.live.listed a _ hst hca hno)) rfl
    obtain ⟨h1, h2, h3⟩ := hv.conns.connected_step h hst hstay
    refine ⟨fun hmem => ?_, a, h3.trans hca, h1, h2.trans huid⟩
    rcases connStep_removed h hmem with hmem | ⟨w, b, rfl, hb, hcb⟩
    · exact hno hmem
    · obtain rfl := hv.conns.inj a b _ hca hcb
      have hi : workerIndex n (s.uid a) = i := by
        rw [huid]
        exact hs.routed.waiting hitem
      exact (hremove w a rfl hb).2 item (hi ▸ hitem) hearly hca

/-! ## The other steps -/

theorem setReading (hs : DrainInv n s) (a : Nat) (reading : Reading) : DrainInv n (s.setReading a reading) :=
  hs.frame rfl rfl rfl fun _ h => h

theorem setSession (hs : DrainInv n s) (a : Nat) (g : GameSession) : DrainInv n (s.setSession a g) :=
  hs.frame rfl rfl rfl fun _ h => h

theorem processDisconnect (hs : DrainInv n s) (a : Nat) : DrainInv n (s.processDisconnect a) := by
  rw [processDisconnect_eq]
  exact hs.frame rfl rfl rfl fun _ h => h

theorem setTask_none (hs : DrainInv n s) (w : Nat) : DrainInv n (s.setTask w none) :=
  hs.frame rfl rfl rfl fun _ h => h.of_setTask_none

/-- The connection of the session that is disconnected is the only one with its UID. -/
theorem pushTask (hs : DrainInv n s) (hv : ServerInv n m s) {a : Nat} (ha : s.conns.tables.stage a = .connected) :
    DrainInv n (s.pushTask a) := by
  have hsub : ∀ c ∈ s.disconnected, c ∈ (s.pushTask a).disconnected := fun c hc => List.mem_append_right _ hc
  refine ⟨hs.live, ?_, fun w b c hw hb hc => hsub c (hs.hands w b c hw hb hc), fun c hc => hsub c (hs.removed c hc), hs.pending,
    hs.routed, hs.accounted, hs.nodup, hs.serial, hs.dropped⟩
  intro task htask b c huid hc
  rcases htask.of_pushTask with hold | rfl
  · exact hsub c (hs.tasks task hold b c huid hc)
  · have hb : (s.conns.tables.stage b).HasUID := (hv.conns.served b).2 (Option.isSome_iff_exists.2 ⟨c, hc⟩)
    obtain rfl := hs.live.uids b a hb (Or.inr ha) huid
    exact List.mem_append_left _ (Option.mem_toList.2 hc)

/-- An item that is dispatched early is of a connection that is not removed. -/
theorem dispatch (hs : DrainInv n s) {a c : Nat} (ha : s.conns.tables.stage a = .connected) (hc : s.conns.conn a = some c) :
    DrainInv n (s.dispatch n a c) := by
  let item : ServerItem :=
    { sessionId := s.uid a, conn := c, serial := s.dispatched.length, early := decide (c ∉ s.disconnected) }
  have hover : (s.dispatch n a c).handOver = s.handOver.push (workerIndex n item.sessionId) item := rfl
  refine ⟨hs.live, hs.tasks, hs.hands, hs.removed, ?_, hover ▸ hs.routed.push item, hover ▸ hs.accounted.push item, ?_, ?_,
    hs.dropped⟩
  · intro i x hx hearly
    have hcases : x ∈ s.handOver.waiting i ∨ x = item := by
      rw [hover, waiting_push] at hx
      split at hx
      · exact (List.mem_append.1 hx).imp_right List.mem_singleton.1
      · exact Or.inl hx
    rcases hcases with hold | rfl
    · exact hs.pending i x hold hearly
    · exact ⟨fun hremoved => of_decide_eq_true hearly (hs.removed c hremoved), a, hc, ha, rfl⟩
  · refine List.nodup_append.2 ⟨hs.nodup, List.nodup_singleton item, ?_⟩
    intro x hx y hy
    rw [List.mem_singleton.1 hy]
    rintro rfl
    exact Nat.lt_irrefl _ (hs.serial item hx)
  · intro x hx
    simp only [Server.dispatch, List.length_append, List.length_singleton]
    rcases List.mem_append.1 hx with hx | hx
    · exact Nat.lt_succ_of_lt (hs.serial x hx)
    · rw [List.mem_singleton.1 hx]
      exact Nat.lt_succ_self _

/-- A worker takes the first item of its queue. -/
theorem popPacket (hs : DrainInv n s) {w : Nat} {item : ServerItem} {rest : List ServerItem} (hw : s.worker w = .idle)
    (hq : s.packetQueue w = item :: rest) :
    DrainInv n ({ s with packetQueue := Function.update s.packetQueue w rest }.setWorker w (.popped item)) := by
  have hover : ({ s with packetQueue := Function.update s.packetQueue w rest }.setWorker w (.popped item)).handOver =
      s.handOver.pop w item rest := handOver_setWorker ..
  have hhand : s.handOver.hand w = none := by rw [handOver_hand, hw]; rfl
  refine hs.handedOver rfl rfl (fun _ h => h) ?_ rfl (hover ▸ hs.routed.pop hq) (hover ▸ hs.accounted.pop hhand hq) hs.dropped
  intro i x hx
  rw [hover, waiting_pop hhand hq] at hx
  exact hx

/-- A worker goes on with what it had. -/
theorem setWorker (hs : DrainInv n s) {w : Nat} {worker : PacketWorker} (h : worker.waiting? = (s.worker w).waiting?) :
    DrainInv n (s.setWorker w worker) := by
  refine hs.frame rfl rfl ?_ fun _ h => h
  rw [handOver_setWorker, h, ← handOver_hand, Function.update_eq_self]

/-- A worker calls `HandlePacket` for its item. -/
theorem handlePacket (hs : DrainInv n s) {w : Nat} {item : ServerItem} (hw : s.worker w = .found item) :
    DrainInv n ({ s with handled := s.handled ++ [item] }.setWorker w (.handling item)) := by
  have hover : ({ s with handled := s.handled ++ [item] }.setWorker w (.handling item)).handOver = s.handOver.handle w item :=
    handOver_setWorker ..
  have hhand : s.handOver.hand w = some item := by rw [handOver_hand, hw]; rfl
  refine hs.handedOver rfl rfl (fun _ h => h) ?_ rfl (hover ▸ hs.routed.release w rfl rfl)
    (hover ▸ hs.accounted.handle hs.routed hhand) hs.dropped
  intro i x hx
  rw [hover] at hx
  exact mem_waiting_of_handle hx

/-- A worker drops its item, which was not early. -/
theorem drop (hs : DrainInv n s) {w : Nat} {item : ServerItem} (hw : s.worker w = .popped item) (hlate : item.early = false) :
    DrainInv n ({ s with dropped := s.dropped ++ [item] }.setWorker w .idle) := by
  have hover : ({ s with dropped := s.dropped ++ [item] }.setWorker w .idle).handOver = s.handOver.drop w item :=
    handOver_setWorker ..
  have hhand : s.handOver.hand w = some item := by rw [handOver_hand, hw]; rfl
  refine hs.handedOver rfl rfl (fun _ h => h) ?_ rfl (hover ▸ hs.routed.release w rfl rfl)
    (hover ▸ hs.accounted.drop hs.routed hhand) ?_
  · intro i x hx
    rw [hover] at hx
    exact mem_waiting_of_drop hx
  · intro x hx
    rcases List.mem_append.1 hx with hx | hx
    · exact hs.dropped x hx
    · rw [List.mem_singleton.1 hx]
      exact hlate

/-- An early item in the hand of a worker is one whose session is found. -/
theorem early_found (hs : DrainInv n s) {w : Nat} {item : ServerItem} (hw : s.worker w = .popped item)
    (hg : s.conns.tables.getSession item.sessionId = none) : item.early = false := by
  by_contra hearly
  have hmem : item ∈ s.handOver.waiting w := by
    rw [waiting_of_hand (x := item) (by rw [handOver_hand, hw]; rfl)]
    exact List.mem_cons_self
  obtain ⟨hno, a, hca, hst, huid⟩ := hs.pending w item hmem (Bool.not_eq_false _ ▸ hearly)
  have hfound := hs.live.listed a _ hst hca hno
  rw [Server.uid] at huid
  rw [huid, hg] at hfound
  cases hfound

/-- Every step keeps it that draws no UID in use and removes no session that is not drained. -/
theorem moves (hs : DrainInv n s) (hv : ServerInv n m s) {l : ServerStep} (hfree : s.DrawsFreeUID l)
    (hdrain : s.Drains n l) (h : ServerMoves stringToUTF8 n m s l t) : DrainInv n t := by
  cases h with
  | maker h => exact hs.conns_step hv h nofun nofun nofun
  | addSession h => exact hs.conns_step hv h nofun nofun nofun
  | setSessionUID h => exact (hs.conns_step hv h (fun _ _ => hfree) nofun nofun).setSession _ _
  | processRecv h => exact (hs.conns_step hv h nofun nofun nofun).setReading _ _
  | handleRead h => exact hs.frame rfl rfl rfl fun _ h => h
  | overflow h => exact hs.setReading _ _
  | pushOverflow h => exact (hs.pushTask hv (hv.connected_of_reading h nofun)).setReading _ _
  | dispatch h hkey hc => exact hs.dispatch (hv.connected_of_reading h nofun) hc
  | doRead h => exact hs.setReading _ _
  | readError h => exact (hs.processDisconnect _).setReading _ _
  | handleWrite h => exact hs.frame rfl rfl rfl fun _ h => h
  | @writeError a h => exact (hs.processDisconnect a).frame rfl rfl rfl fun _ h => h
  | @pushTask a h => exact (hs.pushTask hv (hv.held a (Or.inr (Or.inr h)))).frame rfl rfl rfl fun _ h => h
  | popPacket hw h hq => exact hs.popPacket h hq
  | @drop w item conns hw h hg =>
    refine (hs.conns_step hv h nofun ?_ nofun).drop hw (hs.early_found hw hg)
    rintro v u ⟨⟩ hle
    exact absurd (hv.worker w (by rw [hw]; exact nofun)) (Nat.not_lt.2 hle)
  | @find w item a conns hw h hg =>
    refine (hs.conns_step hv h nofun ?_ nofun).setWorker (by simp only [hw]; rfl)
    rintro v u ⟨⟩ hle
    exact absurd (hv.worker w (by rw [hw]; exact nofun)) (Nat.not_lt.2 hle)
  | handleNothing hw ha => exact hs.handlePacket hw
  | @handlePacket w item a request out hw ha h =>
    have hanswer : DrainInv n (s.answer out) := hs.frame rfl rfl rfl fun _ h => h
    exact hanswer.handlePacket hw
  | handled hw h => exact (hs.conns_step hv h nofun nofun nofun).setWorker (by simp only [hw]; rfl)
  | popTask hw h hq => exact hs.frame rfl rfl rfl fun _ h => h.of_popTask hq
  | @taskDrop w task conns hw h hg =>
    refine (hs.conns_step hv h nofun ?_ nofun).setTask_none _
    rintro v u ⟨⟩ -
    exact ⟨task, hw, rfl⟩
  | @taskFind w task a conns hw h hg =>
    refine hs.conns_step hv h nofun ?_ nofun
    rintro v u ⟨⟩ -
    exact ⟨task, hw, rfl⟩
  | reconnect hw h => exact (hs.conns_step hv h nofun nofun nofun).setTask_none _
  | setNetState hw h => exact ((hs.conns_step hv h nofun nofun nofun).setSession _ _).setTask_none _
  | @removeSession w task conns hw h =>
    refine hs.conns_step hv h nofun nofun ?_
    rintro v a ⟨⟩ ha
    refine ⟨(hv.task w (by rw [hw]; exact nofun)).1, hdrain a (Nat.lt_of_not_le fun hle => ?_) ha⟩
    have hst := (hv.conns.holds w a (Or.inl ha)).2
    rw [hv.conns.pool.unmade a hle] at hst
    cases hst
  | releaseSession h => exact (hs.conns_step hv h nofun nofun nofun).setTask_none _
  | recycle hheld howned h => exact hs.conns_step hv h nofun nofun nofun

/-- A step that removes a session that is not drained leaves an item behind. -/
theorem drains (hs : DrainInv n s) {l : ServerStep} (h : ServerMoves stringToUTF8 n m s l t) (ht : t.DrainedFirst) :
    s.Drains n l := by
  cases h with
  | @removeSession w task conns hw h =>
    intro a _ ha item hitem hearly hca
    obtain ⟨hstep, hafter⟩ := connStep_tables h
    obtain ⟨b, hb, -⟩ := tablesStep_removeSession hstep
    obtain rfl := Hand.got.inj (ha.symm.trans hb)
    have hremoved : item.conn ∈ conns.removed := by
      rw [hafter]
      simp [Connections.after, hb, hca]
    have hi := hs.routed.waiting hitem
    obtain ⟨hmem, hno⟩ := hs.accounted.waiting hs.nodup (x := item) (hi ▸ hitem)
    exact hno ((ht item hmem hearly).2 hremoved)
  | _ => trivial

end DrainInv

/-! ## The UIDs of the first connections -/

/-- Every task has the UID of a connection. -/
def TaskUIDs (s : Server) : Prop := ∀ task, s.HasTask task → ∃ c < s.conns.tables.created, task.sessionUID = toInt32 c

/-- A step leaves the connections or is a step of the session tables. -/
theorem ServerMoves.conns {l : ServerStep} (h : ServerMoves stringToUTF8 n m s l t) :
    t.conns = s.conns ∨ ∃ l', connStep (n + m) s.conns l' = some t.conns := by
  cases h with
  | maker h | addSession h | setSessionUID h | processRecv h | drop _ h | find _ h | handled _ h | taskDrop _ h | taskFind _ h
  | reconnect _ h | setNetState _ h | removeSession _ h | releaseSession h | recycle _ _ h => exact Or.inr ⟨_, h⟩
  | readError | writeError =>
    rw [processDisconnect_eq]
    exact Or.inl rfl
  | _ => exact Or.inl rfl

/-- A task that is new is a disconnect with the UID of a connected session. -/
theorem ServerMoves.hasTask (hv : ServerInv n m s) {l : ServerStep} (h : ServerMoves stringToUTF8 n m s l t) {task : IoTask}
    (htask : t.HasTask task) :
    s.HasTask task ∨ ∃ a, s.conns.tables.stage a = .connected ∧ task = { sessionUID := s.uid a, state := .Disconnect } := by
  have hnew : ∀ {a}, s.conns.tables.stage a = .connected → (s.pushTask a).HasTask task →
      s.HasTask task ∨ ∃ a, s.conns.tables.stage a = .connected ∧ task = { sessionUID := s.uid a, state := .Disconnect } := by
    intro a ha hpush
    exact hpush.of_pushTask.imp_right fun h => ⟨a, ha, h⟩
  cases h with
  | pushOverflow h => exact hnew (hv.connected_of_reading h nofun) htask
  | @pushTask a h => exact hnew (hv.held a (Or.inr (Or.inr h))) htask
  | popTask hw h hq => exact Or.inl (htask.of_popTask hq)
  | taskDrop | reconnect | setNetState | releaseSession => exact Or.inl htask.of_setTask_none
  | readError | writeError =>
    rw [processDisconnect_eq] at htask
    exact Or.inl htask
  | _ => exact Or.inl htask

theorem TaskUIDs.moves (hs : TaskUIDs s) (hv : ServerInv n m s) {l : ServerStep} (h : ServerMoves stringToUTF8 n m s l t) :
    s.conns.tables.created ≤ t.conns.tables.created ∧ TaskUIDs t := by
  have hcreated : s.conns.tables.created ≤ t.conns.tables.created := by
    rcases h.conns with hconns | ⟨l', hconns⟩
    · rw [hconns]
    · exact (tablesStep_grows (connStep_tables hconns).1).1
  refine ⟨hcreated, fun task htask => ?_⟩
  rcases ServerMoves.hasTask hv h htask with hold | ⟨a, ha, rfl⟩
  · obtain ⟨c, hc, huid⟩ := hs task hold
    exact ⟨c, Nat.lt_of_lt_of_le hc hcreated, huid⟩
  · obtain ⟨c, hc⟩ := hv.conns.conn_of_connected ha
    have h := hv.conns.serves a c hc
    exact ⟨c, Nat.lt_of_lt_of_le h.lt hcreated, h.uid⟩

/-- The UID of a connection is not that of another among `2 ^ 32` connections. -/
theorem toInt32_ne {c d : Nat} (hcd : c < d) (hd : d < 4294967296) : toInt32 c ≠ toInt32 d := by
  unfold toInt32
  omega

/-- A connection among the first `2 ^ 32` gets a free UID. -/
theorem TaskUIDs.uidFree (hs : TaskUIDs s) (hv : ServerInv n m s) (hlt : s.conns.tables.created < 4294967296) :
    s.UIDFree := by
  refine ⟨?_, ?_⟩
  · intro a ha
    obtain ⟨c, hc⟩ := Option.isSome_iff_exists.1 ((hv.conns.served a).1 ha)
    have h := hv.conns.serves a c hc
    rw [Server.uid, h.uid, hv.conns.next]
    exact toInt32_ne h.lt hlt
  · intro task htask
    obtain ⟨c, hc, huid⟩ := hs task htask
    rw [huid, hv.conns.next]
    exact toInt32_ne hc hlt

/-- A run that accepts at most `2 ^ 32` connections draws free UIDs. -/
theorem meets_drawsFreeUID {poolSize : Nat} {ls : List ServerStep}
    (hr : (serverSystem stringToUTF8 n m poolSize).run (Server.init poolSize) ls = some s)
    (hlt : s.conns.tables.created ≤ 4294967296) :
    (serverSystem stringToUTF8 n m poolSize).Meets DrawsFreeUID (Server.init poolSize) ls := by
  refine ((serverSystem stringToUTF8 n m poolSize).meets_of_end (I := fun r => ServerInv n m r ∧ TaskUIDs r)
    (P := fun r => r.conns.tables.created ≤ 4294967296) ?_ ?_ ⟨ServerInv.init n m poolSize, ?_⟩ hr hlt).2
  · rintro r l r' ⟨hv, hs⟩ h
    exact ⟨hv.moves (serverStep_moves h), (hs.moves hv (serverStep_moves h)).2⟩
  · rintro r l r' ⟨hv, hs⟩ h hle
    have hmove := serverStep_moves h
    refine ⟨Nat.le_trans (hs.moves hv hmove).1 hle, ?_⟩
    cases hmove with
    | @setSessionUID a conns hc =>
      obtain ⟨-, ht⟩ := tablesStep_setSessionUID (connStep_tables hc).1
      refine hs.uidFree hv ?_
      simp only [Server.setSession, ht, SessionTables.setStage, SessionTables.setSessionUID] at hle
      exact hle
    | _ => trivial
  · rintro task (h | ⟨_, h⟩)
    · cases h
    · cases h

end

/-- In every run in which no session gets a UID that is in use: in every state reached, each item that was dispatched before the
task of its connection was pushed is not dropped, and `HandlePacket` was called for it if the session of the connection is
removed from the `SessionManager`, exactly when no step of the run removes a session that is not drained. -/
theorem drained_iff (stringToUTF8 : String → String) (numWorkers numTaskWorkers poolSize : Nat) {ls : List ServerStep}
    {s : Server}
    (hr : (serverSystem stringToUTF8 numWorkers numTaskWorkers poolSize).run (Server.init poolSize) ls = some s)
    (hfree : (serverSystem stringToUTF8 numWorkers numTaskWorkers poolSize).Meets DrawsFreeUID (Server.init poolSize) ls) :
    (∀ ms r, ms <+: ls → (serverSystem stringToUTF8 numWorkers numTaskWorkers poolSize).run (Server.init poolSize) ms = some r →
      r.DrainedFirst) ↔
      (serverSystem stringToUTF8 numWorkers numTaskWorkers poolSize).Meets (Drains numWorkers) (Server.init poolSize) ls := by
  refine (serverSystem stringToUTF8 numWorkers numTaskWorkers poolSize).reached_iff_meets
    (I := fun r => ServerInv numWorkers numTaskWorkers r ∧ DrainInv numWorkers r) (fun r hs => hs.2.drainedFirst) ?_
    ⟨ServerInv.init _ _ poolSize, DrainInv.init _ poolSize⟩ hfree hr
  rintro r l t ⟨hv, hs⟩ hl h
  have hmove := serverStep_moves h
  exact ⟨fun hdrain => ⟨hv.moves hmove, hs.moves hv hl hdrain hmove⟩, hs.drains hmove⟩

/-- A client connects, sends a packet and goes away; the packet worker is done before the task worker takes the task. -/
def drainsFirst : List ServerStep :=
  [.maker, .addSession 0, .setSessionUID 0, .processRecv 0, .handleRead 0, .dispatch 0, .doRead 0, .readError 0, .pushTask 0,
    .popPacket 0, .getSession 0, .handlePacket 0 none, .handled 0, .popTask 1, .processIoTask 1, .removeSession 1]

/-- `drained_iff` at the run `drainsFirst`. -/
theorem drained_iff_drainsFirst : ∃ s, (serverSystem id 1 1 1).run (Server.init 1) drainsFirst = some s ∧
    s.conns.removed = [0] ∧ s.handled.length = 1 ∧ s.DrainedFirst := by
  have hrun : ((serverSystem id 1 1 1).run (Server.init 1) drainsFirst).map
      (fun s : Server => (s.conns.removed, s.handled.length, s.conns.tables.created)) = some ([0], 1, 1) := by decide
  obtain ⟨s, hs, hfields⟩ := Option.map_eq_some_iff.1 hrun
  simp only [Prod.mk.injEq] at hfields
  obtain ⟨hremoved, hhandled, hcreated⟩ := hfields
  have hdrains : (serverSystem id 1 1 1).Meets (Drains 1) (Server.init 1) drainsFirst := by decide
  have hall := (drained_iff id 1 1 1 hs (meets_drawsFreeUID hs (by omega))).2 hdrains
  exact ⟨s, hs, hremoved, hhandled, hall drainsFirst s (List.prefix_refl _) hs⟩

/-- A client connects, sends a packet and goes away; the task worker is faster than the packet worker. -/
def removesFirst : List ServerStep :=
  [.maker, .addSession 0, .setSessionUID 0, .processRecv 0, .handleRead 0, .dispatch 0, .doRead 0, .readError 0, .pushTask 0,
    .popTask 1, .processIoTask 1, .removeSession 1, .popPacket 0, .getSession 0]

/-- Not every run drains first: in `removesFirst` the packet was dispatched before the task was pushed, and its session is not
found. -/
theorem not_every_run_drained : ¬∀ (ls : List ServerStep) (s : Server),
    (serverSystem id 1 1 1).run (Server.init 1) ls = some s → s.DrainedFirst := by
  intro hall
  let item : ServerItem := { sessionId := 0, conn := 0, serial := 0, early := true }
  have hrun : ((serverSystem id 1 1 1).run (Server.init 1) removesFirst).map
      (fun s : Server => (s.dispatched, s.dropped)) = some ([item], [item]) := by decide
  obtain ⟨s, hs, hfields⟩ := Option.map_eq_some_iff.1 hrun
  simp only [Prod.mk.injEq] at hfields
  obtain ⟨hdispatched, hdropped⟩ := hfields
  have hmem : item ∈ s.dispatched := by rw [hdispatched]; exact List.mem_singleton_self item
  exact (hall removesFirst s hs item hmem rfl).1 (by rw [hdropped]; exact List.mem_singleton_self item)

end ProjectYJ

import ProjectYJ.Lemmas.Connections
import ProjectYJ.Receive

/-!
# Session UIDs without bound

`m_SessionUID` is an `int32` that wraps around. The first `2 ^ 31` sessions get the numbers 0, 1, 2, …; the next ones get negative
numbers, whose remainder in C++ is negative, so that `Dispatch` indexes before the queues of the workers unless their number
divides the UID; and after `2 ^ 32` sessions the numbers come again, also that of a session that is still there.
`sessionUIDs_iff` says exactly which runs do no harm.
-/

namespace ProjectYJ

open SessionTables
open RecvState (workerIndex)

/-- What the UIDs of the live sessions are for (a session is live from `SetSessionUID` until the pool has its object again): no
two have the same, `AddSession` registers each under its own, and `Dispatch` finds a worker for each. -/
structure UIDsGood (numWorkers : Nat) (s : SessionTables) : Prop where
  distinct : ∀ a b, (s.stage a).HasUID → (s.stage b).HasUID → s.uid a = s.uid b → a = b
  registers : ∀ a, s.stage a = .numbered → (s.onConnected a).getSession (s.uid a) = some a
  dispatches : ∀ a, (s.stage a).HasUID → 0 ≤ workerIndex numWorkers (s.uid a) ∧ workerIndex numWorkers (s.uid a) < numWorkers

/-- The step gives no session a UID that a live session has, nor a negative one that the number of workers does not divide. -/
def DrawsGoodUID (numWorkers : Nat) (s : SessionTables) : TablesStep → Prop
  | .setSessionUID _ =>
    (∀ b, (s.stage b).HasUID → s.uid b ≠ s.nextUID) ∧ (0 ≤ s.nextUID ∨ (numWorkers : Int) ∣ s.nextUID)
  | _ => True

/-! ## The remainder of C++ -/

theorem workerIndex_lt {numWorkers : Nat} (hw : 1 ≤ numWorkers) (u : Int) : workerIndex numWorkers u < numWorkers :=
  Int.tmod_lt_of_pos u (by omega)

/-- The remainder has the sign of the UID. -/
theorem workerIndex_nonneg_iff (numWorkers : Nat) (u : Int) :
    0 ≤ workerIndex numWorkers u ↔ 0 ≤ u ∨ (numWorkers : Int) ∣ u := by
  have hneg : workerIndex numWorkers u = -(-u).tmod numWorkers := by
    rw [Int.neg_tmod, Int.neg_neg, workerIndex]
  constructor
  · intro h
    by_cases hu : 0 ≤ u
    · exact Or.inl hu
    · refine Or.inr (Int.dvd_of_tmod_eq_zero ?_)
      have hle := Int.tmod_nonneg (numWorkers : Int) (show 0 ≤ -u by omega)
      rw [workerIndex] at h hneg
      omega
  · rintro (hu | hd)
    · exact Int.tmod_nonneg _ hu
    · exact Int.le_of_eq (Int.tmod_eq_zero_of_dvd hd).symm

/-! ## One step -/

/-- What holds of the tables in every run, whatever UIDs are drawn; the connections are those `Connections` follows. -/
def Followed (n : Nat) (s : SessionTables) (c : Connections) : Prop := c.tables = s ∧ ConnInv n c

section

variable {n m : Nat} {s t : SessionTables}

/-- A step of the tables is one of the connections. -/
theorem connStep_of_tablesStep {c : Connections} {l : TablesStep} (hc : Followed n s c) (h : tablesStep n s l = some t) :
    ∃ d, connStep n c l = some d ∧ Followed n t d := by
  have hstep : connStep n c l = some (c.after t l) := by
    rw [connStep, hc.1, h, Option.map_some]
  have htables := (connStep_tables hstep).1
  rw [hc.1, h] at htables
  exact ⟨c.after t l, hstep, (Option.some.inj htables).symm, hc.2.step hstep⟩

/-- The session of an object that is about to be registered is registered, where the UIDs are distinct. -/
theorem registers_of_distinct {c : Connections} (hc : Followed n s c)
    (hd : ∀ a b, (s.stage a).HasUID → (s.stage b).HasUID → s.uid a = s.uid b → a = b) {a : Nat} (ha : s.stage a = .numbered) :
    (s.onConnected a).getSession (s.uid a) = some a := by
  obtain ⟨rfl, hc⟩ := hc
  have hnone : c.tables.getSession (c.tables.uid a) = none := by
    cases hg : c.tables.getSession (c.tables.uid a) with
    | none => rfl
    | some b =>
      obtain ⟨hb, huid⟩ := hc.manager _ b hg
      obtain rfl := hd b a (Or.inr hb) (Or.inl ha) huid
      rw [ha] at hb
      cases hb
  rw [SessionTables.onConnected, hnone]
  exact AList.lookup_insert _

/-- What holds between two steps of a run that draws good UIDs only. -/
def GoodInv (n m : Nat) (s : SessionTables) : Prop :=
  ∃ c, Followed n s c ∧ LiveInv c ∧ ∀ a, (s.stage a).HasUID → 0 ≤ s.uid a ∨ (m : Int) ∣ s.uid a

theorem GoodInv.good (hm : 1 ≤ m) (hs : GoodInv n m s) : UIDsGood m s := by
  obtain ⟨c, hc, hlive, hsign⟩ := hs
  have hd : ∀ a b, (s.stage a).HasUID → (s.stage b).HasUID → s.uid a = s.uid b → a = b := by
    rw [← hc.1]
    exact hlive.uids
  refine ⟨hd, fun a ha => registers_of_distinct hc hd ha, fun a ha => ⟨?_, workerIndex_lt hm _⟩⟩
  exact (workerIndex_nonneg_iff m _).2 (hsign a ha)

theorem GoodInv.init (n m poolSize : Nat) : GoodInv n m (SessionTables.init poolSize) := by
  have hno : ∀ a, ¬((SessionTables.init poolSize).stage a).HasUID := by
    rintro a (h | h) <;> cases h
  refine ⟨Connections.init poolSize, ⟨rfl, ConnInv.init n poolSize⟩, ⟨?_, ?_⟩, fun a ha => absurd ha (hno a)⟩
  · exact fun a b ha => absurd ha (hno a)
  · exact fun a c ha => absurd (Or.inr ha) (hno a)

/-- A step that draws a good UID, or none, keeps the invariant. -/
theorem GoodInv.step (hs : GoodInv n m s) {l : TablesStep} (hl : DrawsGoodUID m s l) (h : tablesStep n s l = some t) :
    GoodInv n m t := by
  obtain ⟨c, hc, hlive, hsign⟩ := hs
  obtain ⟨d, hd, hdt⟩ := connStep_of_tablesStep hc h
  obtain ⟨rfl, hinv⟩ := hc
  obtain ⟨rfl, hdinv⟩ := hdt
  refine ⟨d, ⟨rfl, hdinv⟩, hlive.step hinv hd ?_, ?_⟩
  · rintro a rfl
    exact hl.1
  · intro a ha
    obtain ⟨k, hk⟩ := Option.isSome_iff_exists.1 ((hdinv.served a).1 ha)
    rcases connStep_conn hd hk with ⟨hold, huid⟩ | ⟨rfl, huid⟩
    · rw [huid]
      exact hsign a ((hinv.served a).2 (Option.isSome_iff_exists.2 ⟨k, hold⟩))
    · rw [huid]
      exact hl.2

/-- A step that leads to good UIDs has drawn a good one, or none. -/
theorem UIDsGood.draws (ht : UIDsGood m t) {l : TablesStep} (h : tablesStep n s l = some t) : DrawsGoodUID m s l := by
  cases l with
  | setSessionUID a =>
    obtain ⟨ha, rfl⟩ := tablesStep_setSessionUID h
    have hnew : (((s.setSessionUID a).setStage a .numbered).stage a).HasUID := by
      rw [stage_setStage, if_pos rfl]
      exact Or.inl rfl
    have huid : ((s.setSessionUID a).setStage a .numbered).uid a = s.nextUID := Function.update_self ..
    constructor
    · intro b hb heq
      have hba : b ≠ a := by
        rintro rfl
        rw [ha] at hb
        rcases hb with hb | hb <;> cases hb
      refine hba (ht.distinct b a ?_ hnew ?_)
      · rw [stage_setStage, if_neg hba]
        exact hb
      · rw [huid]
        exact (Function.update_of_ne hba ..).trans heq
    · have hindex := (ht.dispatches a hnew).1
      rwa [huid, workerIndex_nonneg_iff] at hindex
  | _ => trivial

/-- Among the first `2 ^ 31` UIDs every one is good. -/
theorem drawsGoodUID_of_lt {c : Connections} (hc : Followed n s c) (hlt : s.created < 2147483648) (l : TablesStep) :
    DrawsGoodUID m s l := by
  obtain ⟨rfl, hc⟩ := hc
  have hnext := hc.next
  rw [toInt32_of_lt hlt] at hnext
  cases l with
  | setSessionUID a =>
    refine ⟨fun b hb => ?_, Or.inl (by omega)⟩
    obtain ⟨k, hk⟩ := Option.isSome_iff_exists.1 ((hc.served b).1 hb)
    obtain ⟨hkc, huid, -⟩ := hc.serves b k hk
    rw [toInt32_of_lt (Nat.lt_trans hkc hlt)] at huid
    omega
  | _ => trivial

/-! ## Runs -/

/-- A run that creates at most `2 ^ 31` sessions draws good UIDs only, however many objects and workers there are. -/
theorem meets_drawsGoodUID {poolSize : Nat} {ls : List TablesStep}
    (hr : (tablesSystem n poolSize).run (SessionTables.init poolSize) ls = some s) (hle : s.created ≤ 2147483648) :
    (tablesSystem n poolSize).Meets (DrawsGoodUID m) (SessionTables.init poolSize) ls := by
  refine ((tablesSystem n poolSize).meets_of_end (I := fun r => ∃ c, Followed n r c)
    (P := fun r => r.created ≤ 2147483648) ?_ ?_ ⟨Connections.init poolSize, rfl, ConnInv.init n poolSize⟩ hr hle).2
  · rintro r l r' ⟨c, hc⟩ h
    obtain ⟨d, -, hd⟩ := connStep_of_tablesStep hc h
    exact ⟨d, hd⟩
  · rintro r l r' ⟨c, hc⟩ h hr'
    have hstep : tablesStep n r l = some r' := h
    refine ⟨Nat.le_trans (tablesStep_grows hstep).1 hr', ?_⟩
    cases l with
    | setSessionUID a =>
      obtain ⟨-, rfl⟩ := tablesStep_setSessionUID hstep
      exact drawsGoodUID_of_lt hc hr' _
    | _ => trivial

end

/-- In every run, with any number of `CreateSession` calls and at least one worker: the UIDs are good in every state that is
reached exactly when every step of the run draws a good UID, or none. -/
theorem sessionUIDs_iff (numThreads poolSize : Nat) {numWorkers : Nat} (hw : 1 ≤ numWorkers) {ls : List TablesStep}
    {s : SessionTables} (h : (tablesSystem numThreads poolSize).run (SessionTables.init poolSize) ls = some s) :
    (∀ ms r, ms <+: ls → (tablesSystem numThreads poolSize).run (SessionTables.init poolSize) ms = some r →
        UIDsGood numWorkers r) ↔
      (tablesSystem numThreads poolSize).Meets (DrawsGoodUID numWorkers) (SessionTables.init poolSize) ls := by
  refine (tablesSystem numThreads poolSize).reached_iff_meets (I := GoodInv numThreads numWorkers) (fun r hr => hr.good hw) ?_
    (GoodInv.init numThreads numWorkers poolSize) ((tablesSystem numThreads poolSize).meets_true _ _) h
  intro r l t hr _ hstep
  exact ⟨fun hl => hr.step hl hstep, fun ht => ht.draws hstep⟩

/-- One object in the pool, one session created with it, closed and back in the pool. -/
def servesOnce (sessionUID : Int) : List TablesStep :=
  [.maker, .addSession 0, .setSessionUID 0, .onConnected 0, .getSession 0 sessionUID, .removeSession 0, .releaseSession 0,
    .recycle 0]

theorem sessionUIDs_iff_servesOnce : ∃ s, (tablesSystem 1 1).run (SessionTables.init 1) (servesOnce 0) = some s ∧
    UIDsGood 3 s := by
  have hcreated : ((tablesSystem 1 1).run (SessionTables.init 1) (servesOnce 0)).map (fun s => s.created) = some 1 := by decide
  obtain ⟨s, hs, hc⟩ := Option.map_eq_some_iff.1 hcreated
  refine ⟨s, hs, ?_⟩
  exact (sessionUIDs_iff 1 1 (by decide) hs).2 (meets_drawsGoodUID hs (by omega)) _ s (List.prefix_refl _) hs

/-! ## The UID after `2 ^ 31` sessions -/

/-- Where the one object of a pool stands, with one thread: the stack, the stage and the UID of the object, the counter, the two
tables, what the thread holds and the mutex of the object. -/
structure OneObject (s : SessionTables) (pool : List Nat) (stage : Stage) (uid nextUID : Int) (sessions : Finset Nat)
    (manager : AList (fun _ : Int => Nat)) (hand : Hand) (mutex : Option Nat) : Prop where
  pool : s.pool = pool
  stage : s.stage 0 = stage
  uid : s.uid 0 = uid
  nextUID : s.nextUID = nextUID
  sessions : s.sessions = sessions
  manager : s.manager = manager
  hand : s.hand 0 = hand
  mutex : s.mutex 0 = mutex

section

variable {s : SessionTables} {u x : Int}

theorem stage_setStage_self (s : SessionTables) (a : Nat) (stage : Stage) : (s.setStage a stage).stage a = stage :=
  Function.update_self ..

theorem hand_setHand_self (s : SessionTables) (w : Nat) (hand : Hand) : (s.setHand w hand).hand w = hand :=
  Function.update_self ..

theorem uid_setSessionUID_self (s : SessionTables) (a : Nat) : (s.setSessionUID a).uid a = s.nextUID :=
  Function.update_self ..

theorem mutex_removeSession_self (s : SessionTables) (w a : Nat) : (s.removeSession w a).mutex a = some w :=
  Function.update_self ..

theorem mutex_releaseSession_self (s : SessionTables) (a : Nat) : (s.releaseSession a).mutex a = none :=
  Function.update_self ..

/-- The object is taken from the pool. -/
theorem OneObject.maker (h : OneObject s [0] .pooled u x ∅ ∅ .idle none) :
    ∃ t, tablesStep 1 s .maker = some t ∧ OneObject t [] .popped u x ∅ ∅ .idle none := by
  have hpop : s.pop = (0, { s with pool := [] }) := by
    rw [pop, h.pool]
  refine ⟨_, rfl, ?_⟩
  rw [hpop]
  exact ⟨rfl, stage_setStage_self .., h.uid, h.nextUID, h.sessions, h.manager, h.hand, h.mutex⟩

/-- It joins the sessions of the service. -/
theorem OneObject.addSession (h : OneObject s [] .popped u x ∅ ∅ .idle none) :
    ∃ t, tablesStep 1 s (.addSession 0) = some t ∧ OneObject t [] .listed u x {0} ∅ .idle none := by
  refine ⟨_, if_pos h.stage, h.pool, stage_setStage_self .., h.uid, h.nextUID, ?_, h.manager, h.hand, h.mutex⟩
  exact (congrArg (insert 0) h.sessions).trans (by decide)

/-- It gets the next UID. -/
theorem OneObject.setSessionUID (h : OneObject s [] .listed u x {0} ∅ .idle none) :
    ∃ t, tablesStep 1 s (.setSessionUID 0) = some t ∧ OneObject t [] .numbered x (toInt32 (x + 1)) {0} ∅ .idle none := by
  refine ⟨_, if_pos h.stage, h.pool, stage_setStage_self .., ?_, ?_, h.sessions, h.manager, h.hand, h.mutex⟩
  · exact (uid_setSessionUID_self s 0).trans h.nextUID
  · exact congrArg (fun y => toInt32 (y + 1)) h.nextUID

/-- It is registered under its UID. -/
theorem OneObject.onConnected (h : OneObject s [] .numbered u x {0} ∅ .idle none) :
    ∃ t, tablesStep 1 s (.onConnected 0) = some t ∧
      OneObject t [] .connected u x {0} (AList.insert u 0 ∅) .idle none := by
  have hget : s.getSession (s.uid 0) = none := by
    rw [SessionTables.getSession, h.manager]
    rfl
  have hregister : s.onConnected 0 = { s with manager := s.manager.insert (s.uid 0) 0 } := by
    rw [SessionTables.onConnected, hget]
  refine ⟨_, if_pos h.stage, ?_⟩
  rw [hregister]
  refine ⟨h.pool, stage_setStage_self .., h.uid, h.nextUID, h.sessions, ?_, h.hand, h.mutex⟩
  simp only [setStage, h.uid, h.manager]

/-- The thread finds it. -/
theorem OneObject.getSession (h : OneObject s [] .connected u x {0} (AList.insert u 0 ∅) .idle none) :
    ∃ t, tablesStep 1 s (.getSession 0 u) = some t ∧
      OneObject t [] .connected u x {0} (AList.insert u 0 ∅) (.got 0) none := by
  have hlookup : s.getSession u = some 0 := by
    rw [SessionTables.getSession, h.manager, AList.lookup_insert]
  refine ⟨s.setHand 0 (.got 0), ?_, h.pool, h.stage, h.uid, h.nextUID, h.sessions, h.manager, hand_setHand_self .., h.mutex⟩
  rw [tablesStep, if_pos ⟨Nat.zero_lt_one, h.hand⟩, hlookup]

/-- The thread takes it out of the map. -/
theorem OneObject.removeSession (h : OneObject s [] .connected u x {0} (AList.insert u 0 ∅) (.got 0) none) :
    ∃ t, tablesStep 1 s (.removeSession 0) = some t ∧
      OneObject t [] .connected u x {0} ∅ (.removed 0) (some 0) := by
  refine ⟨(s.removeSession 0 0).setHand 0 (.removed 0), ?_, h.pool, h.stage, h.uid, h.nextUID, h.sessions, ?_,
    hand_setHand_self .., mutex_removeSession_self s 0 0⟩
  · simp only [tablesStep, h.hand]
    exact if_pos h.mutex
  · simp only [setHand, SessionTables.removeSession, h.manager, h.uid, AList.insert_empty]
    exact AList.ext (List.kerase_cons_eq rfl)

/-- The thread takes it out of the sessions of the service. -/
theorem OneObject.releaseSession (h : OneObject s [] .connected u x {0} ∅ (.removed 0) (some 0)) :
    ∃ t, tablesStep 1 s (.releaseSession 0) = some t ∧ OneObject t [] .connected u x ∅ ∅ .idle none := by
  refine ⟨(s.releaseSession 0).setHand 0 .idle, ?_, h.pool, h.stage, h.uid, h.nextUID, ?_, h.manager,
    hand_setHand_self .., mutex_releaseSession_self s 0⟩
  · simp only [tablesStep, h.hand]
  · exact (congrArg (fun z => Finset.erase z 0) h.sessions).trans (by decide)

/-- Nobody has it any more, and it goes back to the pool. -/
theorem OneObject.recycle (h : OneObject s [] .connected u x ∅ ∅ .idle none) :
    ∃ t, tablesStep 1 s (.recycle 0) = some t ∧ OneObject t [0] .pooled u x ∅ ∅ .idle none := by
  have hfree : s.Unreferenced 1 0 := by
    refine ⟨?_, ?_, ?_⟩
    · rw [h.sessions]
      exact Finset.notMem_empty 0
    · rw [h.manager]
      exact fun e he => absurd he List.not_mem_nil
    · intro w hw
      obtain rfl : w = 0 := by omega
      rw [h.hand]
      exact Hand.not_holds_idle 0
  refine ⟨_, if_pos ⟨h.stage, hfree⟩, ?_, stage_setStage_self .., h.uid, h.nextUID, h.sessions, h.manager, h.hand, h.mutex⟩
  exact congrArg (List.cons 0) h.pool

/-- The object is taken from the pool and gets the next UID. -/
theorem OneObject.creates (h : OneObject s [0] .pooled u x ∅ ∅ .idle none) (poolSize : Nat) :
    ∃ t, (tablesSystem 1 poolSize).run s [.maker, .addSession 0, .setSessionUID 0] = some t ∧
      OneObject t [] .numbered x (toInt32 (x + 1)) {0} ∅ .idle none := by
  obtain ⟨s1, h1, hs1⟩ := h.maker
  obtain ⟨s2, h2, hs2⟩ := hs1.addSession
  obtain ⟨s3, h3, hs3⟩ := hs2.setSessionUID
  exact ⟨s3, (Lts.run_step h1 _).trans ((Lts.run_step h2 _).trans ((Lts.run_step h3 _).trans rfl)), hs3⟩

/-- The session is registered, found, closed, and its object goes back to the pool. -/
theorem OneObject.closes (h : OneObject s [] .numbered u x {0} ∅ .idle none) (poolSize : Nat) :
    ∃ t, (tablesSystem 1 poolSize).run s
        [.onConnected 0, .getSession 0 u, .removeSession 0, .releaseSession 0, .recycle 0] = some t ∧
      OneObject t [0] .pooled u x ∅ ∅ .idle none := by
  obtain ⟨s1, h1, hs1⟩ := h.onConnected
  obtain ⟨s2, h2, hs2⟩ := hs1.getSession
  obtain ⟨s3, h3, hs3⟩ := hs2.removeSession
  obtain ⟨s4, h4, hs4⟩ := hs3.releaseSession
  obtain ⟨s5, h5, hs5⟩ := hs4.recycle
  exact ⟨s5, (Lts.run_step h1 _).trans ((Lts.run_step h2 _).trans ((Lts.run_step h3 _).trans
    ((Lts.run_step h4 _).trans ((Lts.run_step h5 _).trans rfl)))), hs5⟩

/-- A `k`-th session can be created with the object that served all sessions before it, each closed before the next. -/
theorem exists_run_oneObject (k : Nat) : ∃ ls t u, (tablesSystem 1 1).run (SessionTables.init 1) ls = some t ∧
    OneObject t [0] .pooled u (toInt32 k) ∅ ∅ .idle none := by
  induction k with
  | zero => exact ⟨[], SessionTables.init 1, 0, rfl, rfl, rfl, rfl, rfl, rfl, rfl, rfl, rfl⟩
  | succ k ih =>
    obtain ⟨ls, s, u, hr, hs⟩ := ih
    obtain ⟨s', hr', hs'⟩ := hs.creates 1
    obtain ⟨t, ht, ht'⟩ := hs'.closes 1
    rw [toInt32_toInt32_add] at ht'
    exact ⟨ls ++ (_ ++ _), t, _, (Lts.run_append_of hr _).trans ((Lts.run_append_of hr' _).trans ht), ht'⟩

end

/-- After `2 ^ 31` sessions that were closed one by one, the next session has the UID `-2 ^ 31`, and with three workers `Dispatch`
takes the queue before the first. -/
theorem not_every_run_uidsGood :
    ¬∀ (numThreads poolSize numWorkers : Nat) (ls : List TablesStep) (s : SessionTables), 1 ≤ numWorkers →
      (tablesSystem numThreads poolSize).run (SessionTables.init poolSize) ls = some s → UIDsGood numWorkers s := by
  intro hall
  obtain ⟨ls, s, u, hr, hs⟩ := exists_run_oneObject 2147483648
  obtain ⟨t, ht, ht'⟩ := hs.creates 1
  have hgood := hall 1 1 3 _ t (by decide) ((Lts.run_append_of hr _).trans ht)
  have hindex := (hgood.dispatches 0 (Or.inl ht'.stage)).1
  rw [ht'.uid] at hindex
  exact absurd hindex (by decide)

end ProjectYJ

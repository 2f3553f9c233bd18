import ProjectYJ.SessionTables
import Mathlib.Data.List.Nodup

/-!
# Steps of the session tables, and how the tables agree

The invariant `TablesInv`: the UIDs given out are those below the counter, each to one object that is not back in the pool;
an entry of the `SessionManager` is a connected session in `m_Sessions` under its own UID; and a connected session whose
entry is gone was closed, so that its UID never comes back.
-/

namespace ProjectYJ

open SessionTables

/-- The object has the UID of its present connection. -/
def Stage.HasUID (stage : Stage) : Prop := stage = .numbered ∨ stage = .connected

/-- The object is being accepted and is in `m_Sessions` already. -/
def Stage.Accepting (stage : Stage) : Prop := stage = .listed ∨ stage = .numbered

/-- The objects on the stack of the pool are distinct, made, and in no other use. -/
structure PoolInv (s : SessionTables) : Prop where
  nodup : s.pool.Nodup
  pooled : ∀ a ∈ s.pool, s.stage a = .pooled ∧ a < s.made
  unmade : ∀ a, s.made ≤ a → s.stage a = .pooled

/-- The UIDs given out are those below the counter, each to one object. -/
structure UIDInv (s : SessionTables) : Prop where
  next : s.nextUID = s.created
  lt : ∀ a, (s.stage a).HasUID → 0 ≤ s.uid a ∧ s.uid a < s.created
  inj : ∀ a b, (s.stage a).HasUID → (s.stage b).HasUID → s.uid a = s.uid b → a = b

/-- What a thread holds is a connected session, and it has the mutex of a session it has taken out of the `SessionManager`. -/
structure HandInv (numThreads : Nat) (s : SessionTables) : Prop where
  holds : ∀ w a, (s.hand w).Holds a → w < numThreads ∧ s.stage a = .connected
  mutex : ∀ w a, s.mutex a = some w ↔ s.hand w = .removed a
  removed : ∀ w a, s.hand w = .removed a → s.uid a ∈ s.closed

/-- How the two tables agree. -/
structure TableInv (s : SessionTables) : Prop where
  sessions : ∀ a ∈ s.sessions, (s.stage a).Accepting ∨ s.stage a = .connected
  accepting : ∀ a, (s.stage a).Accepting → a ∈ s.sessions
  manager : ∀ u a, s.getSession u = some a → s.stage a = .connected ∧ s.uid a = u ∧ a ∈ s.sessions
  connected : ∀ a, s.stage a = .connected → s.getSession (s.uid a) = some a ∨ s.uid a ∈ s.closed
  listed : ∀ a ∈ s.sessions, s.stage a = .connected → s.mutex a = none → s.getSession (s.uid a) = some a
  closed : ∀ u ∈ s.closed, s.getSession u = none ∧ u < s.created ∧ ∀ a, s.stage a = .numbered → s.uid a ≠ u

/-- What holds of the session tables while fewer than `2 ^ 31` sessions were created. -/
structure TablesInv (numThreads : Nat) (s : SessionTables) : Prop where
  pool : PoolInv s
  uids : UIDInv s
  hands : HandInv numThreads s
  tables : TableInv s

@[simp] theorem Hand.not_holds_idle (a : Nat) : ¬Hand.idle.Holds a := by simp [Hand.Holds]

@[simp] theorem Hand.holds_got {a b : Nat} : (Hand.got a).Holds b ↔ a = b := by simp [Hand.Holds]

@[simp] theorem Hand.holds_removed {a b : Nat} : (Hand.removed a).Holds b ↔ a = b := by simp [Hand.Holds]

section

variable {n : Nat} {s t : SessionTables}

/-! ## What the functions leave -/

/-- `Pop` changes the stack, or makes one more object. -/
theorem pop_eq (s : SessionTables) : s.pop.2 = { s with pool := s.pop.2.pool, made := s.pop.2.made } := by
  unfold SessionTables.pop
  split <;> rfl

@[simp] theorem pop_stage (s : SessionTables) : s.pop.2.stage = s.stage := by rw [pop_eq]

@[simp] theorem pop_uid (s : SessionTables) : s.pop.2.uid = s.uid := by rw [pop_eq]

@[simp] theorem pop_mutex (s : SessionTables) : s.pop.2.mutex = s.mutex := by rw [pop_eq]

@[simp] theorem pop_sessions (s : SessionTables) : s.pop.2.sessions = s.sessions := by rw [pop_eq]

@[simp] theorem pop_nextUID (s : SessionTables) : s.pop.2.nextUID = s.nextUID := by rw [pop_eq]

@[simp] theorem pop_manager (s : SessionTables) : s.pop.2.manager = s.manager := by rw [pop_eq]

@[simp] theorem pop_hand (s : SessionTables) : s.pop.2.hand = s.hand := by rw [pop_eq]

@[simp] theorem pop_created (s : SessionTables) : s.pop.2.created = s.created := by rw [pop_eq]

@[simp] theorem pop_closed (s : SessionTables) : s.pop.2.closed = s.closed := by rw [pop_eq]

/-- `OnConnected` changes the map of the `SessionManager`. -/
theorem onConnected_eq (s : SessionTables) (a : Nat) :
    s.onConnected a = { s with manager := (s.onConnected a).manager } := by
  unfold SessionTables.onConnected
  split <;> rfl

@[simp] theorem onConnected_pool (s : SessionTables) (a : Nat) : (s.onConnected a).pool = s.pool := by
  rw [onConnected_eq]

@[simp] theorem onConnected_made (s : SessionTables) (a : Nat) : (s.onConnected a).made = s.made := by
  rw [onConnected_eq]

@[simp] theorem onConnected_stage (s : SessionTables) (a : Nat) : (s.onConnected a).stage = s.stage := by
  rw [onConnected_eq]

@[simp] theorem onConnected_uid (s : SessionTables) (a : Nat) : (s.onConnected a).uid = s.uid := by
  rw [onConnected_eq]

@[simp] theorem onConnected_mutex (s : SessionTables) (a : Nat) : (s.onConnected a).mutex = s.mutex := by
  rw [onConnected_eq]

@[simp] theorem onConnected_sessions (s : SessionTables) (a : Nat) : (s.onConnected a).sessions = s.sessions := by
  rw [onConnected_eq]

@[simp] theorem onConnected_nextUID (s : SessionTables) (a : Nat) : (s.onConnected a).nextUID = s.nextUID := by
  rw [onConnected_eq]

@[simp] theorem onConnected_hand (s : SessionTables) (a : Nat) : (s.onConnected a).hand = s.hand := by
  rw [onConnected_eq]

@[simp] theorem onConnected_created (s : SessionTables) (a : Nat) : (s.onConnected a).created = s.created := by
  rw [onConnected_eq]

@[simp] theorem onConnected_closed (s : SessionTables) (a : Nat) : (s.onConnected a).closed = s.closed := by
  rw [onConnected_eq]

/-! ## One label at a time -/

theorem tablesStep_addSession {a : Nat} (h : tablesStep n s (.addSession a) = some t) :
    s.stage a = .popped ∧ t = (s.addSession a).setStage a .listed := by
  simp only [tablesStep, Option.ite_none_right_eq_some, Option.some.injEq] at h
  exact ⟨h.1, h.2.symm⟩

theorem tablesStep_setSessionUID {a : Nat} (h : tablesStep n s (.setSessionUID a) = some t) :
    s.stage a = .listed ∧ t = (s.setSessionUID a).setStage a .numbered := by
  simp only [tablesStep, Option.ite_none_right_eq_some, Option.some.injEq] at h
  exact ⟨h.1, h.2.symm⟩

theorem tablesStep_onConnected {a : Nat} (h : tablesStep n s (.onConnected a) = some t) :
    s.stage a = .numbered ∧ t = (s.onConnected a).setStage a .connected := by
  simp only [tablesStep, Option.ite_none_right_eq_some, Option.some.injEq] at h
  exact ⟨h.1, h.2.symm⟩

theorem tablesStep_getSession {w : Nat} {u : Int} (h : tablesStep n s (.getSession w u) = some t) :
    w < n ∧ s.hand w = .idle ∧
      ((s.getSession u = none ∧ t = s) ∨ ∃ a, s.getSession u = some a ∧ t = s.setHand w (.got a)) := by
  simp only [tablesStep, Option.ite_none_right_eq_some] at h
  obtain ⟨⟨hw, hi⟩, h⟩ := h
  refine ⟨hw, hi, ?_⟩
  cases hg : s.getSession u with
  | none =>
    rw [hg] at h
    exact Or.inl ⟨rfl, (Option.some.inj h).symm⟩
  | some a =>
    rw [hg] at h
    exact Or.inr ⟨a, rfl, (Option.some.inj h).symm⟩

theorem tablesStep_removeSession {w : Nat} (h : tablesStep n s (.removeSession w) = some t) :
    ∃ a, s.hand w = .got a ∧ s.mutex a = none ∧ t = (s.removeSession w a).setHand w (.removed a) := by
  simp only [tablesStep] at h
  split at h
  · rename_i a ha
    rw [Option.ite_none_right_eq_some, Option.some.injEq] at h
    exact ⟨a, ha, h.1, h.2.symm⟩
  · cases h

theorem tablesStep_releaseSession {w : Nat} (h : tablesStep n s (.releaseSession w) = some t) :
    ∃ a, s.hand w = .removed a ∧ t = (s.releaseSession a).setHand w .idle := by
  simp only [tablesStep] at h
  split at h
  · rename_i a ha
    exact ⟨a, ha, (Option.some.inj h).symm⟩
  · cases h

theorem tablesStep_letGo {w : Nat} (h : tablesStep n s (.letGo w) = some t) :
    ∃ a, s.hand w = .got a ∧ t = s.setHand w .idle := by
  simp only [tablesStep] at h
  split at h
  · rename_i a ha
    exact ⟨a, ha, (Option.some.inj h).symm⟩
  · cases h

theorem tablesStep_recycle {a : Nat} (h : tablesStep n s (.recycle a) = some t) :
    s.stage a = .connected ∧ s.Unreferenced n a ∧ t = { s with pool := a :: s.pool }.setStage a .pooled := by
  simp only [tablesStep, Option.ite_none_right_eq_some, Option.some.injEq] at h
  exact ⟨h.1.1, h.1.2, h.2.symm⟩

/-- Only `AddSession` and `ReleaseSession` change `m_Sessions` and `m_SessionCount`. -/
theorem tablesStep_sessions {l : TablesStep} (h : tablesStep n s l = some t) (hadd : ∀ a, l ≠ .addSession a)
    (hrelease : ∀ w, l ≠ .releaseSession w) : t.sessions = s.sessions ∧ t.sessionCount = s.sessionCount := by
  cases l with
  | maker =>
    obtain rfl := Option.some.inj h
    rw [pop_eq]
    exact ⟨rfl, rfl⟩
  | addSession a => exact absurd rfl (hadd a)
  | setSessionUID a =>
    obtain ⟨_, rfl⟩ := tablesStep_setSessionUID h
    exact ⟨rfl, rfl⟩
  | onConnected a =>
    obtain ⟨_, rfl⟩ := tablesStep_onConnected h
    rw [onConnected_eq]
    exact ⟨rfl, rfl⟩
  | getSession w u =>
    obtain ⟨_, _, ⟨_, rfl⟩ | ⟨_, _, rfl⟩⟩ := tablesStep_getSession h
    · exact ⟨rfl, rfl⟩
    · exact ⟨rfl, rfl⟩
  | removeSession w =>
    obtain ⟨_, _, _, rfl⟩ := tablesStep_removeSession h
    exact ⟨rfl, rfl⟩
  | releaseSession w => exact absurd rfl (hrelease w)
  | letGo w =>
    obtain ⟨_, _, rfl⟩ := tablesStep_letGo h
    exact ⟨rfl, rfl⟩
  | recycle a =>
    obtain ⟨_, _, rfl⟩ := tablesStep_recycle h
    exact ⟨rfl, rfl⟩

/-- Only the first half of `CloseSession` brings a thread into the second. -/
theorem tablesStep_removed {l : TablesStep} (h : tablesStep n s l = some t) {w a : Nat} (ha : t.hand w = .removed a) :
    s.hand w = .removed a ∨ l = .removeSession w := by
  -- another hand is as before, and the thread's own is not left in the middle of `CloseSession`
  have hset : ∀ {r : SessionTables} {v : Nat} {hand : Hand}, r.hand = s.hand → (∀ b, hand ≠ .removed b) →
      (r.setHand v hand).hand w = .removed a → s.hand w = .removed a := by
    intro r v hand hr hne hw
    simp only [SessionTables.setHand, Function.update_apply, hr] at hw
    split at hw
    · exact absurd hw (hne a)
    · exact hw
  cases l with
  | maker =>
    obtain rfl := Option.some.inj h
    exact Or.inl (pop_hand s ▸ ha)
  | addSession b =>
    obtain ⟨_, rfl⟩ := tablesStep_addSession h
    exact Or.inl ha
  | setSessionUID b =>
    obtain ⟨_, rfl⟩ := tablesStep_setSessionUID h
    exact Or.inl ha
  | onConnected b =>
    obtain ⟨_, rfl⟩ := tablesStep_onConnected h
    exact Or.inl (onConnected_hand s b ▸ ha)
  | getSession v u =>
    obtain ⟨_, _, ⟨_, rfl⟩ | ⟨_, _, rfl⟩⟩ := tablesStep_getSession h
    · exact Or.inl ha
    · exact Or.inl (hset rfl (by simp) ha)
  | removeSession v =>
    obtain ⟨b, _, _, rfl⟩ := tablesStep_removeSession h
    by_cases hwv : w = v
    · exact Or.inr (by rw [hwv])
    · exact Or.inl ((Function.update_of_ne hwv ..).symm.trans ha)
  | releaseSession v =>
    obtain ⟨_, _, rfl⟩ := tablesStep_releaseSession h
    exact Or.inl (hset rfl (by simp) ha)
  | letGo v =>
    obtain ⟨_, _, rfl⟩ := tablesStep_letGo h
    exact Or.inl (hset rfl (by simp) ha)
  | recycle b =>
    obtain ⟨_, _, rfl⟩ := tablesStep_recycle h
    exact Or.inl ha

/-- No step takes back a UID or forgets a closed one. -/
theorem tablesStep_grows {l : TablesStep} (h : tablesStep n s l = some t) : s.created ≤ t.created ∧ s.closed ⊆ t.closed := by
  cases l with
  | maker =>
    obtain rfl := Option.some.inj h
    exact ⟨Nat.le_of_eq (pop_created s).symm, (pop_closed s).symm.subset⟩
  | addSession a =>
    obtain ⟨_, rfl⟩ := tablesStep_addSession h
    exact ⟨Nat.le_refl _, Finset.Subset.refl _⟩
  | setSessionUID a =>
    obtain ⟨_, rfl⟩ := tablesStep_setSessionUID h
    exact ⟨Nat.le_succ _, Finset.Subset.refl _⟩
  | onConnected a =>
    obtain ⟨_, rfl⟩ := tablesStep_onConnected h
    exact ⟨Nat.le_of_eq (onConnected_created s a).symm, (onConnected_closed s a).symm.subset⟩
  | getSession w u =>
    obtain ⟨_, _, ⟨_, rfl⟩ | ⟨_, _, rfl⟩⟩ := tablesStep_getSession h <;> exact ⟨Nat.le_refl _, Finset.Subset.refl _⟩
  | removeSession w =>
    obtain ⟨_, _, _, rfl⟩ := tablesStep_removeSession h
    exact ⟨Nat.le_refl _, Finset.subset_insert _ _⟩
  | releaseSession w =>
    obtain ⟨_, _, rfl⟩ := tablesStep_releaseSession h
    exact ⟨Nat.le_refl _, Finset.Subset.refl _⟩
  | letGo w =>
    obtain ⟨_, _, rfl⟩ := tablesStep_letGo h
    exact ⟨Nat.le_refl _, Finset.Subset.refl _⟩
  | recycle a =>
    obtain ⟨_, _, rfl⟩ := tablesStep_recycle h
    exact ⟨Nat.le_refl _, Finset.Subset.refl _⟩

/-- A UID the `SessionManager` has or had. -/
def SessionTables.Known (s : SessionTables) (u : Int) : Prop := (s.getSession u).isSome ∨ u ∈ s.closed

/-- A UID that was registered stays so or is closed. -/
theorem tablesStep_known {l : TablesStep} (h : tablesStep n s l = some t) {u : Int} (hu : s.Known u) : t.Known u := by
  have hclosed := (tablesStep_grows h).2
  rcases hu with hu | hu
  · cases l with
    | maker =>
      obtain rfl := Option.some.inj h
      refine Or.inl ?_
      simpa [SessionTables.getSession, SessionTables.setStage] using hu
    | addSession a =>
      obtain ⟨_, rfl⟩ := tablesStep_addSession h
      exact Or.inl hu
    | setSessionUID a =>
      obtain ⟨_, rfl⟩ := tablesStep_setSessionUID h
      exact Or.inl hu
    | onConnected a =>
      obtain ⟨_, rfl⟩ := tablesStep_onConnected h
      refine Or.inl ?_
      unfold SessionTables.onConnected
      split
      · exact hu
      · show (AList.lookup u (s.manager.insert (s.uid a) a)).isSome
        rw [AList.lookup_isSome, AList.mem_insert]
        exact Or.inr (AList.lookup_isSome.1 hu)
    | getSession w v =>
      obtain ⟨_, _, ⟨_, rfl⟩ | ⟨_, _, rfl⟩⟩ := tablesStep_getSession h
      · exact Or.inl hu
      · exact Or.inl hu
    | removeSession w =>
      obtain ⟨a, _, _, rfl⟩ := tablesStep_removeSession h
      by_cases hua : u = s.uid a
      · exact Or.inr (hua ▸ Finset.mem_insert_self u s.closed)
      · refine Or.inl ?_
        show (AList.lookup u (s.manager.erase (s.uid a))).isSome
        rw [AList.lookup_erase_ne hua]
        exact hu
    | releaseSession w =>
      obtain ⟨_, _, rfl⟩ := tablesStep_releaseSession h
      exact Or.inl hu
    | letGo w =>
      obtain ⟨_, _, rfl⟩ := tablesStep_letGo h
      exact Or.inl hu
    | recycle a =>
      obtain ⟨_, _, rfl⟩ := tablesStep_recycle h
      exact Or.inl hu
  · exact Or.inr (hclosed hu)

/-! ## The stages -/

theorem stage_setStage (s : SessionTables) (a : Nat) (stage : Stage) (b : Nat) :
    (s.setStage a stage).stage b = if b = a then stage else s.stage b := Function.update_apply ..

@[simp] theorem addSession_stage (s : SessionTables) (a : Nat) : (s.addSession a).stage = s.stage := rfl

@[simp] theorem setSessionUID_stage (s : SessionTables) (a : Nat) : (s.setSessionUID a).stage = s.stage := rfl

@[simp] theorem setHand_mutex (s : SessionTables) (w : Nat) (h : Hand) : (s.setHand w h).mutex = s.mutex := rfl

/-- A property of stages that the old and the new stage of an object share or miss together is kept by all objects. -/
theorem stage_setStage_iff (P : Stage → Prop) {a : Nat} {stage : Stage} (h : P stage ↔ P (s.stage a)) (b : Nat) :
    P ((s.setStage a stage).stage b) ↔ P (s.stage b) := by
  rw [stage_setStage]
  split
  · rename_i hb
    rw [hb]
    exact h
  · exact Iff.rfl

/-- An object with a property that the new stage has not got is not the one that went on. -/
theorem of_stage_setStage (P : Stage → Prop) {a b : Nat} {stage : Stage} (h : P ((s.setStage a stage).stage b))
    (hno : ¬P stage) : b ≠ a ∧ P (s.stage b) := by
  rw [stage_setStage] at h
  split at h
  · exact absurd h hno
  · rename_i hba
    exact ⟨hba, h⟩

/-- An object keeps a property that the one which went on had not got. -/
theorem stage_setStage_of (P : Stage → Prop) {a b : Nat} (stage : Stage) (hno : ¬P (s.stage a)) (h : P (s.stage b)) :
    b ≠ a ∧ P ((s.setStage a stage).stage b) := by
  have hba : b ≠ a := by
    rintro rfl
    exact hno h
  rw [stage_setStage, if_neg hba]
  exact ⟨hba, h⟩

/-! ## The pool -/

namespace PoolInv

/-- A step that leaves the pool and what is in it. -/
theorem frame (hs : PoolInv s) (hp : t.pool = s.pool) (hm : t.made = s.made)
    (hst : ∀ b, t.stage b = .pooled ↔ s.stage b = .pooled) : PoolInv t where
  nodup := by rw [hp]; exact hs.nodup
  pooled a ha := by
    rw [hp] at ha
    rw [hm]
    exact ⟨(hst a).2 (hs.pooled a ha).1, (hs.pooled a ha).2⟩
  unmade a ha := (hst a).2 (hs.unmade a (hm ▸ ha))

/-- `Pop` takes the object on top, or makes one. -/
theorem maker (hs : PoolInv s) : PoolInv (s.pop.2.setStage s.pop.1 .popped) ∧ s.stage s.pop.1 = .pooled := by
  unfold SessionTables.pop
  split
  · rename_i a rest hpool
    have hnodup := hs.nodup
    rw [hpool, List.nodup_cons] at hnodup
    obtain ⟨ha, hlt⟩ := hs.pooled a (by rw [hpool]; exact List.mem_cons_self)
    refine ⟨⟨hnodup.2, ?_, ?_⟩, ha⟩
    · intro b hb
      obtain ⟨hb1, hb2⟩ := hs.pooled b (by rw [hpool]; exact List.mem_cons_of_mem a hb)
      have hba : b ≠ a := by
        rintro rfl
        exact hnodup.1 hb
      rw [stage_setStage, if_neg hba]
      exact ⟨hb1, hb2⟩
    · intro b hb
      have hba : b ≠ a := by
        rintro rfl
        exact absurd hlt (Nat.not_lt.2 hb)
      rw [stage_setStage, if_neg hba]
      exact hs.unmade b hb
  · rename_i hpool
    refine ⟨⟨hs.nodup, ?_, ?_⟩, hs.unmade _ (Nat.le_refl _)⟩
    · intro b hb
      have hb' : b ∈ s.pool := hb
      rw [hpool] at hb'
      cases hb'
    · intro b hb
      have hlt : s.made < b := hb
      rw [stage_setStage, if_neg (Nat.ne_of_gt hlt)]
      exact hs.unmade b (Nat.le_of_lt hlt)

/-- The deleter pushes an object that was in use. -/
theorem recycle (hs : PoolInv s) {a : Nat} (ha : s.stage a = .connected) :
    PoolInv ({ s with pool := a :: s.pool }.setStage a .pooled) where
  nodup := by
    refine List.nodup_cons.2 ⟨?_, hs.nodup⟩
    intro hmem
    rw [(hs.pooled a hmem).1] at ha
    cases ha
  pooled b hb := by
    rw [stage_setStage]
    rcases List.mem_cons.1 hb with rfl | hb
    · rw [if_pos rfl]
      refine ⟨rfl, Nat.lt_of_not_le fun hle => ?_⟩
      rw [hs.unmade b hle] at ha
      cases ha
    · split
      · exact ⟨rfl, (hs.pooled b hb).2⟩
      · exact hs.pooled b hb
  unmade b hb := by
    rw [stage_setStage]
    split
    · rfl
    · exact hs.unmade b hb

end PoolInv

/-- The sessions in `m_Sessions` are past `AddSession` and not back in the pool. -/
def SessionTables.Listed (s : SessionTables) : Prop := ∀ a ∈ s.sessions, s.stage a ≠ .pooled ∧ s.stage a ≠ .popped

theorem SessionTables.Listed.step (hs : s.Listed) (hp : PoolInv s) {l : TablesStep} (h : tablesStep n s l = some t) :
    t.Listed := by
  -- an object that is not in `m_Sessions`, or goes on from `AddSession`, may change its stage
  have hset : ∀ {r : SessionTables} {a stage}, r.sessions = s.sessions → r.stage = s.stage →
      (a ∉ s.sessions ∨ (stage ≠ .pooled ∧ stage ≠ .popped)) → (r.setStage a stage).Listed := by
    intro r a stage hsess hstage ha b hb
    have hb' : b ∈ s.sessions := hsess ▸ hb
    rw [stage_setStage]
    split
    · rename_i hba
      exact ha.resolve_left fun hno => hno (hba ▸ hb')
    · rw [hstage]
      exact hs b hb'
  cases l with
  | maker =>
    obtain rfl := Option.some.inj h
    refine hset (pop_sessions s) (pop_stage s) (Or.inl fun hmem => ?_)
    exact (hs _ hmem).1 hp.maker.2
  | addSession a =>
    obtain ⟨_, rfl⟩ := tablesStep_addSession h
    intro b hb
    rw [stage_setStage]
    split
    · exact ⟨nofun, nofun⟩
    · rename_i hba
      exact hs b (Finset.mem_of_mem_insert_of_ne hb hba)
  | setSessionUID a =>
    obtain ⟨_, rfl⟩ := tablesStep_setSessionUID h
    exact hset rfl rfl (Or.inr ⟨nofun, nofun⟩)
  | onConnected a =>
    obtain ⟨_, rfl⟩ := tablesStep_onConnected h
    exact hset (onConnected_sessions s a) (onConnected_stage s a) (Or.inr ⟨nofun, nofun⟩)
  | getSession w u =>
    obtain ⟨_, _, ⟨_, rfl⟩ | ⟨_, _, rfl⟩⟩ := tablesStep_getSession h
    · exact hs
    · exact hs
  | removeSession w =>
    obtain ⟨_, _, _, rfl⟩ := tablesStep_removeSession h
    exact hs
  | releaseSession w =>
    obtain ⟨_, _, rfl⟩ := tablesStep_releaseSession h
    exact fun b hb => hs b (Finset.mem_of_mem_erase hb)
  | letGo w =>
    obtain ⟨_, _, rfl⟩ := tablesStep_letGo h
    exact hs
  | recycle a =>
    obtain ⟨_, ⟨hno, _⟩, rfl⟩ := tablesStep_recycle h
    exact hset rfl rfl (Or.inl hno)

/-! ## The UIDs -/

namespace UIDInv

/-- A step that gives no object a UID. -/
theorem frame (hs : UIDInv s) (hu : t.uid = s.uid) (hn : t.nextUID = s.nextUID) (hc : t.created = s.created)
    (hst : ∀ b, (t.stage b).HasUID → (s.stage b).HasUID) : UIDInv t where
  next := by rw [hn, hc]; exact hs.next
  lt a ha := by
    rw [hu, hc]
    exact hs.lt a (hst a ha)
  inj a b ha hb h := by
    rw [hu] at h
    exact hs.inj a b (hst a ha) (hst b hb) h

/-- The next UID is above all there are, as long as the counter does not wrap around. -/
theorem setSessionUID (hs : UIDInv s) (hc : s.created + 1 < 2147483648) (a : Nat) :
    UIDInv ((s.setSessionUID a).setStage a .numbered) := by
  have huid : ∀ b, b ≠ a → ((s.setSessionUID a).setStage a .numbered).uid b = s.uid b :=
    fun b hb => Function.update_of_ne hb ..
  have hself : ((s.setSessionUID a).setStage a .numbered).uid a = s.created :=
    (Function.update_self ..).trans hs.next
  have hold : ∀ b, b ≠ a → (((s.setSessionUID a).setStage a .numbered).stage b).HasUID → (s.stage b).HasUID := by
    intro b hb h
    rw [stage_setStage, if_neg hb] at h
    exact h
  refine ⟨?_, ?_, ?_⟩
  · show toInt32 (s.nextUID + 1) = ((s.created + 1 : Nat) : Int)
    rw [hs.next]
    exact toInt32_of_lt hc
  · intro b hb
    show 0 ≤ _ ∧ _ < ((s.created + 1 : Nat) : Int)
    by_cases hba : b = a
    · rw [hba, hself]
      omega
    · have h := hs.lt b (hold b hba hb)
      rw [huid b hba]
      omega
  · intro b c hb hc' h
    by_cases hba : b = a
    · by_cases hca : c = a
      · rw [hba, hca]
      · rw [hba, hself, huid c hca] at h
        have hlt := hs.lt c (hold c hca hc')
        omega
    · by_cases hca : c = a
      · rw [hca, hself, huid b hba] at h
        have hlt := hs.lt b (hold b hba hb)
        omega
      · rw [huid b hba, huid c hca] at h
        exact hs.inj b c (hold b hba hb) (hold c hca hc') h

end UIDInv

/-! ## The threads -/

namespace HandInv

/-- A step of no thread that leaves the connected sessions. -/
theorem frame (hs : HandInv n s) (hh : t.hand = s.hand) (hm : t.mutex = s.mutex) (hc : t.closed = s.closed)
    (hst : ∀ w b, (s.hand w).Holds b → t.stage b = s.stage b ∧ t.uid b = s.uid b) : HandInv n t where
  holds w a ha := by
    rw [hh] at ha
    rw [(hst w a ha).1]
    exact hs.holds w a ha
  mutex w a := by
    rw [hh, hm]
    exact hs.mutex w a
  removed w a ha := by
    rw [hh] at ha
    rw [hc, (hst w a (Or.inr ha)).2]
    exact hs.removed w a ha

/-- A thread without a session gets one, or drops the one it has. -/
theorem setHand (hs : HandInv n s) {w : Nat} {h : Hand} (hold : ∀ a, s.hand w ≠ .removed a) (hnew : ∀ a, h ≠ .removed a)
    (hh : ∀ a, h.Holds a → w < n ∧ s.stage a = .connected) : HandInv n (s.setHand w h) := by
  have hhand : ∀ v, (s.setHand w h).hand v = if v = w then h else s.hand v := fun v => Function.update_apply ..
  refine ⟨?_, ?_, ?_⟩
  · intro v a ha
    rw [hhand] at ha
    split at ha
    · rename_i hv
      rw [hv]
      exact hh a ha
    · exact hs.holds v a ha
  · intro v a
    rw [setHand_mutex, hs.mutex, hhand]
    split
    · rename_i hv
      rw [hv]
      exact ⟨fun h' => absurd h' (hold a), fun h' => absurd h' (hnew a)⟩
    · exact Iff.rfl
  · intro v a ha
    rw [hhand] at ha
    split at ha
    · exact absurd ha (hnew a)
    · exact hs.removed v a ha

/-- A thread takes the mutex of the session it holds, and the session out of the `SessionManager`. -/
theorem removeSession (hs : HandInv n s) {w a : Nat} (ha : s.hand w = .got a) (hm : s.mutex a = none) :
    HandInv n ((s.removeSession w a).setHand w (.removed a)) := by
  have hhand : ∀ v, ((s.removeSession w a).setHand w (.removed a)).hand v = if v = w then .removed a else s.hand v :=
    fun v => Function.update_apply ..
  have hmutex : ∀ b, ((s.removeSession w a).setHand w (.removed a)).mutex b = if b = a then some w else s.mutex b :=
    fun b => Function.update_apply ..
  refine ⟨?_, ?_, ?_⟩
  · intro v b hb
    rw [hhand] at hb
    split at hb
    · rename_i hv
      rcases hb with hb | hb
      · cases hb
      · cases hb
        exact hv ▸ hs.holds w a (Or.inl ha)
    · exact hs.holds v b hb
  · intro v b
    rw [hhand, hmutex]
    by_cases hv : v = w
    · rw [if_pos hv]
      by_cases hb : b = a
      · rw [if_pos hb, hb, hv]
        exact ⟨fun _ => rfl, fun _ => rfl⟩
      · rw [if_neg hb, hs.mutex, hv, ha]
        exact ⟨nofun, fun h => absurd (Hand.removed.inj h).symm hb⟩
    · rw [if_neg hv]
      by_cases hb : b = a
      · rw [if_pos hb, hb, ← hs.mutex, hm]
        exact ⟨fun h => absurd (Option.some.inj h).symm hv, nofun⟩
      · rw [if_neg hb, hs.mutex]
  · intro v b hb
    show s.uid b ∈ insert (s.uid a) s.closed
    rw [hhand] at hb
    split at hb
    · cases hb
      exact Finset.mem_insert_self _ _
    · exact Finset.mem_insert_of_mem (hs.removed v b hb)

/-- A thread takes the session out of `m_Sessions` and gives its mutex back. -/
theorem releaseSession (hs : HandInv n s) {w a : Nat} (ha : s.hand w = .removed a) :
    HandInv n ((s.releaseSession a).setHand w .idle) := by
  have hhand : ∀ v, ((s.releaseSession a).setHand w .idle).hand v = if v = w then .idle else s.hand v :=
    fun v => Function.update_apply ..
  have hmutex : ∀ b, ((s.releaseSession a).setHand w .idle).mutex b = if b = a then none else s.mutex b :=
    fun b => Function.update_apply ..
  refine ⟨?_, ?_, ?_⟩
  · intro v b hb
    rw [hhand] at hb
    split at hb
    · rcases hb with hb | hb <;> cases hb
    · exact hs.holds v b hb
  · intro v b
    rw [hhand, hmutex]
    by_cases hb : b = a
    · rw [if_pos hb, hb]
      refine ⟨nofun, ?_⟩
      intro h
      split at h
      · cases h
      · rename_i hv
        have hw := (hs.mutex w a).2 ha
        rw [(hs.mutex v a).2 h] at hw
        exact absurd (Option.some.inj hw) hv
    · rw [if_neg hb, hs.mutex]
      split
      · rename_i hv
        rw [hv, ha]
        exact ⟨fun h => absurd (Hand.removed.inj h).symm hb, nofun⟩
      · exact Iff.rfl
  · intro v b hb
    rw [hhand] at hb
    split at hb
    · cases hb
    · exact hs.removed v b hb

end HandInv

/-! ## The two tables -/

namespace TableInv

/-- A step that leaves the two tables and the sessions in them. -/
theorem frame (hs : TableInv s) (hsess : t.sessions = s.sessions) (hman : t.manager = s.manager) (hm : t.mutex = s.mutex)
    (hc : t.closed = s.closed) (hcr : s.created ≤ t.created) (hacc : ∀ b, (t.stage b).Accepting ↔ (s.stage b).Accepting)
    (hcon : ∀ b, t.stage b = .connected ↔ s.stage b = .connected) (huid : ∀ b, s.stage b = .connected → t.uid b = s.uid b)
    (hnum : ∀ u ∈ s.closed, ∀ b, t.stage b = .numbered → t.uid b ≠ u) : TableInv t := by
  have hget : ∀ u, t.getSession u = s.getSession u := fun u => by rw [SessionTables.getSession, hman, SessionTables.getSession]
  refine ⟨?_, ?_, ?_, ?_, ?_, ?_⟩
  · intro a ha
    rw [hacc, hcon]
    exact hs.sessions a (hsess ▸ ha)
  · intro a ha
    rw [hsess]
    exact hs.accepting a ((hacc a).1 ha)
  · intro u a ha
    rw [hget] at ha
    obtain ⟨h1, h2, h3⟩ := hs.manager u a ha
    exact ⟨(hcon a).2 h1, (huid a h1).trans h2, hsess ▸ h3⟩
  · intro a ha
    have ha' := (hcon a).1 ha
    rw [hget, huid a ha', hc]
    exact hs.connected a ha'
  · intro a ha hca hma
    have hca' := (hcon a).1 hca
    rw [hget, huid a hca']
    exact hs.listed a (hsess ▸ ha) hca' (hm ▸ hma)
  · intro u hu
    rw [hc] at hu
    obtain ⟨h1, h2, _⟩ := hs.closed u hu
    exact ⟨(hget u).trans h1, by omega, hnum u hu⟩

/-- A thread's hand is in no table. -/
theorem setHand (hs : TableInv s) (w : Nat) (h : Hand) : TableInv (s.setHand w h) :=
  hs.frame rfl rfl rfl rfl (Nat.le_refl _) (fun _ => Iff.rfl) (fun _ => Iff.rfl) (fun _ _ => rfl)
    (fun u hu => (hs.closed u hu).2.2)

theorem maker (hs : TableInv s) (hp : s.stage s.pop.1 = .pooled) : TableInv (s.pop.2.setStage s.pop.1 .popped) := by
  refine hs.frame (pop_sessions s) (pop_manager s) (pop_mutex s) (pop_closed s) (Nat.le_of_eq (pop_created s).symm) ?_ ?_
    (fun b _ => congrFun (pop_uid s) b) ?_
  · intro b
    rw [stage_setStage_iff Stage.Accepting (by simp [hp, Stage.Accepting]), pop_stage]
  · intro b
    rw [stage_setStage_iff (· = .connected) (by simp [hp]), pop_stage]
  · intro u hu b hb
    have hold := (of_stage_setStage (· = .numbered) hb (by simp)).2
    rw [pop_stage] at hold
    have huid : (s.pop.2.setStage s.pop.1 .popped).uid b = s.uid b := congrFun (pop_uid s) b
    rw [huid]
    exact (hs.closed u hu).2.2 b hold

theorem addSession (hs : TableInv s) {a : Nat} (ha : s.stage a = .popped) :
    TableInv ((s.addSession a).setStage a .listed) := by
  have hcon : ∀ b, ((s.addSession a).setStage a .listed).stage b = .connected → b ≠ a ∧ s.stage b = .connected :=
    fun b hb => of_stage_setStage (· = .connected) hb (by simp)
  refine ⟨?_, ?_, ?_, ?_, ?_, ?_⟩
  · intro b hb
    rw [stage_setStage]
    split
    · exact Or.inl (Or.inl rfl)
    · rename_i hba
      exact hs.sessions b (Finset.mem_of_mem_insert_of_ne hb hba)
  · intro b hb
    rw [stage_setStage] at hb
    split at hb
    · rename_i hba
      exact hba ▸ Finset.mem_insert_self a s.sessions
    · exact Finset.mem_insert_of_mem (hs.accepting b hb)
  · intro u b hb
    obtain ⟨h1, h2, h3⟩ := hs.manager u b hb
    exact ⟨(stage_setStage_of (s := s.addSession a) (· = .connected) .listed (by simp [ha]) h1).2, h2,
      Finset.mem_insert_of_mem h3⟩
  · intro b hb
    exact hs.connected b (hcon b hb).2
  · intro b hb hcb hmb
    obtain ⟨hba, hold⟩ := hcon b hcb
    exact hs.listed b (Finset.mem_of_mem_insert_of_ne hb hba) hold hmb
  · intro u hu
    obtain ⟨h1, h2, h3⟩ := hs.closed u hu
    exact ⟨h1, h2, fun b hb => h3 b (of_stage_setStage (· = .numbered) hb (by simp)).2⟩

theorem setSessionUID (hs : TableInv s) (hn : s.nextUID = s.created) {a : Nat} (ha : s.stage a = .listed) :
    TableInv ((s.setSessionUID a).setStage a .numbered) := by
  have huid : ∀ b, b ≠ a → ((s.setSessionUID a).setStage a .numbered).uid b = s.uid b :=
    fun b hb => Function.update_of_ne hb ..
  refine hs.frame rfl rfl rfl rfl (Nat.le_succ _) ?_ ?_ ?_ ?_
  · refine fun b => stage_setStage_iff Stage.Accepting ?_ b
    rw [setSessionUID_stage, ha]
    simp [Stage.Accepting]
  · refine fun b => stage_setStage_iff (· = .connected) ?_ b
    simp [ha]
  · intro b hb
    refine huid b ?_
    rintro rfl
    rw [ha] at hb
    cases hb
  · intro u hu b hb
    obtain ⟨_, hlt, hnum⟩ := hs.closed u hu
    by_cases hba : b = a
    · have hself : ((s.setSessionUID a).setStage a .numbered).uid a = s.nextUID := Function.update_self ..
      rw [hba, hself, hn]
      omega
    · rw [stage_setStage, if_neg hba] at hb
      rw [huid b hba]
      exact hnum b hb

/-- The UID of an object being accepted is not in the `SessionManager` yet. -/
theorem getSession_numbered (hs : TableInv s) (hu : UIDInv s) {a : Nat} (ha : s.stage a = .numbered) :
    s.getSession (s.uid a) = none := by
  cases hg : s.getSession (s.uid a) with
  | none => rfl
  | some b =>
    obtain ⟨hb, huid, _⟩ := hs.manager _ b hg
    obtain rfl := hu.inj b a (Or.inr hb) (Or.inl ha) huid
    rw [ha] at hb
    cases hb

theorem onConnected (hs : TableInv s) (hu : UIDInv s) {a : Nat} (ha : s.stage a = .numbered) :
    TableInv ((s.onConnected a).setStage a .connected) := by
  have hnone := hs.getSession_numbered hu ha
  have heq : s.onConnected a = { s with manager := s.manager.insert (s.uid a) a } := by
    rw [SessionTables.onConnected, hnone]
  rw [heq]
  have hself : AList.lookup (s.uid a) (s.manager.insert (s.uid a) a) = some a := AList.lookup_insert _
  have hother : ∀ u, u ≠ s.uid a → AList.lookup u (s.manager.insert (s.uid a) a) = s.getSession u :=
    fun u hne => AList.lookup_insert_ne hne
  have hne : ∀ b, s.stage b = .connected → s.uid b ≠ s.uid a := by
    intro b hb heq
    obtain rfl := hu.inj b a (Or.inr hb) (Or.inl ha) heq
    rw [ha] at hb
    cases hb
  refine ⟨?_, ?_, ?_, ?_, ?_, ?_⟩
  · intro b hb
    rw [stage_setStage]
    split
    · exact Or.inr rfl
    · exact hs.sessions b hb
  · intro b hb
    exact hs.accepting b (of_stage_setStage Stage.Accepting hb (by simp [Stage.Accepting])).2
  · intro u b hb
    by_cases hua : u = s.uid a
    · have hb' : AList.lookup u (s.manager.insert (s.uid a) a) = some b := hb
      rw [hua, hself] at hb'
      obtain rfl := Option.some.inj hb'
      rw [stage_setStage, if_pos rfl]
      exact ⟨rfl, hua.symm, hs.accepting a (Or.inr ha)⟩
    · obtain ⟨h1, h2, h3⟩ := hs.manager u b ((hother u hua).symm.trans hb)
      rw [stage_setStage]
      split
      · exact ⟨rfl, h2, h3⟩
      · exact ⟨h1, h2, h3⟩
  · intro b hb
    rw [stage_setStage] at hb
    split at hb
    · rename_i hba
      rw [hba]
      exact Or.inl hself
    · rcases hs.connected b hb with h | h
      · exact Or.inl ((hother _ (hne b hb)).trans h)
      · exact Or.inr h
  · intro b hb hcb hmb
    rw [stage_setStage] at hcb
    split at hcb
    · rename_i hba
      rw [hba]
      exact hself
    · exact (hother _ (hne b hcb)).trans (hs.listed b hb hcb hmb)
  · intro u hmem
    obtain ⟨h1, h2, h3⟩ := hs.closed u hmem
    exact ⟨(hother u (h3 a ha).symm).trans h1, h2, fun b hb => h3 b (of_stage_setStage (· = .numbered) hb (by simp)).2⟩

/-- Only the entry of the session itself goes. -/
theorem removeSession (hs : TableInv s) (hu : UIDInv s) {w a : Nat} (ha : s.stage a = .connected) :
    TableInv (s.removeSession w a) := by
  have hself : (s.removeSession w a).getSession (s.uid a) = none := AList.lookup_erase _ _
  have hother : ∀ u, u ≠ s.uid a → (s.removeSession w a).getSession u = s.getSession u := fun u hne => AList.lookup_erase_ne hne
  refine ⟨hs.sessions, hs.accepting, ?_, ?_, ?_, ?_⟩
  · intro u b hb
    by_cases hua : u = s.uid a
    · rw [hua, hself] at hb
      cases hb
    · rw [hother u hua] at hb
      exact hs.manager u b hb
  · intro b hb
    by_cases hba : s.uid b = s.uid a
    · exact Or.inr (hba ▸ Finset.mem_insert_self (s.uid a) s.closed)
    · rcases hs.connected b hb with h | h
      · exact Or.inl ((hother _ hba).trans h)
      · exact Or.inr (Finset.mem_insert_of_mem h)
  · intro b hb hcb hmb
    have hmutex : (s.removeSession w a).mutex b = if b = a then some w else s.mutex b := Function.update_apply ..
    rw [hmutex] at hmb
    split at hmb
    · cases hmb
    · rename_i hba
      have hne : s.uid b ≠ s.uid a := fun heq => hba (hu.inj b a (Or.inr hcb) (Or.inr ha) heq)
      exact (hother _ hne).trans (hs.listed b hb hcb hmb)
  · intro u hmem
    rcases Finset.mem_insert.1 hmem with rfl | hmem
    · refine ⟨hself, (hu.lt a (Or.inr ha)).2, ?_⟩
      intro b hb heq
      obtain rfl := hu.inj b a (Or.inl hb) (Or.inr ha) heq
      rw [show s.stage b = .numbered from hb] at ha
      cases ha
    · obtain ⟨h1, h2, h3⟩ := hs.closed u hmem
      refine ⟨?_, h2, h3⟩
      by_cases hua : u = s.uid a
      · rw [hua]
        exact hself
      · exact (hother u hua).trans h1

/-- A session whose entry in the `SessionManager` is gone leaves `m_Sessions`. -/
theorem releaseSession (hs : TableInv s) {a : Nat} (hc : s.uid a ∈ s.closed) (ha : s.stage a = .connected) :
    TableInv (s.releaseSession a) := by
  refine ⟨?_, ?_, ?_, hs.connected, ?_, hs.closed⟩
  · intro b hb
    exact hs.sessions b (Finset.mem_of_mem_erase hb)
  · intro b hb
    refine Finset.mem_erase.2 ⟨?_, hs.accepting b hb⟩
    rintro rfl
    rcases hb with hb | hb
    · rw [show s.stage b = .listed from hb] at ha
      cases ha
    · rw [show s.stage b = .numbered from hb] at ha
      cases ha
  · intro u b hb
    obtain ⟨h1, h2, h3⟩ := hs.manager u b hb
    refine ⟨h1, h2, Finset.mem_erase.2 ⟨?_, h3⟩⟩
    rintro rfl
    have hnone := (hs.closed _ hc).1
    rw [h2, show s.getSession u = some b from hb] at hnone
    cases hnone
  · intro b hb hcb hmb
    have hba := Finset.ne_of_mem_erase hb
    have hmutex : (s.releaseSession a).mutex b = s.mutex b := Function.update_of_ne hba ..
    exact hs.listed b (Finset.mem_of_mem_erase hb) hcb (hmutex ▸ hmb)

/-- An object in neither table goes back to the pool. -/
theorem recycle (hs : TableInv s) {a : Nat} (hsess : a ∉ s.sessions) (ha : s.stage a = .connected) :
    TableInv ({ s with pool := a :: s.pool }.setStage a .pooled) := by
  have hold : ∀ P : Stage → Prop, ¬P .pooled → ∀ b, P (({ s with pool := a :: s.pool }.setStage a .pooled).stage b) →
      P (s.stage b) := fun P hno b hb => (of_stage_setStage P hb hno).2
  have hmem : ∀ b ∈ s.sessions, ({ s with pool := a :: s.pool }.setStage a .pooled).stage b = s.stage b := by
    intro b hb
    rw [stage_setStage, if_neg]
    rintro rfl
    exact hsess hb
  refine ⟨?_, ?_, ?_, ?_, ?_, ?_⟩
  · intro b hb
    rw [hmem b hb]
    exact hs.sessions b hb
  · intro b hb
    exact hs.accepting b (hold Stage.Accepting (by simp [Stage.Accepting]) b hb)
  · intro u b hb
    obtain ⟨h1, h2, h3⟩ := hs.manager u b hb
    rw [hmem b h3]
    exact ⟨h1, h2, h3⟩
  · intro b hb
    exact hs.connected b (hold (· = .connected) nofun b hb)
  · intro b hb hcb hmb
    exact hs.listed b hb (hmem b hb ▸ hcb) hmb
  · intro u hu
    obtain ⟨h1, h2, h3⟩ := hs.closed u hu
    exact ⟨h1, h2, fun b hb => h3 b (hold (· = .numbered) nofun b hb)⟩

end TableInv

/-! ## Every step -/

namespace TablesInv

theorem init (numThreads poolSize : Nat) : TablesInv numThreads (SessionTables.init poolSize) where
  pool := ⟨List.nodup_reverse.2 List.nodup_range, fun a ha => ⟨rfl, List.mem_range.1 (List.mem_reverse.1 ha)⟩, fun _ _ => rfl⟩
  uids := by
    refine ⟨rfl, ?_, ?_⟩
    · rintro a (ha | ha) <;> cases ha
    · rintro a _ (ha | ha) <;> cases ha
  hands := by
    refine ⟨?_, fun _ _ => ⟨nofun, nofun⟩, nofun⟩
    rintro w a (ha | ha) <;> cases ha
  tables := by
    refine ⟨fun _ ha => absurd ha (Finset.notMem_empty _), ?_, nofun, nofun, fun _ ha => absurd ha (Finset.notMem_empty _),
      fun _ h => absurd h (Finset.notMem_empty _)⟩
    rintro a (ha | ha)
    · cases ha
    · cases ha

/-- A thread holds a connected session, so the step of another session to its next stage leaves what it holds. -/
theorem hold_stage (hs : HandInv n s) {a : Nat} (ha : s.stage a ≠ .connected) (stage : Stage) {w b : Nat}
    (h : (s.hand w).Holds b) : b ≠ a ∧ (s.setStage a stage).stage b = s.stage b := by
  have hba : b ≠ a := by
    rintro rfl
    exact ha (hs.holds w b h).2
  exact ⟨hba, by rw [stage_setStage, if_neg hba]⟩

/-- Every step keeps the tables as long as the UIDs do not wrap around. -/
theorem step (hs : TablesInv n s) {l : TablesStep} (h : tablesStep n s l = some t) (hc : t.created < 2147483648) :
    TablesInv n t := by
  cases l with
  | maker =>
    obtain rfl := Option.some.inj h
    obtain ⟨hpool, hp⟩ := hs.pool.maker
    refine ⟨hpool, hs.uids.frame (pop_uid s) (pop_nextUID s) (pop_created s) ?_,
      hs.hands.frame (pop_hand s) (pop_mutex s) (pop_closed s) ?_, hs.tables.maker hp⟩
    · intro b hb
      have hold := (of_stage_setStage Stage.HasUID hb (by simp [Stage.HasUID])).2
      rw [pop_stage] at hold
      exact hold
    · intro w b hb
      have hba := (hold_stage hs.hands (by rw [hp]; exact nofun) .popped hb).1
      exact ⟨by rw [stage_setStage, if_neg hba, pop_stage], congrFun (pop_uid s) b⟩
  | addSession a =>
    obtain ⟨ha, rfl⟩ := tablesStep_addSession h
    refine ⟨hs.pool.frame rfl rfl ?_, hs.uids.frame rfl rfl rfl ?_, hs.hands.frame rfl rfl rfl ?_, hs.tables.addSession ha⟩
    · refine stage_setStage_iff (s := s.addSession a) (· = .pooled) ?_
      simp [ha]
    · exact fun b hb => (of_stage_setStage Stage.HasUID hb (by simp [Stage.HasUID])).2
    · intro w b hb
      exact ⟨(hold_stage hs.hands (by rw [ha]; exact nofun) _ hb).2, rfl⟩
  | setSessionUID a =>
    obtain ⟨ha, rfl⟩ := tablesStep_setSessionUID h
    refine ⟨hs.pool.frame rfl rfl ?_, hs.uids.setSessionUID hc a, hs.hands.frame rfl rfl rfl ?_,
      hs.tables.setSessionUID hs.uids.next ha⟩
    · refine stage_setStage_iff (s := s.setSessionUID a) (· = .pooled) ?_
      simp [ha]
    · intro w b hb
      obtain ⟨hba, hst⟩ := hold_stage hs.hands (by rw [ha]; exact nofun) .numbered hb
      exact ⟨hst, Function.update_of_ne hba ..⟩
  | onConnected a =>
    obtain ⟨ha, rfl⟩ := tablesStep_onConnected h
    refine ⟨hs.pool.frame (onConnected_pool s a) (onConnected_made s a) ?_,
      hs.uids.frame (onConnected_uid s a) (onConnected_nextUID s a) (onConnected_created s a) ?_,
      hs.hands.frame (onConnected_hand s a) (onConnected_mutex s a) (onConnected_closed s a) ?_,
      hs.tables.onConnected hs.uids ha⟩
    · intro b
      rw [stage_setStage_iff (· = .pooled) (by simp [ha]), onConnected_stage]
    · intro b hb
      rw [stage_setStage_iff Stage.HasUID (by simp [ha, Stage.HasUID]), onConnected_stage] at hb
      exact hb
    · intro w b hb
      obtain ⟨hba, _⟩ := hold_stage hs.hands (by rw [ha]; exact nofun) .connected hb
      exact ⟨by rw [stage_setStage, if_neg hba, onConnected_stage], congrFun (onConnected_uid s a) b⟩
  | getSession w u =>
    obtain ⟨hw, hi, ⟨_, rfl⟩ | ⟨a, hg, rfl⟩⟩ := tablesStep_getSession h
    · exact hs
    · have ha := (hs.tables.manager u a hg).1
      refine ⟨hs.pool.frame rfl rfl (fun _ => Iff.rfl), hs.uids.frame rfl rfl rfl (fun _ hb => hb),
        hs.hands.setHand (by rw [hi]; exact nofun) nofun ?_, hs.tables.setHand w _⟩
      rintro b (hb | hb)
      · cases hb
        exact ⟨hw, ha⟩
      · cases hb
  | removeSession w =>
    obtain ⟨a, ha, hm, rfl⟩ := tablesStep_removeSession h
    have hst := (hs.hands.holds w a (Or.inl ha)).2
    exact ⟨hs.pool.frame rfl rfl (fun _ => Iff.rfl), hs.uids.frame rfl rfl rfl (fun _ hb => hb), hs.hands.removeSession ha hm,
      (hs.tables.removeSession hs.uids hst).setHand w _⟩
  | releaseSession w =>
    obtain ⟨a, ha, rfl⟩ := tablesStep_releaseSession h
    have hst := (hs.hands.holds w a (Or.inr ha)).2
    exact ⟨hs.pool.frame rfl rfl (fun _ => Iff.rfl), hs.uids.frame rfl rfl rfl (fun _ hb => hb), hs.hands.releaseSession ha,
      (hs.tables.releaseSession (hs.hands.removed w a ha) hst).setHand w _⟩
  | letGo w =>
    obtain ⟨a, ha, rfl⟩ := tablesStep_letGo h
    refine ⟨hs.pool.frame rfl rfl (fun _ => Iff.rfl), hs.uids.frame rfl rfl rfl (fun _ hb => hb),
      hs.hands.setHand (by rw [ha]; exact nofun) nofun ?_, hs.tables.setHand w _⟩
    rintro b (hb | hb) <;> cases hb
  | recycle a =>
    obtain ⟨ha, ⟨hsess, _, hno⟩, rfl⟩ := tablesStep_recycle h
    refine ⟨hs.pool.recycle ha, hs.uids.frame rfl rfl rfl ?_, hs.hands.frame rfl rfl rfl ?_, hs.tables.recycle hsess ha⟩
    · exact fun b hb => (of_stage_setStage Stage.HasUID hb (by simp [Stage.HasUID])).2
    · intro w b hb
      refine ⟨?_, rfl⟩
      rw [stage_setStage, if_neg]
      rintro rfl
      exact hno w (hs.hands.holds w b hb).1 hb

/-- A run from a state with good tables that creates fewer than `2 ^ 31` sessions in all ends in one. -/
theorem run (hs : TablesInv n s) {poolSize : Nat} {ls : List TablesStep} (hr : (tablesSystem n poolSize).run s ls = some t)
    (hc : t.created < 2147483648) : TablesInv n t ∧ s.closed ⊆ t.closed := by
  have hinv : t.created < 2147483648 → TablesInv n t ∧ s.closed ⊆ t.closed := by
    refine (tablesSystem n poolSize).run_invariant
      (I := fun r => r.created < 2147483648 → TablesInv n r ∧ s.closed ⊆ r.closed) ?_ (fun _ => ⟨hs, Finset.Subset.refl _⟩) hr
    intro r l r' hI h hlt
    obtain ⟨hle, hsub⟩ := tablesStep_grows h
    obtain ⟨hr, hrs⟩ := hI (Nat.lt_of_le_of_lt hle hlt)
    exact ⟨hr.step h hlt, hrs.trans hsub⟩
  exact hinv hc

end TablesInv

end

end ProjectYJ

import ProjectYJ.Connections
import ProjectYJ.Lemmas.SessionTables
import ProjectYJ.Router

/-!
# What holds of the connections in every run

`ConnInv` asks for nothing about the UIDs, which may repeat: it holds in every state that can be reached. An object that has a
UID serves one connection, no two objects serve the same, and an entry of the `SessionManager` or of `m_Sessions` is never a
session whose connection was taken out of that table.
-/

namespace ProjectYJ

open SessionTables

/-- What holds of a connection and the object that serves it. -/
structure Serves (s : Connections) (a c : Nat) : Prop where
  lt : c < s.tables.created
  uid : s.tables.uid a = toInt32 c
  numbered : s.tables.stage a = .numbered → c ∉ s.removed
  manager : s.tables.getSession (s.tables.uid a) = some a → c ∉ s.removed
  removing : ∀ w, s.tables.hand w = .removed a → c ∈ s.removed
  sessions : a ∈ s.tables.sessions → c ∉ s.closed

/-- What holds of the connections: of the pool and the counter, of the objects and the threads, and of each connection that is
served. -/
structure ConnInv (n : Nat) (s : Connections) : Prop where
  pool : PoolInv s.tables
  back : ∀ a, s.tables.stage a = .pooled → a < s.tables.made → a ∈ s.tables.pool
  next : s.tables.nextUID = toInt32 s.tables.created
  served : ∀ a, (s.tables.stage a).HasUID ↔ (s.conn a).isSome
  inj : ∀ a b c, s.conn a = some c → s.conn b = some c → a = b
  holds : ∀ w a, (s.tables.hand w).Holds a → w < n ∧ s.tables.stage a = .connected
  manager : ∀ u a, s.tables.getSession u = some a → s.tables.stage a = .connected ∧ s.tables.uid a = u
  serves : ∀ a c, s.conn a = some c → Serves s a c
  removed : ∀ c ∈ s.removed, c < s.tables.created
  closed : ∀ c ∈ s.closed, c ∈ s.removed

/-- Counting goes on the same after a conversion. -/
theorem toInt32_toInt32_add (x y : Int) : toInt32 (toInt32 x + y) = toInt32 (x + y) := by
  unfold toInt32
  omega

section

variable {n : Nat} {s : Connections}

/-- A step of the connections is one of the session tables. -/
theorem connStep_tables {t : Connections} {l : TablesStep} (h : connStep n s l = some t) :
    tablesStep n s.tables l = some t.tables ∧ t = s.after t.tables l := by
  obtain ⟨tables, hstep, rfl⟩ := Option.map_eq_some_iff.1 h
  have htables : (s.after tables l).tables = tables := by
    unfold Connections.after
    split <;> try split
    all_goals rfl
  rw [htables]
  exact ⟨hstep, rfl⟩

namespace ConnInv

/-- An object without a UID serves no connection. -/
theorem conn_eq_none (hs : ConnInv n s) {a : Nat} (ha : ¬(s.tables.stage a).HasUID) : s.conn a = none := by
  rw [hs.served, Option.not_isSome_iff_eq_none] at ha
  exact ha

/-- A connected object serves a connection. -/
theorem conn_of_connected (hs : ConnInv n s) {a : Nat} (ha : s.tables.stage a = .connected) : ∃ c, s.conn a = some c :=
  Option.isSome_iff_exists.1 ((hs.served a).1 (Or.inr ha))

theorem init (n poolSize : Nat) : ConnInv n (Connections.init poolSize) where
  pool := (TablesInv.init n poolSize).pool
  back a _ ha := List.mem_reverse.2 (List.mem_range.2 ha)
  next := (toInt32_of_lt (by decide : 0 < 2147483648)).symm
  served a := iff_of_false (by rintro (h | h) <;> cases h) nofun
  inj _ _ _ := nofun
  holds w a := by
    rintro (h | h) <;> cases h
  manager _ _ := nofun
  serves _ _ := nofun
  removed _ h := absurd h List.not_mem_nil
  closed _ h := absurd h List.not_mem_nil

/-! ## Steps that leave the connections -/

/-- A step that gives no object a UID and takes no session out of a table; what it puts in had no entry because it was being
accepted. -/
theorem frame (hs : ConnInv n s) {tables : SessionTables} (hpool : PoolInv tables)
    (hback : ∀ a, tables.stage a = .pooled → a < tables.made → a ∈ tables.pool) (huid : tables.uid = s.tables.uid)
    (hnext : tables.nextUID = s.tables.nextUID) (hcr : tables.created = s.tables.created)
    (hst : ∀ b, (tables.stage b).HasUID ↔ (s.tables.stage b).HasUID)
    (hnum : ∀ b, tables.stage b = .numbered → s.tables.stage b = .numbered)
    (hholds : ∀ w a, (tables.hand w).Holds a → w < n ∧ tables.stage a = .connected)
    (hremoving : ∀ w a, tables.hand w = .removed a → s.tables.hand w = .removed a)
    (hman : ∀ u a, tables.getSession u = some a → tables.stage a = .connected ∧ s.tables.uid a = u ∧
      (s.tables.getSession u = some a ∨ s.tables.stage a = .numbered))
    (hsess : ∀ b ∈ tables.sessions, b ∈ s.tables.sessions ∨ s.conn b = none) :
    ConnInv n { s with tables := tables } where
  pool := hpool
  back := hback
  next := by rw [hnext, hcr]; exact hs.next
  served b := (hst b).trans (hs.served b)
  inj := hs.inj
  holds := hholds
  manager u a ha := by
    obtain ⟨h1, h2, _⟩ := hman u a ha
    exact ⟨h1, by rw [huid]; exact h2⟩
  serves a c hc := by
    have h := hs.serves a c hc
    refine ⟨hcr ▸ h.lt, huid ▸ h.uid, fun ha => h.numbered (hnum a ha), ?_, fun w hw => h.removing w (hremoving w a hw), ?_⟩
    · intro ha
      obtain ⟨-, hu, hold | hold⟩ := hman _ a ha
      · exact h.manager (hu ▸ hold)
      · exact h.numbered hold
    · intro ha
      rcases hsess a ha with hold | hold
      · exact h.sessions hold
      · rw [hold] at hc
        cases hc
  removed c hc := hcr ▸ hs.removed c hc
  closed := hs.closed

/-- A step of a hand only: what it holds then, it held before or is in the `SessionManager`. -/
theorem setHand (hs : ConnInv n s) (w : Nat) {h : Hand} (hremoved : ∀ a, h ≠ .removed a)
    (hh : ∀ a, h.Holds a → w < n ∧ s.tables.stage a = .connected) : ConnInv n { s with tables := s.tables.setHand w h } := by
  have hhand : ∀ v, (s.tables.setHand w h).hand v = if v = w then h else s.tables.hand v := fun v => Function.update_apply ..
  refine hs.frame (hs.pool.frame rfl rfl fun _ => Iff.rfl) hs.back rfl rfl rfl (fun _ => Iff.rfl) (fun _ hb => hb) ?_ ?_
    (fun u a ha => ⟨(hs.manager u a ha).1, (hs.manager u a ha).2, Or.inl ha⟩) (fun _ hb => Or.inl hb)
  · intro v a ha
    rw [hhand] at ha
    split at ha
    · rename_i hv
      exact hv ▸ hh a ha
    · exact hs.holds v a ha
  · intro v a ha
    rw [hhand] at ha
    split at ha
    · exact absurd ha (hremoved a)
    · exact ha

theorem maker (hs : ConnInv n s) : ConnInv n { s with tables := s.tables.pop.2.setStage s.tables.pop.1 .popped } := by
  obtain ⟨hpool, hp⟩ := hs.pool.maker
  have hmade : ∀ b, b ≠ s.tables.pop.1 → b < s.tables.pop.2.made →
      b < s.tables.made ∧ (b ∈ s.tables.pool → b ∈ s.tables.pop.2.pool) := by
    intro b hb hlt
    unfold SessionTables.pop at hb hlt ⊢
    split at hb
    · rename_i a rest hpool
      simp only [hpool] at hlt ⊢
      exact ⟨hlt, fun hmem => (List.mem_cons.1 hmem).resolve_left hb⟩
    · rename_i hpool
      simp only [hpool] at hlt ⊢
      exact ⟨Nat.lt_of_le_of_ne (Nat.le_of_lt_succ hlt) hb, fun hmem => hmem⟩
  have hcon : ∀ b, s.tables.stage b = .connected → (s.tables.pop.2.setStage s.tables.pop.1 .popped).stage b = .connected :=
    fun b hb => (stage_setStage_of (· = .connected) .popped (by simp [hp]) (by rw [pop_stage]; exact hb)).2
  refine hs.frame hpool ?_ (pop_uid _) (pop_nextUID _) (pop_created _) ?_ ?_ ?_ ?_ ?_
    (fun b hb => Or.inl (pop_sessions s.tables ▸ hb))
  · intro b hb hlt
    obtain ⟨hba, hold⟩ := of_stage_setStage (· = .pooled) hb (by simp)
    rw [pop_stage] at hold
    obtain ⟨hltb, hmem⟩ := hmade b hba hlt
    exact hmem (hs.back b hold hltb)
  · intro b
    rw [stage_setStage_iff Stage.HasUID (by simp [hp, Stage.HasUID]), pop_stage]
  · intro b hb
    have hold := (of_stage_setStage (· = .numbered) hb (by simp)).2
    rw [pop_stage] at hold
    exact hold
  · intro w a ha
    obtain ⟨hw, ha⟩ := hs.holds w a (pop_hand s.tables ▸ ha)
    exact ⟨hw, hcon a ha⟩
  · intro w a ha
    exact pop_hand s.tables ▸ ha
  · intro u a ha
    have hold : s.tables.getSession u = some a := by
      rw [SessionTables.getSession, ← pop_manager]
      exact ha
    obtain ⟨h1, h2⟩ := hs.manager u a hold
    exact ⟨hcon a h1, h2, Or.inl hold⟩

theorem addSession (hs : ConnInv n s) {a : Nat} (ha : s.tables.stage a = .popped) :
    ConnInv n { s with tables := (s.tables.addSession a).setStage a .listed } := by
  have hcon : ∀ b, s.tables.stage b = .connected → ((s.tables.addSession a).setStage a .listed).stage b = .connected :=
    fun b hb => (stage_setStage_of (s := s.tables.addSession a) (· = .connected) .listed (by simp [ha]) hb).2
  refine hs.frame (hs.pool.frame rfl rfl (stage_setStage_iff (· = .pooled) (by simp [ha]))) ?_ rfl rfl rfl
    (stage_setStage_iff Stage.HasUID (by simp [ha, Stage.HasUID])) ?_ ?_ (fun _ _ hb => hb) ?_ ?_
  · exact fun b hb hlt => hs.back b (of_stage_setStage (· = .pooled) hb (by simp)).2 hlt
  · exact fun b hb => (of_stage_setStage (· = .numbered) hb (by simp)).2
  · intro w b hb
    exact ⟨(hs.holds w b hb).1, hcon b (hs.holds w b hb).2⟩
  · intro u b hb
    exact ⟨hcon b (hs.manager u b hb).1, (hs.manager u b hb).2, Or.inl hb⟩
  · intro b hb
    rcases Finset.mem_insert.1 hb with rfl | hb
    · exact Or.inr (hs.conn_eq_none (by simp [ha, Stage.HasUID]))
    · exact Or.inl hb

theorem onConnected (hs : ConnInv n s) {a : Nat} (ha : s.tables.stage a = .numbered) :
    ConnInv n { s with tables := (s.tables.onConnected a).setStage a .connected } := by
  have hget : ∀ u b, (s.tables.onConnected a).getSession u = some b →
      s.tables.getSession u = some b ∨ (u = s.tables.uid a ∧ b = a) := by
    intro u b hb
    unfold SessionTables.onConnected at hb
    split at hb
    · exact Or.inl hb
    · by_cases hu : u = s.tables.uid a
      · subst hu
        exact Or.inr ⟨rfl, (Option.some.inj ((AList.lookup_insert s.tables.manager).symm.trans hb)).symm⟩
      · exact Or.inl ((AList.lookup_insert_ne hu).symm.trans hb)
  have hstage : ∀ b, ((s.tables.onConnected a).setStage a .connected).stage b =
      if b = a then .connected else s.tables.stage b := by
    intro b
    rw [stage_setStage, onConnected_stage]
  have hcon : ∀ b, s.tables.stage b = .connected → ((s.tables.onConnected a).setStage a .connected).stage b = .connected := by
    intro b hb
    rw [hstage]
    split
    · rfl
    · exact hb
  refine hs.frame (hs.pool.frame (onConnected_pool _ a) (onConnected_made _ a) ?_) ?_ (onConnected_uid _ a)
    (onConnected_nextUID _ a) (onConnected_created _ a) ?_ ?_ ?_ (fun _ _ hb => onConnected_hand s.tables a ▸ hb) ?_
    (fun b hb => Or.inl (onConnected_sessions s.tables a ▸ hb))
  · intro b
    rw [stage_setStage_iff (· = .pooled) (by simp [ha]), onConnected_stage]
  · intro b hb hlt
    have hold := (of_stage_setStage (· = .pooled) hb (by simp)).2
    rw [onConnected_stage] at hold
    exact onConnected_pool s.tables a ▸ hs.back b hold (onConnected_made s.tables a ▸ hlt)
  · intro b
    rw [stage_setStage_iff Stage.HasUID (by simp [ha, Stage.HasUID]), onConnected_stage]
  · intro b hb
    have hold := (of_stage_setStage (· = .numbered) hb (by simp)).2
    rw [onConnected_stage] at hold
    exact hold
  · intro w b hb
    obtain ⟨hw, hb⟩ := hs.holds w b (onConnected_hand s.tables a ▸ hb)
    exact ⟨hw, hcon b hb⟩
  · intro u b hb
    rcases hget u b hb with hold | ⟨rfl, rfl⟩
    · exact ⟨hcon b (hs.manager u b hold).1, (hs.manager u b hold).2, Or.inl hold⟩
    · exact ⟨by rw [hstage, if_pos rfl], rfl, Or.inr ha⟩

/-! ## Steps of a connection -/

/-- The object serves a new connection, the last one so far. -/
theorem setSessionUID (hs : ConnInv n s) {a : Nat} (ha : s.tables.stage a = .listed) :
    ConnInv n { s with
      tables := (s.tables.setSessionUID a).setStage a .numbered
      conn := Function.update s.conn a (some s.tables.created) } := by
  have hconn : ∀ b, Function.update s.conn a (some s.tables.created) b = if b = a then some s.tables.created else s.conn b :=
    fun b => Function.update_apply ..
  have huid : ∀ b, ((s.tables.setSessionUID a).setStage a .numbered).uid b =
      if b = a then s.tables.nextUID else s.tables.uid b := fun b => Function.update_apply ..
  have hstage : ∀ b, ((s.tables.setSessionUID a).setStage a .numbered).stage b =
      if b = a then .numbered else s.tables.stage b := fun b => stage_setStage ..
  have hcon : ∀ b, s.tables.stage b = .connected →
      b ≠ a ∧ ((s.tables.setSessionUID a).setStage a .numbered).stage b = .connected :=
    fun b hb => stage_setStage_of (s := s.tables.setSessionUID a) (· = .connected) .numbered (by simp [ha]) hb
  refine ⟨hs.pool.frame rfl rfl (stage_setStage_iff (s := s.tables.setSessionUID a) (· = .pooled) (by simp [ha])), ?_, ?_, ?_,
    ?_, ?_, ?_, ?_, fun c hc => Nat.lt_succ_of_lt (hs.removed c hc), hs.closed⟩
  · exact fun b hb hlt => hs.back b (of_stage_setStage (· = .pooled) hb (by simp)).2 hlt
  · exact (congrArg (fun x => toInt32 (x + 1)) hs.next).trans (toInt32_toInt32_add s.tables.created 1)
  · intro b
    simp only [hconn, hstage]
    split
    · exact iff_of_true (Or.inl rfl) rfl
    · exact hs.served b
  · intro b b' c hb hb'
    simp only [hconn] at hb hb'
    split at hb
    · rename_i hba
      cases hb
      split at hb'
      · rename_i hba'
        rw [hba, hba']
      · exact absurd (hs.serves b' _ hb').lt (Nat.lt_irrefl _)
    · split at hb'
      · cases hb'
        exact absurd (hs.serves b _ hb).lt (Nat.lt_irrefl _)
      · exact hs.inj b b' c hb hb'
  · intro w b hb
    obtain ⟨hw, hb⟩ := hs.holds w b hb
    exact ⟨hw, (hcon b hb).2⟩
  · intro u b hb
    obtain ⟨h1, h2⟩ := hs.manager u b hb
    obtain ⟨hba, hst⟩ := hcon b h1
    exact ⟨hst, (huid b).trans ((if_neg hba).trans h2)⟩
  · intro b c hb
    simp only [hconn] at hb
    split at hb
    · rename_i hba
      subst hba
      cases hb
      have hnew : s.tables.created ∉ s.removed := fun hmem => Nat.lt_irrefl _ (hs.removed _ hmem)
      refine ⟨Nat.lt_succ_self _, (huid b).trans ((if_pos rfl).trans hs.next), fun _ => hnew, fun _ => hnew, ?_,
        fun _ hmem => hnew (hs.closed _ hmem)⟩
      intro w hw
      exact absurd rfl (hcon b (hs.holds w b (Or.inr hw)).2).1
    · rename_i hba
      have h := hs.serves b c hb
      refine ⟨Nat.lt_succ_of_lt h.lt, (huid b).trans ((if_neg hba).trans h.uid), ?_, ?_, h.removing, h.sessions⟩
      · intro hn
        rw [hstage, if_neg hba] at hn
        exact h.numbered hn
      · intro hm
        rw [huid, if_neg hba] at hm
        exact h.manager hm

/-- The connection of the session a thread holds is removed, and the entry of its UID is gone. -/
theorem removeSession (hs : ConnInv n s) {w a c : Nat} (hw : s.tables.hand w = .got a) (hc : s.conn a = some c) :
    ConnInv n { s with
      tables := (s.tables.removeSession w a).setHand w (.removed a), removed := c :: s.removed } := by
  have hcon := (hs.holds w a (Or.inl hw)).2
  have hhand : ∀ v, ((s.tables.removeSession w a).setHand w (.removed a)).hand v =
      if v = w then .removed a else s.tables.hand v := fun v => Function.update_apply ..
  have hget : ∀ u b, ((s.tables.removeSession w a).setHand w (.removed a)).getSession u = some b →
      s.tables.getSession u = some b ∧ b ≠ a := by
    intro u b hb
    by_cases hu : u = s.tables.uid a
    · subst hu
      exact nomatch hb.symm.trans (AList.lookup_erase _ _)
    · have hold : s.tables.getSession u = some b := (AList.lookup_erase_ne hu).symm.trans hb
      refine ⟨hold, ?_⟩
      rintro rfl
      exact hu (hs.manager u b hold).2.symm
  -- the connections of other objects are other connections
  have hne : ∀ {b d}, s.conn b = some d → b ≠ a → d ∉ s.removed → d ∉ c :: s.removed := by
    intro b d hb hba hd hmem
    rcases List.mem_cons.1 hmem with rfl | hmem
    · exact hba (hs.inj b a d hb hc)
    · exact hd hmem
  refine ⟨hs.pool.frame rfl rfl fun _ => Iff.rfl, hs.back, hs.next, hs.served, hs.inj, ?_,
    fun u b hb => hs.manager u b (hget u b hb).1, ?_, ?_, fun d hd => List.mem_cons_of_mem c (hs.closed d hd)⟩
  · intro v b hb
    rw [hhand] at hb
    split at hb
    · rename_i hv
      rcases hb with hb | hb
      · cases hb
      · cases hb
        exact hv ▸ hs.holds w a (Or.inl hw)
    · exact hs.holds v b hb
  · intro b d hb
    have h := hs.serves b d hb
    refine ⟨h.lt, h.uid, ?_, ?_, ?_, h.sessions⟩
    · intro hn
      refine hne hb ?_ (h.numbered hn)
      rintro rfl
      rw [show s.tables.stage b = .numbered from hn] at hcon
      cases hcon
    · intro hm
      obtain ⟨hold, hba⟩ := hget _ b hm
      exact hne hb hba (h.manager hold)
    · intro v hv
      rw [hhand] at hv
      split at hv
      · cases hv
        rw [hc] at hb
        cases hb
        exact List.mem_cons_self
      · exact List.mem_cons_of_mem c (h.removing v hv)
  · intro d hd
    rcases List.mem_cons.1 hd with rfl | hd
    · exact (hs.serves a d hc).lt
    · exact hs.removed d hd

/-- The connection of the session a thread has removed is closed, and the session leaves `m_Sessions`. -/
theorem releaseSession (hs : ConnInv n s) {w a c : Nat} (hw : s.tables.hand w = .removed a) (hc : s.conn a = some c) :
    ConnInv n { s with tables := (s.tables.releaseSession a).setHand w .idle, closed := c :: s.closed } := by
  have hhand : ∀ v, ((s.tables.releaseSession a).setHand w .idle).hand v =
      if v = w then .idle else s.tables.hand v := fun v => Function.update_apply ..
  refine ⟨hs.pool.frame rfl rfl fun _ => Iff.rfl, hs.back, hs.next, hs.served, hs.inj, ?_, hs.manager, ?_, hs.removed, ?_⟩
  · intro v b hb
    rw [hhand] at hb
    split at hb
    · rcases hb with hb | hb <;> cases hb
    · exact hs.holds v b hb
  · intro b d hb
    have h := hs.serves b d hb
    refine ⟨h.lt, h.uid, h.numbered, h.manager, ?_, ?_⟩
    · intro v hv
      rw [hhand] at hv
      split at hv
      · cases hv
      · exact h.removing v hv
    · intro hsess hmem
      obtain ⟨hba, hsess⟩ := Finset.mem_erase.1 hsess
      rcases List.mem_cons.1 hmem with rfl | hmem
      · exact hba (hs.inj b a d hb hc)
      · exact h.sessions hsess hmem
  · intro d hd
    rcases List.mem_cons.1 hd with rfl | hd
    · exact (hs.serves a d hc).removing w hw
    · exact hs.closed d hd

/-- The object serves no connection any more. -/
theorem recycle (hs : ConnInv n s) {a : Nat} (ha : s.tables.stage a = .connected) (hno : s.tables.Unreferenced n a) :
    ConnInv n { s with
      tables := { s.tables with pool := a :: s.tables.pool }.setStage a .pooled, conn := Function.update s.conn a none } := by
  obtain ⟨-, hentry, hfree⟩ := hno
  have hconn : ∀ b, Function.update s.conn a none b = if b = a then none else s.conn b := fun b => Function.update_apply ..
  have hstage : ∀ b, ({ s.tables with pool := a :: s.tables.pool }.setStage a .pooled).stage b =
      if b = a then .pooled else s.tables.stage b := fun b => stage_setStage ..
  refine ⟨hs.pool.recycle ha, ?_, hs.next, ?_, ?_, ?_, ?_, ?_, hs.removed, hs.closed⟩
  · intro b hb hlt
    rw [hstage] at hb
    split at hb
    · rename_i hba
      exact List.mem_cons.2 (Or.inl hba)
    · exact List.mem_cons_of_mem a (hs.back b hb hlt)
  · intro b
    simp only [hconn, hstage]
    split
    · exact iff_of_false (by rintro (h | h) <;> cases h) nofun
    · exact hs.served b
  · intro b b' c hb hb'
    simp only [hconn, Option.ite_none_left_eq_some] at hb hb'
    exact hs.inj b b' c hb.2 hb'.2
  · intro w b hb
    obtain ⟨hw, hst⟩ := hs.holds w b hb
    refine ⟨hw, ?_⟩
    rw [hstage, if_neg, hst]
    rintro rfl
    exact hfree w hw hb
  · intro u b hb
    obtain ⟨h1, h2⟩ := hs.manager u b hb
    refine ⟨?_, h2⟩
    rw [hstage, if_neg, h1]
    rintro rfl
    exact hentry ⟨u, b⟩ (AList.mem_lookup_iff.1 hb) rfl
  · intro b c hb
    simp only [hconn, Option.ite_none_left_eq_some] at hb
    have h := hs.serves b c hb.2
    refine ⟨h.lt, h.uid, ?_, h.manager, h.removing, h.sessions⟩
    intro hn
    rw [hstage, if_neg hb.1] at hn
    exact h.numbered hn

/-- Every step keeps what holds of the connections. -/
theorem step (hs : ConnInv n s) {t : Connections} {l : TablesStep} (h : connStep n s l = some t) : ConnInv n t := by
  obtain ⟨h, ht⟩ := connStep_tables h
  rw [ht]
  generalize t.tables = tables at h
  clear ht
  cases l with
  | maker =>
    obtain rfl := Option.some.inj h
    exact hs.maker
  | addSession a =>
    obtain ⟨ha, rfl⟩ := tablesStep_addSession h
    exact hs.addSession ha
  | setSessionUID a =>
    obtain ⟨ha, rfl⟩ := tablesStep_setSessionUID h
    exact hs.setSessionUID ha
  | onConnected a =>
    obtain ⟨ha, rfl⟩ := tablesStep_onConnected h
    exact hs.onConnected ha
  | getSession w u =>
    obtain ⟨hw, -, ⟨-, rfl⟩ | ⟨a, hg, rfl⟩⟩ := tablesStep_getSession h
    · exact hs
    · refine hs.setHand w nofun ?_
      rintro b (hb | hb)
      · cases hb
        exact ⟨hw, (hs.manager u a hg).1⟩
      · cases hb
  | removeSession w =>
    obtain ⟨a, ha, -, rfl⟩ := tablesStep_removeSession h
    obtain ⟨c, hc⟩ := hs.conn_of_connected (hs.holds w a (Or.inl ha)).2
    simp only [Connections.after, ha, hc, Option.toList_some, List.singleton_append]
    exact hs.removeSession ha hc
  | releaseSession w =>
    obtain ⟨a, ha, rfl⟩ := tablesStep_releaseSession h
    obtain ⟨c, hc⟩ := hs.conn_of_connected (hs.holds w a (Or.inr ha)).2
    simp only [Connections.after, ha, hc, Option.toList_some, List.singleton_append]
    exact hs.releaseSession ha hc
  | letGo w =>
    obtain ⟨a, -, rfl⟩ := tablesStep_letGo h
    refine hs.setHand w nofun ?_
    rintro b (hb | hb) <;> cases hb
  | recycle a =>
    obtain ⟨ha, hno, rfl⟩ := tablesStep_recycle h
    exact hs.recycle ha hno

/-! ## What other steps leave -/

/-- A step leaves a connected object as it is, unless it is the deleter that gets it. -/
theorem connected_step (hs : ConnInv n s) {t : Connections} {l : TablesStep} (h : connStep n s l = some t) {b : Nat}
    (hb : s.tables.stage b = .connected) (hl : l ≠ .recycle b) :
    t.tables.stage b = .connected ∧ t.tables.uid b = s.tables.uid b ∧ t.conn b = s.conn b := by
  obtain ⟨h, ht⟩ := connStep_tables h
  rw [ht]
  generalize t.tables = tables at h
  clear ht
  -- the object is not the one whose accept goes on
  have hne : ∀ {a stage}, s.tables.stage a = stage → stage ≠ .connected → b ≠ a := by
    rintro a stage ha hstage rfl
    exact hstage (ha.symm.trans hb)
  cases l with
  | maker =>
    obtain rfl := Option.some.inj h
    refine ⟨?_, congrFun (pop_uid s.tables) b, rfl⟩
    simp only [Connections.after, stage_setStage, if_neg (hne hs.pool.maker.2 nofun), pop_stage, hb]
  | addSession a =>
    obtain ⟨ha, rfl⟩ := tablesStep_addSession h
    refine ⟨?_, rfl, rfl⟩
    simp only [Connections.after, stage_setStage, if_neg (hne ha nofun), addSession_stage, hb]
  | setSessionUID a =>
    obtain ⟨ha, rfl⟩ := tablesStep_setSessionUID h
    have hba := hne ha nofun
    refine ⟨?_, Function.update_of_ne hba .., Function.update_of_ne hba ..⟩
    simp only [Connections.after, stage_setStage, if_neg hba, setSessionUID_stage, hb]
  | onConnected a =>
    obtain ⟨ha, rfl⟩ := tablesStep_onConnected h
    refine ⟨?_, congrFun (onConnected_uid s.tables a) b, rfl⟩
    simp only [Connections.after, stage_setStage, if_neg (hne ha nofun), onConnected_stage, hb]
  | getSession w u =>
    obtain ⟨-, -, ⟨-, rfl⟩ | ⟨_, -, rfl⟩⟩ := tablesStep_getSession h
    · exact ⟨hb, rfl, rfl⟩
    · exact ⟨hb, rfl, rfl⟩
  | removeSession w =>
    obtain ⟨a, ha, -, rfl⟩ := tablesStep_removeSession h
    simp [Connections.after, ha, SessionTables.removeSession, SessionTables.setHand, hb]
  | releaseSession w =>
    obtain ⟨a, ha, rfl⟩ := tablesStep_releaseSession h
    simp [Connections.after, ha, SessionTables.releaseSession, SessionTables.setHand, hb]
  | letGo w =>
    obtain ⟨_, -, rfl⟩ := tablesStep_letGo h
    exact ⟨hb, rfl, rfl⟩
  | recycle a =>
    obtain ⟨-, -, rfl⟩ := tablesStep_recycle h
    have hba : b ≠ a := fun hba => hl (hba ▸ rfl)
    refine ⟨?_, rfl, Function.update_of_ne hba ..⟩
    simp only [Connections.after, stage_setStage, if_neg hba, hb]

end ConnInv

/-- A step leaves the hands of the other threads. -/
theorem connStep_hand {t : Connections} {l : TablesStep} (h : connStep n s l = some t) {w : Nat} (hw : l.thread? ≠ some w) :
    t.tables.hand w = s.tables.hand w := by
  replace h := (connStep_tables h).1
  generalize t.tables = tables at h
  have hne : ∀ v, l.thread? = some v → w ≠ v := by
    rintro v hv rfl
    exact hw hv
  cases l with
  | maker =>
    obtain rfl := Option.some.inj h
    simp only [SessionTables.setStage, pop_hand]
  | addSession a =>
    obtain ⟨_, rfl⟩ := tablesStep_addSession h
    rfl
  | setSessionUID a =>
    obtain ⟨_, rfl⟩ := tablesStep_setSessionUID h
    rfl
  | onConnected a =>
    obtain ⟨_, rfl⟩ := tablesStep_onConnected h
    simp only [SessionTables.setStage, onConnected_hand]
  | getSession v u =>
    obtain ⟨_, _, ⟨_, rfl⟩ | ⟨_, _, rfl⟩⟩ := tablesStep_getSession h
    · rfl
    · exact Function.update_of_ne (hne v rfl) ..
  | removeSession v =>
    obtain ⟨_, _, _, rfl⟩ := tablesStep_removeSession h
    exact Function.update_of_ne (hne v rfl) ..
  | releaseSession v =>
    obtain ⟨_, _, rfl⟩ := tablesStep_releaseSession h
    exact Function.update_of_ne (hne v rfl) ..
  | letGo v =>
    obtain ⟨_, _, rfl⟩ := tablesStep_letGo h
    exact Function.update_of_ne (hne v rfl) ..
  | recycle a =>
    obtain ⟨_, _, rfl⟩ := tablesStep_recycle h
    rfl

/-- What a thread holds after a step of its own it held before, or `GetSession` found it. -/
theorem connStep_holds {t : Connections} {l : TablesStep} (h : connStep n s l = some t) {w a : Nat} (hw : l.thread? = some w)
    (ha : (t.tables.hand w).Holds a) :
    (s.tables.hand w).Holds a ∨ ∃ u, l = .getSession w u ∧ s.tables.getSession u = some a := by
  replace h := (connStep_tables h).1
  generalize t.tables = tables at h ha
  cases l with
  | getSession v u =>
    obtain rfl := Option.some.inj hw
    obtain ⟨-, -, ⟨-, rfl⟩ | ⟨b, hb, rfl⟩⟩ := tablesStep_getSession h
    · exact Or.inl ha
    · simp only [SessionTables.setHand, Function.update_self, Hand.holds_got] at ha
      exact Or.inr ⟨u, rfl, ha ▸ hb⟩
  | removeSession v =>
    obtain rfl := Option.some.inj hw
    obtain ⟨b, hb, -, rfl⟩ := tablesStep_removeSession h
    simp only [SessionTables.setHand, Function.update_self, Hand.holds_removed] at ha
    exact Or.inl (Or.inl (ha ▸ hb))
  | releaseSession v =>
    obtain rfl := Option.some.inj hw
    obtain ⟨b, -, rfl⟩ := tablesStep_releaseSession h
    simp [SessionTables.setHand] at ha
  | letGo v =>
    obtain rfl := Option.some.inj hw
    obtain ⟨b, -, rfl⟩ := tablesStep_letGo h
    simp [SessionTables.setHand] at ha
  | maker | addSession | setSessionUID | onConnected | recycle => cases hw

/-- The session a thread holds is not recycled while it does. -/
theorem ConnInv.recycle_ne (hs : ConnInv n s) {t : Connections} {l : TablesStep} (h : connStep n s l = some t) {w a : Nat}
    (ha : (s.tables.hand w).Holds a) : l ≠ .recycle a := by
  rintro rfl
  obtain ⟨-, ⟨-, -, hfree⟩, -⟩ := tablesStep_recycle (connStep_tables h).1
  exact hfree w (hs.holds w a ha).1 ha

/-! ## While no UID in use is drawn again -/

/-- An object serves the connection it did, unless it has just got one. -/
theorem connStep_conn {t : Connections} {l : TablesStep} (h : connStep n s l = some t) {a c : Nat}
    (hc : t.conn a = some c) :
    (s.conn a = some c ∧ t.tables.uid a = s.tables.uid a) ∨ (l = .setSessionUID a ∧ t.tables.uid a = s.tables.nextUID) := by
  obtain ⟨hstep, ht⟩ := connStep_tables h
  rw [ht] at hc ⊢
  generalize t.tables = tables at *
  cases l with
  | maker =>
    obtain rfl := Option.some.inj hstep
    exact Or.inl ⟨hc, congrFun (pop_uid s.tables) a⟩
  | addSession b =>
    obtain ⟨-, rfl⟩ := tablesStep_addSession hstep
    exact Or.inl ⟨hc, rfl⟩
  | setSessionUID b =>
    obtain ⟨-, rfl⟩ := tablesStep_setSessionUID hstep
    by_cases hab : a = b
    · subst hab
      exact Or.inr ⟨rfl, Function.update_self ..⟩
    · refine Or.inl ⟨?_, Function.update_of_ne hab ..⟩
      simpa [Connections.after, hab] using hc
  | onConnected b =>
    obtain ⟨-, rfl⟩ := tablesStep_onConnected hstep
    exact Or.inl ⟨hc, congrFun (onConnected_uid s.tables b) a⟩
  | getSession w u =>
    obtain ⟨-, -, ⟨-, rfl⟩ | ⟨_, -, rfl⟩⟩ := tablesStep_getSession hstep
    · exact Or.inl ⟨hc, rfl⟩
    · exact Or.inl ⟨hc, rfl⟩
  | removeSession w =>
    obtain ⟨b, hb, -, rfl⟩ := tablesStep_removeSession hstep
    simp only [Connections.after, hb] at hc ⊢
    exact Or.inl ⟨hc, rfl⟩
  | releaseSession w =>
    obtain ⟨b, hb, rfl⟩ := tablesStep_releaseSession hstep
    simp only [Connections.after, hb] at hc ⊢
    exact Or.inl ⟨hc, rfl⟩
  | letGo w =>
    obtain ⟨_, -, rfl⟩ := tablesStep_letGo hstep
    exact Or.inl ⟨hc, rfl⟩
  | recycle b =>
    obtain ⟨-, -, rfl⟩ := tablesStep_recycle hstep
    refine Or.inl ⟨?_, rfl⟩
    by_cases hab : a = b
    · subst hab
      simp [Connections.after] at hc
    · simpa [Connections.after, hab] using hc

/-- A connection is removed by the thread that holds its session. -/
theorem connStep_removed {t : Connections} {l : TablesStep} (h : connStep n s l = some t) {c : Nat} (hc : c ∈ t.removed) :
    c ∈ s.removed ∨ ∃ w a, l = .removeSession w ∧ s.tables.hand w = .got a ∧ s.conn a = some c := by
  obtain ⟨hstep, ht⟩ := connStep_tables h
  rw [ht] at hc
  generalize t.tables = tables at *
  cases l with
  | removeSession w =>
    obtain ⟨a, ha, -, rfl⟩ := tablesStep_removeSession hstep
    simp only [Connections.after, ha] at hc
    rcases List.mem_append.1 hc with hc | hc
    · exact Or.inr ⟨w, a, rfl, ha, Option.mem_toList.1 hc⟩
    · exact Or.inl hc
  | releaseSession w =>
    obtain ⟨a, ha, rfl⟩ := tablesStep_releaseSession hstep
    simp only [Connections.after, ha] at hc
    exact Or.inl hc
  | _ => exact Or.inl hc

/-- What holds besides as long as no UID is drawn that an object has: the objects in use have different UIDs, and a connected
session stays in the `SessionManager` until it is removed. -/
structure LiveInv (s : Connections) : Prop where
  uids : ∀ a b, (s.tables.stage a).HasUID → (s.tables.stage b).HasUID → s.tables.uid a = s.tables.uid b → a = b
  listed : ∀ a c, s.tables.stage a = .connected → s.conn a = some c → c ∉ s.removed →
    s.tables.getSession (s.tables.uid a) = some a

namespace LiveInv

/-- A step that gives no UID and takes no entry out of the `SessionManager`. -/
theorem frame (hs : LiveInv s) {t : Connections} (huid : t.tables.uid = s.tables.uid)
    (hst : ∀ b, (t.tables.stage b).HasUID → (s.tables.stage b).HasUID)
    (hcon : ∀ b c, t.tables.stage b = .connected → t.conn b = some c → s.tables.stage b = .connected ∧ s.conn b = some c)
    (hremoved : t.removed = s.removed)
    (hget : ∀ u a, s.tables.getSession u = some a → t.tables.getSession u = some a) : LiveInv t where
  uids a b ha hb h := by
    rw [huid] at h
    exact hs.uids a b (hst a ha) (hst b hb) h
  listed a c ha hc hno := by
    obtain ⟨ha, hc⟩ := hcon a c ha hc
    rw [huid]
    exact hget _ a (hs.listed a c ha hc (hremoved ▸ hno))

/-- The UID an object gets is one that no other object has. -/
theorem setSessionUID (hs : LiveInv s) {a : Nat} (hfree : ∀ b, (s.tables.stage b).HasUID → s.tables.uid b ≠ s.tables.nextUID) :
    LiveInv (s.after ((s.tables.setSessionUID a).setStage a .numbered) (.setSessionUID a)) := by
  have huid : ∀ b, ((s.tables.setSessionUID a).setStage a .numbered).uid b =
      if b = a then s.tables.nextUID else s.tables.uid b := fun b => Function.update_apply ..
  have hstage : ∀ b, ((s.tables.setSessionUID a).setStage a .numbered).stage b =
      if b = a then .numbered else s.tables.stage b := fun b => stage_setStage ..
  refine ⟨?_, ?_⟩
  · intro b b' hb hb' h
    simp only [Connections.after, huid, hstage] at hb hb' h
    by_cases hba : b = a
    · by_cases hba' : b' = a
      · rw [hba, hba']
      · rw [if_neg hba'] at hb' h
        rw [if_pos hba] at h
        exact absurd h.symm (hfree b' hb')
    · rw [if_neg hba] at hb h
      by_cases hba' : b' = a
      · rw [if_pos hba'] at h
        exact absurd h (hfree b hb)
      · rw [if_neg hba'] at hb' h
        exact hs.uids b b' hb hb' h
  · intro b c hb hc hno
    obtain ⟨hba, hold⟩ := of_stage_setStage (· = .connected) hb (by simp)
    simp only [Connections.after, Function.update_of_ne hba] at hc
    simp only [Connections.after, huid, if_neg hba]
    exact hs.listed b c hold hc hno

theorem onConnected (hs : LiveInv s) (hc : ConnInv n s) {a : Nat} (ha : s.tables.stage a = .numbered) :
    LiveInv { s with tables := (s.tables.onConnected a).setStage a .connected } := by
  have hnone : s.tables.getSession (s.tables.uid a) = none := by
    cases hg : s.tables.getSession (s.tables.uid a) with
    | none => rfl
    | some b =>
      obtain ⟨hb, huid⟩ := hc.manager _ b hg
      obtain rfl := hs.uids b a (Or.inr hb) (Or.inl ha) huid
      rw [ha] at hb
      cases hb
  have heq : s.tables.onConnected a = { s.tables with manager := s.tables.manager.insert (s.tables.uid a) a } := by
    rw [SessionTables.onConnected, hnone]
  have hstage : ∀ b, ((s.tables.onConnected a).setStage a .connected).stage b =
      if b = a then .connected else s.tables.stage b := by
    intro b
    rw [stage_setStage, heq]
  have hold : ∀ b, (((s.tables.onConnected a).setStage a .connected).stage b).HasUID → (s.tables.stage b).HasUID := by
    intro b hb
    rw [stage_setStage_iff Stage.HasUID (by simp [ha, Stage.HasUID]), onConnected_stage] at hb
    exact hb
  refine ⟨?_, ?_⟩
  · intro b b' hb hb' h
    refine hs.uids b b' (hold b hb) (hold b' hb') ?_
    rw [heq] at h
    exact h
  · intro b c hb hcb hno
    simp only [hstage] at hb
    by_cases hba : b = a
    · rw [hba, heq]
      exact AList.lookup_insert _
    · rw [if_neg hba] at hb
      have hne : s.tables.uid b ≠ s.tables.uid a := fun h => hba (hs.uids b a (Or.inr hb) (Or.inl ha) h)
      rw [heq]
      exact (AList.lookup_insert_ne hne).trans (hs.listed b c hb hcb hno)

theorem removeSession (hs : LiveInv s) {w a c : Nat} (ha : s.tables.stage a = .connected) (hc : s.conn a = some c) :
    LiveInv { s with tables := (s.tables.removeSession w a).setHand w (.removed a), removed := c :: s.removed } := by
  refine ⟨hs.uids, ?_⟩
  intro b d hb hd hno
  obtain ⟨hdc, hno⟩ := not_or.1 (mt List.mem_cons.2 hno)
  have hba : b ≠ a := by
    rintro rfl
    exact hdc (Option.some.inj (hd.symm.trans hc))
  have hne : s.tables.uid b ≠ s.tables.uid a := fun h => hba (hs.uids b a (Or.inr hb) (Or.inr ha) h)
  exact (AList.lookup_erase_ne hne).trans (hs.listed b d hb hd hno)

/-- Every step keeps it that gives no object a UID another one has. -/
theorem step (hs : LiveInv s) (hc : ConnInv n s) {t : Connections} {l : TablesStep} (h : connStep n s l = some t)
    (hfree : ∀ a, l = .setSessionUID a → ∀ b, (s.tables.stage b).HasUID → s.tables.uid b ≠ s.tables.nextUID) : LiveInv t := by
  obtain ⟨h, ht⟩ := connStep_tables h
  rw [ht]
  generalize t.tables = tables at h
  clear ht
  cases l with
  | maker =>
    obtain rfl := Option.some.inj h
    refine hs.frame (pop_uid _) ?_ ?_ rfl fun u a ha => ?_
    · intro b hb
      have hold := (of_stage_setStage Stage.HasUID hb (by simp [Stage.HasUID])).2
      rw [pop_stage] at hold
      exact hold
    · intro b c hb hbc
      have hold := (of_stage_setStage (· = .connected) hb (by simp)).2
      rw [pop_stage] at hold
      exact ⟨hold, hbc⟩
    · simpa [Connections.after, SessionTables.getSession, SessionTables.setStage] using ha
  | addSession a =>
    obtain ⟨ha, rfl⟩ := tablesStep_addSession h
    refine hs.frame rfl ?_ ?_ rfl fun _ _ h => h
    · exact fun b hb => (of_stage_setStage Stage.HasUID hb (by simp [Stage.HasUID])).2
    · exact fun b c hb hbc => ⟨(of_stage_setStage (· = .connected) hb (by simp)).2, hbc⟩
  | setSessionUID a =>
    obtain ⟨-, rfl⟩ := tablesStep_setSessionUID h
    exact hs.setSessionUID (hfree a rfl)
  | onConnected a =>
    obtain ⟨ha, rfl⟩ := tablesStep_onConnected h
    exact hs.onConnected hc ha
  | getSession w u =>
    obtain ⟨-, -, ⟨-, rfl⟩ | ⟨a, -, rfl⟩⟩ := tablesStep_getSession h
    · exact hs
    · exact ⟨hs.uids, hs.listed⟩
  | removeSession w =>
    obtain ⟨a, ha, -, rfl⟩ := tablesStep_removeSession h
    have hcon := (hc.holds w a (Or.inl ha)).2
    obtain ⟨c, hca⟩ := hc.conn_of_connected hcon
    simp only [Connections.after, ha, hca, Option.toList_some, List.singleton_append]
    exact hs.removeSession hcon hca
  | releaseSession w =>
    obtain ⟨a, ha, rfl⟩ := tablesStep_releaseSession h
    simp only [Connections.after, ha]
    exact ⟨hs.uids, hs.listed⟩
  | letGo w =>
    obtain ⟨_, -, rfl⟩ := tablesStep_letGo h
    exact ⟨hs.uids, hs.listed⟩
  | recycle a =>
    obtain ⟨-, -, rfl⟩ := tablesStep_recycle h
    refine hs.frame rfl ?_ ?_ rfl fun _ _ h => h
    · exact fun b hb => (of_stage_setStage Stage.HasUID hb (by simp [Stage.HasUID])).2
    · intro b c hb hbc
      obtain ⟨hba, hold⟩ := of_stage_setStage (· = .connected) hb (by simp)
      simp only [Connections.after, Function.update_of_ne hba] at hbc
      exact ⟨hold, hbc⟩

end LiveInv

end

end ProjectYJ

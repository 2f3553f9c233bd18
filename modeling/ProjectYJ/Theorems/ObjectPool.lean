import ProjectYJ.Lib.Loans
import ProjectYJ.ObjectPool
import ProjectYJ.Theorems.SessionUIDs

/-!
# Who owns the objects of a pool

The objects of a pool are things on loan: on the stack, or out under the `Pop` whose `shared_ptr`s own them. An object comes back
only through the deleter of that one control block, once, so that no two owners ever meet (`objectPool_owned`). The pool in the
session tables is one of these (`tables_run_objectPool`).
-/

namespace ProjectYJ

namespace ObjectPool

/-- Every object made is on the stack once, or owned by the `shared_ptr`s of one `Pop`, and not both. -/
structure Owned (s : ObjectPool) : Prop where
  nodup : s.pool.Nodup
  disjoint : ∀ obj ∈ s.pool, ¬s.Live obj
  alone : ∀ k j obj, s.LiveThrough k obj → s.LiveThrough j obj → k = j
  all : ∀ obj, obj < s.made ↔ obj ∈ s.pool ∨ s.Live obj

/-- What a `Pop` that returns must do: the object was not live, is not on the stack, and is live through this `Pop` only. -/
def PopsUnowned (logsDebug : Bool) (s : ObjectPool) : Prop :=
  ∀ obj t, s.pop logsDebug = some (obj, t) → ¬s.Live obj ∧ obj ∉ t.pool ∧ ∀ k, t.LiveThrough k obj ↔ k = s.pops

/-- What `Clean` must do: delete each object that is not live, and no other, once. -/
structure CleansFree (s : ObjectPool) : Prop where
  nodup : s.clean.1.Nodup
  deleted : ∀ obj, obj ∈ s.clean.1 ↔ obj < s.made ∧ ¬s.Live obj
  pool : s.clean.2.pool = []

/-! ## A pool as things on loan -/

/-- The stack is the shelf, and the `Pop`s are the tickets. -/
def loans (s : ObjectPool) : Loans Nat Nat where
  shelf := s.pool
  out := fun k => (s.block k).map (·.1)

variable {s t : ObjectPool} {logsDebug : Bool}

theorem liveThrough_iff (k obj : Nat) : s.LiveThrough k obj ↔ s.loans.out k = some obj := by
  constructor
  · rintro ⟨count, hk⟩
    simp only [loans, hk, Option.map_some]
  · intro h
    obtain ⟨b, hb, rfl⟩ := Option.map_eq_some_iff.1 h
    exact ⟨b.2, hb⟩

theorem live_iff (obj : Nat) : s.Live obj ↔ s.loans.Out obj :=
  exists_congr fun k => liveThrough_iff k obj

/-- What holds between two steps: the objects made are kept, and no control block is of a later `Pop`. -/
structure Inv (s : ObjectPool) : Prop where
  kept : s.loans.Kept fun obj => obj < s.made
  block : ∀ k, s.pops ≤ k → s.block k = none

theorem Inv.init : Inv ObjectPool.init where
  kept := by
    have hout : ∀ k a, ObjectPool.init.loans.out k ≠ some a := by
      rintro k a ⟨⟩
    refine ⟨List.nodup_nil, fun k a hk => absurd hk (hout k a), fun k j a hk => absurd hk (hout k a), ?_⟩
    intro a
    refine iff_of_false (Nat.not_lt_zero a) ?_
    rintro (h | ⟨k, hk⟩)
    · exact List.not_mem_nil h
    · exact hout k a hk
  block := fun _ _ => rfl

/-- The objects are those made. -/
theorem lt_made_succ (n obj : Nat) : obj < n + 1 ↔ obj = n ∨ obj < n := by
  omega

theorem Inv.pushNew (hs : Inv s) : Inv s.pushNew where
  kept := hs.kept.add (Nat.lt_irrefl s.made) (lt_made_succ s.made)
  block := hs.block

theorem Inv.initPool (hs : Inv s) (count : Nat) : Inv (s.initPool count) := by
  induction count generalizing s with
  | zero => exact hs
  | succ count ih => exact ih hs.pushNew

/-- No control block of the next `Pop` is there yet. -/
theorem Inv.out_pops (hs : Inv s) : s.loans.out s.pops = none := by
  simp only [loans, hs.block s.pops (Nat.le_refl _), Option.map_none]

/-- To hand an object out is to lend it under the number of the `Pop`. -/
theorem loans_handOut (s : ObjectPool) (obj : Nat) (rest : List Nat) (made : Nat) :
    ({ s with pool := rest, made := made }.handOut obj).loans = s.loans.lend s.pops obj rest := by
  have hout : (fun k => (Function.update s.block s.pops (some (obj, 1)) k).map (·.1)) =
      Function.update (fun k => (s.block k).map (·.1)) s.pops (some obj) := by
    funext k
    by_cases hk : k = s.pops
    · subst hk
      rw [Function.update_self, Function.update_self, Option.map_some]
    · rw [Function.update_of_ne hk, Function.update_of_ne hk]
  exact congrArg (Loans.mk rest) hout

/-- After a `Pop` the control blocks are those of earlier ones and its own. -/
theorem Inv.block_handOut (hs : Inv s) (obj k : Nat) (hk : s.pops + 1 ≤ k) :
    Function.update s.block s.pops (some (obj, 1)) k = none := by
  rw [Function.update_of_ne (by omega)]
  exact hs.block k (by omega)

/-- What a `Pop` that returns does: it takes the object on top of the stack or makes one, and hands it out. -/
theorem pop_cases {obj : Nat} (h : s.pop logsDebug = some (obj, t)) :
    (∃ rest, s.pool = obj :: rest ∧ t = { s with pool := rest }.handOut obj) ∨
      (s.pool = [] ∧ obj = s.made ∧ t = { s with made := s.made + 1 }.handOut s.made) := by
  unfold pop at h
  split at h
  · rename_i top rest hpool
    obtain ⟨rfl, rfl⟩ := Prod.mk.inj (Option.some.inj h)
    exact Or.inl ⟨rest, hpool, rfl⟩
  · rename_i hpool
    split at h
    · cases h
    · obtain ⟨rfl, rfl⟩ := Prod.mk.inj (Option.some.inj h)
      exact Or.inr ⟨hpool, rfl, rfl⟩

/-- A `Pop` lends an object that is not out, under its own number. -/
theorem Inv.pop (hs : Inv s) {obj : Nat} (h : s.pop logsDebug = some (obj, t)) :
    Inv t ∧ ¬s.Live obj ∧ t.loans = s.loans.lend s.pops obj t.pool ∧ obj ∉ t.pool := by
  rcases pop_cases h with ⟨rest, hpool, rfl⟩ | ⟨hpool, rfl, rfl⟩
  · have hloans := loans_handOut s obj rest s.made
    have hkept := hs.kept.lendFirst hs.out_pops (show s.loans.shelf = obj :: rest from hpool)
    refine ⟨⟨?_, hs.block_handOut obj⟩, ?_, hloans, ?_⟩
    · rw [hloans]
      exact hkept
    · rw [live_iff]
      exact hs.kept.not_out (show obj ∈ s.pool from hpool ▸ List.mem_cons_self)
    · exact fun hmem => hkept.home s.pops obj (Loans.lend_self ..) hmem
  · have hloans := loans_handOut s s.made s.pool (s.made + 1)
    have hkept := hs.kept.lendNew hs.out_pops (Nat.lt_irrefl s.made) (lt_made_succ s.made)
    refine ⟨⟨?_, hs.block_handOut s.made⟩, ?_, hloans, ?_⟩
    · rw [hloans]
      exact hkept
    · rw [live_iff]
      exact fun hout => Nat.lt_irrefl s.made ((hs.kept.owned_iff s.made).2 (Or.inr hout))
    · exact fun hmem => hkept.home s.pops s.made (Loans.lend_self ..) hmem

/-- Copies and all but the last end of a `shared_ptr` change the use count only. -/
theorem Inv.setCount (hs : Inv s) {k obj count : Nat} (hk : s.block k = some (obj, count)) (count' : Nat) :
    Inv { s with block := Function.update s.block k (some (obj, count')) } where
  kept := by
    have hout : (fun j => (Function.update s.block k (some (obj, count')) j).map (·.1)) = s.loans.out := by
      funext j
      by_cases hj : j = k
      · subst hj
        rw [Function.update_self, (liveThrough_iff j obj).1 ⟨count, hk⟩, Option.map_some]
      · rw [Function.update_of_ne hj, loans]
    have hloans : loans { s with block := Function.update s.block k (some (obj, count')) } = s.loans :=
      congrArg (Loans.mk s.pool) hout
    rw [hloans]
    exact hs.kept
  block := by
    intro j hj
    have hjk : j ≠ k := by
      rintro rfl
      rw [hs.block j hj] at hk
      cases hk
    simp only [Function.update_of_ne hjk]
    exact hs.block j hj

/-- The deleter brings the object back. -/
theorem Inv.push (hs : Inv s) {k obj count : Nat} (hk : s.block k = some (obj, count)) : Inv (s.push k obj) where
  kept := by
    have hout : (fun j => (Function.update s.block k none j).map (·.1)) = Function.update s.loans.out k none := by
      funext j
      by_cases hj : j = k
      · subst hj
        rw [Function.update_self, Function.update_self, Option.map_none]
      · rw [Function.update_of_ne hj, Function.update_of_ne hj, loans]
    have hloans : (s.push k obj).loans = s.loans.takeBack k obj := congrArg (Loans.mk (obj :: s.pool)) hout
    rw [hloans]
    exact hs.kept.takeBack ((liveThrough_iff k obj).1 ⟨count, hk⟩)
  block := by
    intro j hj
    by_cases hjk : j = k
    · subst hjk
      exact Function.update_self ..
    · exact (Function.update_of_ne hjk ..).trans (hs.block j hj)

theorem Inv.step (hs : Inv s) {l : ObjectUse} (h : objectPoolStep logsDebug s l = some t) : Inv t := by
  cases l with
  | initPool count =>
    obtain ⟨-, ⟨⟩⟩ := Option.ite_none_left_eq_some.1 h
    exact hs.initPool count
  | pop =>
    obtain ⟨-, h⟩ := Option.ite_none_left_eq_some.1 h
    cases hpop : s.pop logsDebug with
    | none =>
      rw [hpop] at h
      obtain rfl := Option.some.inj h
      exact ⟨hs.kept, hs.block⟩
    | some r =>
      rw [hpop] at h
      obtain rfl := Option.some.inj h
      exact (hs.pop hpop).1
  | copy k =>
    obtain ⟨b, hb, rfl⟩ := Option.map_eq_some_iff.1 h
    exact hs.setCount hb (b.2 + 1)
  | drop k =>
    obtain ⟨b, hb, h⟩ := Option.bind_eq_some_iff.1 h
    split at h
    · obtain rfl := Option.some.inj h
      exact hs.setCount hb (b.2 - 1)
    · obtain ⟨-, ⟨⟩⟩ := Option.ite_none_left_eq_some.1 h
      exact hs.push hb

theorem Inv.owned (hs : Inv s) : s.Owned where
  nodup := hs.kept.nodup
  disjoint := by
    intro obj hobj
    rw [live_iff]
    exact hs.kept.not_out hobj
  alone := by
    intro k j obj hk hj
    exact hs.kept.alone k j obj ((liveThrough_iff k obj).1 hk) ((liveThrough_iff j obj).1 hj)
  all := by
    intro obj
    rw [live_iff]
    exact hs.kept.owned_iff obj

theorem Inv.popsUnowned (hs : Inv s) : s.PopsUnowned logsDebug := by
  intro obj t h
  obtain ⟨ht, hlive, hloans, hpool⟩ := hs.pop h
  refine ⟨hlive, hpool, fun k => ?_⟩
  have hthis : t.loans.out s.pops = some obj := by
    rw [hloans]
    exact Loans.lend_self ..
  rw [liveThrough_iff]
  constructor
  · intro hk
    exact ht.kept.alone k s.pops obj hk hthis
  · rintro rfl
    exact hthis

theorem Owned.cleansFree (hs : s.Owned) : s.CleansFree where
  nodup := hs.nodup
  deleted := by
    intro obj
    rw [hs.all]
    constructor
    · intro hobj
      exact ⟨Or.inl hobj, hs.disjoint obj hobj⟩
    · rintro ⟨hobj | hlive, hnot⟩
      · exact hobj
      · exact absurd hlive hnot
  pool := rfl

end ObjectPool

/-- For every sequence of `InitPool`, `Pop`, copies and ends of `shared_ptr`s, with or without debug messages in the log: every
object made is on the stack once or owned through one `Pop`; a `Pop` that returns hands out an object nobody owns; and `Clean`
deletes exactly the objects that are not live, each once. -/
theorem objectPool_owned (logsDebug : Bool) {ls : List ObjectUse} {s : ObjectPool}
    (h : (objectPoolSystem logsDebug).run ObjectPool.init ls = some s) :
    s.Owned ∧ s.PopsUnowned logsDebug ∧ s.CleansFree := by
  have hs : s.Inv := (objectPoolSystem logsDebug).run_invariant (fun _ _ _ hs h => hs.step h) ObjectPool.Inv.init h
  exact ⟨hs.owned, hs.popsUnowned, hs.owned.cleansFree⟩

/-- Two pooled objects, both handed out, a third made; they come back in another order, one of them after a copy. -/
def popsThree : List ObjectUse := [.initPool 2, .pop, .pop, .copy 0, .pop, .drop 1, .drop 0, .drop 2, .drop 0, .pop]

theorem objectPool_owned_popsThree : ∃ s, (objectPoolSystem false).run ObjectPool.init popsThree = some s ∧ s.pool = [2, 0] ∧
    s.Owned ∧ s.PopsUnowned false ∧ s.CleansFree := by
  have hrun : ((objectPoolSystem false).run ObjectPool.init popsThree).map (fun s => s.pool) = some [2, 0] := by decide
  obtain ⟨s, hs, hpool⟩ := Option.map_eq_some_iff.1 hrun
  exact ⟨s, hs, hpool, objectPool_owned false hs⟩

/-! ## The pool of the sessions -/

/-- The pool of session objects that these tables draw on: the same stack, as many objects made, and one `shared_ptr` for each
control block. -/
structure ObjectPool.Behind (p : ObjectPool) (s : SessionTables) : Prop where
  pool : p.pool = s.pool
  made : p.made = s.made
  unlocked : p.locked = false
  single : ∀ k b, p.block k = some b → b.2 = 1

namespace ObjectPool

variable {p : ObjectPool} {s t : SessionTables}

/-- `InitPool` makes objects one by one, the last on top. -/
theorem initPool_eq (p : ObjectPool) (count : Nat) :
    p.initPool count = { p with pool := (List.range' p.made count).reverse ++ p.pool, made := p.made + count } := by
  induction count generalizing p with
  | zero => rfl
  | succ count ih =>
    rw [ObjectPool.initPool, ih, List.range'_succ, List.reverse_cons, List.append_assoc, pushNew]
    simp only [Nat.add_assoc, Nat.add_comm 1 count, List.singleton_append]

theorem Behind.init (poolSize : Nat) : (ObjectPool.init.initPool poolSize).Behind (SessionTables.init poolSize) := by
  rw [initPool_eq]
  refine ⟨?_, Nat.zero_add poolSize, rfl, fun k b hb => ?_⟩
  · exact (List.append_nil _).trans (congrArg List.reverse List.range_eq_range'.symm)
  · cases hb

/-- The object a `Pop` hands out has one `shared_ptr`. -/
theorem Behind.handOut (h : ∀ k b, p.block k = some b → b.2 = 1) (obj k : Nat) (b : Nat × Nat)
    (hb : (p.handOut obj).block k = some b) : b.2 = 1 := by
  simp only [ObjectPool.handOut] at hb
  by_cases hk : k = p.pops
  · rw [hk, Function.update_self] at hb
    obtain rfl := Option.some.inj hb
    rfl
  · rw [Function.update_of_ne hk] at hb
    exact h k b hb

/-- The `SessionMaker` is a `Pop`. -/
theorem Behind.maker (h : p.Behind s) :
    ∃ q, objectPoolStep false p .pop = some q ∧ q.Behind (s.pop.2.setStage s.pop.1 .popped) := by
  cases hpool : s.pool with
  | nil =>
    have hpop : p.pop false = some (p.made, { p with made := p.made + 1 }.handOut p.made) := by
      rw [ObjectPool.pop, h.pool, hpool]
      rfl
    refine ⟨_, by rw [objectPoolStep, h.unlocked, hpop]; rfl, ?_⟩
    rw [SessionTables.pop, hpool]
    exact ⟨h.pool.trans hpool, congrArg (· + 1) h.made, h.unlocked, Behind.handOut h.single p.made⟩
  | cons a rest =>
    have hpop : p.pop false = some (a, { p with pool := rest }.handOut a) := by
      rw [ObjectPool.pop, h.pool, hpool]
    refine ⟨_, by rw [objectPoolStep, h.unlocked, hpop]; rfl, ?_⟩
    rw [SessionTables.pop, hpool]
    exact ⟨rfl, h.made, h.unlocked, Behind.handOut h.single a⟩

/-- The deleter that gives a session object back is the end of the one `shared_ptr` of its `Pop`. -/
theorem Behind.recycle (h : p.Behind s) (hp : p.Inv) (hs : PoolInv s) {a : Nat} (ha : s.stage a = .connected) :
    ∃ k q, objectPoolStep false p (.drop k) = some q ∧ q.Behind ({ s with pool := a :: s.pool }.setStage a .pooled) := by
  have hmade : a < p.made := by
    rw [h.made]
    refine Nat.lt_of_not_le fun hle => ?_
    rw [hs.unmade a hle] at ha
    cases ha
  have hnot : a ∉ p.pool := by
    rw [h.pool]
    intro hmem
    rw [(hs.pooled a hmem).1] at ha
    cases ha
  obtain ⟨k, count, hk⟩ := ((hp.owned.all a).1 hmade).resolve_left hnot
  obtain rfl : count = 1 := h.single k _ hk
  refine ⟨k, p.push k a, ?_, congrArg (List.cons a) h.pool, h.made, h.unlocked, fun j b hb => ?_⟩
  · simp only [objectPoolStep, hk, Option.bind_some, h.unlocked]
    rfl
  · simp only [ObjectPool.push] at hb
    by_cases hj : j = k
    · rw [hj, Function.update_self] at hb
      cases hb
    · rw [Function.update_of_ne hj] at hb
      exact h.single j b hb

/-- No other step of the tables touches the pool. -/
theorem Behind.frame (h : p.Behind s) (hpool : t.pool = s.pool) (hmade : t.made = s.made) : p.Behind t :=
  ⟨h.pool.trans hpool.symm, h.made.trans hmade.symm, h.unlocked, h.single⟩

/-- Each step of the tables is a use of the pool, or none. -/
theorem Behind.step {n : Nat} (h : p.Behind s) (hp : p.Inv) (hs : PoolInv s) {l : TablesStep}
    (hstep : tablesStep n s l = some t) :
    ∃ uses q, (objectPoolSystem false).run p uses = some q ∧ q.Behind t := by
  cases l with
  | maker =>
    obtain rfl := Option.some.inj hstep
    obtain ⟨q, hq, hbehind⟩ := h.maker
    exact ⟨[.pop], q, (Lts.run_step hq _).trans rfl, hbehind⟩
  | addSession a =>
    obtain ⟨-, rfl⟩ := tablesStep_addSession hstep
    exact ⟨[], p, rfl, h.frame rfl rfl⟩
  | setSessionUID a =>
    obtain ⟨-, rfl⟩ := tablesStep_setSessionUID hstep
    exact ⟨[], p, rfl, h.frame rfl rfl⟩
  | onConnected a =>
    obtain ⟨-, rfl⟩ := tablesStep_onConnected hstep
    exact ⟨[], p, rfl, h.frame (onConnected_pool s a) (onConnected_made s a)⟩
  | getSession w u =>
    obtain ⟨-, -, ⟨-, rfl⟩ | ⟨a, -, rfl⟩⟩ := tablesStep_getSession hstep
    · exact ⟨[], p, rfl, h⟩
    · exact ⟨[], p, rfl, h.frame rfl rfl⟩
  | removeSession w =>
    obtain ⟨a, -, -, rfl⟩ := tablesStep_removeSession hstep
    exact ⟨[], p, rfl, h.frame rfl rfl⟩
  | releaseSession w =>
    obtain ⟨a, -, rfl⟩ := tablesStep_releaseSession hstep
    exact ⟨[], p, rfl, h.frame rfl rfl⟩
  | letGo w =>
    obtain ⟨a, -, rfl⟩ := tablesStep_letGo hstep
    exact ⟨[], p, rfl, h.frame rfl rfl⟩
  | recycle a =>
    obtain ⟨ha, -, rfl⟩ := tablesStep_recycle hstep
    obtain ⟨k, q, hq, hbehind⟩ := h.recycle hp hs ha
    exact ⟨[.drop k], q, (Lts.run_step hq _).trans rfl, hbehind⟩

end ObjectPool

/-- Every run of the session tables is one of an `ObjectPool`: some sequence of `InitPool`, `Pop`s and ends of `shared_ptr`s leads
to the stack and the number of objects that the tables have. -/
theorem tables_run_objectPool {numThreads poolSize : Nat} {ls : List TablesStep} {s : SessionTables}
    (h : (tablesSystem numThreads poolSize).run (SessionTables.init poolSize) ls = some s) :
    ∃ uses p, (objectPoolSystem false).run ObjectPool.init uses = some p ∧ p.Behind s := by
  have hstep : ∀ r l t p, ((∃ c, Followed numThreads r c) ∧ p.Inv ∧ p.Behind r) → tablesStep numThreads r l = some t →
      ∃ uses q, (objectPoolSystem false).run p uses = some q ∧ ((∃ c, Followed numThreads t c) ∧ q.Inv ∧ q.Behind t) := by
    rintro r l t p ⟨⟨c, hc⟩, hp, hbehind⟩ hstep
    obtain ⟨d, -, hd⟩ := connStep_of_tablesStep hc hstep
    obtain ⟨uses, q, hq, hbehind'⟩ := hbehind.step hp (hc.1 ▸ hc.2.pool) hstep
    have hqinv : q.Inv := (objectPoolSystem false).run_invariant (fun _ _ _ hs h => hs.step h) hp hq
    exact ⟨uses, q, hq, ⟨d, hd⟩, hqinv, hbehind'⟩
  obtain ⟨uses, p, hrun, -, -, hbehind⟩ := (tablesSystem numThreads poolSize).run_simulation hstep
    ⟨⟨Connections.init poolSize, rfl, ConnInv.init numThreads poolSize⟩, ObjectPool.Inv.init.initPool poolSize,
      ObjectPool.Behind.init poolSize⟩ h
  have hinit : (objectPoolSystem false).run ObjectPool.init [.initPool poolSize] = some (ObjectPool.init.initPool poolSize) := rfl
  exact ⟨.initPool poolSize :: uses, p, (Lts.run_append_of hinit uses).trans hrun, hbehind⟩

end ProjectYJ

import ProjectYJ.Lemmas.SessionTables
import ProjectYJ.Lib.HandOver
import ProjectYJ.Router

/-!
# Order and exactly-once hand-over

The router is a `HandOver` of the items by the UID of their session. An item is dropped only when its session is no longer
in the `SessionManager`, and then it was closed and is never found again; so no item of a session is handled after one was
dropped, and the items `HandlePacket` was called for are the first of those dispatched.
-/

namespace ProjectYJ

open RouterState RecvState HandOver

variable {n m : Nat} {s t : RouterState}

/-! ## One label at a time -/

theorem routerStep_tables {l : TablesStep} (h : routerStep n m s (.tables l) = some t) :
    ∃ tables, tablesStep (n + m) s.tables l = some tables ∧ t = { s with tables := tables } := by
  simp only [routerStep, Option.ite_none_right_eq_some] at h
  obtain ⟨tables, ht, rfl⟩ := Option.map_eq_some_iff.1 h.2
  exact ⟨tables, ht, rfl⟩

theorem routerStep_dispatch {a buffer : Nat} {len : Int} {bytes : List UInt8}
    (h : routerStep n m s (.dispatch a buffer len bytes) = some t) :
    s.tables.stage a = .connected ∧ t = s.dispatch n ⟨s.tables.uid a, buffer, len, bytes⟩ := by
  simp only [routerStep, Option.ite_none_right_eq_some, Option.some.injEq] at h
  exact ⟨h.1, h.2.symm⟩

theorem routerStep_pop {w : Int} (h : routerStep n m s (.pop w) = some t) :
    s.hand w = .idle ∧ ∃ item rest, s.packetQueue w = item :: rest ∧
      t = { s with packetQueue := Function.update s.packetQueue w rest }.setHand w (.popped item) := by
  simp only [routerStep, Option.ite_none_right_eq_some] at h
  obtain ⟨⟨_, _, hh⟩, h⟩ := h
  refine ⟨hh, ?_⟩
  cases hq : s.packetQueue w with
  | nil =>
    rw [hq] at h
    cases h
  | cons item rest =>
    rw [hq] at h
    exact ⟨item, rest, rfl, (Option.some.inj h).symm⟩

/-- A worker whose item's session is not found drops the item; otherwise it goes on with it. -/
theorem routerStep_getSession {w : Int} (h : routerStep n m s (.getSession w) = some t) :
    ∃ item tables, s.hand w = .popped item ∧
      tablesStep (n + m) s.tables (.getSession w.toNat item.sessionId) = some tables ∧
      ((s.tables.getSession item.sessionId = none ∧
          t = { s with tables := tables, dropped := s.dropped ++ [item] }.setHand w .idle) ∨
        ((s.tables.getSession item.sessionId).isSome ∧ t = { s with tables := tables }.setHand w (.found item))) := by
  simp only [routerStep] at h
  split at h
  · rename_i item hh
    obtain ⟨tables, ht, rfl⟩ := Option.map_eq_some_iff.1 h
    refine ⟨item, tables, hh, ht, ?_⟩
    cases s.tables.getSession item.sessionId with
    | none => exact Or.inl ⟨rfl, rfl⟩
    | some a => exact Or.inr ⟨rfl, rfl⟩
  · cases h

theorem routerStep_handlePacket {w : Int} (h : routerStep n m s (.handlePacket w) = some t) :
    ∃ item, s.hand w = .found item ∧ t = { s with handled := s.handled ++ [item] }.setHand w (.handling item) := by
  simp only [routerStep] at h
  split at h
  · rename_i item hh
    exact ⟨item, hh, (Option.some.inj h).symm⟩
  · cases h

theorem routerStep_handled {w : Int} (h : routerStep n m s (.handled w) = some t) :
    ∃ item tables, s.hand w = .handling item ∧ tablesStep (n + m) s.tables (.letGo w.toNat) = some tables ∧
      t = { s with tables := tables }.setHand w .idle := by
  simp only [routerStep] at h
  split at h
  · rename_i item hh
    obtain ⟨tables, ht, rfl⟩ := Option.map_eq_some_iff.1 h
    exact ⟨item, tables, hh, ht, rfl⟩
  · cases h

/-! ## The router as a hand-over -/

/-- The item a worker has still to handle. -/
def WorkerHand.pending? : WorkerHand → Option PacketQueueItem
  | .popped item => some item
  | .found item => some item
  | _ => none

/-- The queues, what the workers have still to handle, and what happened to the items. -/
def RouterState.handOver (s : RouterState) : HandOver Int PacketQueueItem where
  queue := s.packetQueue
  hand := fun w => (s.hand w).pending?
  dispatched := s.dispatched
  handled := s.handled
  dropped := s.dropped

/-- What a worker in this state of its loop has still to handle. -/
theorem handOver_hand {w : Int} {h : WorkerHand} (hw : s.hand w = h) : s.handOver.hand w = h.pending? :=
  congrArg WorkerHand.pending? hw

/-- After `setHand` the worker is where it was put, and every other one where it was. -/
theorem eq_of_setHand {v w : Int} {h x : WorkerHand} (hv : (s.setHand w h).hand v = x) :
    (v = w ∧ h = x) ∨ (v ≠ w ∧ s.hand v = x) := by
  by_cases hvw : v = w
  · subst hvw
    simp only [RouterState.setHand, Function.update_self] at hv
    exact Or.inl ⟨rfl, hv⟩
  · simp only [RouterState.setHand, Function.update_of_ne hvw] at hv
    exact Or.inr ⟨hvw, hv⟩

/-- A worker that is not the one which went on is where it was. -/
theorem hand_of_setHand {w v : Int} {h h' : WorkerHand} (hv : (s.setHand w h).hand v = h') (hne : h ≠ h') : s.hand v = h' := by
  rcases eq_of_setHand hv with ⟨_, hnow⟩ | ⟨_, hold⟩
  · exact absurd hnow hne
  · exact hold

theorem hand_setHand (s : RouterState) (w : Int) (h : WorkerHand) :
    (s.setHand w h).handOver.hand = Function.update s.handOver.hand w h.pending? := by
  funext v
  rcases eq_of_setHand (s := s) (w := w) (h := h) (v := v) rfl with ⟨rfl, hx⟩ | ⟨hvw, hx⟩
  · rw [handOver_hand hx.symm, Function.update_self]
  · rw [handOver_hand hx.symm, Function.update_of_ne hvw]
    rfl

/-- A worker that goes on with the item it has, or that has nothing more to handle, changes nothing. -/
theorem hand_setHand_same {w : Int} {h : WorkerHand} (hw : (s.hand w).pending? = h.pending?) :
    (s.setHand w h).handOver.hand = s.handOver.hand := by
  rw [hand_setHand, ← hw]
  exact Function.update_eq_self w s.handOver.hand

/-- The items by the UID of their session, each with its worker and in order; each dispatched for a UID that is or was
registered, dropped only for a UID that was closed, and none dropped of the session a worker has just found. -/
structure RouterInv (n m : Nat) (s : RouterState) : Prop where
  tables : TablesInv (n + m) s.tables
  routed : Routed PacketQueueItem.sessionId (workerIndex n) s.handOver
  handling : ∀ w item, s.hand w = .handling item → workerIndex n item.sessionId = w
  inOrder : InOrder PacketQueueItem.sessionId (workerIndex n) s.handOver
  known : ∀ item ∈ s.dispatched, s.tables.Known item.sessionId
  dropped : ∀ item ∈ s.dropped, item.sessionId ∈ s.tables.closed
  found : ∀ w item, s.hand w = .found item → ofKey PacketQueueItem.sessionId item.sessionId s.dropped = []

namespace RouterInv

theorem init (n m poolSize : Nat) : RouterInv n m (RouterState.init poolSize) where
  tables := TablesInv.init (n + m) poolSize
  routed := ⟨fun _ _ h => absurd h List.not_mem_nil, nofun⟩
  handling := nofun
  inOrder _ := rfl
  known _ h := absurd h List.not_mem_nil
  dropped _ h := absurd h List.not_mem_nil
  found := nofun

/-- An item in a hand was dispatched. -/
theorem known_of_hand (hs : RouterInv n m s) {w : Int} {item : PacketQueueItem} (hw : (s.hand w).pending? = some item) :
    s.tables.Known item.sessionId := by
  have hworker := hs.routed.hand w item hw
  have hmem : item ∈ ofKey PacketQueueItem.sessionId item.sessionId s.handOver.dispatched := by
    rw [hs.inOrder item.sessionId, hworker, waiting_of_hand hw, ofKey_cons, ofKey_singleton, if_pos rfl]
    simp
  exact hs.known item (List.mem_filter.1 hmem).1

/-- A step of the session tables. -/
theorem tables_step (hs : RouterInv n m s) {l : TablesStep} {tables : SessionTables}
    (h : tablesStep (n + m) s.tables l = some tables) (hc : tables.created < 2147483648) :
    RouterInv n m { s with tables := tables } where
  tables := hs.tables.step h hc
  routed := hs.routed
  handling := hs.handling
  inOrder := hs.inOrder
  known item hi := tablesStep_known h (hs.known item hi)
  dropped item hi := (tablesStep_grows h).2 (hs.dropped item hi)
  found := hs.found

theorem dispatch_step (hs : RouterInv n m s) {item : PacketQueueItem} (hk : s.tables.Known item.sessionId) :
    RouterInv n m (s.dispatch n item) where
  tables := hs.tables
  routed := hs.routed.push item
  handling := hs.handling
  inOrder := hs.inOrder.push item
  known i hi := by
    rcases List.mem_append.1 hi with hi | hi
    · exact hs.known i hi
    · rw [List.mem_singleton.1 hi]
      exact hk
  dropped := hs.dropped
  found := hs.found

/-- A worker goes on to a stage in which it has the same item to handle, or none as before. -/
theorem setHand_same (hs : RouterInv n m s) {w : Int} {h : WorkerHand} (hw : (s.hand w).pending? = h.pending?)
    (hh : ∀ item, h ≠ .handling item)
    (hf : ∀ item, h = .found item → ofKey PacketQueueItem.sessionId item.sessionId s.dropped = []) :
    RouterInv n m (s.setHand w h) := by
  have hsame : (s.setHand w h).handOver = s.handOver := by
    rw [handOver, HandOver.mk.injEq]
    exact ⟨rfl, hand_setHand_same hw, rfl, rfl, rfl⟩
  refine ⟨hs.tables, hsame ▸ hs.routed, ?_, hsame ▸ hs.inOrder, hs.known, hs.dropped, ?_⟩
  · exact fun v item hv => hs.handling v item (hand_of_setHand hv (hh item))
  · intro v item hv
    rcases eq_of_setHand hv with ⟨_, hnow⟩ | ⟨_, hold⟩
    · exact hf item hnow
    · exact hs.found v item hold

theorem pop_step (hs : RouterInv n m s) {w : Int} {item : PacketQueueItem} {rest : List PacketQueueItem}
    (hi : s.hand w = .idle) (hq : s.packetQueue w = item :: rest) :
    RouterInv n m ({ s with packetQueue := Function.update s.packetQueue w rest }.setHand w (.popped item)) := by
  have heq : ({ s with packetQueue := Function.update s.packetQueue w rest }.setHand w (.popped item)).handOver =
      s.handOver.pop w item rest := by
    rw [handOver, HandOver.pop, HandOver.mk.injEq]
    exact ⟨rfl, hand_setHand { s with packetQueue := Function.update s.packetQueue w rest } w _, rfl, rfl, rfl⟩
  have hnone : s.handOver.hand w = none := handOver_hand hi
  refine ⟨hs.tables, heq ▸ hs.routed.pop hq, ?_, heq ▸ hs.inOrder.pop hnone hq, hs.known, hs.dropped, ?_⟩
  · exact fun v i hv => hs.handling v i (hand_of_setHand hv (by simp))
  · exact fun v i hv => hs.found v i (hand_of_setHand hv (by simp))

/-- An item whose session is not found is dropped: the session was closed. -/
theorem drop_step (hs : RouterInv n m s) {w : Int} {item : PacketQueueItem} (hi : s.hand w = .popped item)
    (hg : s.tables.getSession item.sessionId = none) :
    RouterInv n m ({ s with dropped := s.dropped ++ [item] }.setHand w .idle) := by
  have hhand : s.handOver.hand w = some item := handOver_hand hi
  have heq : ({ s with dropped := s.dropped ++ [item] }.setHand w .idle).handOver = s.handOver.drop w item := by
    rw [handOver, HandOver.drop, HandOver.mk.injEq]
    exact ⟨rfl, hand_setHand { s with dropped := s.dropped ++ [item] } w _, rfl, rfl, rfl⟩
  have hclosed : item.sessionId ∈ s.tables.closed := by
    rcases @known_of_hand _ _ _ hs w item hhand with h | h
    · rw [hg] at h
      cases h
    · exact h
  refine ⟨hs.tables, heq ▸ hs.routed.release w rfl rfl, ?_, heq ▸ hs.inOrder.drop hs.routed hhand, hs.known, ?_, ?_⟩
  · exact fun v i hv => hs.handling v i (hand_of_setHand hv (by simp))
  · intro i hmem
    rcases List.mem_append.1 hmem with hmem | hmem
    · exact hs.dropped i hmem
    · rw [List.mem_singleton.1 hmem]
      exact hclosed
  · intro v i hv
    rcases eq_of_setHand hv with ⟨_, hnow⟩ | ⟨hvw, hold⟩
    · cases hnow
    · -- another worker holds items of other sessions only
      have hne : item.sessionId ≠ i.sessionId := by
        intro hsame
        exact hvw (hs.routed.hand_unique (handOver_hand hold) hhand hsame.symm)
      refine (ofKey_append _ _ _ _).trans ?_
      rw [hs.found v i hold, ofKey_singleton, if_neg hne]
      rfl

theorem handlePacket_step (hs : RouterInv n m s) {w : Int} {item : PacketQueueItem} (hi : s.hand w = .found item) :
    RouterInv n m ({ s with handled := s.handled ++ [item] }.setHand w (.handling item)) := by
  have hhand : s.handOver.hand w = some item := handOver_hand hi
  have heq : ({ s with handled := s.handled ++ [item] }.setHand w (.handling item)).handOver = s.handOver.handle w item := by
    rw [handOver, HandOver.handle, HandOver.mk.injEq]
    exact ⟨rfl, hand_setHand { s with handled := s.handled ++ [item] } w _, rfl, rfl, rfl⟩
  refine ⟨hs.tables, heq ▸ hs.routed.release w rfl rfl, ?_, heq ▸ hs.inOrder.handle hs.routed hhand (hs.found w item hi),
    hs.known, hs.dropped, ?_⟩
  · intro v i hv
    rcases eq_of_setHand hv with ⟨hvw, hnow⟩ | ⟨_, hold⟩
    · obtain rfl := WorkerHand.handling.inj hnow
      rw [hvw]
      exact hs.routed.hand w item hhand
    · exact hs.handling v i hold
  · exact fun v i hv => hs.found v i (hand_of_setHand hv (by simp))

/-- Every step keeps the router as long as the UIDs do not wrap around. -/
theorem step (hs : RouterInv n m s) {l : RouterStep} (h : routerStep n m s l = some t)
    (hc : t.tables.created < 2147483648) : RouterInv n m t := by
  cases l with
  | tables l =>
    obtain ⟨tables, ht, rfl⟩ := routerStep_tables h
    exact hs.tables_step ht hc
  | dispatch a buffer len bytes =>
    obtain ⟨ha, rfl⟩ := routerStep_dispatch h
    refine hs.dispatch_step ?_
    rcases hs.tables.tables.connected a ha with hg | hcl
    · exact Or.inl (by rw [hg]; rfl)
    · exact Or.inr hcl
  | pop w =>
    obtain ⟨hi, item, rest, hq, rfl⟩ := routerStep_pop h
    exact hs.pop_step hi hq
  | getSession w =>
    obtain ⟨item, tables, hi, ht, ⟨hg, rfl⟩ | ⟨hg, rfl⟩⟩ := routerStep_getSession h
    · exact (hs.drop_step hi hg).tables_step (s := { s with dropped := s.dropped ++ [item] }.setHand w .idle) ht hc
    · refine RouterInv.tables_step (s := s.setHand w (.found item)) (hs.setHand_same (by rw [hi]; rfl) nofun ?_) ht hc
      rintro i hfound
      obtain rfl := WorkerHand.found.inj hfound
      -- a session that is found was not closed, so none of its items was dropped
      refine List.filter_eq_nil_iff.2 ?_
      intro j hj hsame
      have hnone := (hs.tables.tables.closed _ (hs.dropped j hj)).1
      rw [of_decide_eq_true hsame] at hnone
      rw [hnone] at hg
      cases hg
  | handlePacket w =>
    obtain ⟨item, hi, rfl⟩ := routerStep_handlePacket h
    exact hs.handlePacket_step hi
  | handled w =>
    obtain ⟨item, tables, hi, ht, rfl⟩ := routerStep_handled h
    exact RouterInv.tables_step (s := s.setHand w .idle) (hs.setHand_same (by rw [hi]; rfl) nofun nofun) ht hc

/-- Two workers hold items of two sessions. -/
theorem item_unique (hs : RouterInv n m s) {v w : Int} {x y : PacketQueueItem} (hv : (s.hand v).item? = some x)
    (hw : (s.hand w).item? = some y) (hk : x.sessionId = y.sessionId) : v = w := by
  have hworker : ∀ u i, (s.hand u).item? = some i → workerIndex n i.sessionId = u := by
    intro u i hu
    cases hh : s.hand u with
    | idle =>
      rw [hh] at hu
      cases hu
    | popped j =>
      rw [hh] at hu
      obtain rfl := Option.some.inj hu
      exact hs.routed.hand u j (handOver_hand hh)
    | found j =>
      rw [hh] at hu
      obtain rfl := Option.some.inj hu
      exact hs.routed.hand u j (handOver_hand hh)
    | handling j =>
      rw [hh] at hu
      obtain rfl := Option.some.inj hu
      exact hs.handling u j hh
  rw [← hworker v x hv, hk, hworker w y hw]

end RouterInv

/-! ## Every run -/

theorem routerStep_created_le {l : RouterStep} (h : routerStep n m s l = some t) : s.tables.created ≤ t.tables.created := by
  cases l with
  | tables l =>
    obtain ⟨tables, ht, rfl⟩ := routerStep_tables h
    exact (tablesStep_grows ht).1
  | dispatch a buffer len bytes =>
    obtain ⟨_, rfl⟩ := routerStep_dispatch h
    exact Nat.le_refl _
  | pop w =>
    obtain ⟨_, _, _, _, rfl⟩ := routerStep_pop h
    exact Nat.le_refl _
  | getSession w =>
    obtain ⟨_, _, _, ht, ⟨_, rfl⟩ | ⟨_, rfl⟩⟩ := routerStep_getSession h
    · exact (tablesStep_grows ht).1
    · exact (tablesStep_grows ht).1
  | handlePacket w =>
    obtain ⟨_, _, rfl⟩ := routerStep_handlePacket h
    exact Nat.le_refl _
  | handled w =>
    obtain ⟨_, _, _, ht, rfl⟩ := routerStep_handled h
    exact (tablesStep_grows ht).1

theorem RouterInv.run {poolSize : Nat} {ls : List RouterStep}
    (hr : (routerSystem n m poolSize).run (RouterState.init poolSize) ls = some s) (hc : s.tables.created < 2147483648) :
    RouterInv n m s := by
  have hinv : s.tables.created < 2147483648 → RouterInv n m s := by
    refine (routerSystem n m poolSize).run_invariant (I := fun s => s.tables.created < 2147483648 → RouterInv n m s) ?_
      (fun _ => RouterInv.init n m poolSize) hr
    intro s l t hs h hlt
    exact (hs (Nat.lt_of_le_of_lt (routerStep_created_le h) hlt)).step h hlt
  exact hinv hc

/-- In every run that creates fewer than `2 ^ 31` sessions, for any numbers of workers: the items of a session
`HandlePacket` was called for are the first of those dispatched for it, in the same order, and two workers never hold items
of one session. -/
theorem handled_prefix_dispatched (numWorkers numTaskWorkers poolSize : Nat) {ls : List RouterStep} {s : RouterState}
    (hr : (routerSystem numWorkers numTaskWorkers poolSize).run (RouterState.init poolSize) ls = some s)
    (hc : s.tables.created < 2147483648) :
    (∀ u, ofKey PacketQueueItem.sessionId u s.handled <+: ofKey PacketQueueItem.sessionId u s.dispatched) ∧
      ∀ v w x y, (s.hand v).item? = some x → (s.hand w).item? = some y → x.sessionId = y.sessionId → v = w := by
  have hinv := RouterInv.run hr hc
  exact ⟨fun u => hinv.inOrder.handled_prefix u, fun _ _ _ _ => hinv.item_unique⟩

/-- Two sessions are accepted and packets dispatched for both; the first is closed after the session of its
first packet was found, and its second packet is dropped. -/
def closeBetween : List RouterStep :=
  [.tables .maker, .tables (.addSession 0), .tables (.setSessionUID 0), .tables (.onConnected 0), .tables .maker,
    .tables (.addSession 1), .tables (.setSessionUID 1), .tables (.onConnected 1), .dispatch 0 0 12 [1], .dispatch 1 0 12 [2],
    .dispatch 0 12 12 [3], .pop 0, .getSession 0, .tables (.getSession 2 0), .tables (.removeSession 2), .handlePacket 0,
    .tables (.releaseSession 2), .handled 0, .pop 1, .pop 0, .getSession 0, .getSession 1, .handlePacket 1]

/-- `handled_prefix_dispatched` at the run `closeBetween`, in which one item of each session was handled. -/
theorem handled_prefix_dispatched_closeBetween : ∃ s,
    (routerSystem 2 1 1).run (RouterState.init 1) closeBetween = some s ∧ s.handled.map PacketQueueItem.bytes = [[1], [2]] ∧
    s.dropped.map PacketQueueItem.bytes = [[3]] ∧
    ∀ u, ofKey PacketQueueItem.sessionId u s.handled <+: ofKey PacketQueueItem.sessionId u s.dispatched := by
  have hrun : ((routerSystem 2 1 1).run (RouterState.init 1) closeBetween).map
      (fun s => (s.tables.created, s.handled.map PacketQueueItem.bytes, s.dropped.map PacketQueueItem.bytes)) =
      some (2, [[1], [2]], [[3]]) := by decide
  obtain ⟨s, hs, hfields⟩ := Option.map_eq_some_iff.1 hrun
  simp only [Prod.mk.injEq] at hfields
  obtain ⟨hcr, hh, hd⟩ := hfields
  exact ⟨s, hs, hh, hd, (handled_prefix_dispatched 2 1 1 hs (by omega)).1⟩

end ProjectYJ

import ProjectYJ.Disconnect
import ProjectYJ.Lemmas.Server

/-!
# Calls of `Disconnect`

What a step of the server with callers of `Disconnect` can be, and that a call keeps what holds of the connections and of the
server.
-/

namespace ProjectYJ

open Server

/-- The connection of the session `Disconnect` is called on is removed, and the entry of its UID is gone. -/
theorem ConnInv.disconnect {N : Nat} {s : Connections} (hs : ConnInv N s) {w a c : Nat} (hw : w < N)
    (ha : s.tables.stage a = .connected) (hc : s.conn a = some c) :
    ConnInv N { s with tables := s.tables.disconnect w a, removed := c :: s.removed } := by
  have hgot : ∀ b, (Hand.got a).Holds b → w < N ∧ s.tables.stage b = .connected := by
    intro b hb
    rw [Hand.holds_got] at hb
    exact ⟨hw, hb ▸ ha⟩
  -- as if the thread took the mutex and went on to `ReleaseSession`, and then had the session in hand as before
  have hremove := (hs.setHand w (h := .got a) nofun hgot).removeSession (w := w) (Function.update_self ..) hc
  have h := hremove.setHand w (h := .got a) nofun hgot
  have hhand : (s.tables.disconnect w a).hand =
      Function.update (Function.update (Function.update s.tables.hand w (.got a)) w (.removed a)) w (.got a) := by
    simp [SessionTables.disconnect]
  refine h.frame (h.pool.frame rfl rfl fun _ => Iff.rfl) h.back rfl rfl rfl (fun _ => Iff.rfl) (fun _ hb => hb) ?_ ?_
    (fun u b hb => ⟨(h.manager u b hb).1, (h.manager u b hb).2, Or.inl hb⟩) (fun _ hb => Or.inl hb)
  · intro v b hb
    rw [hhand] at hb
    exact h.holds v b hb
  · intro v b hb
    rw [hhand] at hb
    exact hb

section

variable {stringToUTF8 : String → String} {n m k : Nat} {s t : Server}

theorem ServerInv.disconnect (hs : ServerInv n m s) {w a : Nat} (hw : n ≤ w ∧ w < n + m)
    (ha : s.conns.tables.stage a = .connected) : ServerInv n m (s.disconnect w a) := by
  obtain ⟨c, hc⟩ := hs.conns.conn_of_connected ha
  refine ⟨?_, hs.owners, hs.held, hs.players, hs.queued, hs.waiting, ?_, hs.worker, hs.task⟩
  · simp only [Server.disconnect, hc, Option.toList_some, List.singleton_append]
    exact hs.conns.disconnect hw.2 ha hc
  · intro v item hv
    replace hv : s.worker v = .found item := hv
    obtain ⟨b, hb, huid⟩ := hs.found v item hv
    have hlt := hs.worker v (by rw [hv]; exact nofun)
    have hvw : v ≠ w := by omega
    exact ⟨b, (Function.update_of_ne hvw ..).trans hb, huid⟩

/-- What a step can be: one of the server, a call of `Disconnect`, or its way into `CloseSession`. -/
theorem disconnectStep_cases {l : DisconnectStep} (h : disconnectStep stringToUTF8 n m k s l = some t) :
    (∃ l', l = .server l' ∧ serverStep stringToUTF8 n (m + k) s l' = some t) ∨
    (∃ w a, l = .disconnect w a ∧ (n ≤ w ∧ w < n + (m + k)) ∧ s.conns.tables.hand w = .idle ∧
      s.conns.tables.stage a = .connected ∧ t = s.disconnect w a) ∨
    ∃ w conns, l = .closeSession w ∧ n ≤ w ∧ connStep (n + (m + k)) s.conns (.removeSession w) = some conns ∧
      t = { s with conns := conns } := by
  cases l with
  | server l =>
    refine Or.inl ⟨l, rfl, ?_⟩
    unfold disconnectStep at h
    split at h
    · rename_i heq
      cases heq
      exact (Option.ite_none_right_eq_some.1 h).2
    · rename_i heq
      cases heq
      exact h
    · rename_i heq
      cases heq
    · rename_i heq
      cases heq
  | disconnect w a =>
    obtain ⟨⟨hw, hlt, hidle, ha, -⟩, ht⟩ := Option.ite_none_right_eq_some.1 h
    obtain rfl := Option.some.inj ht
    exact Or.inr (Or.inl ⟨w, a, rfl, ⟨by omega, hlt⟩, hidle, ha, rfl⟩)
  | closeSession w =>
    obtain ⟨hw, h⟩ := Option.ite_none_right_eq_some.1 h
    obtain ⟨conns, hconns, rfl⟩ := connStep_eq_some.1 h
    exact Or.inr (Or.inr ⟨w, conns, rfl, by omega, hconns, rfl⟩)

end

end ProjectYJ

import ProjectYJ.PacketMemory
import Mathlib.Logic.Equiv.Basic

/-!
# Packets are values

What is done to packets by construction, copy, move and assignment can be read as if a packet were its value: every run on values is a
run in memory, in which no buffer is freed twice or read after it was freed, and every object has the value it has there
(`packetMemory_refines`). The buffers that are there are those of the objects there are, each of one object.
-/

namespace ProjectYJ

/-- An object with a value: it has no data, or those in its buffer, as many as its size says, or those of somebody else. -/
inductive HasValue (heap : Cells (List UInt8)) : PacketObject → Packet → Prop where
  | null (size packetType : Nat) : HasValue heap ⟨none, size, packetType, none⟩ ⟨none, size, packetType⟩
  | buffer {p packetType : Nat} {data : List UInt8} (hcell : heap.cell p = some data) :
      HasValue heap ⟨some (.buffer p), data.length, packetType, some p⟩ ⟨some data, data.length, packetType⟩
  | external (data : List UInt8) (packetType : Nat) :
      HasValue heap ⟨some (.external data), data.length, packetType, none⟩ ⟨some data, data.length, packetType⟩

/-- The objects have these values, each buffer is of one object, and there are no others. -/
structure HasValues (v : Nat → Option Packet) (s : PacketMemory) : Prop where
  absent : ∀ k, v k = none → s.objects k = none
  present : ∀ k x, v k = some x → ∃ o, s.objects k = some o ∧ HasValue s.heap o x
  owner : ∀ k j o o' p, s.objects k = some o → s.objects j = some o' → o.buffer = some p → o'.buffer = some p → k = j
  live : ∀ p b, s.heap.cell p = some b → ∃ k o, s.objects k = some o ∧ o.buffer = some p
  below : ∀ p b, s.heap.cell p = some b → p < s.heap.made

section

variable {v w : Nat → Option Packet} {s t : PacketMemory} {heap heap' : Cells (List UInt8)} {k j : Nat} {o : PacketObject}
  {x : Packet}

/-! ## One object -/

/-- The buffer of an object is there. -/
theorem HasValue.cell (h : HasValue heap o x) {p : Nat} (hp : o.buffer = some p) : ∃ b, heap.cell p = some b := by
  cases h with
  | null | external => cases hp
  | @buffer q _ data hcell =>
    obtain rfl := Option.some.inj hp
    exact ⟨data, hcell⟩

/-- An object keeps its value while its buffer stays. -/
theorem HasValue.congr (h : HasValue heap o x) (hcell : ∀ p, o.buffer = some p → heap'.cell p = heap.cell p) :
    HasValue heap' o x := by
  cases h with
  | null => exact .null _ _
  | external => exact .external _ _
  | buffer hp => exact .buffer ((hcell _ rfl).trans hp)

/-- The value of an object is read off its members. -/
theorem HasValue.value (h : HasValue heap o x) :
    x = { data := o.data.bind (PacketPointer.bytes heap), size := o.size, packetType := o.packetType } := by
  cases h with
  | null | external => rfl
  | buffer hcell => simp [PacketPointer.bytes, hcell]

/-- What is copied from an object, if anything. -/
theorem HasValue.copy (h : HasValue heap o x) :
    (∃ data, PacketObject.copy heap o = some (PacketObject.ofData heap data o.packetType) ∧
        x.copied = ⟨some data, data.length, o.packetType⟩) ∨
      (PacketObject.copy heap o = some (⟨none, o.size, o.packetType, none⟩, heap) ∧ x.copied = ⟨none, o.size, o.packetType⟩) := by
  cases h with
  | null => exact Or.inr ⟨rfl, rfl⟩
  | @buffer p packetType data hcell =>
    by_cases hsize : 0 < data.length
    · refine Or.inl ⟨data, ?_, ?_⟩
      · simp [PacketObject.copy, PacketPointer.load, PacketPointer.bytes, hcell, hsize]
      · simp [Packet.copied, hsize]
    · exact Or.inr ⟨by simp [PacketObject.copy, hsize], by simp [Packet.copied, hsize]⟩
  | external data packetType =>
    by_cases hsize : 0 < data.length
    · refine Or.inl ⟨data, ?_, ?_⟩
      · simp [PacketObject.copy, PacketPointer.load, PacketPointer.bytes, hsize]
      · simp [Packet.copied, hsize]
    · exact Or.inr ⟨by simp [PacketObject.copy, hsize], by simp [Packet.copied, hsize]⟩

/-! ## All objects -/

namespace HasValues

theorem init : HasValues packetValues.init packetMemory.init :=
  ⟨fun _ _ => rfl, nofun, nofun, nofun, nofun⟩

/-- An object that is there has a value. -/
theorem value_of (h : HasValues v s) (ho : s.objects k = some o) : ∃ x, v k = some x ∧ HasValue s.heap o x := by
  cases hv : v k with
  | none =>
    rw [h.absent k hv] at ho
    cases ho
  | some x =>
    obtain ⟨o', ho', hx⟩ := h.present k x hv
    obtain rfl := Option.some.inj (ho'.symm.trans ho)
    exact ⟨x, rfl, hx⟩

/-- The object `k` is taken away, when the heap is left as it was but for its buffer, which is no more. -/
theorem remove (h : HasValues v s) (ho : s.objects k = some o)
    (hkeep : ∀ p, o.buffer ≠ some p → heap.cell p = s.heap.cell p) (hgone : ∀ p, o.buffer = some p → heap.cell p = none)
    (hmade : heap.made = s.heap.made) :
    HasValues (Function.update v k none) { objects := Function.update s.objects k none, heap := heap } where
  absent i hi := by
    by_cases hik : i = k
    · subst hik
      exact Function.update_self ..
    · rw [Function.update_of_ne hik] at hi
      exact (Function.update_of_ne hik ..).trans (h.absent i hi)
  present i x hi := by
    by_cases hik : i = k
    · subst hik
      simp at hi
    · rw [Function.update_of_ne hik] at hi
      obtain ⟨o', ho', hx⟩ := h.present i x hi
      refine ⟨o', (Function.update_of_ne hik ..).trans ho', hx.congr fun p hp => hkeep p ?_⟩
      exact fun hop => hik (h.owner i k o' o p ho' ho hp hop)
  owner i i' o₁ o₂ p h₁ h₂ := by
    have hold : ∀ {i o'}, Function.update s.objects k none i = some o' → s.objects i = some o' := by
      intro i o' hi
      by_cases hik : i = k
      · subst hik
        simp at hi
      · rwa [Function.update_of_ne hik] at hi
    exact h.owner i i' o₁ o₂ p (hold h₁) (hold h₂)
  live p b hb := by
    have hne : o.buffer ≠ some p := by
      intro hp
      rw [hgone p hp] at hb
      cases hb
    obtain ⟨i, o', ho', hp⟩ := h.live p b (hkeep p hne ▸ hb)
    have hik : i ≠ k := by
      rintro rfl
      obtain rfl := Option.some.inj (ho'.symm.trans ho)
      exact hne hp
    exact ⟨i, o', (Function.update_of_ne hik ..).trans ho', hp⟩
  below p b hb := by
    have hne : o.buffer ≠ some p := by
      intro hp
      rw [hgone p hp] at hb
      cases hb
    rw [hmade]
    exact h.below p b (hkeep p hne ▸ hb)

/-- An object goes, or is about to get other members: its buffer is freed, and no other. -/
theorem release (h : HasValues v s) (ho : s.objects k = some o) :
    ∃ heap, releaseBuffer s.heap o.buffer = some heap ∧
      HasValues (Function.update v k none) { objects := Function.update s.objects k none, heap := heap } := by
  obtain ⟨x, -, hx⟩ := h.value_of ho
  cases hbuffer : o.buffer with
  | none => exact ⟨s.heap, rfl, h.remove ho (fun _ _ => rfl) (fun p hp => by rw [hbuffer] at hp; cases hp) rfl⟩
  | some p =>
    obtain ⟨b, hb⟩ := hx.cell hbuffer
    refine ⟨s.heap.free p, by simp [releaseBuffer, hb], h.remove ho (fun q hq => ?_) (fun q hq => ?_) rfl⟩
    · exact Cells.free_of_ne fun hqp => hq (hqp ▸ hbuffer)
    · obtain rfl := Option.some.inj (hbuffer.symm.trans hq)
      exact Cells.free_self ..

/-- A new object, on a heap that has besides what there was at most the buffer of the object. -/
theorem add (h : HasValues v s) (hk : v k = none) (ho : HasValue heap o x)
    (hkeep : ∀ p b, s.heap.cell p = some b → heap.cell p = some b)
    (hnew : ∀ p b, heap.cell p = some b → s.heap.cell p = some b ∨ o.buffer = some p)
    (hbuffer : ∀ p, o.buffer = some p → s.heap.cell p = none ∧ p < heap.made) (hmade : s.heap.made ≤ heap.made) :
    HasValues (Function.update v k (some x)) (s.put k o heap) where
  absent i hi := by
    by_cases hik : i = k
    · subst hik
      simp at hi
    · rw [Function.update_of_ne hik] at hi
      exact (Function.update_of_ne hik ..).trans (h.absent i hi)
  present i y hi := by
    by_cases hik : i = k
    · subst hik
      obtain rfl : x = y := by simpa using hi
      exact ⟨o, Function.update_self .., ho⟩
    · rw [Function.update_of_ne hik] at hi
      obtain ⟨o', ho', hx⟩ := h.present i y hi
      refine ⟨o', (Function.update_of_ne hik ..).trans ho', hx.congr fun p hp => ?_⟩
      obtain ⟨b, hb⟩ := hx.cell hp
      exact (hkeep p b hb).trans hb.symm
  owner i j o₁ o₂ p h₁ h₂ hp₁ hp₂ := by
    -- the buffer of the new object is no buffer of another
    have hother : ∀ {i o'}, i ≠ k → Function.update s.objects k (some o) i = some o' → o'.buffer = some p →
        s.objects i = some o' ∧ o.buffer ≠ some p := by
      intro i o' hik hi hp
      rw [Function.update_of_ne hik] at hi
      obtain ⟨y, -, hy⟩ := h.value_of hi
      obtain ⟨b, hb⟩ := hy.cell hp
      refine ⟨hi, fun hop => ?_⟩
      rw [(hbuffer p hop).1] at hb
      cases hb
    have hself : ∀ {i o'}, i = k → Function.update s.objects k (some o) i = some o' → o' = o := by
      rintro i o' rfl hi
      simpa using hi.symm
    by_cases hik : i = k <;> by_cases hjk : j = k
    · rw [hik, hjk]
    · obtain rfl := hself hik h₁
      exact absurd hp₁ (hother hjk h₂ hp₂).2
    · obtain rfl := hself hjk h₂
      exact absurd hp₂ (hother hik h₁ hp₁).2
    · exact h.owner i j o₁ o₂ p (hother hik h₁ hp₁).1 (hother hjk h₂ hp₂).1 hp₁ hp₂
  live p b hb := by
    rcases hnew p b hb with hold | hp
    · obtain ⟨i, o', ho', hp⟩ := h.live p b hold
      have hik : i ≠ k := by
        rintro rfl
        rw [h.absent i hk] at ho'
        cases ho'
      exact ⟨i, o', (Function.update_of_ne hik ..).trans ho', hp⟩
    · exact ⟨k, o, Function.update_self .., hp⟩
  below p b hb := by
    rcases hnew p b hb with hold | hp
    · exact Nat.lt_of_lt_of_le (h.below p b hold) hmade
    · exact (hbuffer p hp).2

/-- A new object without a buffer. -/
theorem add_plain (h : HasValues v s) (hk : v k = none) (ho : HasValue s.heap o x) (hbuffer : o.buffer = none) :
    HasValues (Function.update v k (some x)) (s.put k o s.heap) :=
  h.add hk ho (fun _ _ hb => hb) (fun _ _ hb => Or.inl hb) (fun p hp => by rw [hbuffer] at hp; cases hp) (Nat.le_refl _)

/-- A new object with a new buffer. -/
theorem add_data (h : HasValues v s) (hk : v k = none) (data : List UInt8) (packetType : Nat) :
    HasValues (Function.update v k (some ⟨some data, data.length, packetType⟩))
      (s.put k (PacketObject.ofData s.heap data packetType).1 (PacketObject.ofData s.heap data packetType).2) := by
  have hfree : s.heap.cell s.heap.made = none := by
    cases hcell : s.heap.cell s.heap.made with
    | none => rfl
    | some b => exact absurd (h.below _ b hcell) (Nat.lt_irrefl _)
  refine h.add hk (.buffer (Cells.alloc_self ..)) (fun p b hb => ?_) (fun p b hb => ?_) ?_ (Nat.le_succ _)
  · exact (Cells.alloc_of_ne (Nat.ne_of_lt (h.below p b hb)) data).trans hb
  · by_cases hp : p = s.heap.made
    · exact Or.inr (congrArg some hp.symm)
    · exact Or.inl ((Cells.alloc_of_ne hp data).symm.trans hb)
  · rintro p ⟨⟩
    exact ⟨hfree, Nat.lt_succ_self _⟩

/-- A new object with what is copied from another. -/
theorem add_copy (h : HasValues v s) (hk : v k = none) (ho : HasValue s.heap o x) :
    ∃ made, PacketObject.copy s.heap o = some made ∧ HasValues (Function.update v k (some x.copied)) (s.put k made.1 made.2) := by
  rcases ho.copy with ⟨data, hcopy, hx⟩ | ⟨hcopy, hx⟩
  · rw [hx]
    exact ⟨_, hcopy, h.add_data hk data o.packetType⟩
  · rw [hx]
    exact ⟨_, hcopy, h.add_plain hk (.null _ _) rfl⟩

/-- The objects change their names. -/
theorem rename (h : HasValues v s) (e : Equiv.Perm Nat) :
    HasValues (fun k => v (e k)) { objects := fun k => s.objects (e k), heap := s.heap } where
  absent k := h.absent (e k)
  present k := h.present (e k)
  owner k j o o' p hk hj hp hp' := e.injective (h.owner (e k) (e j) o o' p hk hj hp hp')
  live p b hb := by
    obtain ⟨k, o, ho, hp⟩ := h.live p b hb
    exact ⟨e.symm k, o, by simpa using ho, hp⟩
  below := h.below

/-- The members of an object go to a new one. -/
theorem move (h : HasValues v s) (hk : v k = none) (hj : v j = some x) (ho : s.objects j = some o) :
    HasValues (Function.update (Function.update v k (some x)) j (some Packet.empty)) (s.move k j o s.heap) := by
  have hjk : k ≠ j := by
    rintro rfl
    rw [hk] at hj
    cases hj
  -- the two change places, and a new object comes where there was none
  have hadd := (h.rename (Equiv.swap k j)).add_plain (k := j) (o := PacketObject.empty) (x := Packet.empty) (by simpa using hk)
    (.null 0 0) rfl
  have hswap : ∀ {α : Type} (f : Nat → Option α) (a b : α), f j = some a →
      Function.update (fun i => f (Equiv.swap k j i)) j (some b) = Function.update (Function.update f k (some a)) j (some b) := by
    intro α f a b hf
    funext i
    by_cases hij : i = j
    · subst hij
      simp
    · by_cases hik : i = k
      · subst hik
        simp [hij, hf]
      · simp [hij, hik, Equiv.swap_apply_of_ne_of_ne hik hij]
  rw [hswap v x Packet.empty hj] at hadd
  simp only [PacketMemory.put, hswap s.objects o PacketObject.empty ho] at hadd
  exact hadd

/-- An operation on values is the operation in memory. -/
theorem step (h : HasValues v s) {l : PacketOp} (hstep : packetValueStep v l = some w) :
    ∃ t, packetMemoryStep s l = some t ∧ HasValues w t := by
  cases l with
  | construct k =>
    simp only [packetValueStep, Option.ite_none_right_eq_some, Option.some.injEq] at hstep
    obtain ⟨hk, rfl⟩ := hstep
    exact ⟨s.put k PacketObject.empty s.heap, by simp [packetMemoryStep, h.absent k hk], h.add_plain hk (.null 0 0) rfl⟩
  | constructData k data packetType =>
    simp only [packetValueStep, Option.ite_none_right_eq_some, Option.some.injEq] at hstep
    obtain ⟨⟨hk, hlt⟩, rfl⟩ := hstep
    exact ⟨_, by simp [packetMemoryStep, h.absent k hk, hlt], h.add_data hk data packetType⟩
  | constructMove k j =>
    simp only [packetValueStep] at hstep
    split at hstep
    · rename_i x hk hj
      cases hstep
      obtain ⟨o, ho, -⟩ := h.present j x hj
      exact ⟨_, by simp [packetMemoryStep, h.absent k hk, ho], h.move hk hj ho⟩
    · cases hstep
  | constructCopy k j =>
    simp only [packetValueStep] at hstep
    split at hstep
    · rename_i x hk hj
      cases hstep
      obtain ⟨o, ho, hx⟩ := h.present j x hj
      obtain ⟨made, hmade, hadd⟩ := h.add_copy hk hx
      exact ⟨_, by simp [packetMemoryStep, h.absent k hk, ho, hmade], hadd⟩
    · cases hstep
  | assignMove k j =>
    simp only [packetValueStep] at hstep
    split at hstep
    · rename_i y x hk hj
      obtain ⟨this, hthis, -⟩ := h.present k y hk
      obtain ⟨other, hother, hx⟩ := h.present j x hj
      by_cases hkj : k = j
      · subst hkj
        simp only [if_true, Option.some.injEq] at hstep
        exact ⟨s, by simp [packetMemoryStep, hthis], hstep ▸ h⟩
      · simp only [if_neg hkj, Option.some.injEq] at hstep
        obtain ⟨heap, hheap, hrest⟩ := h.release hthis
        have hmove := hrest.move (k := k) (j := j) (x := x) (o := other) (by simp)
          ((Function.update_of_ne (Ne.symm hkj) ..).trans hj) ((Function.update_of_ne (Ne.symm hkj) ..).trans hother)
        refine ⟨s.move k j other heap, by simp [packetMemoryStep, hthis, hother, hkj, hheap], ?_⟩
        simpa [PacketMemory.move, PacketMemory.put, ← hstep] using hmove
    · cases hstep
  | assignCopy k j =>
    simp only [packetValueStep] at hstep
    split at hstep
    · rename_i y x hk hj
      obtain ⟨this, hthis, -⟩ := h.present k y hk
      obtain ⟨other, hother, hx⟩ := h.present j x hj
      by_cases hkj : k = j
      · subst hkj
        simp only [if_true, Option.some.injEq] at hstep
        exact ⟨s, by simp [packetMemoryStep, hthis], hstep ▸ h⟩
      · simp only [if_neg hkj, Option.some.injEq] at hstep
        obtain ⟨heap, hheap, hrest⟩ := h.release hthis
        obtain ⟨other', hother', hx'⟩ := hrest.present j x ((Function.update_of_ne (Ne.symm hkj) ..).trans hj)
        obtain rfl : other' = other := by simpa [Ne.symm hkj, hother] using hother'.symm
        obtain ⟨made, hmade, hadd⟩ := hrest.add_copy (k := k) (by simp) hx'
        refine ⟨s.put k made.1 made.2, ?_, ?_⟩
        · simp only [packetMemoryStep, hthis, hother, if_neg hkj, hheap, Option.bind_some]
          rw [show PacketObject.copy heap other' = some made from hmade]
          rfl
        · simpa [PacketMemory.put, ← hstep] using hadd
    · cases hstep
  | setExternalData k data packetType =>
    simp only [packetValueStep, Option.ite_none_right_eq_some, Option.some.injEq] at hstep
    obtain ⟨⟨hk, hlt⟩, rfl⟩ := hstep
    obtain ⟨y, hy⟩ := Option.isSome_iff_exists.1 hk
    obtain ⟨this, hthis, -⟩ := h.present k y hy
    obtain ⟨heap, hheap, hrest⟩ := h.release hthis
    have hadd := hrest.add_plain (k := k) (by simp) (.external data packetType) rfl
    refine ⟨s.put k ⟨some (.external data), data.length, packetType, none⟩ heap, by simp [packetMemoryStep, hthis, hlt, hheap], ?_⟩
    simpa [PacketMemory.put] using hadd
  | destroy k =>
    simp only [packetValueStep, Option.ite_none_right_eq_some, Option.some.injEq] at hstep
    obtain ⟨hk, rfl⟩ := hstep
    obtain ⟨y, hy⟩ := Option.isSome_iff_exists.1 hk
    obtain ⟨this, hthis, -⟩ := h.present k y hy
    obtain ⟨heap, hheap, hrest⟩ := h.release hthis
    exact ⟨_, by simp [packetMemoryStep, hthis, hheap], hrest⟩

end HasValues

end

/-- For every run of the operations on values there is the run in memory: nothing is freed twice, and nothing that was freed is read;
each object has its value; and the buffers that are left are those of the objects that are left, each of one. -/
theorem packetMemory_refines {ls : List PacketOp} {v : Nat → Option Packet}
    (h : packetValues.run packetValues.init ls = some v) :
    ∃ s, packetMemory.run packetMemory.init ls = some s ∧ (∀ k, s.value k = v k) ∧
      (∀ p, (s.heap.cell p).isSome = true ↔ ∃ k o, s.objects k = some o ∧ o.buffer = some p) ∧
      ∀ k j o o' p, s.objects k = some o → s.objects j = some o' → o.buffer = some p → o'.buffer = some p → k = j := by
  obtain ⟨s, hs, hvalues⟩ := packetValues.run_lockstep (U := packetMemory) (R := HasValues)
    (fun v l w s hvs hstep => hvs.step hstep) HasValues.init h
  refine ⟨s, hs, fun k => ?_, fun p => ⟨fun hp => ?_, ?_⟩, hvalues.owner⟩
  · cases hv : v k with
    | none => simp [PacketMemory.value, hvalues.absent k hv]
    | some x =>
      obtain ⟨o, ho, hx⟩ := hvalues.present k x hv
      rw [PacketMemory.value, ho, Option.map_some, ← hx.value]
  · obtain ⟨b, hb⟩ := Option.isSome_iff_exists.1 hp
    exact hvalues.live p b hb
  · rintro ⟨k, o, ho, hp⟩
    obtain ⟨x, -, hx⟩ := hvalues.value_of ho
    obtain ⟨b, hb⟩ := hx.cell hp
    exact Option.isSome_iff_exists.2 ⟨b, hb⟩

/-- A packet of the pool gets the argument of a `Send`, is copied, and all are destroyed. -/
def sendsPacket : List PacketOp :=
  [.construct 0, .constructData 1 [1, 2, 3] 1002, .assignMove 0 1, .constructCopy 2 0, .constructData 3 [4] 1010, .assignMove 0 3,
    .assignCopy 2 1, .destroy 0, .destroy 1]

theorem packetMemory_refines_sendsPacket : ∃ v s, packetValues.run packetValues.init sendsPacket = some v ∧
    packetMemory.run packetMemory.init sendsPacket = some s ∧ (∀ k, s.value k = v k) ∧
      (∀ p, (s.heap.cell p).isSome = true ↔ ∃ k o, s.objects k = some o ∧ o.buffer = some p) ∧
      ∀ k j o o' p, s.objects k = some o → s.objects j = some o' → o.buffer = some p → o'.buffer = some p → k = j := by
  obtain ⟨v, hv⟩ := Option.isSome_iff_exists.1
    (show (packetValues.run packetValues.init sendsPacket).isSome = true by decide)
  obtain ⟨s, hs⟩ := packetMemory_refines hv
  exact ⟨v, s, hv, hs⟩

end ProjectYJ

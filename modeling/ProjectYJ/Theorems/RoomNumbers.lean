import ProjectYJ.Lemmas.Chat

/-!
# The numbers of the rooms

`CreateRoom` numbers the rooms with a 16-bit counter that is never set back. The first 65535 rooms have the numbers 1 to 65535, each
its own, however many were removed in between. The next one has the number 0, which stands for no room, and every later one the
number of a room made before.
-/

namespace ProjectYJ

open ChatState

/-- The calls of the room manager, and players that enter rooms between them. -/
inductive RoomCall where
  | create (name : String) (maxUser : Nat)
  | remove (roomID : Nat)
  | enter (room player chatRoomID : Nat)

namespace RoomCall

/-- Whether a call creates a room. -/
def isCreate : RoomCall → Bool
  | .create _ _ => true
  | _ => false

end RoomCall

/-- The rooms; and, for the statements only, the rooms created and not removed, each with the ID it was returned with, and the
players that entered each room. -/
structure RoomRun where
  chat : ChatState
  live : List (Nat × Nat)
  entered : Nat → List Nat

/-- The step function: a player enters a room that was made. -/
def roomStep (stringToUTF8 : String → String) (s : RoomRun) : RoomCall → Option RoomRun
  | .create name maxUser =>
    let t := s.chat.createRoom stringToUTF8 name maxUser
    some { s with chat := t, live := s.live ++ [(s.chat.roomsMade, (t.chatRoom s.chat.roomsMade).roomID)] }
  | .remove roomID => some { s with chat := s.chat.removeRoom roomID, live := s.live.filter (fun e => e.2 ≠ roomID) }
  | .enter room player chatRoomID =>
    if room < s.chat.roomsMade then
      some { s with
        chat := (s.chat.setChatRoomID player chatRoomID).enter room player
        entered := Function.update s.entered room (player :: s.entered room) }
    else none

/-- The room manager before the first room. -/
def roomSystem (stringToUTF8 : String → String) : Lts RoomRun RoomCall where
  init := { chat := ChatState.init (fun _ => 0), live := [], entered := fun _ => [] }
  step := roomStep stringToUTF8

/-- Every room created and not removed has an ID of its own that is not 0, is found under it, is listed once, and has in it who
entered it. -/
structure RoomRun.Fresh (s : RoomRun) : Prop where
  nonzero : ∀ e ∈ s.live, e.2 ≠ 0
  distinct : (s.live.map Prod.snd).Nodup
  found : ∀ e ∈ s.live, s.chat.getRoom e.2 = some e.1 ∧ (s.chat.chatRoom e.1).roomID = e.2
  listed : ∀ e ∈ s.live, (s.chat.getAllRoom.map Prod.snd).count e.1 = 1
  members : ∀ e ∈ s.live, (s.chat.members e.1).Perm (s.entered e.1)

/-- While the counter has not come round: the rooms are numbered in the order they were made, the manager knows those that are not
removed, and the rooms have in them who entered them. -/
structure RoomRun.NumberInv (s : RoomRun) : Prop where
  number : s.chat.roomNumber = s.chat.roomsMade
  le : s.chat.roomsMade ≤ 65535
  numbered : ∀ e ∈ s.live, e.2 = e.1 + 1 ∧ e.1 < s.chat.roomsMade ∧ (s.chat.chatRoom e.1).roomID = e.2
  distinct : (s.live.map Prod.snd).Nodup
  known : ∀ k x, s.chat.getRoom k = some x ↔ (x, k) ∈ s.live
  members : ∀ x, (s.chat.members x).Perm (s.entered x)
  unmade : ∀ x, s.chat.roomsMade ≤ x → s.entered x = []

/-- A room that the manager knows under one number is listed once. -/
theorem getAllRoom_count {s : ChatState} {k x : Nat} (hk : s.getRoom k = some x) (hone : ∀ k', s.getRoom k' = some x → k' = k) :
    (s.getAllRoom.map Prod.snd).count x = 1 := by
  have hmem : ∀ e : Nat × Nat, e ∈ s.getAllRoom ↔ s.getRoom e.1 = some e.2 :=
    fun e => Std.TreeMap.mem_toList_iff_getElem?_eq_some
  have hnodup : s.getAllRoom.Nodup := by
    refine (Std.TreeMap.distinct_keys_toList (t := s.rooms)).imp ?_
    rintro a b hab rfl
    exact hab (Std.ReflCmp.compare_self)
  have hcount : (s.getAllRoom.map Prod.snd).count x = s.getAllRoom.count (k, x) := by
    rw [List.count, List.countP_map, List.count]
    refine List.countP_congr fun e he => ?_
    have hfound := (hmem e).1 he
    simp only [Function.comp_apply, beq_iff_eq]
    constructor
    · intro hx
      exact Prod.ext (hone e.1 (hx ▸ hfound)) hx
    · rintro rfl
      rfl
  rw [hcount]
  exact List.count_eq_one_of_mem hnodup ((hmem (k, x)).2 hk)

namespace RoomRun

variable {stringToUTF8 : String → String} {s t : RoomRun}

/-- A room that is not removed has its own number. -/
theorem NumberInv.fresh (h : s.NumberInv) : s.Fresh where
  nonzero e he := by
    rw [(h.numbered e he).1]
    exact Nat.succ_ne_zero _
  distinct := h.distinct
  found e he := ⟨(h.known e.2 e.1).2 he, (h.numbered e he).2.2⟩
  listed e he := by
    refine getAllRoom_count ((h.known e.2 e.1).2 he) fun k hk => ?_
    have hk' := (h.numbered _ ((h.known k e.1).1 hk)).1
    exact hk'.trans (h.numbered e he).1.symm
  members e _ := h.members e.1

/-- The next room, while the counter has not come round. -/
theorem NumberInv.create (h : s.NumberInv) (hlt : s.chat.roomsMade < 65535) (name : String) (maxUser : Nat)
    (ht : roomStep stringToUTF8 s (.create name maxUser) = some t) : t.NumberInv := by
  obtain rfl := Option.some.inj ht
  have hnext : s.chat.nextRoomNumber = s.chat.roomsMade + 1 := by
    rw [nextRoomNumber, h.number]
    exact toUInt16_of_lt (n := s.chat.roomsMade + 1) (by omega)
  have hid : ((s.chat.createRoom stringToUTF8 name maxUser).chatRoom s.chat.roomsMade).roomID = s.chat.roomsMade + 1 :=
    (createRoom_roomID name maxUser).trans hnext
  have hold : ∀ {x}, x ≠ s.chat.roomsMade → (s.chat.createRoom stringToUTF8 name maxUser).chatRoom x = s.chat.chatRoom x :=
    fun hx => Function.update_of_ne hx ..
  have hmem : ∀ e, e ∈ s.live ++ [(s.chat.roomsMade,
      ((s.chat.createRoom stringToUTF8 name maxUser).chatRoom s.chat.roomsMade).roomID)] ↔
      e ∈ s.live ∨ e = (s.chat.roomsMade, s.chat.roomsMade + 1) := by
    intro e
    rw [hid, List.mem_append, List.mem_singleton]
  refine ⟨hnext, hlt, ?_, ?_, ?_, ?_, ?_⟩
  · intro e he
    rcases (hmem e).1 he with hlive | rfl
    · obtain ⟨h1, h2, h3⟩ := h.numbered e hlive
      refine ⟨h1, Nat.lt_succ_of_lt h2, ?_⟩
      show ((s.chat.createRoom stringToUTF8 name maxUser).chatRoom e.1).roomID = e.2
      rw [hold (Nat.ne_of_lt h2), h3]
    · exact ⟨rfl, Nat.lt_succ_self _, hid⟩
  · show ((s.live ++ [_]).map Prod.snd).Nodup
    rw [List.map_append, List.map_singleton, hid, List.nodup_append_comm, List.singleton_append, List.nodup_cons]
    refine ⟨fun hin => ?_, h.distinct⟩
    obtain ⟨e, he, heq⟩ := List.mem_map.1 hin
    obtain ⟨h1, h2, -⟩ := h.numbered e he
    omega
  · intro k x
    rw [hmem]
    show (s.chat.createRoom stringToUTF8 name maxUser).getRoom k = some x ↔ _
    rw [createRoom_getRoom, hnext]
    split
    · rename_i hk
      subst hk
      constructor
      · intro hx
        exact Or.inr (Prod.ext (Option.some.inj hx).symm rfl)
      · rintro (hlive | heq)
        · obtain ⟨h1, h2, -⟩ := h.numbered _ hlive
          simp only at h1 h2
          omega
        · rw [(Prod.mk.inj heq).1]
    · rename_i hk
      rw [h.known]
      exact ⟨Or.inl, fun hor => hor.resolve_right fun heq => hk (Prod.mk.inj heq).2⟩
  · intro x
    show ((s.chat.createRoom stringToUTF8 name maxUser).members x).Perm (s.entered x)
    by_cases hx : x = s.chat.roomsMade
    · subst hx
      rw [h.unmade _ (Nat.le_refl _)]
      simp [ChatState.members, createRoom]
    · rw [ChatState.members, hold hx]
      exact h.members x
  · intro x hx
    exact h.unmade x (Nat.le_of_succ_le hx)

/-- A room removed is not known, and the others are as they were. -/
theorem NumberInv.remove (h : s.NumberInv) (roomID : Nat) (ht : roomStep stringToUTF8 s (.remove roomID) = some t) :
    t.NumberInv := by
  obtain rfl := Option.some.inj ht
  have hmem : ∀ e, e ∈ s.live.filter (fun e => e.2 ≠ roomID) ↔ e ∈ s.live ∧ e.2 ≠ roomID := by
    intro e
    rw [List.mem_filter, decide_eq_true_eq]
  refine ⟨h.number, h.le, fun e he => h.numbered e ((hmem e).1 he).1, ?_, ?_, h.members, h.unmade⟩
  · exact h.distinct.sublist (List.filter_sublist.map Prod.snd)
  · intro k x
    rw [hmem, ← h.known]
    show (s.chat.removeRoom roomID).getRoom k = some x ↔ _
    rw [removeRoom_getRoom]
    by_cases hk : k = roomID
    · simp [hk]
    · simp [hk]

/-- A player entering a room changes nothing but who is in it. -/
theorem NumberInv.enter (h : s.NumberInv) {room player chatRoomID : Nat}
    (ht : roomStep stringToUTF8 s (.enter room player chatRoomID) = some t) : t.NumberInv := by
  simp only [roomStep, Option.ite_none_right_eq_some, Option.some.injEq] at ht
  obtain ⟨hroom, rfl⟩ := ht
  refine ⟨h.number, h.le, fun e he => ?_, h.distinct, h.known, fun x => ?_, fun x hx => ?_⟩
  · obtain ⟨h1, h2, h3⟩ := h.numbered e he
    exact ⟨h1, h2, (enter_roomID _ _ _).trans h3⟩
  · by_cases hx : x = room
    · subst hx
      have hperm := ((s.chat.chatRoom x).members.values_emplace_perm
        ((s.chat.setChatRoomID player chatRoomID).player player).chatRoomID player).trans ((h.members x).cons player)
      show (((s.chat.setChatRoomID player chatRoomID).enter x player).members x).Perm (Function.update s.entered x _ x)
      rw [Function.update_self, ChatState.members, enter_chatRoom_self]
      exact hperm
    · show (((s.chat.setChatRoomID player chatRoomID).enter room player).members x).Perm (Function.update s.entered room _ x)
      rw [Function.update_of_ne hx, ChatState.members, enter_chatRoom_of_ne hx]
      exact h.members x
  · have hne : x ≠ room := Nat.ne_of_gt (Nat.lt_of_lt_of_le hroom hx)
    show Function.update s.entered room _ x = []
    rw [Function.update_of_ne hne]
    exact h.unmade x hx

/-- The room after 65535 others has the number 0. -/
theorem NumberInv.wraps (h : s.NumberInv) (hmade : s.chat.roomsMade = 65535) {name : String} {maxUser : Nat}
    (ht : roomStep stringToUTF8 s (.create name maxUser) = some t) : ¬t.Fresh := by
  obtain rfl := Option.some.inj ht
  intro hf
  refine hf.nonzero _ (List.mem_append_right _ (List.mem_singleton.2 rfl)) ?_
  show ((s.chat.createRoom stringToUTF8 name maxUser).chatRoom s.chat.roomsMade).roomID = 0
  rw [createRoom_roomID, nextRoomNumber, h.number, hmade]
  rfl

end RoomRun

/-- A call that creates a room comes while fewer than 65535 were made. -/
def withinNumbers (s : RoomRun) (call : RoomCall) : Prop := call.isCreate = true → s.chat.roomsMade < 65535

section

variable {stringToUTF8 : String → String}

/-- A call keeps the numbers fresh exactly when it is within them. -/
theorem roomStep_fresh {s t : RoomRun} {call : RoomCall} (h : s.NumberInv) (ht : roomStep stringToUTF8 s call = some t) :
    (withinNumbers s call → t.NumberInv) ∧ (t.Fresh → withinNumbers s call) := by
  cases call with
  | create name maxUser =>
    refine ⟨fun hc => h.create (hc rfl) name maxUser ht, fun hf _ => ?_⟩
    by_contra hge
    exact h.wraps (Nat.le_antisymm h.le (Nat.not_lt.1 hge)) ht hf
  | remove roomID => exact ⟨fun _ => h.remove roomID ht, fun _ => nofun⟩
  | enter room player chatRoomID => exact ⟨fun _ => h.enter ht, fun _ => nofun⟩

/-- Every call makes one room or none. -/
theorem roomStep_roomsMade {s t : RoomRun} {call : RoomCall} (ht : roomStep stringToUTF8 s call = some t) :
    t.chat.roomsMade = s.chat.roomsMade + if call.isCreate = true then 1 else 0 := by
  cases call with
  | create name maxUser =>
    obtain rfl := Option.some.inj ht
    rfl
  | remove roomID =>
    obtain rfl := Option.some.inj ht
    rfl
  | enter room player chatRoomID =>
    simp only [roomStep, Option.ite_none_right_eq_some, Option.some.injEq] at ht
    obtain ⟨-, rfl⟩ := ht
    rfl

/-- The rooms made stay at most 65535 as long as each is made within the numbers. -/
theorem roomStep_roomsMade_le {s t : RoomRun} {call : RoomCall} (ht : roomStep stringToUTF8 s call = some t) :
    t.chat.roomsMade ≤ 65535 ↔ s.chat.roomsMade ≤ 65535 ∧ withinNumbers s call := by
  rw [roomStep_roomsMade ht, withinNumbers]
  by_cases hc : call.isCreate = true
  · rw [if_pos hc]
    exact ⟨fun h => ⟨by omega, fun _ => h⟩, fun h => h.2 hc⟩
  · rw [if_neg hc]
    exact ⟨fun h => ⟨h, fun hc' => absurd hc' hc⟩, fun h => h.1⟩

theorem run_roomsMade {s t : RoomRun} {calls : List RoomCall} (hr : (roomSystem stringToUTF8).run s calls = some t) :
    t.chat.roomsMade = s.chat.roomsMade + calls.countP RoomCall.isCreate := by
  induction calls generalizing s with
  | nil =>
    obtain rfl := Option.some.inj hr
    rfl
  | cons call calls ih =>
    obtain ⟨r, hr1, hr2⟩ := Option.bind_eq_some_iff.1 hr
    rw [ih hr2, @roomStep_roomsMade stringToUTF8 _ _ _ hr1, List.countP_cons, Nat.add_assoc, Nat.add_comm (ite _ _ _)]

theorem NumberInv.init : (roomSystem stringToUTF8).init.NumberInv := by
  have hrooms : ∀ k, (ChatState.init (fun _ => 0)).getRoom k = none := fun _ => Std.TreeMap.getElem?_emptyc
  refine ⟨rfl, Nat.zero_le _, nofun, List.nodup_nil, fun k x => ?_, fun _ => List.Perm.refl _, fun _ _ => rfl⟩
  exact iff_of_false (fun h => absurd (h.symm.trans (hrooms k)) (Option.some_ne_none x)) List.not_mem_nil

end

/-- In a run of the room manager, every room created and not removed has an ID of its own that is not 0, and is found and listed with
its members, throughout exactly when at most 65535 rooms are created. -/
theorem rooms_fresh_iff {stringToUTF8 : String → String} {calls : List RoomCall} {t : RoomRun}
    (hr : (roomSystem stringToUTF8).run (roomSystem stringToUTF8).init calls = some t) :
    (∀ front s, front <+: calls → (roomSystem stringToUTF8).run (roomSystem stringToUTF8).init front = some s → s.Fresh) ↔
      calls.countP RoomCall.isCreate ≤ 65535 := by
  rw [(roomSystem stringToUTF8).reached_iff_meets (fun _ h => h.fresh) (fun _ _ _ h _ hs => roomStep_fresh h hs) NumberInv.init
    ((roomSystem stringToUTF8).meets_true _ _) hr]
  have hmeets := (roomSystem stringToUTF8).meets_iff (fun _ _ _ hs => roomStep_roomsMade_le hs) hr
  have hmade := run_roomsMade hr
  rw [show (roomSystem stringToUTF8).init.chat.roomsMade = 0 from rfl, Nat.zero_add] at hmade
  rw [← hmade, hmeets]
  exact (and_iff_right (Nat.zero_le _)).symm

/-- The rule at a run in which the second of three rooms is removed. -/
theorem rooms_fresh_iff_three :
    (∀ front s, front <+: [.create "a" 10, .create "b" 10, .enter 1 0 2, .remove 2, .create "c" 10] →
        (roomSystem id).run (roomSystem id).init front = some s → s.Fresh) ↔
      [.create "a" 10, .create "b" 10, .enter 1 0 2, .remove 2, .create "c" 10].countP RoomCall.isCreate ≤ 65535 :=
  rooms_fresh_iff rfl

/-- As many rooms as one likes can be created; while the numbers last they are fresh. -/
theorem run_create {stringToUTF8 : String → String} {n : Nat} (hn : n ≤ 65535) :
    ∃ s, (roomSystem stringToUTF8).run (roomSystem stringToUTF8).init (List.replicate n (.create "r" 10)) = some s ∧
      s.NumberInv ∧ s.chat.roomsMade = n := by
  induction n with
  | zero => exact ⟨_, rfl, NumberInv.init, rfl⟩
  | succ n ih =>
    obtain ⟨s, hs, hinv, hmade⟩ := ih (Nat.le_of_succ_le hn)
    obtain ⟨t, ht⟩ : ∃ t, roomStep stringToUTF8 s (.create "r" 10) = some t := ⟨_, rfl⟩
    refine ⟨t, ?_, hinv.create (by omega) "r" 10 ht, ?_⟩
    · rw [List.replicate_succ', Lts.run_append_of hs, Lts.run_step ht, Lts.run_nil]
    · rw [roomStep_roomsMade ht, hmade]
      rfl

/-- After 65536 rooms one has the number 0. -/
theorem room_number_wraps : ∃ t,
    (roomSystem id).run (roomSystem id).init (List.replicate 65536 (.create "r" 10)) = some t ∧ ¬t.Fresh := by
  obtain ⟨s, hs, hinv, hmade⟩ := @run_create id 65535 (Nat.le_refl _)
  obtain ⟨t, ht⟩ : ∃ t, roomStep id s (.create "r" 10) = some t := ⟨_, rfl⟩
  refine ⟨t, ?_, hinv.wraps hmade ht⟩
  rw [show (65536 : Nat) = 65535 + 1 from rfl, List.replicate_succ', Lts.run_append_of hs, Lts.run_step ht, Lts.run_nil]

end ProjectYJ

import ProjectYJ.Chat

/-!
# What a request does to players and rooms

A request leaves every player where it is (`Stays`), or it brings one player to one room (`Joins`): that is all the proofs
about runs use of the handlers. `ChatInv` is what holds in every state a run of requests reaches, whichever requests they
are.
-/

namespace ProjectYJ

open ChatState

/-! ## The parts of the handlers -/

/-- A computation that goes through went through its first part. -/
theorem except_of_bind {ε α β : Type} {x : Except ε α} {f : α → Except ε β} {b : β} (h : (x >>= f) = .ok b) :
    ∃ a, x = .ok a ∧ f a = .ok b := by
  cases x with
  | error e => cases h
  | ok a => exact ⟨a, rfl, h⟩

theorem except_bind_eq {ε α β : Type} {x : Except ε α} {a : α} (h : x = .ok a) (f : α → Except ε β) : (x >>= f) = f a := by
  rw [h]
  rfl

section

variable {stringToUTF8 : String → String} {s : ChatState} {session : Nat}

@[simp] theorem readPlayer_eq_ok {player : Nat} : s.readPlayer session = .ok player ↔ s.player0 session = some player := by
  unfold readPlayer
  split <;> simp_all

@[simp] theorem derefRoom_eq_ok {o : Option Nat} {room : Nat} : derefRoom o = .ok room ↔ o = some room := by
  cases o <;> simp [derefRoom]

@[simp] theorem setChatRoomID_members (player roomID room : Nat) :
    (s.setChatRoomID player roomID).members room = s.members room := rfl

theorem setChatRoomID_chatRoomID (player roomID q : Nat) :
    ((s.setChatRoomID player roomID).player q).chatRoomID = if q = player then roomID else (s.player q).chatRoomID := by
  by_cases hq : q = player
  · subst hq
    simp [setChatRoomID]
  · simp [setChatRoomID, hq]

/-- One entry more in the one room, for the one player. -/
theorem enter_count (room player x q : Nat) :
    ((s.enter room player).members x).count q = (s.members x).count q + if x = room ∧ q = player then 1 else 0 := by
  by_cases hx : x = room
  · subst hx
    simp [members, ChatState.enter, ChatRoom.enter, Multimap.count_values_emplace, eq_comm]
  · simp [members, ChatState.enter, hx]

theorem createRoom_members (name : String) (maxUser x : Nat) (hnew : s.members s.roomsMade = []) :
    (s.createRoom stringToUTF8 name maxUser).members x = s.members x := by
  by_cases hx : x = s.roomsMade
  · subst hx
    rw [hnew]
    simp [members, createRoom]
  · simp [members, createRoom, hx]

theorem createRoom_getRoom (name : String) (maxUser k : Nat) :
    (s.createRoom stringToUTF8 name maxUser).getRoom k = if k = s.nextRoomNumber then some s.roomsMade else s.getRoom k := by
  simp only [getRoom, createRoom, Std.TreeMap.getElem?_insert, Std.LawfulEqCmp.compare_eq_iff_eq]
  simp only [eq_comm]

theorem removeRoom_getRoom (roomID k : Nat) :
    (s.removeRoom roomID).getRoom k = if k = roomID then none else s.getRoom k := by
  simp only [getRoom, removeRoom, Std.TreeMap.getElem?_erase, Std.LawfulEqCmp.compare_eq_iff_eq]
  simp only [eq_comm]

theorem createRoom_roomID (name : String) (maxUser : Nat) :
    ((s.createRoom stringToUTF8 name maxUser).chatRoom s.roomsMade).roomID = s.nextRoomNumber := by
  simp [createRoom]

/-! ## The handlers that may fault -/

/-- `HandleEnterChatRoomReq` goes through for a session with a player and a number that is a room's once it is a `uint16`. -/
theorem handleEnterChatRoomReq_ok {roomID : Int} {out : Handled} (h : s.handleEnterChatRoomReq session roomID = .ok out) :
    ∃ player room, s.player0 session = some player ∧ s.getRoom (toUInt16 roomID) = some room ∧
      out.state = (s.setChatRoomID player (toUInt16 roomID)).enter room player ∧ out.sends ≠ [] := by
  obtain ⟨player, hplayer, h⟩ := except_of_bind h
  obtain ⟨room, hroom, h⟩ := except_of_bind h
  cases h
  exact ⟨player, room, readPlayer_eq_ok.1 hplayer, derefRoom_eq_ok.1 hroom, rfl, List.cons_ne_nil _ _⟩

theorem handleEnterChatRoomReq_of {roomID : Int} {player room : Nat} (hplayer : s.player0 session = some player)
    (hroom : s.getRoom (toUInt16 roomID) = some room) : ∃ out, s.handleEnterChatRoomReq session roomID = .ok out := by
  have hderef : derefRoom ((s.setChatRoomID player (toUInt16 roomID)).getRoom (toUInt16 roomID)) = .ok room :=
    derefRoom_eq_ok.2 hroom
  exact ⟨_, (except_bind_eq (readPlayer_eq_ok.2 hplayer) _).trans (except_bind_eq hderef _)⟩

/-- `HandleCreateChatRoomReq` goes through for a session with a player. -/
theorem handleCreateChatRoomReq_ok {roomName : String} {out : Handled}
    (h : s.handleCreateChatRoomReq stringToUTF8 session roomName = .ok out) :
    ∃ player, s.player0 session = some player ∧
      out.state = ((s.createRoom stringToUTF8 roomName 10).enter s.roomsMade player).setChatRoomID player s.nextRoomNumber ∧
      out.sends ≠ [] := by
  obtain ⟨player, hplayer, h⟩ := except_of_bind h
  cases h
  refine ⟨player, readPlayer_eq_ok.1 hplayer, ?_, List.cons_ne_nil _ _⟩
  rw [createRoom_roomID]

theorem handleCreateChatRoomReq_of {roomName : String} {player : Nat} (hplayer : s.player0 session = some player) :
    ∃ out, s.handleCreateChatRoomReq stringToUTF8 session roomName = .ok out := by
  exact ⟨_, except_bind_eq (readPlayer_eq_ok.2 hplayer) _⟩

/-- `HandleChatReq` goes through for a session with a player whose `m_ChatRoomID` is a room's. -/
theorem handleChatReq_ok {message : String} {out : Handled} (h : s.handleChatReq session message = .ok out) :
    ∃ player room, s.player0 session = some player ∧ s.getRoom (s.player player).chatRoomID = some room ∧ out.state = s ∧
      out.sends = s.broadCast room (.ChatAck (s.player player).name message) := by
  obtain ⟨player, hplayer, h⟩ := except_of_bind h
  obtain ⟨room, hroom, h⟩ := except_of_bind h
  cases h
  exact ⟨player, room, readPlayer_eq_ok.1 hplayer, derefRoom_eq_ok.1 hroom, rfl, rfl⟩

theorem handleChatReq_of {player room : Nat} (hplayer : s.player0 session = some player)
    (hroom : s.getRoom (s.player player).chatRoomID = some room) (message : String) :
    ∃ out, s.handleChatReq session message = .ok out ∧
      out.sends = s.broadCast room (.ChatAck (s.player player).name message) := by
  exact ⟨_, (except_bind_eq (readPlayer_eq_ok.2 hplayer) _).trans (except_bind_eq (derefRoom_eq_ok.2 hroom) _), rfl⟩

end

/-! ## Stays and joins -/

/-- The step brings no player to a room. -/
structure Stays (s t : ChatRun) : Prop where
  members : ∀ x, t.chat.members x = s.chat.members x
  chatRoomID : ∀ p, p < s.chat.playersMade → (t.chat.player p).chatRoomID = (s.chat.player p).chatRoomID
  playersMade : s.chat.playersMade ≤ t.chat.playersMade
  owned : ∀ a, ∀ p ∈ (t.chat.session a).players, p ∈ (s.chat.session a).players ∨ p < t.chat.playersMade
  getRoom : ∀ k, t.chat.getRoom k = s.chat.getRoom k
  roomsMade : t.chat.roomsMade = s.chat.roomsMade
  lastRoom : t.lastRoom = s.lastRoom

/-- The step brings a player to a room, which has this number then: a room that had it, or a new one. -/
structure Joins (s t : ChatRun) (player room roomID : Nat) : Prop where
  count : ∀ x q, (t.chat.members x).count q = (s.chat.members x).count q + if x = room ∧ q = player then 1 else 0
  chatRoomID : ∀ q, (t.chat.player q).chatRoomID = if q = player then roomID else (s.chat.player q).chatRoomID
  playersMade : t.chat.playersMade = s.chat.playersMade
  session : t.chat.session = s.chat.session
  getRoom : ∀ k, t.chat.getRoom k = if k = roomID then some room else s.chat.getRoom k
  source : s.chat.getRoom roomID = some room ∨ room = s.chat.roomsMade
  roomID_lt : roomID < 65536
  roomsMade : s.chat.roomsMade ≤ t.chat.roomsMade
  room_lt : room < t.chat.roomsMade
  lastRoom : t.lastRoom = Function.update s.lastRoom player (some room)

theorem Stays.refl (s : ChatRun) : Stays s s :=
  ⟨fun _ => rfl, fun _ _ => rfl, Nat.le_refl _, fun _ _ hp => Or.inl hp, fun _ => rfl, rfl, rfl⟩

theorem Joins.mem {s t : ChatRun} {player room roomID : Nat} (h : Joins s t player room roomID) (x q : Nat) :
    q ∈ t.chat.members x ↔ q ∈ s.chat.members x ∨ (x = room ∧ q = player) := by
  rw [← List.count_pos_iff, h.count, ← List.count_pos_iff]
  split <;> simp_all

/-- What holds of players and rooms in every state that requests lead to: rooms have 16-bit numbers, each its own, and a
member; players are in made rooms, and a player that is in a room has the number of a room. -/
structure ChatInv (s : ChatRun) : Prop where
  rooms : ∀ k x, s.chat.getRoom k = some x → k < 65536 ∧ x < s.chat.roomsMade
  inj : ∀ k k' x, s.chat.getRoom k = some x → s.chat.getRoom k' = some x → k = k'
  unmade : ∀ x, s.chat.roomsMade ≤ x → s.chat.members x = []
  creator : ∀ k x, s.chat.getRoom k = some x → ∃ p, p ∈ s.chat.members x
  listed : ∀ x, ∀ p ∈ s.chat.members x, p < s.chat.playersMade ∧ (s.chat.getRoom (s.chat.player p).chatRoomID).isSome
  owned : ∀ a, ∀ p ∈ (s.chat.session a).players, p < s.chat.playersMade
  last : ∀ p x, s.lastRoom p = some x → p ∈ s.chat.members x

theorem ChatInv.player0_lt {s : ChatRun} (hs : ChatInv s) {session player : Nat}
    (h : s.chat.player0 session = some player) : player < s.chat.playersMade :=
  hs.owned session player (List.mem_of_mem_head? h)

theorem ChatInv.stays {s t : ChatRun} (hs : ChatInv s) (h : Stays s t) : ChatInv t := by
  refine ⟨?_, ?_, ?_, ?_, ?_, ?_, ?_⟩
  · intro k x hk
    rw [h.getRoom] at hk
    rw [h.roomsMade]
    exact hs.rooms k x hk
  · intro k k' x hk hk'
    rw [h.getRoom] at hk hk'
    exact hs.inj k k' x hk hk'
  · intro x hx
    rw [h.roomsMade] at hx
    rw [h.members]
    exact hs.unmade x hx
  · intro k x hk
    rw [h.getRoom] at hk
    rw [h.members]
    exact hs.creator k x hk
  · intro x p hp
    rw [h.members] at hp
    obtain ⟨hlt, hroom⟩ := hs.listed x p hp
    rw [h.chatRoomID p hlt, h.getRoom]
    exact ⟨Nat.lt_of_lt_of_le hlt h.playersMade, hroom⟩
  · intro a p hp
    rcases h.owned a p hp with hold | hnew
    · exact Nat.lt_of_lt_of_le (hs.owned a p hold) h.playersMade
    · exact hnew
  · intro p x hp
    rw [h.lastRoom] at hp
    rw [h.members]
    exact hs.last p x hp

/-- After a player joined a room, the rooms the manager knows are those it knew, except under the number of that room. -/
theorem Joins.getRoom_eq_some {s t : ChatRun} {player room roomID : Nat} (h : Joins s t player room roomID) {k x : Nat}
    (hk : t.chat.getRoom k = some x) : (k = roomID ∧ x = room) ∨ (k ≠ roomID ∧ s.chat.getRoom k = some x) := by
  rw [h.getRoom] at hk
  by_cases hid : k = roomID
  · rw [if_pos hid] at hk
    exact Or.inl ⟨hid, (Option.some.inj hk).symm⟩
  · rw [if_neg hid] at hk
    exact Or.inr ⟨hid, hk⟩

/-- Under any other number there is another room. -/
theorem Joins.room_ne {s t : ChatRun} (hs : ChatInv s) {player room roomID : Nat} (h : Joins s t player room roomID)
    {k : Nat} (hk : k ≠ roomID) : s.chat.getRoom k ≠ some room := by
  intro hroom
  rcases h.source with hold | hnew
  · exact hk (hs.inj k roomID room hroom hold)
  · have := (hs.rooms k room hroom).2
    omega

theorem ChatInv.joins {s t : ChatRun} (hs : ChatInv s) {player room roomID : Nat} (h : Joins s t player room roomID)
    (hplayer : player < s.chat.playersMade) : ChatInv t := by
  refine ⟨?_, ?_, ?_, ?_, ?_, ?_, ?_⟩
  · intro k x hk
    rcases h.getRoom_eq_some hk with ⟨rfl, rfl⟩ | ⟨_, hold⟩
    · exact ⟨h.roomID_lt, h.room_lt⟩
    · exact ⟨(hs.rooms k x hold).1, Nat.lt_of_lt_of_le (hs.rooms k x hold).2 h.roomsMade⟩
  · intro k k' x hk hk'
    rcases h.getRoom_eq_some hk with ⟨rfl, rfl⟩ | ⟨hne, hold⟩
    · rcases h.getRoom_eq_some hk' with ⟨rfl, _⟩ | ⟨hne', hold'⟩
      · rfl
      · exact absurd hold' (h.room_ne hs hne')
    · rcases h.getRoom_eq_some hk' with ⟨_, rfl⟩ | ⟨_, hold'⟩
      · exact absurd hold (h.room_ne hs hne)
      · exact hs.inj k k' x hold hold'
  · intro x hx
    have hle := h.roomsMade
    have hlt := h.room_lt
    refine List.eq_nil_iff_forall_not_mem.2 fun q hq => ?_
    rcases (h.mem x q).1 hq with hold | ⟨rfl, _⟩
    · rw [hs.unmade x (by omega)] at hold
      cases hold
    · omega
  · intro k x hk
    rcases h.getRoom_eq_some hk with ⟨_, rfl⟩ | ⟨_, hold⟩
    · exact ⟨player, (h.mem _ _).2 (Or.inr ⟨rfl, rfl⟩)⟩
    · obtain ⟨p, hp⟩ := hs.creator k x hold
      exact ⟨p, (h.mem x p).2 (Or.inl hp)⟩
  · intro x p hp
    rw [h.playersMade, h.chatRoomID, h.getRoom]
    by_cases hpp : p = player
    · subst hpp
      simpa using hplayer
    · rcases (h.mem x p).1 hp with hold | ⟨_, heq⟩
      · obtain ⟨hlt, hroom⟩ := hs.listed x p hold
        refine ⟨hlt, ?_⟩
        rw [if_neg hpp]
        split
        · rfl
        · exact hroom
      · exact absurd heq hpp
  · intro a p hp
    rw [h.session] at hp
    rw [h.playersMade]
    exact hs.owned a p hp
  · intro p x hp
    rw [h.lastRoom] at hp
    by_cases hpp : p = player
    · subst hpp
      rw [Function.update_self] at hp
      obtain rfl := Option.some.inj hp
      exact (h.mem _ _).2 (Or.inr ⟨rfl, rfl⟩)
    · rw [Function.update_of_ne hpp] at hp
      exact (h.mem x p).2 (Or.inl (hs.last p x hp))

/-! ## Every request stays or joins -/

section

variable {stringToUTF8 : String → String} {s t : ChatRun}

/-- A step is a request whose handler comes to its end. -/
theorem chatStep_eq_some {l : Nat × ChatRequest} : chatStep stringToUTF8 s l = some t ↔
    ∃ out, s.chat.handle stringToUTF8 l.1 l.2 = .ok out ∧ { chat := out.state, lastRoom := s.lastRoomAfter l.1 l.2 } = t := by
  unfold chatStep
  cases s.chat.handle stringToUTF8 l.1 l.2 with
  | error e => simp
  | ok out => simp

theorem lastRoomAfter_of_none (session : Nat) {request : ChatRequest} (h : s.destination request = none) :
    s.lastRoomAfter session request = s.lastRoom := by
  simp [ChatRun.lastRoomAfter, h]

/-- What a request can do. -/
theorem chatStep_cases (hs : ChatInv s) {session : Nat} {request : ChatRequest}
    (h : chatStep stringToUTF8 s (session, request) = some t) :
    ((∀ k, request ≠ .EnterChatRoomReq k) ∧ (∀ n, request ≠ .CreateChatRoomReq n) ∧ Stays s t) ∨
    (∃ k player room, request = .EnterChatRoomReq k ∧ s.chat.player0 session = some player ∧
      s.chat.getRoom (toUInt16 k) = some room ∧ Joins s t player room (toUInt16 k)) ∨
    (∃ n player, request = .CreateChatRoomReq n ∧ s.chat.player0 session = some player ∧
      Joins s t player s.chat.roomsMade s.chat.nextRoomNumber) := by
  obtain ⟨out, hout, rfl⟩ := chatStep_eq_some.1 h
  cases request with
  | EnterChatRoomReq k =>
    obtain ⟨player, room, hplayer, hroom, hstate, _⟩ := handleEnterChatRoomReq_ok hout
    refine Or.inr (Or.inl ⟨k, player, room, rfl, hplayer, hroom, ?_⟩)
    refine ⟨?_, ?_, ?_, ?_, ?_, Or.inl hroom, toUInt16_lt k, ?_, ?_, ?_⟩
    · intro x q
      rw [hstate, enter_count, setChatRoomID_members]
    · intro q
      rw [hstate]
      exact setChatRoomID_chatRoomID player _ q
    · rw [hstate]
      rfl
    · rw [hstate]
      rfl
    · intro i
      rw [hstate]
      split
      · rename_i hi
        exact hi ▸ hroom
      · rfl
    · rw [hstate]
      exact Nat.le_refl _
    · rw [hstate]
      exact (hs.rooms _ room hroom).2
    · simp only [ChatRun.lastRoomAfter, ChatRun.destination, hplayer, hroom]
  | CreateChatRoomReq n =>
    obtain ⟨player, hplayer, hstate, _⟩ := handleCreateChatRoomReq_ok hout
    refine Or.inr (Or.inr ⟨n, player, rfl, hplayer, ?_⟩)
    refine ⟨?_, ?_, ?_, ?_, ?_, Or.inr rfl, toUInt16_lt _, ?_, ?_, ?_⟩
    · intro x q
      rw [hstate, setChatRoomID_members, enter_count, createRoom_members _ _ _ (hs.unmade _ (Nat.le_refl _))]
    · intro q
      rw [hstate, setChatRoomID_chatRoomID]
      rfl
    · rw [hstate]
      rfl
    · rw [hstate]
      rfl
    · intro i
      rw [hstate]
      exact @createRoom_getRoom stringToUTF8 s.chat n 10 i
    · rw [hstate]
      exact Nat.le_succ _
    · rw [hstate]
      exact Nat.lt_succ_self _
    · simp only [ChatRun.lastRoomAfter, ChatRun.destination, hplayer]
  | LoginReq id password =>
    cases hout
    refine Or.inl ⟨nofun, nofun, ?_⟩
    refine ⟨fun _ => rfl, ?_, Nat.le_succ _, ?_, fun _ => rfl, rfl, ?_⟩
    · intro p hp
      simp [Function.update_of_ne (Nat.ne_of_lt hp)]
    · intro a p hp
      by_cases ha : a = session
      · subst ha
        simp only [Function.update_self, GameSession.addPlayer, List.mem_append, List.mem_singleton] at hp
        rcases hp with hold | rfl
        · exact Or.inl hold
        · exact Or.inr (Nat.lt_succ_self _)
      · simp only [Function.update_of_ne ha] at hp
        exact Or.inl hp
    · exact lastRoomAfter_of_none session rfl
  | ChatReq sessionUID message roomID =>
    obtain ⟨_, _, _, _, hstate, _⟩ := handleChatReq_ok hout
    refine Or.inl ⟨nofun, nofun, ?_⟩
    rw [hstate, lastRoomAfter_of_none session rfl]
    exact Stays.refl s
  | ChatRoomListReq | RefreshChatRoomReq | DummyPacketReq =>
    cases hout
    refine Or.inl ⟨nofun, nofun, ?_⟩
    rw [lastRoomAfter_of_none session rfl]
    exact Stays.refl s

theorem ChatInv.init (uid : Nat → Int) : ChatInv (chatSystem stringToUTF8 uid).init := by
  have hrooms : ∀ k, (ChatState.init uid).getRoom k = none := fun _ => Std.TreeMap.getElem?_emptyc
  refine ⟨?_, ?_, fun _ _ => rfl, ?_, nofun, nofun, nofun⟩
  · intro k x hk
    exact absurd (hk.symm.trans (hrooms k)) (Option.some_ne_none x)
  · intro k _ x hk
    exact absurd (hk.symm.trans (hrooms k)) (Option.some_ne_none x)
  · intro k x hk
    exact absurd (hk.symm.trans (hrooms k)) (Option.some_ne_none x)

theorem ChatInv.step (hs : ChatInv s) {l : Nat × ChatRequest} (h : chatStep stringToUTF8 s l = some t) : ChatInv t := by
  obtain ⟨session, request⟩ := l
  rcases chatStep_cases hs h with ⟨_, _, hstays⟩ | ⟨_, _, _, _, hplayer, _, hjoins⟩ | ⟨_, _, _, hplayer, hjoins⟩
  · exact hs.stays hstays
  · exact hs.joins hjoins (hs.player0_lt hplayer)
  · exact hs.joins hjoins (hs.player0_lt hplayer)

theorem ChatInv.run {uid : Nat → Int} {ls : List (Nat × ChatRequest)}
    (h : (chatSystem stringToUTF8 uid).run (chatSystem stringToUTF8 uid).init ls = some s) : ChatInv s :=
  (chatSystem stringToUTF8 uid).run_invariant (fun _ _ _ hs hstep => ChatInv.step hs hstep) (ChatInv.init uid) h

end

/-! ## What is in the rooms -/

/-- The entries of a room: one under the number its creator had before, and the others under the number of the room. -/
def ChatRoom.EnteredBy (r : ChatRoom) (creatorID creator : Nat) (others : List Nat) : Prop :=
  r.members.entries.Perm ((creatorID, creator) :: others.map (fun q => (r.roomID, q)))

/-- The manager knows each room under the room's own number, and every room made was entered by its creator first, then by
requests that name its number. -/
structure RoomsInv (s : ChatState) : Prop where
  below : ∀ k x, s.getRoom k = some x → x < s.roomsMade
  roomID : ∀ k x, s.getRoom k = some x → (s.chatRoom x).roomID = k
  entered : ∀ x < s.roomsMade, ∃ creatorID creator others, (s.chatRoom x).EnteredBy creatorID creator others

section

variable {stringToUTF8 : String → String} {s t : ChatState}

/-- A state with the same rooms. -/
theorem RoomsInv.congr (hs : RoomsInv s) (hr : ∀ k, t.getRoom k = s.getRoom k) (hm : t.roomsMade = s.roomsMade)
    (hc : t.chatRoom = s.chatRoom) : RoomsInv t := by
  refine ⟨fun k x hk => ?_, fun k x hk => ?_, fun x hx => ?_⟩
  · rw [hm]
    exact hs.below k x (hr k ▸ hk)
  · rw [hc]
    exact hs.roomID k x (hr k ▸ hk)
  · rw [hc]
    exact hs.entered x (hm ▸ hx)

/-- `Enter` leaves of every room all but its members. -/
theorem enter_chatRoom (room player x : Nat) :
    (s.enter room player).chatRoom x = { s.chatRoom x with members := ((s.enter room player).chatRoom x).members } := by
  by_cases hx : x = room
  · subst hx
    simp [ChatState.enter, ChatRoom.enter]
  · simp [ChatState.enter, hx]

theorem enter_roomID (room player x : Nat) : ((s.enter room player).chatRoom x).roomID = (s.chatRoom x).roomID := by
  rw [enter_chatRoom]

theorem enter_roomName (room player x : Nat) : ((s.enter room player).chatRoom x).roomName = (s.chatRoom x).roomName := by
  rw [enter_chatRoom]

theorem enter_chatRoom_self (s : ChatState) (room player : Nat) :
    (s.enter room player).chatRoom room = (s.chatRoom room).enter (s.player player).chatRoomID player := Function.update_self ..

theorem enter_chatRoom_of_ne {room player x : Nat} (hx : x ≠ room) : (s.enter room player).chatRoom x = s.chatRoom x :=
  Function.update_of_ne hx ..

/-- A player that enters with the room's own number is one more of the others. -/
theorem ChatRoom.EnteredBy.enter {r : ChatRoom} {creatorID creator : Nat} {others : List Nat}
    (h : r.EnteredBy creatorID creator others) (player : Nat) :
    (r.enter r.roomID player).EnteredBy creatorID creator (player :: others) := by
  refine (r.members.entries_emplace_perm r.roomID player).trans ?_
  rw [List.map_cons]
  exact (h.cons _).trans (List.Perm.swap ..)

theorem RoomsInv.enter (hs : RoomsInv s) {k room player : Nat} (hroom : s.getRoom k = some room) :
    RoomsInv ((s.setChatRoomID player k).enter room player) := by
  refine ⟨hs.below, fun k' x hk => ?_, fun x hx => ?_⟩
  · rw [enter_roomID]
    exact hs.roomID k' x hk
  · by_cases hxr : x = room
    · subst hxr
      obtain ⟨c, p, ps, h⟩ := hs.entered x hx
      refine ⟨c, p, player :: ps, ?_⟩
      have hkey : ((s.setChatRoomID player k).player player).chatRoomID = (s.chatRoom x).roomID := by
        rw [setChatRoomID_chatRoomID, if_pos rfl, hs.roomID k x hroom]
      rw [enter_chatRoom_self, hkey]
      exact h.enter player
    · rw [enter_chatRoom_of_ne hxr]
      exact hs.entered x hx

theorem RoomsInv.create (hs : RoomsInv s) (name : String) (maxUser player roomID : Nat) :
    RoomsInv (((s.createRoom stringToUTF8 name maxUser).enter s.roomsMade player).setChatRoomID player roomID) := by
  have hold : ∀ {x}, x < s.roomsMade →
      ((s.createRoom stringToUTF8 name maxUser).enter s.roomsMade player).chatRoom x = s.chatRoom x := by
    intro x hx
    rw [enter_chatRoom_of_ne (Nat.ne_of_lt hx)]
    exact Function.update_of_ne (Nat.ne_of_lt hx) ..
  refine ⟨fun k x hk => ?_, fun k x hk => ?_, fun x hx => ?_⟩
  · have hk' := (@createRoom_getRoom stringToUTF8 s name maxUser k).symm.trans hk
    split at hk'
    · obtain rfl := Option.some.inj hk'
      exact Nat.lt_succ_self _
    · exact Nat.lt_succ_of_lt (hs.below k x hk')
  · have hk' := (@createRoom_getRoom stringToUTF8 s name maxUser k).symm.trans hk
    split at hk'
    · rename_i hid
      obtain rfl := Option.some.inj hk'
      rw [hid]
      exact (enter_roomID _ _ _).trans (createRoom_roomID name maxUser)
    · show (((s.createRoom stringToUTF8 name maxUser).enter s.roomsMade player).chatRoom x).roomID = k
      rw [hold (hs.below k x hk')]
      exact hs.roomID k x hk'
  · rcases Nat.lt_succ_iff_lt_or_eq.1 hx with hlt | rfl
    · show ∃ c p ps, (((s.createRoom stringToUTF8 name maxUser).enter s.roomsMade player).chatRoom x).EnteredBy c p ps
      rw [hold hlt]
      exact hs.entered x hlt
    · refine ⟨(s.player player).chatRoomID, player, [], ?_⟩
      rw [ChatRoom.EnteredBy, List.map_nil]
      simp [setChatRoomID, ChatState.enter, ChatRoom.enter, createRoom, Multimap.emplace, Multimap.insertEntry, Multimap.empty]

theorem RoomsInv.handle (hs : RoomsInv s) {session : Nat} {request : ChatRequest} {out : Handled}
    (h : s.handle stringToUTF8 session request = .ok out) : RoomsInv out.state := by
  cases request with
  | EnterChatRoomReq roomID =>
    obtain ⟨player, room, -, hroom, hstate, -⟩ := handleEnterChatRoomReq_ok h
    rw [hstate]
    exact hs.enter hroom
  | CreateChatRoomReq roomName =>
    obtain ⟨player, -, hstate, -⟩ := handleCreateChatRoomReq_ok h
    rw [hstate]
    exact hs.create roomName 10 player s.nextRoomNumber
  | ChatReq sessionUID message roomID =>
    obtain ⟨_, _, -, -, hstate, -⟩ := handleChatReq_ok h
    rw [hstate]
    exact hs
  | LoginReq | ChatRoomListReq | RefreshChatRoomReq | DummyPacketReq =>
    cases h
    exact hs.congr (fun _ => rfl) rfl rfl

theorem RoomsInv.run {uid : Nat → Int} {ls : List (Nat × ChatRequest)} {r : ChatRun}
    (h : (chatSystem stringToUTF8 uid).run (chatSystem stringToUTF8 uid).init ls = some r) : RoomsInv r.chat := by
  refine (chatSystem stringToUTF8 uid).run_invariant (I := fun r => RoomsInv r.chat) (fun r l r' hs hstep => ?_) ?_ h
  · obtain ⟨out, hout, rfl⟩ := chatStep_eq_some.1 hstep
    exact hs.handle hout
  · refine ⟨fun k x hk => ?_, fun k x hk => ?_, fun x hx => absurd hx (Nat.not_lt_zero x)⟩
    all_goals exact absurd (hk.symm.trans Std.TreeMap.getElem?_emptyc) (Option.some_ne_none x)

end

/-! ## Whose players there are -/

/-- The players of a session are its own and were made, as were those in the rooms; and every player is in its session. -/
structure OwnerInv (s : ChatState) : Prop where
  owned : ∀ a, ∀ p ∈ (s.session a).players, p < s.playersMade ∧ (s.player p).ownerSession = a
  owner : ∀ p < s.playersMade, p ∈ (s.session (s.player p).ownerSession).players
  members : ∀ x, ∀ p ∈ s.members x, p < s.playersMade

/-- A request that makes no player: the sessions and the owners stay, and at most the first player of the session enters a
room. -/
structure SameOwners (s t : ChatState) (a : Nat) : Prop where
  session : t.session = s.session
  playersMade : t.playersMade = s.playersMade
  owner : ∀ q, (t.player q).ownerSession = (s.player q).ownerSession
  members : ∀ x, ∀ p ∈ t.members x, p ∈ s.members x ∨ s.player0 a = some p

/-- A request that makes a player, for its session, which nobody else is concerned with. -/
structure NewOwner (s t : ChatState) (session : Nat) : Prop where
  players : ∀ a, (t.session a).players = (s.session a).players ++ if a = session then [s.playersMade] else []
  playersMade : t.playersMade = s.playersMade + 1
  new : (t.player s.playersMade).ownerSession = session
  player : ∀ q < s.playersMade, t.player q = s.player q
  members : ∀ x, t.members x = s.members x

section

variable {stringToUTF8 : String → String} {s t : ChatState} {session : Nat}

theorem setChatRoomID_ownerSession (player roomID q : Nat) :
    ((s.setChatRoomID player roomID).player q).ownerSession = (s.player q).ownerSession := by
  by_cases hq : q = player
  · subst hq
    simp [setChatRoomID]
  · simp [setChatRoomID, hq]

theorem mem_enter {room player x q : Nat} (h : q ∈ (s.enter room player).members x) : q ∈ s.members x ∨ q = player := by
  rw [← List.count_pos_iff, enter_count] at h
  rw [← List.count_pos_iff]
  split at h
  · rename_i hq
    exact Or.inr hq.2
  · exact Or.inl h

theorem mem_createRoom {name : String} {maxUser x q : Nat} (h : q ∈ (s.createRoom stringToUTF8 name maxUser).members x) :
    q ∈ s.members x := by
  by_cases hx : x = s.roomsMade
  · subst hx
    simp [members, createRoom] at h
  · simpa [members, createRoom, hx] using h

theorem SameOwners.refl (s : ChatState) (session : Nat) : SameOwners s s session :=
  ⟨rfl, rfl, fun _ => rfl, fun _ _ h => Or.inl h⟩

/-- A login makes a player, and no other request does. -/
theorem handle_owners {request : ChatRequest} {out : Handled} (h : s.handle stringToUTF8 session request = .ok out) :
    ((∃ id password, request = .LoginReq id password) ∧ NewOwner s out.state session) ∨
      ((∀ id password, request ≠ .LoginReq id password) ∧ SameOwners s out.state session) := by
  cases request with
  | EnterChatRoomReq roomID =>
    obtain ⟨player, room, hplayer, -, hstate, -⟩ := handleEnterChatRoomReq_ok h
    refine Or.inr ⟨nofun, ?_⟩
    rw [hstate]
    refine ⟨rfl, rfl, setChatRoomID_ownerSession player (toUInt16 roomID), fun x p hp => ?_⟩
    rcases mem_enter hp with hold | rfl
    · exact Or.inl hold
    · exact Or.inr hplayer
  | CreateChatRoomReq roomName =>
    obtain ⟨player, hplayer, hstate, -⟩ := handleCreateChatRoomReq_ok h
    refine Or.inr ⟨nofun, ?_⟩
    rw [hstate]
    refine ⟨rfl, rfl, fun q => setChatRoomID_ownerSession player s.nextRoomNumber q, fun x p hp => ?_⟩
    rw [setChatRoomID_members] at hp
    rcases mem_enter hp with hold | rfl
    · exact Or.inl (mem_createRoom hold)
    · exact Or.inr hplayer
  | LoginReq id password =>
    cases h
    refine Or.inl ⟨⟨id, password, rfl⟩, ?_⟩
    refine ⟨fun a => ?_, rfl, by simp, fun q hq => Function.update_of_ne (Nat.ne_of_lt hq) .., fun _ => rfl⟩
    by_cases ha : a = session
    · subst ha
      simp [GameSession.addPlayer]
    · simp [ha]
  | ChatReq sessionUID message roomID =>
    obtain ⟨_, _, -, -, hstate, -⟩ := handleChatReq_ok h
    rw [hstate]
    exact Or.inr ⟨nofun, SameOwners.refl s session⟩
  | ChatRoomListReq | RefreshChatRoomReq | DummyPacketReq =>
    cases h
    exact Or.inr ⟨nofun, SameOwners.refl s session⟩

/-- What a request sends goes to its session, or to the owner of a player in a room. -/
theorem handle_sends {request : ChatRequest} {out : Handled} (h : s.handle stringToUTF8 session request = .ok out)
    {m : Nat × ChatAnswer} (hm : m ∈ out.sends) :
    m.1 = session ∨ ∃ x, ∃ p ∈ s.members x, (s.player p).ownerSession = m.1 := by
  cases request with
  | EnterChatRoomReq roomID =>
    obtain ⟨player, -, h⟩ := except_of_bind h
    obtain ⟨room, -, h⟩ := except_of_bind h
    cases h
    exact Or.inl (by rw [List.mem_singleton.1 hm])
  | CreateChatRoomReq roomName =>
    obtain ⟨player, -, h⟩ := except_of_bind h
    cases h
    exact Or.inl (by rw [List.mem_singleton.1 hm])
  | ChatReq sessionUID message roomID =>
    obtain ⟨player, room, -, -, -, hsends⟩ := handleChatReq_ok h
    rw [hsends] at hm
    obtain ⟨p, hp, rfl⟩ := List.mem_map.1 hm
    exact Or.inr ⟨room, p, hp, rfl⟩
  | LoginReq | ChatRoomListReq | DummyPacketReq =>
    cases h
    exact Or.inl (by rw [List.mem_singleton.1 hm])
  | RefreshChatRoomReq =>
    cases h
    cases hm

theorem OwnerInv.same (hs : OwnerInv s) (h : SameOwners s t session) : OwnerInv t := by
  refine ⟨?_, ?_, ?_⟩
  · intro a p hp
    rw [h.session] at hp
    rw [h.playersMade, h.owner]
    exact hs.owned a p hp
  · intro p hp
    rw [h.session, h.owner]
    exact hs.owner p (h.playersMade ▸ hp)
  · intro x p hp
    rw [h.playersMade]
    rcases h.members x p hp with hold | hplayer
    · exact hs.members x p hold
    · exact (hs.owned session p (List.mem_of_mem_head? hplayer)).1

theorem OwnerInv.new (hs : OwnerInv s) (h : NewOwner s t session) : OwnerInv t := by
  refine ⟨?_, ?_, ?_⟩
  · intro a p hp
    rw [h.players] at hp
    rw [h.playersMade]
    rcases List.mem_append.1 hp with hold | hnew
    · obtain ⟨hlt, howner⟩ := hs.owned a p hold
      exact ⟨Nat.lt_succ_of_lt hlt, by rw [h.player p hlt, howner]⟩
    · split at hnew
      · rename_i ha
        rw [List.mem_singleton.1 hnew, ha]
        exact ⟨Nat.lt_succ_self _, h.new⟩
      · cases hnew
  · intro p hp
    rw [h.playersMade] at hp
    rw [h.players]
    rcases Nat.lt_succ_iff_lt_or_eq.1 hp with hlt | rfl
    · rw [h.player p hlt]
      exact List.mem_append_left _ (hs.owner p hlt)
    · rw [h.new, if_pos rfl]
      exact List.mem_append_right _ (List.mem_singleton.2 rfl)
  · intro x p hp
    rw [h.members] at hp
    rw [h.playersMade]
    exact Nat.lt_succ_of_lt (hs.members x p hp)

theorem OwnerInv.handle (hs : OwnerInv s) {request : ChatRequest} {out : Handled}
    (h : s.handle stringToUTF8 session request = .ok out) : OwnerInv out.state := by
  rcases handle_owners h with ⟨-, hnew⟩ | ⟨-, hsame⟩
  · exact hs.new hnew
  · exact hs.same hsame

end

end ProjectYJ

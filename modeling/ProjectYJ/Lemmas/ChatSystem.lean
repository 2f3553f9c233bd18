import ProjectYJ.ChatSystem
import ProjectYJ.Lemmas.Chat

/-!
# Steps of the server and its clients

`NetMoves` says what each step of the net requires and leaves, for any kind of clients; the proofs about runs are by cases on it.
A mapping between two kinds of clients that agrees with what they do maps the runs of one net to runs of the other.
-/

namespace ProjectYJ

/-! ## Messages by connection -/

section

variable {α : Type} {a b : Nat} {x : α}

@[simp] theorem ofConnection_nil : ofConnection a ([] : List (Nat × α)) = [] := rfl

@[simp] theorem ofConnection_append (l m : List (Nat × α)) : ofConnection a (l ++ m) = ofConnection a l ++ ofConnection a m := by
  simp [ofConnection]

theorem ofConnection_singleton : ofConnection a [(b, x)] = if b = a then [x] else [] := by
  by_cases h : b = a <;> simp [ofConnection, h]

@[simp] theorem mem_ofConnection {l : List (Nat × α)} : x ∈ ofConnection a l ↔ (a, x) ∈ l := by
  constructor
  · intro h
    obtain ⟨⟨b, y⟩, hm, rfl⟩ := List.mem_map.1 h
    obtain ⟨hl, hb⟩ := List.mem_filter.1 hm
    obtain rfl : b = a := by simpa using hb
    exact hl
  · intro h
    exact List.mem_map.2 ⟨(a, x), List.mem_filter.2 ⟨h, by simp⟩, rfl⟩

/-- What is left on the connections when one message was taken was there before. -/
theorem mem_of_mem_rest {α : Type} {f : Nat → List α} {a b : Nat} {x y : α} {rest : List α} (h : f a = x :: rest)
    (hy : y ∈ Function.update f a rest b) : y ∈ f b := by
  by_cases hb : b = a
  · subst hb
    rw [Function.update_self] at hy
    rw [h]
    exact List.mem_cons_of_mem x hy
  · rwa [Function.update_of_ne hb] at hy

/-- The messages of a list that belong to the connections of a client. -/
def ofClient (host : Nat → Nat) (i : Nat) (l : List (Nat × α)) : List α := ofConnection i (l.map fun m => (host m.1, m.2))

@[simp] theorem ofClient_nil {host : Nat → Nat} {i : Nat} : ofClient host i ([] : List (Nat × α)) = [] := rfl

theorem ofClient_append (host : Nat → Nat) (i : Nat) (l m : List (Nat × α)) :
    ofClient host i (l ++ m) = ofClient host i l ++ ofClient host i m := by
  simp [ofClient]

theorem mem_ofClient {host : Nat → Nat} {i : Nat} {l : List (Nat × α)} : x ∈ ofClient host i l ↔ ∃ a, host a = i ∧ (a, x) ∈ l := by
  simp only [ofClient, mem_ofConnection, List.mem_map, Prod.mk.injEq]
  constructor
  · rintro ⟨⟨a, y⟩, hm, rfl, rfl⟩
    exact ⟨a, rfl, hm⟩
  · rintro ⟨a, rfl, hm⟩
    exact ⟨(a, x), hm, rfl, rfl⟩

/-- Where all messages of a client are on one of its connections. -/
theorem ofClient_eq_ofConnection {host : Nat → Nat} {i : Nat} {l : List (Nat × α)} (hhost : host a = i)
    (h : ∀ m ∈ l, host m.1 = i → m.1 = a) : ofClient host i l = ofConnection a l := by
  simp only [ofClient, ofConnection, List.filter_map, List.map_map]
  refine congrArg (List.map Prod.snd) (List.filter_congr fun m hm => ?_)
  by_cases ha : m.1 = a
  · simp [ha, hhost]
  · have hne : host m.1 ≠ i := fun heq => ha (h m hm heq)
    simp [ha, hne]

theorem ofClient_singleton (host : Nat → Nat) (i : Nat) : ofClient host i [(b, x)] = if host b = i then [x] else [] := by
  simp [ofClient, ofConnection_singleton]

end

/-! ## What a step requires and leaves -/

open ChatNet

variable {κ : Type}

theorem setClient_self (s : ChatNet κ) (i : Nat) (c : κ) : (s.setClient i c).client i = c := Function.update_self ..

theorem setClient_of_ne (s : ChatNet κ) {i j : Nat} (h : j ≠ i) (c : κ) : (s.setClient i c).client j = s.client j :=
  Function.update_of_ne h ..

/-- The steps of the net, each with what it requires and what it leaves. -/
inductive NetMoves (ops : ClientOps κ) (stringToUTF8 : String → String) (host : Nat → Nat) (s : ChatNet κ) :
    ChatNetStep → ChatNet κ → Prop where
  | connect {a} (hstage : ops.stage (s.client (host a)) a = .connecting) :
      NetMoves ops stringToUTF8 host s (.connect a) (s.setClient (host a) (ops.connect (s.client (host a)) a))
  | onConnected {a uid} (hstage : ops.stage (s.client (host a)) a = .connected uid) :
      NetMoves ops stringToUTF8 host s (.onConnected a) (s.setClient (host a) (ops.onConnected (s.client (host a)) a uid))
  | serve {a request rest out} (hwaits : s.toServer a = request :: rest)
      (hok : s.server.chat.handle stringToUTF8 a request = .ok out) :
      NetMoves ops stringToUTF8 host s (.serve a) (s.served a request rest out)
  | receive {a uid answer rest} (hstage : ops.stage (s.client (host a)) a = .registered uid)
      (hwaits : s.toClient a = answer :: rest) :
      NetMoves ops stringToUTF8 host s (.receive a)
        ((s.taken a answer rest).setClient (host a) (ops.handle (s.client (host a)) answer))
  | dispatch {i localTime c requests} (hdoes : ops.dispatch (s.client i) localTime = some (c, requests)) :
      NetMoves ops stringToUTF8 host s (.dispatch i localTime) ((s.setClient i c).ask requests)
  | user {i action c requests} (hdoes : ops.act (s.client i) action = some (c, requests)) :
      NetMoves ops stringToUTF8 host s (.user i action) ((s.setClient i c).ask requests)

/-- What a step requires and leaves. -/
theorem netMoves_iff {ops : ClientOps κ} {stringToUTF8 : String → String} {host : Nat → Nat} {s t : ChatNet κ} {l : ChatNetStep} :
    chatNetStep ops stringToUTF8 host s l = some t ↔ NetMoves ops stringToUTF8 host s l t := by
  constructor
  · intro h
    cases l with
    | connect a =>
      simp only [chatNetStep] at h
      split at h
      · rename_i hstage
        obtain rfl := Option.some.inj h
        exact .connect hstage
      · cases h
    | onConnected a =>
      simp only [chatNetStep] at h
      split at h
      · rename_i uid hstage
        obtain rfl := Option.some.inj h
        exact .onConnected hstage
      · cases h
    | serve a =>
      simp only [chatNetStep] at h
      split at h
      · cases h
      · rename_i request rest hwaits
        split at h
        · cases h
        · rename_i out hok
          obtain rfl := Option.some.inj h
          exact .serve hwaits hok
    | receive a =>
      simp only [chatNetStep] at h
      split at h
      · rename_i uid answer rest hstage hwaits
        obtain rfl := Option.some.inj h
        exact .receive hstage hwaits
      · cases h
    | dispatch i localTime =>
      obtain ⟨⟨c, requests⟩, hdoes, rfl⟩ := Option.map_eq_some_iff.1 h
      exact .dispatch hdoes
    | user i action =>
      obtain ⟨⟨c, requests⟩, hdoes, rfl⟩ := Option.map_eq_some_iff.1 h
      exact .user hdoes
  · intro h
    cases h with
    | connect hstage | onConnected hstage => simp only [chatNetStep, hstage]
    | serve hwaits hok => simp only [chatNetStep, hwaits, hok]
    | receive hstage hwaits => simp only [chatNetStep, hstage, hwaits]
    | dispatch hdoes | user hdoes => simp only [chatNetStep, hdoes, Option.map_some]

/-- What was sent on a connection has been handled by its client, or is on its way to it, in that order. -/
theorem sent_eq_received {ops : ClientOps κ} {client : κ} {stringToUTF8 : String → String} {uid : Nat → Int} {host : Nat → Nat}
    {ls : List ChatNetStep} {s : ChatNet κ}
    (h : (netOf ops client stringToUTF8 uid host).run (netOf ops client stringToUTF8 uid host).init ls = some s) (a : Nat) :
    ofConnection a s.sent = ofConnection a s.received ++ s.toClient a := by
  refine (netOf ops client stringToUTF8 uid host).run_invariant
    (I := fun s => ofConnection a s.sent = ofConnection a s.received ++ s.toClient a) (fun s l t hs hstep => ?_) rfl h
  cases netMoves_iff.1 hstep with
  | connect | onConnected | dispatch | user => exact hs
  | @serve b request rest out hwaits hok =>
    simp only [ChatNet.served, ofConnection_append, hs, List.append_assoc]
  | @receive b uid answer rest hstage hwaits =>
    simp only [ChatNet.setClient, ChatNet.taken, ofConnection_append, ofConnection_singleton]
    by_cases hb : b = a
    · subst hb
      simp [hs, hwaits]
    · simp [hs, hb, Ne.symm hb]

/-- The rule for one client: what its own operations keep, of its state and the answers it has handled, holds in every run, whatever
the server and the other clients do. -/
theorem client_invariant {ops : ClientOps κ} {J : κ → List ChatAnswer → Prop} {client : κ} (hinit : J client [])
    (hconnect : ∀ c l a, J c l → J (ops.connect c a) l) (honConnected : ∀ c l a uid, J c l → J (ops.onConnected c a uid) l)
    (hhandle : ∀ c l answer, J c l → J (ops.handle c answer) (l ++ [answer]))
    (hdispatch : ∀ c l t c' requests, J c l → ops.dispatch c t = some (c', requests) → J c' l)
    (hact : ∀ c l action c' requests, J c l → ops.act c action = some (c', requests) → J c' l)
    {stringToUTF8 : String → String} {uid : Nat → Int} {host : Nat → Nat} {ls : List ChatNetStep} {s : ChatNet κ}
    (h : (netOf ops client stringToUTF8 uid host).run (netOf ops client stringToUTF8 uid host).init ls = some s) (i : Nat) :
    J (s.client i) (ofClient host i s.received) := by
  -- one client changes, and the others keep their state and what they have handled
  have hone : ∀ (s : ChatNet κ) (j : Nat) (c : κ), J (s.client i) (ofClient host i s.received) →
      (i = j → J c (ofClient host i s.received)) → J ((s.setClient j c).client i) (ofClient host i s.received) := by
    intro s j c hs hc
    by_cases hj : i = j
    · subst hj
      simpa [setClient] using hc rfl
    · simpa [setClient, hj] using hs
  refine (netOf ops client stringToUTF8 uid host).run_invariant
    (I := fun s => J (s.client i) (ofClient host i s.received)) (fun s l t hs hstep => ?_) hinit h
  cases netMoves_iff.1 hstep with
  | @connect a hstage =>
    refine hone s _ _ hs ?_
    rintro rfl
    exact hconnect _ _ a hs
  | @onConnected a uid hstage =>
    refine hone s _ _ hs ?_
    rintro rfl
    exact honConnected _ _ a uid hs
  | serve hwaits hok => exact hs
  | @receive a uid answer rest hstage hwaits =>
    have hreceived : ofClient host i (s.taken a answer rest).received =
        ofClient host i s.received ++ if host a = i then [answer] else [] := by
      rw [← ofClient_singleton]
      exact ofClient_append host i s.received [(a, answer)]
    by_cases ha : host a = i
    · subst ha
      rw [if_pos rfl] at hreceived
      have hafter := hhandle _ _ answer hs
      rw [← hreceived] at hafter
      simpa [setClient] using hafter
    · rw [if_neg ha, List.append_nil] at hreceived
      show J (((s.taken a answer rest).setClient (host a) _).client i) (ofClient host i (s.taken a answer rest).received)
      rw [hreceived]
      simpa [setClient, Ne.symm ha, ChatNet.taken] using hs
  | @dispatch j t c requests hdoes =>
    refine hone s j c hs ?_
    rintro rfl
    exact hdispatch _ _ t c requests hs hdoes
  | @user j action c requests hdoes =>
    refine hone s j c hs ?_
    rintro rfl
    exact hact _ _ action c requests hs hdoes

/-! ## From one net to the other -/

/-- One kind of clients is mapped to another: what the first do, from states with an invariant, the second do too. -/
structure ClientOps.MapsTo {κ κ' : Type} (A : ClientOps κ) (B : ClientOps κ') (I : κ → Prop) (f : κ → κ') : Prop where
  stage : ∀ c a, B.stage (f c) a = A.stage c a
  connect : ∀ c a, I c → I (A.connect c a) ∧ f (A.connect c a) = B.connect (f c) a
  onConnected : ∀ c a uid, I c → I (A.onConnected c a uid) ∧ f (A.onConnected c a uid) = B.onConnected (f c) a uid
  handle : ∀ c answer, I c → I (A.handle c answer) ∧ f (A.handle c answer) = B.handle (f c) answer
  dispatch : ∀ c t c' requests, I c → A.dispatch c t = some (c', requests) → I c' ∧ B.dispatch (f c) t = some (f c', requests)
  act : ∀ c action c' requests, I c → A.act c action = some (c', requests) → I c' ∧ B.act (f c) action = some (f c', requests)

namespace ChatNet

variable {κ' : Type}

/-- The net with each client mapped. -/
def map (f : κ → κ') (s : ChatNet κ) : ChatNet κ' :=
  { server := s.server, client := fun i => f (s.client i), toServer := s.toServer, toClient := s.toClient, asked := s.asked,
    sent := s.sent, received := s.received }

theorem map_setClient (f : κ → κ') (s : ChatNet κ) (i : Nat) (c : κ) : (s.setClient i c).map f = (s.map f).setClient i (f c) := by
  have hclient : (fun j => f (Function.update s.client i c j)) = Function.update (fun j => f (s.client j)) i (f c) := by
    funext j
    exact Function.apply_update (fun _ => f) s.client i c j
  simp only [map, setClient, hclient]

theorem map_ask (f : κ → κ') (s : ChatNet κ) (requests : List (Nat × ChatRequest)) :
    (s.ask requests).map f = (s.map f).ask requests := rfl

/-- A client that changes keeps an invariant of all clients if it keeps it itself. -/
theorem forall_setClient {s : ChatNet κ} {I : κ → Prop} (hs : ∀ j, I (s.client j)) {i : Nat} {c : κ} (hc : I c) (j : Nat) :
    I ((s.setClient i c).client j) := by
  by_cases hj : j = i
  · subst hj
    simpa [setClient] using hc
  · simpa [setClient, hj] using hs j

end ChatNet

/-- A step of the net is the same step of the net with mapped clients. -/
theorem ClientOps.MapsTo.step {κ κ' : Type} {A : ClientOps κ} {B : ClientOps κ'} {I : κ → Prop} {f : κ → κ'}
    (h : A.MapsTo B I f) {stringToUTF8 : String → String} {host : Nat → Nat} {s t : ChatNet κ} {l : ChatNetStep}
    (hs : ∀ i, I (s.client i)) (hstep : chatNetStep A stringToUTF8 host s l = some t) :
    (∀ i, I (t.client i)) ∧ chatNetStep B stringToUTF8 host (s.map f) l = some (t.map f) := by
  rw [netMoves_iff] at hstep ⊢
  cases hstep with
  | @connect a hstage =>
    obtain ⟨hI, hf⟩ := h.connect _ a (hs (host a))
    refine ⟨forall_setClient hs hI, ?_⟩
    rw [map_setClient, hf]
    exact .connect ((h.stage _ a).trans hstage)
  | @onConnected a uid hstage =>
    obtain ⟨hI, hf⟩ := h.onConnected _ a uid (hs (host a))
    refine ⟨forall_setClient hs hI, ?_⟩
    rw [map_setClient, hf]
    exact .onConnected ((h.stage _ a).trans hstage)
  | serve hwaits hok => exact ⟨hs, .serve hwaits hok⟩
  | @receive a uid answer rest hstage hwaits =>
    obtain ⟨hI, hf⟩ := h.handle _ answer (hs (host a))
    refine ⟨forall_setClient (s := s.taken a answer rest) hs hI, ?_⟩
    rw [map_setClient, hf]
    exact .receive ((h.stage _ a).trans hstage) hwaits
  | @dispatch i localTime c requests hdoes =>
    obtain ⟨hI, hf⟩ := h.dispatch _ localTime c requests (hs i) hdoes
    refine ⟨forall_setClient hs hI, ?_⟩
    rw [map_ask, map_setClient]
    exact .dispatch hf
  | @user i action c requests hdoes =>
    obtain ⟨hI, hf⟩ := h.act _ action c requests (hs i) hdoes
    refine ⟨forall_setClient hs hI, ?_⟩
    rw [map_ask, map_setClient]
    exact .user hf

end ProjectYJ

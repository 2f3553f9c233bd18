import ProjectYJ.Lib.Lts
import ProjectYJ.Lib.Threads
import Mathlib.Data.List.Perm.Subperm
import Mathlib.Logic.Function.Basic

/-!
# Workers behind a running flag

A pool of threads that take items from queues while a flag is up. Whoever pushes an item tests the flag first and then chooses the
queue, and a worker tests it before each item; a controlling thread puts the flag up, sets the number of workers, makes the queues and
starts the threads, and it takes the flag down, joins them and throws away what is left in the queues. The tests and what follows them
are steps of their own, as are the choice of a queue, the making of one and the start of a thread, so that everything may interleave.

`Accounts` says that the items leave each queue in the order in which they were pushed, each of them once, to a worker or to the
controller, and that a worker has handled all that it took except for what it holds. `Gone` says that there are no threads when the
controller has come to its end, and `Counted` how many queues there are. `remaining` is a bound on the steps that a pool can take once
the flag is down, and `exists_step` says that it can take one until the controller has come to its end.
-/

namespace ProjectYJ

universe u v

/-- What a thread does: it is about to test the flag, has found it up, holds an item, or has ended. -/
inductive WorkThread (α : Type v) where
  | atLoop
  | polling
  | busy (x : α)
  | ended
  deriving DecidableEq

/-- The item a thread holds. -/
def WorkThread.item? {α : Type v} : WorkThread α → Option α
  | busy x => some x
  | _ => none

/-- What the controller does: nothing; it starts the pool, asked for so many workers, or has still to make so many queues, or to start
so many threads; or it stops it, and has still to push these items to these queues, or joins the threads, of which it has joined this
many, or empties the queues. -/
inductive WorkControl (κ : Type u) (α : Type v) where
  | idle
  | sizing (n : Int)
  | making (k : Nat)
  | spawning (k : Nat)
  | waking (xs : List (κ × α))
  | joining (k : Nat)
  | draining
  deriving DecidableEq

/-- The controller starts the pool. -/
def WorkControl.starts {κ : Type u} {α : Type v} : WorkControl κ α → Bool
  | sizing _ => true
  | making _ => true
  | spawning _ => true
  | _ => false

/-- The controller stops the pool. -/
def WorkControl.stops {κ : Type u} {α : Type v} : WorkControl κ α → Bool
  | waking _ => true
  | joining _ => true
  | draining => true
  | _ => false

/-- A pool: how many workers it has when this many are asked for; the queue chosen for an item where the number of workers is this, if
one can be; the queue of a worker; how many queues are made for so many workers, and the queues there are when so many were made; and
what the controller pushes, and where, for as many threads when it has taken the flag down. -/
structure WorkProgram (κ : Type u) (α : Type v) where
  workers : Int → Nat
  route : Nat → α → Option κ
  source : Nat → κ
  makes : Nat → Nat
  queues : Nat → List κ
  wakeUps : Nat → List (κ × α)

/-- The state: the flag, the controller, the number of workers, the threads, how many queues were made, and the queues; and the items
that are about to be pushed, before a queue is chosen for them and after that. The last three fields record what was pushed, to which
queue; what left a queue, with the worker that took it, if it was one; and what the workers have handled. -/
structure WorkState (κ : Type u) (α : Type v) where
  running : Bool
  control : WorkControl κ α
  workers : Nat
  threads : List (WorkThread α)
  count : Nat
  queue : κ → List α
  entering : List α
  aimed : List (κ × α)
  pushed : List (κ × α)
  left : List (κ × α × Option Nat)
  handled : List (Nat × α)

/-- The steps. The controller is asked for so many threads and puts the flag up, sets the number of workers, makes the next queue or
goes on when there is none to make, and starts the next thread or comes to its end; somebody who pushes an item tests the flag, chooses
a queue, and pushes it; a worker tests the flag, tries to take an item, and has handled it; the controller takes the flag down, pushes
the next item or goes on when there is none, joins the next thread or goes on when there is none, throws away an item, and comes to its
end. -/
inductive WorkStep (κ : Type u) (α : Type v) where
  | start (n : Int)
  | size
  | make
  | spawn
  | enter (x : α)
  | aim (j : Nat)
  | push (j : Nat)
  | test (i : Nat)
  | pop (i : Nat)
  | done (i : Nat)
  | shutdown
  | wake
  | join
  | drain (q : κ)
  | finish
  deriving DecidableEq

namespace WorkState

variable {κ : Type u} {α : Type v}

/-- Before the first start, with the queues that there are when none was made. -/
def init : WorkState κ α where
  running := false
  control := .idle
  workers := 0
  threads := []
  count := 0
  queue := fun _ => []
  entering := []
  aimed := []
  pushed := []
  left := []
  handled := []

/-- A thread goes on. -/
def setThread (s : WorkState κ α) (i : Nat) (th : WorkThread α) : WorkState κ α := { s with threads := s.threads.set i th }

variable [DecidableEq κ]

/-- An item goes to the end of a queue. -/
def enqueue (s : WorkState κ α) (q : κ) (x : α) : WorkState κ α :=
  { s with queue := Function.update s.queue q (s.queue q ++ [x]), pushed := s.pushed ++ [(q, x)] }

/-- An item leaves a queue, to a worker or to the controller. -/
def leave (s : WorkState κ α) (q : κ) (x : α) (rest : List α) (taker : Option Nat) : WorkState κ α :=
  { s with queue := Function.update s.queue q rest, left := s.left ++ [(q, x, taker)] }

end WorkState

open WorkState

variable {κ : Type u} {α : Type v} [DecidableEq κ]

/-- The step function. Where no queue can be chosen, or a push finds no queue, there is undefined behaviour and no step. -/
def workStep (P : WorkProgram κ α) (s : WorkState κ α) : WorkStep κ α → Option (WorkState κ α)
  | .start n =>
    match s.running, s.control with
    | false, .idle => some { s with running := true, control := .sizing n }
    | _, _ => none
  | .size =>
    match s.control with
    | .sizing n => some { s with workers := P.workers n, control := .making (P.makes (P.workers n)) }
    | _ => none
  | .make =>
    match s.control with
    | .making 0 => some { s with control := .spawning s.workers }
    | .making (k + 1) => some { s with control := .making k, count := s.count + 1 }
    | _ => none
  | .spawn =>
    match s.control with
    | .spawning 0 => some { s with control := .idle }
    | .spawning (k + 1) => some { s with control := .spawning k, threads := s.threads ++ [.atLoop] }
    | _ => none
  | .enter x => if s.running = true then some { s with entering := s.entering ++ [x] } else none
  | .aim j =>
    match s.entering[j]? with
    | none => none
    | some x =>
      match P.route s.workers x with
      | none => none
      | some q => some { s with entering := s.entering.eraseIdx j, aimed := s.aimed ++ [(q, x)] }
  | .push j =>
    match s.aimed[j]? with
    | none => none
    | some (q, x) => if q ∈ P.queues s.count then some ({ s with aimed := s.aimed.eraseIdx j }.enqueue q x) else none
  | .test i =>
    match s.threads[i]? with
    | some .atLoop => some (s.setThread i (if s.running then .polling else .ended))
    | _ => none
  | .pop i =>
    match s.threads[i]?, s.queue (P.source i) with
    | some .polling, [] => some (s.setThread i .atLoop)
    | some .polling, x :: rest => some ((s.leave (P.source i) x rest (some i)).setThread i (.busy x))
    | _, _ => none
  | .done i =>
    match s.threads[i]? with
    | some (.busy x) => some ({ s with handled := s.handled ++ [(i, x)] }.setThread i .atLoop)
    | _ => none
  | .shutdown =>
    match s.running, s.control with
    | true, .idle => some { s with running := false, control := .waking (P.wakeUps s.threads.length) }
    | _, _ => none
  | .wake =>
    match s.control with
    | .waking [] => some { s with control := .joining 0 }
    | .waking ((q, x) :: xs) => some ({ s with control := .waking xs }.enqueue q x)
    | _ => none
  | .join =>
    match s.control with
    | .joining k =>
      match s.threads[k]? with
      | none => some { s with control := .draining, threads := [] }
      | some .ended => some { s with control := .joining (k + 1) }
      | some _ => none
    | _ => none
  | .drain q =>
    match s.control, s.queue q with
    | .draining, x :: rest => if q ∈ P.queues s.count then some (s.leave q x rest none) else none
    | _, _ => none
  | .finish =>
    match s.control with
    | .draining =>
      if ∀ q ∈ P.queues s.count, (s.queue q).isEmpty = true then some { s with control := .idle, count := 0 } else none
    | _ => none

/-- The pool as a transition system. -/
def workSystem (P : WorkProgram κ α) : Lts (WorkState κ α) (WorkStep κ α) where
  init := WorkState.init
  step := workStep P

/-! ## What a step requires and leaves -/

/-- The steps, each with what it requires and what it leaves. -/
inductive WorkMoves (P : WorkProgram κ α) (s : WorkState κ α) : WorkStep κ α → WorkState κ α → Prop where
  | start {n} (hrunning : s.running = false) (hcontrol : s.control = .idle) :
      WorkMoves P s (.start n) { s with running := true, control := .sizing n }
  | size {n} (hcontrol : s.control = .sizing n) :
      WorkMoves P s .size { s with workers := P.workers n, control := .making (P.makes (P.workers n)) }
  | makeNone (hcontrol : s.control = .making 0) : WorkMoves P s .make { s with control := .spawning s.workers }
  | make {k} (hcontrol : s.control = .making (k + 1)) :
      WorkMoves P s .make { s with control := .making k, count := s.count + 1 }
  | spawnNone (hcontrol : s.control = .spawning 0) : WorkMoves P s .spawn { s with control := .idle }
  | spawn {k} (hcontrol : s.control = .spawning (k + 1)) :
      WorkMoves P s .spawn { s with control := .spawning k, threads := s.threads ++ [.atLoop] }
  | enter {x} (hrunning : s.running = true) : WorkMoves P s (.enter x) { s with entering := s.entering ++ [x] }
  | aim {j x q} (henters : s.entering[j]? = some x) (hroute : P.route s.workers x = some q) :
      WorkMoves P s (.aim j) { s with entering := s.entering.eraseIdx j, aimed := s.aimed ++ [(q, x)] }
  | push {j q x} (haimed : s.aimed[j]? = some (q, x)) (hqueue : q ∈ P.queues s.count) :
      WorkMoves P s (.push j) ({ s with aimed := s.aimed.eraseIdx j }.enqueue q x)
  | test {i} (hthread : s.threads[i]? = some .atLoop) :
      WorkMoves P s (.test i) (s.setThread i (if s.running then .polling else .ended))
  | popNone {i} (hthread : s.threads[i]? = some .polling) (hempty : s.queue (P.source i) = []) :
      WorkMoves P s (.pop i) (s.setThread i .atLoop)
  | pop {i x rest} (hthread : s.threads[i]? = some .polling) (hfirst : s.queue (P.source i) = x :: rest) :
      WorkMoves P s (.pop i) ((s.leave (P.source i) x rest (some i)).setThread i (.busy x))
  | done {i x} (hthread : s.threads[i]? = some (.busy x)) :
      WorkMoves P s (.done i) ({ s with handled := s.handled ++ [(i, x)] }.setThread i .atLoop)
  | shutdown (hrunning : s.running = true) (hcontrol : s.control = .idle) :
      WorkMoves P s .shutdown { s with running := false, control := .waking (P.wakeUps s.threads.length) }
  | wakeNone (hcontrol : s.control = .waking []) : WorkMoves P s .wake { s with control := .joining 0 }
  | wake {q x xs} (hcontrol : s.control = .waking ((q, x) :: xs)) :
      WorkMoves P s .wake ({ s with control := .waking xs }.enqueue q x)
  | joinNone {k} (hcontrol : s.control = .joining k) (hthread : s.threads[k]? = none) :
      WorkMoves P s .join { s with control := .draining, threads := [] }
  | join {k} (hcontrol : s.control = .joining k) (hthread : s.threads[k]? = some .ended) :
      WorkMoves P s .join { s with control := .joining (k + 1) }
  | drain {q x rest} (hcontrol : s.control = .draining) (hfirst : s.queue q = x :: rest) (hqueue : q ∈ P.queues s.count) :
      WorkMoves P s (.drain q) (s.leave q x rest none)
  | finish (hcontrol : s.control = .draining) (hempty : ∀ q ∈ P.queues s.count, s.queue q = []) :
      WorkMoves P s .finish { s with control := .idle, count := 0 }

/-- What a step requires and leaves. -/
theorem workMoves_iff {P : WorkProgram κ α} {s t : WorkState κ α} {l : WorkStep κ α} :
    workStep P s l = some t ↔ WorkMoves P s l t := by
  constructor
  · intro h
    cases l with
    | start n =>
      simp only [workStep] at h
      split at h
      · rename_i hrunning hcontrol
        cases h
        exact .start hrunning hcontrol
      · cases h
    | size =>
      simp only [workStep] at h
      split at h
      · rename_i hcontrol
        cases h
        exact .size hcontrol
      · cases h
    | make =>
      simp only [workStep] at h
      split at h
      · rename_i hcontrol
        cases h
        exact .makeNone hcontrol
      · rename_i hcontrol
        cases h
        exact .make hcontrol
      · cases h
    | spawn =>
      simp only [workStep] at h
      split at h
      · rename_i hcontrol
        cases h
        exact .spawnNone hcontrol
      · rename_i hcontrol
        cases h
        exact .spawn hcontrol
      · cases h
    | enter x =>
      simp only [workStep, Option.ite_none_right_eq_some, Option.some.injEq] at h
      obtain ⟨hrunning, rfl⟩ := h
      exact .enter hrunning
    | aim j =>
      simp only [workStep] at h
      split at h
      · cases h
      · rename_i x henters
        split at h
        · cases h
        · rename_i q hroute
          cases h
          exact .aim henters hroute
    | push j =>
      simp only [workStep] at h
      split at h
      · cases h
      · rename_i q x haimed
        simp only [Option.ite_none_right_eq_some, Option.some.injEq] at h
        obtain ⟨hqueue, rfl⟩ := h
        exact .push haimed hqueue
    | test i =>
      simp only [workStep] at h
      split at h
      · rename_i hthread
        cases h
        exact .test hthread
      · cases h
    | pop i =>
      simp only [workStep] at h
      split at h
      · rename_i hthread hempty
        cases h
        exact .popNone hthread hempty
      · rename_i x rest hthread hfirst
        cases h
        exact .pop hthread hfirst
      · cases h
    | done i =>
      simp only [workStep] at h
      split at h
      · rename_i x hthread
        cases h
        exact .done hthread
      · cases h
    | shutdown =>
      simp only [workStep] at h
      split at h
      · rename_i hrunning hcontrol
        cases h
        exact .shutdown hrunning hcontrol
      · cases h
    | wake =>
      simp only [workStep] at h
      split at h
      · rename_i hcontrol
        cases h
        exact .wakeNone hcontrol
      · rename_i q x xs hcontrol
        cases h
        exact .wake hcontrol
      · cases h
    | join =>
      simp only [workStep] at h
      split at h
      · rename_i k hcontrol
        split at h
        · rename_i hthread
          cases h
          exact .joinNone hcontrol hthread
        · rename_i hthread
          cases h
          exact .join hcontrol hthread
        · cases h
      · cases h
    | drain q =>
      simp only [workStep] at h
      split at h
      · rename_i x rest hcontrol hfirst
        simp only [Option.ite_none_right_eq_some, Option.some.injEq] at h
        obtain ⟨hqueue, rfl⟩ := h
        exact .drain hcontrol hfirst hqueue
      · cases h
    | finish =>
      simp only [workStep] at h
      split at h
      · rename_i hcontrol
        simp only [Option.ite_none_right_eq_some, Option.some.injEq] at h
        obtain ⟨hempty, rfl⟩ := h
        exact .finish hcontrol fun q hq => List.isEmpty_iff.1 (hempty q hq)
      · cases h
  · intro h
    cases h with
    | start hrunning hcontrol | shutdown hrunning hcontrol => simp only [workStep, hrunning, hcontrol]
    | size hcontrol | makeNone hcontrol | make hcontrol | spawnNone hcontrol | spawn hcontrol => simp only [workStep, hcontrol]
    | enter hrunning => simp only [workStep, hrunning, if_true]
    | aim henters hroute => simp only [workStep, henters, hroute]
    | push haimed hqueue => simp only [workStep, haimed, hqueue, if_true]
    | test hthread | done hthread => simp only [workStep, hthread]
    | popNone hthread hempty => simp only [workStep, hthread, hempty]
    | pop hthread hfirst => simp only [workStep, hthread, hfirst]
    | wakeNone hcontrol | wake hcontrol => simp only [workStep, hcontrol]
    | joinNone hcontrol hthread | join hcontrol hthread => simp only [workStep, hcontrol, hthread]
    | drain hcontrol hfirst hqueue => simp only [workStep, hcontrol, hfirst, hqueue, if_true]
    | finish hcontrol hempty =>
      have hall : ∀ q ∈ P.queues s.count, (s.queue q).isEmpty = true := fun q hq => List.isEmpty_iff.2 (hempty q hq)
      simp only [workStep, hcontrol, if_pos hall]

/-! ## Where the items are -/

/-- The entries of a list under a key. -/
def underKey {β : Type*} (q : κ) (l : List (κ × β)) : List β := (l.filter (fun e => e.1 = q)).map Prod.snd

omit [DecidableEq κ] in
theorem underKey_append [DecidableEq κ] {β : Type*} (q : κ) (l m : List (κ × β)) :
    underKey q (l ++ m) = underKey q l ++ underKey q m := by
  simp [underKey]

theorem underKey_singleton {β : Type*} (q r : κ) (x : β) : underKey q [(r, x)] = if r = q then [x] else [] := by
  by_cases h : r = q <;> simp [underKey, h]

namespace WorkState

/-- The item that a worker holds. -/
def hand (s : WorkState κ α) (i : Nat) : Option α := s.threads[i]?.bind WorkThread.item?

/-- The items that a worker took. -/
def taken (s : WorkState κ α) (i : Nat) : List α := s.left.filterMap fun e => if e.2.2 = some i then some e.2.1 else none

/-- Items leave each queue in the order in which they were pushed to it, each once; and what a worker took it has handled, in that
order, or holds. -/
structure Accounts (s : WorkState κ α) : Prop where
  fifo : ∀ q, underKey q s.pushed = (underKey q s.left).map Prod.fst ++ s.queue q
  taken : ∀ i, s.taken i = underKey i s.handled ++ (s.hand i).toList

/-- The controller starts the pool only while the flag is up, and stops it only while it is down; what it has joined has ended; and when
it does nothing while the flag is down, or empties the queues, there are no threads. -/
structure Gone (s : WorkState κ α) : Prop where
  starting : s.control.starts = true → s.running = true
  stopping : s.control.stops = true → s.running = false
  joined : ∀ k, s.control = .joining k → ∀ j < k, s.threads[j]? = some .ended
  idle : s.running = false → s.control = .idle → s.threads = []
  draining : s.control = .draining → s.threads = []

end WorkState

section

variable {P : WorkProgram κ α} {s t : WorkState κ α}

omit [DecidableEq κ] in
theorem hand_setThread {i : Nat} {th : WorkThread α} (hthread : s.threads[i]? = some th) (th' : WorkThread α) (j : Nat) :
    (s.setThread i th').hand j = if j = i then th'.item? else s.hand j := by
  rw [WorkState.hand, WorkState.setThread, getElem?_set_of_some hthread]
  split <;> rfl

theorem WorkState.Accounts.setThread (hs : s.Accounts) {i : Nat} {th th' : WorkThread α} (hthread : s.threads[i]? = some th)
    (hitem : th'.item? = th.item?) : (s.setThread i th').Accounts := by
  refine ⟨hs.fifo, fun j => ?_⟩
  rw [hand_setThread hthread]
  split
  · rename_i hj
    subst hj
    have hhand : s.hand j = th'.item? := by rw [hitem, WorkState.hand, hthread]; rfl
    rw [← hhand]
    exact hs.taken j
  · exact hs.taken j

theorem WorkState.Accounts.enqueue (hs : s.Accounts) (q : κ) (x : α) : (s.enqueue q x).Accounts := by
  refine ⟨fun r => ?_, hs.taken⟩
  simp only [WorkState.enqueue, underKey_append, underKey_singleton]
  by_cases hr : q = r
  · subst hr
    rw [if_pos rfl, Function.update_self, hs.fifo, List.append_assoc]
  · rw [if_neg hr, Function.update_of_ne (Ne.symm hr), hs.fifo, List.append_nil]

theorem WorkState.Accounts.leave_fifo (hs : s.Accounts) {q : κ} {x : α} {rest : List α} (hfirst : s.queue q = x :: rest)
    (taker : Option Nat) (r : κ) : underKey r (s.leave q x rest taker).pushed =
      (underKey r (s.leave q x rest taker).left).map Prod.fst ++ (s.leave q x rest taker).queue r := by
  simp only [WorkState.leave, underKey_append, underKey_singleton]
  by_cases hr : q = r
  · subst hr
    rw [if_pos rfl, Function.update_self, hs.fifo, hfirst]
    simp
  · rw [if_neg hr, Function.update_of_ne (Ne.symm hr), hs.fifo, List.append_nil]

theorem taken_leave (q : κ) (x : α) (rest : List α) (taker : Option Nat) (j : Nat) :
    (s.leave q x rest taker).taken j = s.taken j ++ if taker = some j then [x] else [] := by
  by_cases h : taker = some j <;> simp [WorkState.taken, WorkState.leave, h]

omit [DecidableEq κ] in
/-- A thread that has just been started holds nothing. -/
theorem hand_spawn (i : Nat) (c : WorkControl κ α) :
    WorkState.hand { s with control := c, threads := s.threads ++ [.atLoop] } i = s.hand i := by
  simp only [WorkState.hand, List.getElem?_append]
  split
  · rfl
  · rename_i hi
    rw [List.getElem?_eq_none (Nat.le_of_not_lt hi), List.getElem?_singleton]
    split <;> rfl

omit [DecidableEq κ] in
/-- Once the controller has joined all threads, none holds anything. -/
theorem WorkState.Gone.hand_eq_none (hs : s.Gone) {k : Nat} (hcontrol : s.control = .joining k) (hthread : s.threads[k]? = none)
    (i : Nat) : s.hand i = none := by
  unfold WorkState.hand
  rcases hi : s.threads[i]? with _ | th
  · rfl
  · have hlt : i < k := by
      obtain ⟨hlt, -⟩ := List.getElem?_eq_some_iff.1 hi
      exact Nat.lt_of_lt_of_le hlt (List.getElem?_eq_none_iff.1 hthread)
    obtain rfl : th = .ended := Option.some.inj (hi.symm.trans (hs.joined k hcontrol i hlt))
    rfl

theorem WorkState.Accounts.step (hs : s.Accounts) (hgone : s.Gone) {l : WorkStep κ α} (hstep : workStep P s l = some t) :
    t.Accounts := by
  cases workMoves_iff.1 hstep with
  | start | size | makeNone | make | spawnNone => exact ⟨hs.fifo, hs.taken⟩
  | @spawn k hcontrol =>
    refine ⟨hs.fifo, fun i => (hs.taken i).trans ?_⟩
    rw [hand_spawn]
  | enter | aim => exact ⟨hs.fifo, hs.taken⟩
  | @push j q x haimed hqueue =>
    have hs' : WorkState.Accounts { s with aimed := s.aimed.eraseIdx j } := ⟨hs.fifo, hs.taken⟩
    exact hs'.enqueue q x
  | test hthread =>
    refine hs.setThread hthread ?_
    split <;> rfl
  | popNone hthread hempty => exact hs.setThread hthread rfl
  | @pop i x rest hthread hfirst =>
    refine ⟨hs.leave_fifo hfirst (some i), fun j => ?_⟩
    refine (taken_leave (s := s) (P.source i) x rest (some i) j).trans ?_
    rw [hand_setThread (s := s.leave (P.source i) x rest (some i)) hthread, hs.taken]
    by_cases hj : j = i
    · subst hj
      have hhand : s.hand j = none := by rw [WorkState.hand, hthread]; rfl
      simp [hhand, WorkState.setThread, WorkState.leave, WorkThread.item?]
    · have hne : some i ≠ some j := fun h => hj (Option.some.inj h).symm
      rw [if_neg hne, if_neg hj, List.append_nil]
      rfl
  | @done i x hthread =>
    refine ⟨hs.fifo, fun j => ?_⟩
    rw [hand_setThread (s := { s with handled := s.handled ++ [(i, x)] }) hthread]
    refine (hs.taken j).trans ?_
    simp only [WorkState.setThread, underKey_append, underKey_singleton]
    by_cases hj : j = i
    · subst hj
      have hhand : s.hand j = some x := by rw [WorkState.hand, hthread]; rfl
      simp [hhand, WorkThread.item?]
    · rw [if_neg (Ne.symm hj), if_neg hj, List.append_nil]
      rfl
  | shutdown hrunning => exact ⟨hs.fifo, hs.taken⟩
  | wakeNone hcontrol => exact ⟨hs.fifo, hs.taken⟩
  | @wake q x xs hcontrol =>
    have hs' : WorkState.Accounts { s with control := .waking xs } := ⟨hs.fifo, hs.taken⟩
    exact hs'.enqueue q x
  | joinNone hcontrol hthread =>
    refine ⟨hs.fifo, fun i => (hs.taken i).trans ?_⟩
    rw [hgone.hand_eq_none hcontrol hthread]
    rfl
  | join hcontrol hthread => exact ⟨hs.fifo, hs.taken⟩
  | drain hcontrol hfirst hqueue =>
    refine ⟨hs.leave_fifo hfirst none, fun j => ?_⟩
    rw [taken_leave, if_neg nofun, List.append_nil]
    exact hs.taken j
  | finish hcontrol hempty => exact ⟨hs.fifo, hs.taken⟩

omit [DecidableEq κ] in
/-- A thread that goes on was not ended. -/
theorem WorkState.Gone.setThread (hs : s.Gone) {i : Nat} {th : WorkThread α} (hthread : s.threads[i]? = some th) (hth : th ≠ .ended)
    (th' : WorkThread α) : (s.setThread i th').Gone := by
  have hne : s.threads ≠ [] := List.ne_nil_of_mem (List.mem_of_getElem? hthread)
  refine ⟨hs.starting, hs.stopping, fun k hk j hj => ?_, fun hr hc => absurd (hs.idle hr hc) hne,
    fun hc => absurd (hs.draining hc) hne⟩
  have hended := hs.joined k hk j hj
  have hij : i ≠ j := by
    rintro rfl
    exact hth (Option.some.inj (hthread.symm.trans hended))
  rw [WorkState.setThread, List.getElem?_set_ne hij]
  exact hended

theorem WorkState.Gone.step (hs : s.Gone) {l : WorkStep κ α} (hstep : workStep P s l = some t) : t.Gone := by
  cases workMoves_iff.1 hstep with
  | start hrunning hcontrol => exact ⟨fun _ => rfl, nofun, nofun, nofun, nofun⟩
  | size hcontrol | makeNone hcontrol | make hcontrol | spawn hcontrol =>
    exact ⟨fun _ => hs.starting (by rw [hcontrol]; rfl), nofun, nofun, nofun, nofun⟩
  | spawnNone hcontrol =>
    have hup : s.running = true := hs.starting (by rw [hcontrol]; rfl)
    refine ⟨nofun, nofun, nofun, fun hdown _ => ?_, nofun⟩
    cases hup.symm.trans hdown
  | enter | aim | push => exact ⟨hs.starting, hs.stopping, hs.joined, hs.idle, hs.draining⟩
  | test hthread => exact hs.setThread hthread nofun _
  | popNone hthread hempty => exact hs.setThread hthread nofun _
  | @pop i x rest hthread hfirst =>
    have hs' : (s.leave (P.source i) x rest (some i)).Gone := ⟨hs.starting, hs.stopping, hs.joined, hs.idle, hs.draining⟩
    exact hs'.setThread hthread nofun _
  | @done i x hthread =>
    have hs' : WorkState.Gone { s with handled := s.handled ++ [(i, x)] } :=
      ⟨hs.starting, hs.stopping, hs.joined, hs.idle, hs.draining⟩
    exact hs'.setThread hthread nofun _
  | shutdown hrunning hcontrol => exact ⟨nofun, fun _ => rfl, nofun, nofun, nofun⟩
  | wakeNone hcontrol =>
    refine ⟨nofun, fun _ => hs.stopping (by rw [hcontrol]; rfl), fun k hk j hj => ?_, nofun, nofun⟩
    cases hk
    exact absurd hj (Nat.not_lt_zero j)
  | wake hcontrol => exact ⟨nofun, fun _ => hs.stopping (by rw [hcontrol]; rfl), nofun, nofun, nofun⟩
  | joinNone hcontrol hthread => exact ⟨nofun, fun _ => hs.stopping (by rw [hcontrol]; rfl), nofun, nofun, fun _ => rfl⟩
  | @join k hcontrol hthread =>
    refine ⟨nofun, fun _ => hs.stopping (by rw [hcontrol]; rfl), fun k' hk j hj => ?_, nofun, nofun⟩
    cases hk
    rcases Nat.lt_succ_iff_lt_or_eq.1 hj with hlt | rfl
    · exact hs.joined k hcontrol j hlt
    · exact hthread
  | drain hcontrol hfirst hqueue => exact ⟨hs.starting, hs.stopping, hs.joined, hs.idle, hs.draining⟩
  | finish hcontrol hempty => exact ⟨nofun, nofun, nofun, fun _ _ => hs.draining hcontrol, nofun⟩

/-- There are no queues for the workers while the pool is down, or the number of workers is not set yet; while the controller makes
them, they and those to come are what the workers are to have; and after that, until it has come to its end, they are all there. -/
structure WorkState.Counted (P : WorkProgram κ α) (s : WorkState κ α) : Prop where
  down : s.running = false → s.control = .idle → s.count = 0
  sizing : ∀ n, s.control = .sizing n → s.count = 0
  making : ∀ k, s.control = .making k → s.count + k = P.makes s.workers
  made : s.running = true ∨ s.control ≠ .idle → (∀ n, s.control ≠ .sizing n) → (∀ k, s.control ≠ .making k) →
    s.count = P.makes s.workers

theorem WorkState.Counted.step (hs : s.Counted P) (hgone : s.Gone) {l : WorkStep κ α} (hstep : workStep P s l = some t) :
    t.Counted P := by
  cases workMoves_iff.1 hstep with
  | @start n hrunning hcontrol =>
    exact ⟨nofun, fun _ _ => hs.down hrunning hcontrol, nofun, fun _ hnot => absurd rfl (hnot _)⟩
  | @size n hcontrol =>
    have hup : s.running = true := hgone.starting (by rw [hcontrol]; rfl)
    refine ⟨nofun, nofun, fun k hk => ?_, fun _ _ hnot => absurd rfl (hnot _)⟩
    cases hk
    show s.count + P.makes (P.workers n) = P.makes (P.workers n)
    rw [hs.sizing n hcontrol, Nat.zero_add]
  | makeNone hcontrol => exact ⟨nofun, nofun, nofun, fun _ _ _ => hs.making 0 hcontrol⟩
  | @make k hcontrol =>
    refine ⟨nofun, nofun, fun k' hk' => ?_, fun _ _ hnot => absurd rfl (hnot _)⟩
    cases hk'
    have hold := hs.making (k + 1) hcontrol
    show s.count + 1 + k = P.makes s.workers
    omega
  | spawnNone hcontrol =>
    have hup : s.running = true := hgone.starting (by rw [hcontrol]; rfl)
    refine ⟨fun hdown _ => ?_, nofun, nofun, fun _ _ _ => hs.made (Or.inl hup) (by simp [hcontrol]) (by simp [hcontrol])⟩
    cases hup.symm.trans hdown
  | spawn hcontrol | wakeNone hcontrol | wake hcontrol | joinNone hcontrol | join hcontrol =>
    have hbusy : s.running = true ∨ s.control ≠ .idle := Or.inr (by simp [hcontrol])
    exact ⟨nofun, nofun, nofun, fun _ _ _ => hs.made hbusy (by simp [hcontrol]) (by simp [hcontrol])⟩
  | shutdown hrunning hcontrol =>
    exact ⟨nofun, nofun, nofun, fun _ _ _ => hs.made (Or.inl hrunning) (by simp [hcontrol]) (by simp [hcontrol])⟩
  | enter | aim | push | test | popNone | pop | done | drain => exact ⟨hs.down, hs.sizing, hs.making, hs.made⟩
  | finish hcontrol =>
    have hdown : s.running = false := hgone.stopping (by rw [hcontrol]; rfl)
    have hidle : ¬(s.running = true ∨ (WorkControl.idle : WorkControl κ α) ≠ .idle) := by simp [hdown]
    exact ⟨fun _ _ => rfl, nofun, nofun, fun h => absurd h hidle⟩

/-- The queue of an item that is about to be pushed was chosen for it, at some number of workers. -/
def WorkState.Aimed (P : WorkProgram κ α) (s : WorkState κ α) : Prop := ∀ e ∈ s.aimed, ∃ w, P.route w e.2 = some e.1

theorem WorkState.Aimed.step (hs : s.Aimed P) {l : WorkStep κ α} (hstep : workStep P s l = some t) : t.Aimed P := by
  cases workMoves_iff.1 hstep with
  | @aim j x q henters hroute =>
    intro e he
    rcases List.mem_append.1 he with he | he
    · exact hs e he
    · rw [List.mem_singleton.1 he]
      exact ⟨s.workers, hroute⟩
  | push haimed hqueue => exact fun e he => hs e (List.mem_of_mem_eraseIdx he)
  | start | size | makeNone | make | spawnNone | spawn | enter | test | popNone | pop | done | shutdown | wakeNone | wake | joinNone
  | join | drain | finish => exact hs

/-- In every run. -/
theorem workSystem_run (P : WorkProgram κ α) {ls : List (WorkStep κ α)}
    (h : (workSystem P).run (workSystem P).init ls = some s) : s.Accounts ∧ s.Gone ∧ s.Counted P ∧ s.Aimed P := by
  refine (workSystem P).run_invariant (I := fun s => s.Accounts ∧ s.Gone ∧ s.Counted P ∧ s.Aimed P)
    (fun s l t hs hstep => ⟨hs.1.step hs.2.1 hstep, hs.2.1.step hstep, hs.2.2.1.step hs.2.1 hstep, hs.2.2.2.step hstep⟩) ?_ h
  have hidle : ¬((false : Bool) = true ∨ (WorkControl.idle : WorkControl κ α) ≠ .idle) := by simp
  exact ⟨⟨fun _ => rfl, fun _ => rfl⟩, ⟨nofun, nofun, nofun, fun _ _ => rfl, nofun⟩,
    ⟨fun _ _ => rfl, nofun, nofun, fun h => absurd h hidle⟩, nofun⟩

/-! ## Once the flag is down -/

/-- How many steps a thread has before it, at most, until it has ended. -/
def WorkThread.remaining : WorkThread α → Nat
  | ended => 0
  | atLoop => 1
  | busy _ => 2
  | polling => 3

/-- How many items a thread may take before it tests the flag again. -/
def WorkThread.mayTake : WorkThread α → Nat
  | polling => 1
  | _ => 0

/-- How many steps the controller has before it, at most, to join this many threads. -/
def WorkControl.remaining (threads : Nat) : WorkControl κ α → Nat
  | idle => 0
  | sizing _ => 0
  | making _ => 0
  | spawning _ => 0
  | draining => 1
  | joining k => threads - k + 2
  | waking xs => 2 * xs.length + threads + 3

namespace WorkState

/-- How many steps a pool has before it, at most, while the flag is down: an item that is about to be pushed may still get a queue, go
into it and leave it. -/
def remaining (s : WorkState κ α) : Nat :=
  (s.threads.map WorkThread.remaining).sum + s.control.remaining s.threads.length + 3 * s.entering.length +
    2 * s.aimed.length + (s.pushed.length - s.left.length)

/-- How many items a worker has taken, or may take before it tests the flag again. -/
def mayTake (s : WorkState κ α) (i : Nat) : Nat := (s.taken i).length + (s.threads[i]?.map WorkThread.mayTake).getD 0

end WorkState

/-- An item in a queue was pushed and has not left. -/
theorem WorkState.Accounts.left_length (hs : s.Accounts) {q : κ} {x : α} {rest : List α} (hfirst : s.queue q = x :: rest) :
    s.left.length < s.pushed.length := by
  classical
  -- what left is among what was pushed, and is not all of it
  have hcount : ∀ r y, (s.left.map fun e => (e.1, e.2.1)).count (r, y) + (s.queue r).count y = s.pushed.count (r, y) := by
    intro r y
    have hfifo := congrArg (List.count y) (hs.fifo r)
    rw [List.count_append] at hfifo
    have hkey : ∀ l : List (κ × α), (underKey r l).count y = l.count (r, y) := by
      intro l
      induction l with
      | nil => rfl
      | cons e l ih =>
        rcases e with ⟨r', z⟩
        by_cases hr : r' = r
        · subst hr
          by_cases hz : z = y <;> simp_all [underKey]
        · simp_all [underKey]
    have hleft : (underKey r s.left).map Prod.fst = underKey r (s.left.map fun e => (e.1, e.2.1)) := by
      simp [underKey, List.filter_map, Function.comp_def]
    rw [hleft, hkey, hkey] at hfifo
    exact hfifo.symm
  have hsub : (s.left.map fun e => (e.1, e.2.1)).Subperm s.pushed :=
    List.subperm_ext_iff.2 fun (r, y) _ => by
      have := hcount r y
      omega
  by_contra hle
  have hperm := hsub.perm_of_length_le (by simpa using Nat.le_of_not_lt hle)
  have hq := hcount q x
  rw [hperm.count_eq, hfirst, List.count_cons_self] at hq
  omega

/-- The flag stays down until the controller starts again. -/
theorem running_of_step (hrunning : s.running = false) {l : WorkStep κ α} (hl : ∀ n, l ≠ .start n)
    (hstep : workStep P s l = some t) : t.running = false := by
  cases workMoves_iff.1 hstep with
  | start => exact absurd rfl (hl _)
  | shutdown => rfl
  | size | makeNone | make | spawnNone | spawn | enter | aim | push | test | popNone | pop | done | wakeNone | wake | joinNone | join
  | drain | finish => exact hrunning

/-- While the flag is down and the controller does not start again, every step is one of those that remain. -/
theorem remaining_of_step (hs : s.Accounts) (hgone : s.Gone) (hrunning : s.running = false) {l : WorkStep κ α}
    (hl : ∀ n, l ≠ .start n) (hstep : workStep P s l = some t) : t.remaining < s.remaining := by
  cases workMoves_iff.1 hstep with
  | start => exact absurd rfl (hl _)
  | size hcontrol | makeNone hcontrol | make hcontrol | spawnNone hcontrol | spawn hcontrol =>
    have hup := hgone.starting (by rw [hcontrol]; rfl)
    cases hup.symm.trans hrunning
  | enter hup | shutdown hup => exact absurd hup (by simp [hrunning])
  | @aim j x q henters hroute =>
    obtain ⟨hj, -⟩ := List.getElem?_eq_some_iff.1 henters
    simp only [WorkState.remaining, List.length_eraseIdx, if_pos hj, List.length_append, List.length_singleton]
    omega
  | @push j q x haimed hqueue =>
    obtain ⟨hj, -⟩ := List.getElem?_eq_some_iff.1 haimed
    simp only [WorkState.remaining, WorkState.enqueue, List.length_eraseIdx, if_pos hj, List.length_append, List.length_singleton]
    omega
  | @test i hthread =>
    have hsum := sum_map_set WorkThread.remaining hthread (b := .ended)
    simp only [WorkState.remaining, WorkState.setThread, hrunning, List.length_set, WorkThread.remaining] at hsum ⊢
    simp only [Bool.false_eq_true, if_false]
    omega
  | @popNone i hthread hempty =>
    have hsum := sum_map_set WorkThread.remaining hthread (b := .atLoop)
    simp only [WorkState.remaining, WorkState.setThread, List.length_set, WorkThread.remaining] at hsum ⊢
    omega
  | @pop i x rest hthread hfirst =>
    have hsum := sum_map_set WorkThread.remaining hthread (b := .busy x)
    have hleft := hs.left_length hfirst
    simp only [WorkState.remaining, WorkState.setThread, WorkState.leave, List.length_set, WorkThread.remaining, List.length_append,
      List.length_singleton] at hsum ⊢
    omega
  | @done i x hthread =>
    have hsum := sum_map_set WorkThread.remaining hthread (b := .atLoop)
    simp only [WorkState.remaining, WorkState.setThread, List.length_set, WorkThread.remaining] at hsum ⊢
    omega
  | wakeNone hcontrol =>
    simp only [WorkState.remaining, hcontrol, WorkControl.remaining, List.length_nil]
    omega
  | @wake q x xs hcontrol =>
    simp only [WorkState.remaining, WorkState.enqueue, hcontrol, WorkControl.remaining, List.length_cons, List.length_append,
      List.length_nil]
    omega
  | joinNone hcontrol hthread =>
    simp only [WorkState.remaining, hcontrol, WorkControl.remaining, List.map_nil, List.sum_nil]
    omega
  | @join k hcontrol hthread =>
    obtain ⟨hk, -⟩ := List.getElem?_eq_some_iff.1 hthread
    simp only [WorkState.remaining, hcontrol, WorkControl.remaining]
    omega
  | @drain q x rest hcontrol hfirst hqueue =>
    have hleft := hs.left_length hfirst
    simp only [WorkState.remaining, WorkState.leave, List.length_append, List.length_singleton]
    omega
  | finish hcontrol hempty =>
    simp only [WorkState.remaining, hcontrol, WorkControl.remaining]
    omega

/-- While the controller has something to do, it or a worker has a step. -/
theorem exists_step (P : WorkProgram κ α) (hcontrol : s.control ≠ .idle) :
    ∃ l t, (∀ n, l ≠ .start n) ∧ (∀ j, l ≠ .aim j) ∧ (∀ j, l ≠ .push j) ∧ workStep P s l = some t := by
  cases hc : s.control with
  | idle => exact absurd hc hcontrol
  | sizing n => exact ⟨.size, _, nofun, nofun, nofun, workMoves_iff.2 (.size hc)⟩
  | making k =>
    cases k with
    | zero => exact ⟨.make, _, nofun, nofun, nofun, workMoves_iff.2 (.makeNone hc)⟩
    | succ k => exact ⟨.make, _, nofun, nofun, nofun, workMoves_iff.2 (.make hc)⟩
  | spawning k =>
    cases k with
    | zero => exact ⟨.spawn, _, nofun, nofun, nofun, workMoves_iff.2 (.spawnNone hc)⟩
    | succ k => exact ⟨.spawn, _, nofun, nofun, nofun, workMoves_iff.2 (.spawn hc)⟩
  | waking xs =>
    cases xs with
    | nil => exact ⟨.wake, _, nofun, nofun, nofun, workMoves_iff.2 (.wakeNone hc)⟩
    | cons x xs => exact ⟨.wake, _, nofun, nofun, nofun, workMoves_iff.2 (.wake hc)⟩
  | joining k =>
    rcases hthread : s.threads[k]? with _ | th
    · exact ⟨.join, _, nofun, nofun, nofun, workMoves_iff.2 (.joinNone hc hthread)⟩
    · cases th with
      | atLoop => exact ⟨.test k, _, nofun, nofun, nofun, workMoves_iff.2 (.test hthread)⟩
      | polling =>
        rcases hfirst : s.queue (P.source k) with _ | ⟨x, rest⟩
        · exact ⟨.pop k, _, nofun, nofun, nofun, workMoves_iff.2 (.popNone hthread hfirst)⟩
        · exact ⟨.pop k, _, nofun, nofun, nofun, workMoves_iff.2 (.pop hthread hfirst)⟩
      | busy x => exact ⟨.done k, _, nofun, nofun, nofun, workMoves_iff.2 (.done hthread)⟩
      | ended => exact ⟨.join, _, nofun, nofun, nofun, workMoves_iff.2 (.join hc hthread)⟩
  | draining =>
    by_cases hempty : ∀ q ∈ P.queues s.count, s.queue q = []
    · exact ⟨.finish, _, nofun, nofun, nofun, workMoves_iff.2 (.finish hc hempty)⟩
    · push Not at hempty
      obtain ⟨q, hqueue, hne⟩ := hempty
      obtain ⟨x, rest, hfirst⟩ := List.exists_cons_of_ne_nil hne
      exact ⟨.drain q, _, nofun, nofun, nofun, workMoves_iff.2 (.drain hc hfirst hqueue)⟩

/-- A run from a state in which the flag is down, and in which the controller does not start again. -/
theorem remaining_of_run (hs : s.Accounts) (hgone : s.Gone) (hrunning : s.running = false) {ms : List (WorkStep κ α)}
    (hms : ∀ l ∈ ms, ∀ n, l ≠ .start n) (hr : (workSystem P).run s ms = some t) :
    ms.length + t.remaining ≤ s.remaining := by
  induction ms generalizing s with
  | nil =>
    obtain rfl := Option.some.inj hr
    simp
  | cons l ms ih =>
    obtain ⟨r, hr₁, hr₂⟩ := Option.bind_eq_some_iff.1 hr
    have hrunning' := running_of_step hrunning (hms l List.mem_cons_self) hr₁
    have hlt := remaining_of_step hs hgone hrunning (hms l List.mem_cons_self) hr₁
    have hrest := ih (hs.step hgone hr₁) (hgone.step hr₁) hrunning' (fun l' hl' => hms l' (List.mem_cons_of_mem l hl')) hr₂
    simp only [List.length_cons]
    omega

omit [DecidableEq κ] in
theorem mayTake_setThread {i : Nat} {th : WorkThread α} (hthread : s.threads[i]? = some th) {th' : WorkThread α}
    (hle : th'.mayTake ≤ th.mayTake) (j : Nat) : (s.setThread i th').mayTake j ≤ s.mayTake j := by
  obtain ⟨hi, -⟩ := List.getElem?_eq_some_iff.1 hthread
  by_cases hj : j = i
  · subst hj
    simp only [WorkState.mayTake, WorkState.setThread, List.getElem?_set_self hi, hthread, Option.map_some, Option.getD_some]
    exact Nat.add_le_add_left hle _
  · simp [WorkState.mayTake, WorkState.setThread, WorkState.taken, List.getElem?_set_ne (Ne.symm hj)]

/-- While the flag is down no worker comes to take more than it may. -/
theorem mayTake_of_step (hrunning : s.running = false) {l : WorkStep κ α} (hl : ∀ n, l ≠ .start n)
    (hstep : workStep P s l = some t) (i : Nat) : t.mayTake i ≤ s.mayTake i := by
  cases workMoves_iff.1 hstep with
  | start => exact absurd rfl (hl _)
  | size | makeNone | make | spawnNone | enter | aim | push | shutdown | wakeNone | wake | join | finish => exact Nat.le_refl _
  | spawn hcontrol =>
    -- a thread that has just been started tests the flag first
    refine Nat.add_le_add_left ?_ _
    rw [List.getElem?_append]
    split
    · exact Nat.le_refl _
    · rw [List.getElem?_singleton]
      split <;> exact Nat.zero_le _
  | test hthread =>
    refine mayTake_setThread hthread ?_ i
    simp [hrunning, WorkThread.mayTake]
  | popNone hthread hempty => exact mayTake_setThread hthread (Nat.zero_le _) i
  | @pop j x rest hthread hfirst =>
    obtain ⟨hj, -⟩ := List.getElem?_eq_some_iff.1 hthread
    simp only [WorkState.mayTake]
    rw [show ((s.leave (P.source j) x rest (some j)).setThread j (.busy x)).taken i =
        (s.leave (P.source j) x rest (some j)).taken i from rfl,
      taken_leave]
    by_cases hi : i = j
    · subst hi
      have hj' : i < (s.leave (P.source i) x rest (some i)).threads.length := hj
      rw [WorkState.setThread, List.getElem?_set_self hj', hthread]
      simp [WorkThread.mayTake]
    · have hne : some j ≠ some i := fun h => hi (Option.some.inj h).symm
      simp [WorkState.setThread, WorkState.leave, List.getElem?_set_ne (Ne.symm hi), hne]
  | done hthread => exact mayTake_setThread (s := { s with handled := _ }) hthread (Nat.zero_le _) i
  | joinNone hcontrol hthread => exact Nat.add_le_add_left (Nat.zero_le _) _
  | @drain q x rest hcontrol hfirst hqueue =>
    simp only [WorkState.mayTake]
    rw [taken_leave, if_neg nofun, List.append_nil]
    exact Nat.le_refl _

/-- Once the flag is down each worker takes at most one more item. -/
theorem taken_of_run (hrunning : s.running = false) {ms : List (WorkStep κ α)}
    (hms : ∀ l ∈ ms, ∀ n, l ≠ .start n) (hr : (workSystem P).run s ms = some t) (i : Nat) :
    (t.taken i).length ≤ (s.taken i).length + 1 := by
  have hmeets := ((workSystem P).meets_label_iff (C := fun l => ∀ n, l ≠ .start n) hr).2 hms
  have hmay := ((workSystem P).meets_invariant (I := fun t => t.running = false ∧ t.mayTake i ≤ s.mayTake i)
    (fun r l r' hl hI hstep => ?_) ⟨hrunning, Nat.le_refl _⟩ hmeets hr).2
  · have hle : (s.threads[i]?.map WorkThread.mayTake).getD 0 ≤ 1 := by
      rcases s.threads[i]? with _ | th
      · exact Nat.zero_le 1
      · cases th <;> simp [WorkThread.mayTake]
    simp only [WorkState.mayTake] at hmay
    omega
  · exact ⟨running_of_step hI.1 hl hstep, Nat.le_trans (mayTake_of_step hI.1 hl hstep i) hI.2⟩

end

end ProjectYJ

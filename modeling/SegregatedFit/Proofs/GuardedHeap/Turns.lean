/-
This file follows a guarded heap through the calls of any number of clients. A call holds the
lock from its begin to its end, so the calls happen in the order in which they got the lock,
and each of them is one turn. Up to the first fault the lock cannot be noticed: every turn has
the outcome that it would have on the heap alone. The fault may leave the heap in the middle of
an update; every turn after it is turned away and leaves the heap as the fault left it. A turn that
does not come to its end is no fault of that kind: it keeps the lock, and all after it wait.
-/

import SegregatedFit.GuardedHeap
import SegregatedFit.Proofs.Outcome

namespace SegregatedFit

/-- The calls on a guarded heap. What clients run under the lock themselves answers in
`Answer`. -/
inductive GuardedCall (σ : Type) (last : Nat) (Answer : Type) where
  | allocate? (request : Nat)
  | allocateZeroed? (request : Nat)
  | resize? (pointer : Option Pointer) (request : Nat)
  | release (pointer : Pointer)
  | withLock (action : Action (Heap σ last) Answer)

/-- What a guarded heap replies to a call. -/
inductive GuardedReply (Answer : Type) where
  | pointer (granted : Option Pointer)
  | released
  | answer (value : Option Answer)
deriving DecidableEq

/-- A client and the call for which it wants the lock. -/
structure Turn (Client σ : Type) (last : Nat) (Answer : Type) where
  client : Client
  call : GuardedCall σ last Answer

/-- What the client of a turn gets: a reply, or the fault that it ran into. -/
structure Turn.Outcome (Client Answer : Type) where
  client : Client
  result : Except Fault (GuardedReply Answer)

namespace GuardedCall

variable {σ Answer Value : Type} {last : Nat}

/-- The reply of a poisoned lock. What the client wants to run does not matter for it. -/
def refusal : GuardedCall σ last Answer → GuardedReply Answer
  | allocate? _ => .pointer none
  | allocateZeroed? _ => .pointer none
  | resize? _ _ => .pointer none
  | release _ => .released
  | withLock _ => .answer none

variable [Source σ]

/-- Makes a call on a heap without a lock. -/
def performAlone : GuardedCall σ last Answer → Action (Heap σ last) (GuardedReply Answer)
  | allocate? request => do return .pointer (← Heap.allocate? request)
  | allocateZeroed? request => do return .pointer (← Heap.allocateZeroed? request)
  | resize? pointer request => do return .pointer (← Heap.resize? pointer request)
  | release pointer => do
    Heap.release pointer
    return .released
  | withLock action => do return .answer (some (← action))

/-- Makes a call on a guarded heap. -/
def perform : GuardedCall σ last Answer → Action (GuardedHeap σ last) (GuardedReply Answer)
  | allocate? request => do return .pointer (← GuardedHeap.allocate? request)
  | allocateZeroed? request => do return .pointer (← GuardedHeap.allocateZeroed? request)
  | resize? pointer request => do return .pointer (← GuardedHeap.resize? pointer request)
  | release pointer => do
    GuardedHeap.release pointer
    return .released
  | withLock action => do return .answer (← GuardedHeap.withLock action)

/-- Every call runs one action under the lock, and makes its reply from the answer. -/
theorem exists_action (call : GuardedCall σ last Answer) :
    ∃ (Value : Type) (action : Action (Heap σ last) Value)
      (reply : Option Value → GuardedReply Answer),
      call.performAlone = (do return reply (some (← action))) ∧
        call.perform = (do return reply (← GuardedHeap.withLock action)) ∧
        call.refusal = reply none := by
  cases call with
  | allocate? request =>
    refine ⟨_, Heap.allocate? request, fun answer => .pointer answer.join, rfl, ?_, rfl⟩
    simp only [perform, GuardedHeap.allocate?, bind_assoc, pure_bind]
  | allocateZeroed? request =>
    refine ⟨_, Heap.allocateZeroed? request, fun answer => .pointer answer.join, rfl, ?_, rfl⟩
    simp only [perform, GuardedHeap.allocateZeroed?, bind_assoc, pure_bind]
  | resize? pointer request =>
    refine ⟨_, Heap.resize? pointer request, fun answer => .pointer answer.join, rfl, ?_, rfl⟩
    simp only [perform, GuardedHeap.resize?, bind_assoc, pure_bind]
  | release pointer =>
    refine ⟨_, Heap.release pointer, fun _ => .released, rfl, ?_, rfl⟩
    simp only [perform, GuardedHeap.release, bind_assoc, pure_bind]
  | withLock action =>
    exact ⟨_, action, .answer, rfl, rfl, rfl⟩

variable {call : GuardedCall σ last Answer} {before after : Heap σ last}

/-- A call that has a reply without the lock has the same reply with it. -/
theorem perform_of_eq_ok {reply : GuardedReply Answer}
    (replied : call.performAlone before = .ok reply after) :
    call.perform (.ofHeap before) = .ok reply (.ofHeap after) := by
  obtain ⟨_, action, form, alone, guarded, _⟩ := call.exists_action
  rw [alone] at replied
  obtain ⟨answer, answered, rfl⟩ := Action.bind_pure_eq_ok_iff.mp replied
  rw [guarded]
  exact Action.bind_pure_eq_ok_iff.mpr ⟨_, GuardedHeap.withLock_of_eq_ok answered, rfl⟩

/-- A call that stops with a fault without the lock stops with it under the lock, and takes the
lock from all others. -/
theorem perform_of_eq_error {fault : Fault}
    (stopped : call.performAlone before = .error fault after) :
    call.perform (.ofHeap before) = .error fault ⟨after, .ofFault fault⟩ := by
  obtain ⟨_, action, form, alone, guarded, _⟩ := call.exists_action
  rw [alone] at stopped
  rw [guarded]
  exact Action.bind_pure_eq_error_iff.mpr
    (GuardedHeap.withLock_of_eq_error (Action.bind_pure_eq_error_iff.mp stopped))

/-- On a poisoned lock every call is turned away. -/
theorem perform_of_poisoned (call : GuardedCall σ last Answer) (heap : Heap σ last) :
    call.perform ⟨heap, .poisoned⟩ = .ok call.refusal ⟨heap, .poisoned⟩ := by
  obtain ⟨_, action, form, _, guarded, refused⟩ := call.exists_action
  rw [guarded, refused]
  exact Action.bind_pure_eq_ok_iff.mpr ⟨_, GuardedHeap.withLock_of_poisoned action heap, rfl⟩

/-- For a lock that is kept every call waits. -/
theorem perform_of_kept (call : GuardedCall σ last Answer) (heap : Heap σ last) :
    call.perform ⟨heap, .kept⟩ = .error .endless ⟨heap, .kept⟩ := by
  obtain ⟨_, action, form, _, guarded, _⟩ := call.exists_action
  rw [guarded]
  exact Action.bind_pure_eq_error_iff.mpr (GuardedHeap.withLock_of_kept action heap)

end GuardedCall

namespace Turn

variable {Client σ Answer : Type} {last : Nat}

/-- What the client of a turn gets from a poisoned lock. -/
def refused (turn : Turn Client σ last Answer) : Outcome Client Answer :=
  ⟨turn.client, .ok turn.call.refusal⟩

/-- What the client of a turn gets from a lock that is kept: it waits, and there is no end. -/
def waiting (turn : Turn Client σ last Answer) : Outcome Client Answer :=
  ⟨turn.client, .error .endless⟩

variable [Source σ]

/-- Takes a turn on a heap without a lock. -/
def takeAlone (turn : Turn Client σ last Answer) :
    Action (Heap σ last) (Outcome Client Answer) := do
  return ⟨turn.client, .ok (← turn.call.performAlone)⟩

/-- Takes a turn on a guarded heap. A fault reaches the client of the turn only. -/
def take (turn : Turn Client σ last Answer) (guarded : GuardedHeap σ last) :
    Outcome Client Answer × GuardedHeap σ last :=
  match turn.call.perform guarded with
  | .ok reply after => (⟨turn.client, .ok reply⟩, after)
  | .error fault after => (⟨turn.client, .error fault⟩, after)

end Turn

namespace GuardedHeap

variable {Client σ Answer : Type} [Source σ] {last : Nat}

/-- Lets clients take their turns, one after the other. -/
def serve : GuardedHeap σ last → List (Turn Client σ last Answer) →
    List (Turn.Outcome Client Answer) × GuardedHeap σ last
  | guarded, [] => ([], guarded)
  | guarded, turn :: later =>
    let (outcome, after) := turn.take guarded
    let (outcomes, final) := serve after later
    (outcome :: outcomes, final)

/-- A guarded heap that no turn changes gives to every client what it gives to that client
alone. -/
theorem serve_of_unchanged {guarded : GuardedHeap σ last}
    {outcome : Turn Client σ last Answer → Turn.Outcome Client Answer}
    (taken : ∀ turn : Turn Client σ last Answer, turn.take guarded = (outcome turn, guarded))
    (turns : List (Turn Client σ last Answer)) :
    serve guarded turns = (turns.map outcome, guarded) := by
  induction turns with
  | nil => rfl
  | cons turn later inductionHypothesis =>
    rw [serve, taken]
    simp only [inductionHypothesis, List.map_cons]

/-- A poisoned lock turns everybody away. -/
theorem serve_of_poisoned (heap : Heap σ last) (turns : List (Turn Client σ last Answer)) :
    serve ⟨heap, .poisoned⟩ turns = (turns.map Turn.refused, ⟨heap, .poisoned⟩) := by
  refine serve_of_unchanged (fun turn => ?_) turns
  unfold Turn.take
  rw [GuardedCall.perform_of_poisoned]
  rfl

/-- A lock that is kept lets everybody wait. -/
theorem serve_of_kept (heap : Heap σ last) (turns : List (Turn Client σ last Answer)) :
    serve ⟨heap, .kept⟩ turns = (turns.map Turn.waiting, ⟨heap, .kept⟩) := by
  refine serve_of_unchanged (fun turn => ?_) turns
  unfold Turn.take
  rw [GuardedCall.perform_of_kept]
  rfl

/-- Turns without a fault are served as if there were no lock. -/
theorem serve_append {heap between : Heap σ last} {served : List (Turn Client σ last Answer)}
    {outcomes : List (Turn.Outcome Client Answer)}
    (alone : served.mapM Turn.takeAlone heap = .ok outcomes between)
    (later : List (Turn Client σ last Answer)) :
    serve (ofHeap heap) (served ++ later) =
      (outcomes ++ (serve (ofHeap between) later).1, (serve (ofHeap between) later).2) := by
  induction served generalizing heap outcomes with
  | nil =>
    obtain ⟨rfl, rfl⟩ := Action.pure_eq_ok_iff.mp alone
    rfl
  | cons turn rest inductionHypothesis =>
    rw [List.mapM_cons] at alone
    obtain ⟨outcome, next, first, remaining⟩ := Action.bind_eq_ok_iff.mp alone
    obtain ⟨others, resumed, rfl⟩ := Action.bind_pure_eq_ok_iff.mp remaining
    obtain ⟨reply, replied, rfl⟩ := Action.bind_pure_eq_ok_iff.mp first
    have taken : turn.take (ofHeap heap) = (⟨turn.client, .ok reply⟩, ofHeap next) := by
      unfold Turn.take
      rw [GuardedCall.perform_of_eq_ok replied]
    rw [List.cons_append, serve, taken]
    simp only [inductionHypothesis resumed, List.cons_append]

/-- The turn with the fault decides what the lock is for those after it. -/
theorem serve_cons_of_eq_error {heap broken : Heap σ last} {turn : Turn Client σ last Answer}
    {fault : Fault} (stopped : turn.call.performAlone heap = .error fault broken)
    (later : List (Turn Client σ last Answer)) :
    serve (ofHeap heap) (turn :: later) =
      (⟨turn.client, .error fault⟩ :: (serve ⟨broken, .ofFault fault⟩ later).1,
        (serve ⟨broken, .ofFault fault⟩ later).2) := by
  have taken :
      turn.take (ofHeap heap) = (⟨turn.client, .error fault⟩, ⟨broken, .ofFault fault⟩) := by
    unfold Turn.take
    rw [GuardedCall.perform_of_eq_error stopped]
  rw [serve, taken]

/-- Some turns all have replies on a heap alone, or there is a first one that does not. -/
theorem exists_first_fault (heap : Heap σ last) (turns : List (Turn Client σ last Answer)) :
    (∃ outcomes after, turns.mapM Turn.takeAlone heap = .ok outcomes after) ∨
      ∃ served turn later outcomes between fault broken, turns = served ++ turn :: later ∧
        served.mapM Turn.takeAlone heap = .ok outcomes between ∧
        turn.call.performAlone between = .error fault broken := by
  induction turns generalizing heap with
  | nil => exact Or.inl ⟨[], heap, rfl⟩
  | cons turn rest inductionHypothesis =>
    cases performed : turn.call.performAlone heap with
    | error fault broken =>
      exact Or.inr ⟨[], turn, rest, [], heap, fault, broken, rfl, rfl, performed⟩
    | ok reply next =>
      have first : turn.takeAlone heap = .ok ⟨turn.client, .ok reply⟩ next :=
        Action.bind_pure_eq_ok_iff.mpr ⟨reply, performed, rfl⟩
      have goOn {served : List (Turn Client σ last Answer)}
          {outcomes : List (Turn.Outcome Client Answer)} {after : Heap σ last}
          (resumed : served.mapM Turn.takeAlone next = .ok outcomes after) :
          (turn :: served).mapM Turn.takeAlone heap =
            .ok (⟨turn.client, .ok reply⟩ :: outcomes) after := by
        rw [List.mapM_cons]
        exact Action.bind_eq_ok_iff.mpr
          ⟨_, next, first, Action.bind_pure_eq_ok_iff.mpr ⟨outcomes, resumed, rfl⟩⟩
      rcases inductionHypothesis next with ⟨outcomes, after, resumed⟩ |
        ⟨served, stopping, later, outcomes, between, fault, broken, rfl, resumed, stopped⟩
      · exact Or.inl ⟨_, after, goOn resumed⟩
      · exact Or.inr ⟨turn :: served, stopping, later, _, between, fault, broken, rfl,
          goOn resumed, stopped⟩

/-- The lock serves its clients until the first fault, and nobody after it. Either all turns
have replies: they are those of the heap alone, and so is the heap that comes out of the lock.
Or a turn stops with a fault: until then all is as on the heap alone, and whatever anybody asks
for afterwards is turned away, the heap stays as the fault left it, and it does not come out of
the lock again. A turn that does not come to its end is told apart from that: nobody gets the lock
after it, whoever asks waits forever, and nothing happens to the heap. -/
theorem serves_until_fault (heap : Heap σ last) (turns : List (Turn Client σ last Answer)) :
    (∃ outcomes after, turns.mapM Turn.takeAlone heap = .ok outcomes after ∧
      serve (ofHeap heap) turns = (outcomes, ofHeap after) ∧
      (serve (ofHeap heap) turns).2.intoHeap? = some after) ∨
    ∃ served turn later outcomes between fault broken, turns = served ++ turn :: later ∧
      served.mapM Turn.takeAlone heap = .ok outcomes between ∧
      serve (ofHeap heap) served = (outcomes, ofHeap between) ∧
      turn.call.performAlone between = .error fault broken ∧
      (fault ≠ .endless → ∀ others : List (Turn Client σ last Answer),
        serve (ofHeap heap) (served ++ turn :: others) =
            (outcomes ++ ⟨turn.client, .error fault⟩ :: others.map Turn.refused,
              ⟨broken, .poisoned⟩) ∧
          (serve (ofHeap heap) (served ++ turn :: others)).2.intoHeap? = none) ∧
      (fault = .endless → ∀ others : List (Turn Client σ last Answer),
        serve (ofHeap heap) (served ++ turn :: others) =
            (outcomes ++ turn.waiting :: others.map Turn.waiting, ⟨broken, .kept⟩) ∧
          (serve (ofHeap heap) (served ++ turn :: others)).2.intoHeap? = none) := by
  have servedAlone {served : List (Turn Client σ last Answer)} {outcomes after}
      (alone : served.mapM Turn.takeAlone heap = .ok outcomes after) :
      serve (ofHeap heap) served = (outcomes, ofHeap after) := by
    have all := serve_append alone []
    rwa [List.append_nil, serve, List.append_nil] at all
  rcases exists_first_fault heap turns with ⟨outcomes, after, alone⟩ |
    ⟨served, turn, later, outcomes, between, fault, broken, split, alone, stopped⟩
  · refine Or.inl ⟨outcomes, after, alone, servedAlone alone, ?_⟩
    rw [servedAlone alone]
    rfl
  · refine Or.inr ⟨served, turn, later, outcomes, between, fault, broken, split, alone,
      servedAlone alone, stopped, fun ends others => ?_, fun goesOn others => ?_⟩
    · rw [serve_append alone, serve_cons_of_eq_error stopped, Lock.ofFault_of_ne_endless ends,
        serve_of_poisoned]
      exact ⟨rfl, rfl⟩
    · rw [serve_append alone, serve_cons_of_eq_error stopped, goesOn, Lock.ofFault_endless,
        serve_of_kept]
      exact ⟨rfl, rfl⟩

end GuardedHeap

end SegregatedFit

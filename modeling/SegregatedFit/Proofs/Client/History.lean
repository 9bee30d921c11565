/-
This file follows heaps through whole histories. At every moment of a history some chart
describes the heap, and the leases of the client name the owned cells of that chart. The file
also makes histories computable: calls can be replayed, and a replay is a history.
-/

import SegregatedFit.Proofs.Client.Step
import SegregatedFit.Proofs.Heap.Create
import SegregatedFit.Source.Buffer

namespace SegregatedFit

variable {σ : Type} [Source σ] {last : Nat} {source : σ} {config : Config}
variable {past : List (Call × Reply)} {heap : Heap σ last} {leases : List Lease}

namespace History

/-- At every moment of a history a chart describes the heap and serves the leases. What holds of
the chart at the begin, and is kept by every call, holds of the chart then. -/
theorem exists_chart_of {invariant : Chart → Prop}
    (begins : ∀ chart, Chart.create (Source.size source) (Source.capacity source)
      (Source.allows source) config = .ok chart → invariant chart)
    (goesOn : ∀ chart call, invariant chart → invariant (chart.perform call).2)
    (history : History source config past heap leases) :
    ∃ chart : Chart, chart.Describes heap ∧ chart.Serves leases ∧ invariant chart := by
  induction history with
  | begin created =>
    obtain ⟨outcome, found, starts⟩ := Chart.exists_create source config
    rw [created] at found
    cases found
    generalize begun : Chart.create _ _ _ config = outcome at starts
    cases starts with
    | heap describes unowned =>
      exact ⟨_, describes, ⟨List.nodup_nil, List.forall_mem_nil _,
        fun cell owns => absurd owns (unowned cell)⟩, begins _ begun⟩
  | step earlier permitted performed inductionHypothesis =>
    obtain ⟨chart, describes, serves, holds⟩ := inductionHypothesis
    have steps := (describes.yields_perform serves permitted).of_eq_ok performed
    exact ⟨_, steps.described, steps.serves, goesOn chart _ holds⟩

/-- At every moment of a history a chart describes the heap, and serves the leases. -/
theorem exists_chart (history : History source config past heap leases) :
    ∃ chart : Chart, chart.Describes heap ∧ chart.Serves leases := by
  obtain ⟨chart, describes, serves, _⟩ :=
    history.exists_chart_of (fun _ _ => trivial) fun _ _ _ => trivial
  exact ⟨chart, describes, serves⟩

/-- The calls of a history decide the replies, the heap and the leases. -/
theorem unique (history : History source config past heap leases)
    {repeated : List (Call × Reply)} {twin : Heap σ last} {held : List Lease}
    (again : History source config repeated twin held)
    (same : repeated.map Prod.fst = past.map Prod.fst) :
    repeated = past ∧ twin = heap ∧ held = leases := by
  induction history generalizing repeated twin held with
  | begin created =>
    cases again with
    | begin recreated =>
      rw [created] at recreated
      cases recreated
      exact ⟨rfl, rfl, rfl⟩
    | step => simp at same
  | step earlier permitted performed inductionHypothesis =>
    cases again with
    | begin => simp at same
    | step before allowed redone =>
      rw [List.map_append, List.map_append] at same
      obtain ⟨first, call⟩ := List.append_inj' same rfl
      obtain rfl : _ = _ := by simpa using call
      obtain ⟨rfl, rfl, rfl⟩ := inductionHypothesis before first
      rw [performed] at redone
      cases redone
      exact ⟨rfl, rfl, rfl⟩

/-- A permitted call always has a reply. -/
theorem exists_reply (history : History source config past heap leases) {call : Call}
    (permitted : call.Permitted heap leases) :
    ∃ reply after, call.perform heap = .ok reply after := by
  obtain ⟨chart, describes, serves⟩ := history.exists_chart
  obtain ⟨reply, after, performed, _⟩ := describes.yields_perform serves permitted
  exact ⟨reply, after, performed⟩

end History

/-! ### Replaying calls -/

/-- A client and its heap at some moment. -/
structure Session (σ : Type) (last : Nat) where
  past : List (Call × Reply)
  heap : Heap σ last
  leases : List Lease

namespace Session

/-- The session of a heap that has just begun. -/
def begin? (source : σ) (config : Config) : Option (Session σ last) :=
  match Heap.create source config with
  | .ok (.ok heap) => some ⟨[], heap, []⟩
  | _ => none

/-- The session after a call, if the call is permitted and has a reply. -/
def call? (session : Session σ last) (call : Call) : Option (Session σ last) :=
  if call.Permitted session.heap session.leases then
    match call.perform session.heap with
    | .ok reply heap =>
      some ⟨session.past ++ [(call, reply)], heap, call.settle reply session.leases⟩
    | .error _ _ => none
  else
    none

/-- The session after some calls, from the begin of a heap on. -/
def replay? (source : σ) (config : Config) (calls : List Call) : Option (Session σ last) :=
  (begin? source config).bind (calls.foldlM call?)

/-- A session begins with a heap that was created. -/
theorem created_of_begin? {session : Session σ last} (begun : begin? source config = some session) :
    ∃ heap, Heap.create source config = .ok (.ok heap) ∧ session = ⟨[], heap, []⟩ := by
  unfold begin? at begun
  split at begun
  · rename_i heap created
    exact ⟨heap, created, (Option.some.inj begun).symm⟩
  · cases begun

/-- A session goes on with a permitted call that has a reply. -/
theorem performed_of_call? {session next : Session σ last} {call : Call}
    (called : session.call? call = some next) :
    call.Permitted session.heap session.leases ∧ ∃ reply heap,
      call.perform session.heap = .ok reply heap ∧
        next = ⟨session.past ++ [(call, reply)], heap, call.settle reply session.leases⟩ := by
  unfold call? at called
  split at called
  · rename_i permitted
    split at called
    · rename_i reply heap performed
      exact ⟨permitted, reply, heap, performed, (Option.some.inj called).symm⟩
    · cases called
  · cases called

/-- Every replay is a history. -/
theorem history_of_replay? {calls : List Call} {session : Session σ last}
    (replayed : replay? source config calls = some session) :
    History source config session.past session.heap session.leases := by
  obtain ⟨begun, started, folded⟩ := Option.bind_eq_some_iff.mp replayed
  have history : History source config begun.past begun.heap begun.leases := by
    obtain ⟨heap, created, rfl⟩ := created_of_begin? started
    exact .begin created
  clear started replayed
  induction calls generalizing begun with
  | nil =>
    cases folded
    exact history
  | cons call rest inductionHypothesis =>
    rw [List.foldlM_cons] at folded
    obtain ⟨next, called, folded⟩ := Option.bind_eq_some_iff.mp folded
    obtain ⟨permitted, reply, heap, performed, rfl⟩ := performed_of_call? called
    exact inductionHypothesis _ folded (.step history permitted performed)

/-- A replay makes the calls that it was given. -/
theorem calls_of_replay? {calls : List Call} {session : Session σ last}
    (replayed : replay? source config calls = some session) :
    session.past.map Prod.fst = calls := by
  obtain ⟨begun, started, folded⟩ := Option.bind_eq_some_iff.mp replayed
  obtain ⟨heap, _, rfl⟩ := created_of_begin? started
  suffices longer : ∀ begun : Session σ last, calls.foldlM call? begun = some session →
      session.past.map Prod.fst = begun.past.map Prod.fst ++ calls from longer _ folded
  clear folded started replayed
  induction calls with
  | nil =>
    rintro _ ⟨rfl⟩
    exact (List.append_nil _).symm
  | cons call rest inductionHypothesis =>
    intro begun folded
    rw [List.foldlM_cons] at folded
    obtain ⟨next, called, folded⟩ := Option.bind_eq_some_iff.mp folded
    obtain ⟨_, reply, _, _, rfl⟩ := performed_of_call? called
    rw [inductionHypothesis _ folded, List.map_append, List.append_assoc]
    rfl

/-- A client allocates, writes, and resizes what it got to more bytes than fit into its place. -/
def moving : List Call :=
  [.allocateZeroed? 24, .allocate 24, .write ⟨32, by decide⟩ 3 [1, 2, 3],
    .resize? (some ⟨32, by decide⟩) 60]

/-- The settings that `moving` is replayed with are normalized already. -/
theorem chunkSize_moving {settings : Config}
    (normalization : (⟨32, 64, 48⟩ : Config).normalized? = some settings) :
    settings.chunkSize = 32 := by
  have normalized : (⟨32, 64, 48⟩ : Config).normalized? = some ⟨32, 64, 48⟩ := by decide
  rw [← Option.some.inj (normalized.symm.trans normalization)]

/-- The calls of `moving` can be made on a small buffer, and the last one moves the block. -/
theorem exists_replay_moving :
    ∃ session : Session Buffer 1,
      replay? (Buffer.ofMaximum 512) ⟨32, 64, 48⟩ moving = some session ∧
        session.leases = [⟨⟨96, by decide⟩, 60⟩, ⟨⟨64, by decide⟩, 24⟩] := by
  have answered : (replay? (Buffer.ofMaximum 512) ⟨32, 64, 48⟩ moving :
      Option (Session Buffer 1)).map (·.leases) =
        some [⟨⟨96, by decide⟩, 60⟩, ⟨⟨64, by decide⟩, 24⟩] := by
    decide +kernel
  exact Option.map_eq_some_iff.mp answered

end Session

end SegregatedFit

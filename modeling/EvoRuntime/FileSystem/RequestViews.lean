import EvoRuntime.FileSystem.AsyncFileReader

/-!
# What belongs to a request

Requests share the queue of libuv, the published events, the numbers of descriptors and
the table of payloads. `Loader.view` is the part of one request. Each operation on the
shared state has two lemmas: what it does to the view of its own request, and that it does
nothing to the others (`Touches`).
-/
namespace EvoRuntime.FileSystem

open Lua

structure RequestView where
  pending : List FileOperation
  events : List Published
  holds : Nat → Prop
  opens : Nat
  closes : Nat
  payload : Nat → Payload

def Loader.view (st : Loader) (r : RequestId) : RequestView where
  pending := st.pending.filter fun operation => operation.payload.request = r
  events := st.published.filter fun published => published.request = r
  holds fd := st.descriptors fd = some r
  opens := st.openLog.count r
  closes := st.closeLog.count (some r)
  payload n := st.payload ⟨r, n⟩

namespace Loader

variable {st st' st'' : Loader} {q r : RequestId} {n : Nat}

/-- What happens for one request leaves the others alone, and no call of `uv.fs_close` is
for a descriptor that is not open. -/
structure Touches (q : RequestId) (st st' : Loader) : Prop where
  views : ∀ r ≠ q, st'.view r = st.view r
  nextRequest : st'.nextRequest = st.nextRequest
  closeLog : none ∉ st.closeLog → none ∉ st'.closeLog

theorem Touches.trans (first : Touches q st st') (second : Touches q st' st'') :
    Touches q st st'' where
  views r differs := (second.views r differs).trans (first.views r differs)
  nextRequest := second.nextRequest.trans first.nextRequest
  closeLog := second.closeLog ∘ first.closeLog

theorem view_setPayload (st : Loader) (r : RequestId) (n : Nat) (payload : Payload) :
    (st.setPayload ⟨r, n⟩ payload).view r =
      { st.view r with payload := Function.update (st.view r).payload n payload } := by
  have updated : (fun m => Function.update st.payload ⟨r, n⟩ payload ⟨r, m⟩) =
      Function.update (fun m => st.payload ⟨r, m⟩) n payload := by
    funext m
    by_cases same : m = n
    · rw [same, Function.update_self, Function.update_self]
    · rw [Function.update_of_ne (by simpa using same), Function.update_of_ne same]
  simp only [view, setPayload, updated]

theorem setPayload_touches (st : Loader) (r : RequestId) (n : Nat) (payload : Payload) :
    Touches r st (st.setPayload ⟨r, n⟩ payload) where
  views q differs := by
    have same (m : Nat) : Function.update st.payload ⟨r, n⟩ payload ⟨q, m⟩ = st.payload ⟨q, m⟩ :=
      Function.update_of_ne (by simp [differs]) ..
    simp only [view, setPayload, same]
  nextRequest := rfl
  closeLog := id

theorem view_publish (st : Loader) (event : FileEvent) (r : RequestId) (n : Nat) :
    (st.publish event ⟨r, n⟩).view r =
      { st.view r with events := (st.view r).events ++ [⟨event, r, (st.view r).payload n⟩] } := by
  simp [view, publish, List.filter_append]

theorem publish_touches (st : Loader) (event : FileEvent) (r : RequestId) (n : Nat) :
    Touches r st (st.publish event ⟨r, n⟩) where
  views q differs := by simp [view, publish, List.filter_append, differs.symm]
  nextRequest := rfl
  closeLog := id

/-- A callback stores an answer in the payload and publishes an event. -/
def announce (event : FileEvent) (r : RequestId) (n : Nat) (payload : Payload) (st : Loader) :
    Loader :=
  (st.setPayload ⟨r, n⟩ payload).publish event ⟨r, n⟩

theorem payload_announce (st : Loader) (event : FileEvent) (r : RequestId) (n : Nat)
    (payload : Payload) : (st.announce event r n payload).payload ⟨r, n⟩ = payload :=
  Function.update_self ..

theorem view_announce (st : Loader) (event : FileEvent) (r : RequestId) (n : Nat)
    (payload : Payload) :
    (st.announce event r n payload).view r =
      { st.view r with
        events := (st.view r).events ++ [⟨event, r, payload⟩]
        payload := Function.update (st.view r).payload n payload } := by
  rw [announce, view_publish, view_setPayload]
  dsimp only
  rw [Function.update_self]

theorem announce_touches (st : Loader) (event : FileEvent) (r : RequestId) (n : Nat)
    (payload : Payload) : Touches r st (st.announce event r n payload) :=
  (setPayload_touches st r n payload).trans (publish_touches _ event r n)

theorem view_submit (st : Loader) {operation : FileOperation} (own : operation.payload.request = r) :
    (st.submit operation).view r =
      { st.view r with pending := (st.view r).pending ++ [operation] } := by
  simp [view, submit, List.filter_append, own]

theorem submit_touches (st : Loader) {operation : FileOperation}
    (own : operation.payload.request = r) : Touches r st (st.submit operation) where
  views q differs := by simp [view, submit, List.filter_append, own, differs.symm]
  nextRequest := rfl
  closeLog := id

variable {fd : Nat}

theorem view_fsClose (owned : st.descriptors fd = some r)
    (descriptor : (st.payload ⟨r, n⟩).fileDescriptor = some fd) :
    (st.fsClose ⟨r, n⟩).view r =
      { st.view r with
        pending := (st.view r).pending ++ [.fsClose ⟨r, n⟩]
        holds := fun other => other ≠ fd ∧ (st.view r).holds other
        closes := (st.view r).closes + 1 } := by
  have holds (other : Nat) : ((if fd = other then none else st.descriptors other) = some r) ↔
      other ≠ fd ∧ st.descriptors other = some r := by
    by_cases same : fd = other
    · simp [same]
    · simp [same, Ne.symm same]
  simp [view, fsClose, List.filter_append, FileOperation.payload, descriptor, owner, owned, holds]

theorem fsClose_touches (owned : st.descriptors fd = some r)
    (descriptor : (st.payload ⟨r, n⟩).fileDescriptor = some fd) :
    Touches r st (st.fsClose ⟨r, n⟩) where
  views q differs := by
    have holds (other : Nat) : ((if fd = other then none else st.descriptors other) = some q) ↔
        st.descriptors other = some q := by
      by_cases same : fd = other
      · simp [← same, owned, differs.symm]
      · simp [same]
    simp [view, fsClose, List.filter_append, FileOperation.payload, descriptor, owner, owned, holds,
      differs.symm]
  nextRequest := rfl
  closeLog clean := by simpa [fsClose, descriptor, owner, owned] using clean

theorem scopy_touches (st : Loader) (r : RequestId) (n : Nat) :
    Touches r st (st.scopy ⟨r, n⟩).2 where
  views q differs := by
    have same (m : Nat) : Function.update st.payload ⟨r, st.copies r + 1⟩ (st.payload ⟨r, n⟩) ⟨q, m⟩ =
        st.payload ⟨q, m⟩ := Function.update_of_ne (by simp [differs]) ..
    simp only [view, scopy, same]
  nextRequest := rfl
  closeLog := id

theorem view_scopy (st : Loader) (r : RequestId) (n : Nat) :
    (st.scopy ⟨r, n⟩).2.view r = { st.view r with
      payload := Function.update (st.view r).payload (st.copies r + 1) ((st.view r).payload n) } :=
  view_setPayload st r (st.copies r + 1) (st.payload ⟨r, n⟩)

end Loader

namespace AsyncFileReader

variable {st : Loader} {r : RequestId}

theorem payload_setPayload (st : Loader) (r : RequestId) (n : Nat) (payload : Payload) :
    ((st.setPayload ⟨r, n⟩ payload).view r).payload n = payload :=
  Function.update_self ..

/-- The state when a callback is called: its operation is not in flight any more. -/
def taken (operation : FileOperation) (st : Loader) : Loader :=
  { st with pending := st.pending.erase operation }

theorem view_taken {operation : FileOperation} (waiting : (st.view r).pending = [operation]) :
    (taken operation st).view r = { st.view r with pending := [] } := by
  have erased : (st.pending.erase operation).filter (fun other => other.payload.request = r) = [] := by
    rw [← List.erase_filter, show st.pending.filter _ = [operation] from waiting,
      List.erase_cons_head]
  simp only [Loader.view, taken, erased]

theorem taken_touches (operation : FileOperation) (st : Loader)
    (own : operation.payload.request = r) : Loader.Touches r st (taken operation st) where
  views q differs := by
    have elsewhere : operation ∉ st.pending.filter fun other => other.payload.request = q := by
      intro member
      have own' : operation.payload.request = q := of_decide_eq_true (List.mem_filter.mp member).2
      exact differs (own'.symm.trans own)
    have kept : (st.pending.erase operation).filter (fun other => other.payload.request = q) =
        st.pending.filter fun other => other.payload.request = q := by
      rw [← List.erase_filter]
      exact List.erase_of_not_mem elsewhere
    simp only [Loader.view, taken, kept]
  nextRequest := rfl
  closeLog := id

theorem view_openDescriptor (st : Loader) (r : RequestId) (fd : Nat) :
    (openDescriptor r (.ok fd) st).view r =
      { st.view r with
        holds := fun other => other = fd ∨ (st.view r).holds other
        opens := (st.view r).opens + 1 } := by
  have holds (other : Nat) : Function.update st.descriptors fd (some r) other = some r ↔
      other = fd ∨ st.descriptors other = some r := by
    by_cases same : other = fd
    · simp [same]
    · simp [same]
  simp [Loader.view, openDescriptor, holds]

theorem openDescriptor_touches {result : Except LuaString Nat}
    (unused : ∀ fd, result = .ok fd → st.descriptors fd = none) :
    Loader.Touches r st (openDescriptor r result st) := by
  cases result with
  | error errorMessage => exact ⟨fun _ _ => rfl, rfl, id⟩
  | ok fd =>
    refine ⟨fun q differs => ?_, rfl, id⟩
    have holds (other : Nat) : Function.update st.descriptors fd (some r) other = some q ↔
        st.descriptors other = some q := by
      by_cases same : other = fd
      · simp [same, unused fd rfl, differs.symm]
      · simp [same]
    simp [Loader.view, openDescriptor, holds, differs.symm]

end AsyncFileReader

/-! ## Published events -/

def FileEvent.isTerminal : FileEvent → Bool
  | .FILE_REQUEST_FAILED | .FILE_REQUEST_COMPLETED => true
  | _ => false

/-- The payloads of the chunks. -/
def chunksOf (events : List Published) : List Payload :=
  (events.filter fun published => published.event = .FILE_CHUNK_AVAILABLE).map (·.payload)

def statusesOf (events : List Published) : List (Option Stat) :=
  (events.filter fun published => published.event = .FILE_STATUS_AVAILABLE).map (·.payload.stat)

def Unconcluded (events : List Published) : Prop :=
  ∀ published ∈ events, published.event.isTerminal = false

/-- One event says how the request has ended, and no chunk is published behind it. -/
def Concluded (events : List Published) : Prop :=
  ∃ before last after, events = before ++ last :: after ∧ last.event.isTerminal = true ∧
    Unconcluded (before ++ after) ∧
    ∀ published ∈ after, published.event ≠ .FILE_CHUNK_AVAILABLE

section

variable {events : List Published} {published : Published}

theorem chunksOf_append (events extra : List Published) :
    chunksOf (events ++ extra) = chunksOf events ++ chunksOf extra := by
  simp [chunksOf, List.filter_append]

theorem statusesOf_append (events extra : List Published) :
    statusesOf (events ++ extra) = statusesOf events ++ statusesOf extra := by
  simp [statusesOf, List.filter_append]

theorem unconcluded_append (unconcluded : Unconcluded events) {extra : List Published}
    (more : Unconcluded extra) : Unconcluded (events ++ extra) := by
  intro published member
  rcases List.mem_append.mp member with old | new
  · exact unconcluded published old
  · exact more published new

theorem concluded_concat (unconcluded : Unconcluded events)
    (terminal : published.event.isTerminal = true) : Concluded (events ++ [published]) := by
  refine ⟨events, published, [], rfl, terminal, ?_, fun _ member => absurd member List.not_mem_nil⟩
  rwa [List.append_nil]

theorem concluded_append (concluded : Concluded events)
    (goesOn : published.event.isTerminal = false)
    (noChunk : published.event ≠ .FILE_CHUNK_AVAILABLE) : Concluded (events ++ [published]) := by
  obtain ⟨before, last, after, rfl, terminal, others, noChunks⟩ := concluded
  refine ⟨before, last, after ++ [published], by simp, terminal, ?_, ?_⟩
  · rw [← List.append_assoc]
    refine unconcluded_append others fun other member => ?_
    rwa [List.mem_singleton.mp member]
  · intro other member
    rcases List.mem_append.mp member with old | new
    · exact noChunks other old
    · rwa [List.mem_singleton.mp new]

/-- An event of another kind is found among those before. -/
theorem exists_event_concat {event : FileEvent} (differs : published.event ≠ event) :
    (∃ other ∈ events ++ [published], other.event = event) ↔ ∃ other ∈ events, other.event = event := by
  constructor
  · rintro ⟨other, member, same⟩
    rcases List.mem_append.mp member with old | new
    · exact ⟨other, old, same⟩
    · exact absurd same (List.mem_singleton.mp new ▸ differs)
  · rintro ⟨other, member, same⟩
    exact ⟨other, List.mem_append_left _ member, same⟩

/-- A request that fails has not completed. -/
theorem not_completed (unconcluded : Unconcluded events) (r : RequestId) (payload : Payload) :
    ¬∃ published ∈ events ++ [⟨.FILE_REQUEST_FAILED, r, payload⟩],
      published.event = .FILE_REQUEST_COMPLETED := by
  intro concat
  obtain ⟨published, member, completed⟩ := (exists_event_concat (by simp)).mp concat
  have goesOn := unconcluded published member
  rw [completed] at goesOn
  cases goesOn

end

end EvoRuntime.FileSystem

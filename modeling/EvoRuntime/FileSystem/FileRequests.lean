import EvoRuntime.FileSystem.RequestViews
import Mathlib.Algebra.GroupWithZero.Nat

/-!
# File requests

`Progress` says where a request is in its chain of callbacks, in terms of what belongs to
it. As it waits for one operation at a time, its events are those of a sequential program.

## Proof strategy

Each callback has a lemma that leads from one place in the chain to another and leaves the
other requests alone. All failures behind the opening end in the same way (`fail_spec`),
and all chunks are asked for in the same way (`readNextFileChunk_spec`).
-/
namespace EvoRuntime.FileSystem

open Lua Library

/-! ## What has been read -/

namespace AsyncFileReader

/-- For a completed read of a request, the bytes asked for and the bytes returned. -/
def LoopEvent.returned (r : RequestId) : LoopEvent → Option (Nat × LuaString)
  | .read _ numLeftoverBytes _ _ payload (.ok chunk) =>
    if payload.request = r then some (numLeftoverBytes, chunk) else none
  | _ => none

def returned (r : RequestId) (events : List LoopEvent) : List (Nat × LuaString) :=
  events.filterMap (LoopEvent.returned r)

/-- The request whose operation has completed. -/
def LoopEvent.request (event : LoopEvent) : Option RequestId :=
  event.operation.map (·.payload.request)

/-- The number of operations of a request that have completed. -/
def completions (r : RequestId) (events : List LoopEvent) : Nat :=
  events.countP fun event => event.request = some r

/-- The number of calls of `LoadFileContents`, which are not completions. -/
def loadCalls (events : List LoopEvent) : Nat :=
  events.countP fun event => event.operation.isNone

-- `Known` is what the surroundings promise about a file and what has been read of it.
variable (reader : AsyncFileReader) (Known : Stat → List (Nat × LuaString) → Prop)

/-- The chunks so far are the pieces of the file, as far as their places are concerned. -/
structure Counted (reads : List (Nat × LuaString)) (stat : Stat) (events : List Published) :
    Prop where
  known : Known stat reads
  status : statusesOf events = [some stat]
  chunks : (chunksOf events).map (fun payload =>
      (payload.chunkIndex, payload.cursorPosition, payload.chunk)) =
    reads.mapIdx fun i read => (i + 1, i * reader.CHUNK_SIZE_IN_BYTES, some read.2)
  requested : reads.map Prod.fst =
    (List.range reads.length).map (pieceLength reader.CHUNK_SIZE_IN_BYTES stat.size)
  bounded : reads.length ≤ pieceCount reader.CHUNK_SIZE_IN_BYTES stat.size

/-- As many operations as a request can have. -/
def limit (events : List Published) : Nat :=
  3 + ((statusesOf events).map fun stat =>
    pieceCount reader.CHUNK_SIZE_IN_BYTES ((stat.map Stat.size).getD 0)).sum

/-- A request with an open descriptor. -/
structure Holding (v : RequestView) (fd : Nat) : Prop where
  holds : ∀ other, v.holds other ↔ other = fd
  closes : v.closes = 0
  unconcluded : Unconcluded v.events
  opened : v.opens = 1

/-- A request that has come to its end, except for the completion of closing. -/
structure Finished (reads : List (Nat × LuaString)) (v : RequestView) : Prop where
  concluded : Concluded v.events
  holds : ∀ fd, ¬v.holds fd
  closes : v.closes = v.opens
  once : v.opens ≤ 1
  delivered : (∃ published ∈ v.events, published.event = .FILE_REQUEST_COMPLETED) →
    ∃ stat, reader.Counted Known reads stat v.events ∧
      reads.length = pieceCount reader.CHUNK_SIZE_IN_BYTES stat.size

/-- Where a request is in its chain of callbacks, after a number of completed operations. -/
inductive Progress (reads : List (Nat × LuaString)) (completed : Nat) (r : RequestId)
    (v : RequestView) : Prop
  | opening (n : Nat) (pending : v.pending = [.fsOpen ⟨r, n⟩]) (count : completed = 0)
      (unread : reads = []) (unpublished : chunksOf v.events = [] ∧ statusesOf v.events = [])
      (unconcluded : Unconcluded v.events) (unopened : v.opens = 0)
      (holds : ∀ fd, ¬v.holds fd) (closes : v.closes = 0)
  | statting (n fd : Nat) (pending : v.pending = [.fsFstat (some fd) ⟨r, n⟩]) (count : completed = 1)
      (unread : reads = []) (unpublished : chunksOf v.events = [] ∧ statusesOf v.events = [])
      (descriptor : (v.payload n).fileDescriptor = some fd) (holding : Holding v fd)
  | reading (n fd : Nat) (stat : Stat)
      (pending : v.pending = [.fsRead (some fd)
        (pieceLength reader.CHUNK_SIZE_IN_BYTES stat.size reads.length)
        (reads.length * reader.CHUNK_SIZE_IN_BYTES) stat.size ⟨r, n⟩])
      (count : completed = 2 + reads.length) (counted : reader.Counted Known reads stat v.events)
      (more : reads.length * reader.CHUNK_SIZE_IN_BYTES < stat.size)
      (descriptor : (v.payload n).fileDescriptor = some fd)
      (status : (v.payload n).stat = some stat)
      (position : (v.payload n).chunkIndex = reads.length + 1 ∧
        (v.payload n).cursorPosition = reads.length * reader.CHUNK_SIZE_IN_BYTES)
      (holding : Holding v fd)
  | closing (n : Nat) (pending : v.pending = [.fsClose ⟨r, n⟩])
      (count : completed + 1 ≤ reader.limit v.events) (finished : reader.Finished Known reads v)
  | ended (pending : v.pending = []) (count : completed ≤ reader.limit v.events)
      (finished : reader.Finished Known reads v)

/-! ## Closing -/

variable {reader Known} {st : Loader} {r : RequestId} {n fd completed : Nat} {v : RequestView}
  {reads : List (Nat × LuaString)} {stat : Stat}

/-- A request with an open descriptor publishes its last events and asks for closing. -/
theorem Holding.close (holding : Holding v fd) (idle : v.pending = []) {extra : List Published}
    (payload : Nat → Payload) (concluded : Concluded (v.events ++ extra))
    (count : completed + 1 ≤ reader.limit (v.events ++ extra))
    (delivered : (∃ published ∈ v.events ++ extra, published.event = .FILE_REQUEST_COMPLETED) →
      ∃ stat, reader.Counted Known reads stat (v.events ++ extra) ∧
        reads.length = pieceCount reader.CHUNK_SIZE_IN_BYTES stat.size) :
    reader.Progress Known reads completed r
      { pending := v.pending ++ [.fsClose ⟨r, n⟩]
        events := v.events ++ extra
        holds := fun other => other ≠ fd ∧ v.holds other
        opens := v.opens
        closes := v.closes + 1
        payload } := by
  refine .closing n (by rw [idle]; rfl) count ⟨concluded, ?_, ?_, ?_, delivered⟩
  · exact fun other held => held.1 ((holding.holds other).mp held.2)
  · dsimp only
    rw [holding.closes, holding.opened]
  · exact holding.opened.le

/-- Every failure behind the opening ends in this way. -/
theorem fail_spec (n : Nat) (payload : Payload) (holding : Holding (st.view r) fd)
    (idle : (st.view r).pending = []) (descriptor : payload.fileDescriptor = some fd)
    (count : completed + 1 ≤ reader.limit (st.view r).events) :
    let st' := FILE_REQUEST_FAILED ⟨r, n⟩ (st.announce .FILE_REQUEST_FAILED r n payload)
    reader.Progress Known reads completed r (st'.view r) ∧ Loader.Touches r st st' := by
  intro st'
  let failed := st.announce .FILE_REQUEST_FAILED r n payload
  have stored : (failed.payload ⟨r, n⟩).fileDescriptor = some fd := by
    rw [st.payload_announce, descriptor]
  have owned : failed.descriptors fd = some r := (holding.holds fd).mpr rfl
  have closing : st' = failed.fsClose ⟨r, n⟩ := by
    apply if_neg
    rw [stored]
    exact Option.some_ne_none fd
  rw [closing]
  constructor
  · rw [Loader.view_fsClose owned stored, Loader.view_announce]
    apply holding.close idle _ (concluded_concat holding.unconcluded rfl)
    · rw [limit, statusesOf_append]
      simpa [limit, statusesOf] using count
    · exact fun completed => absurd completed (not_completed holding.unconcluded r _)
  · exact (st.announce_touches _ r n payload).trans (Loader.fsClose_touches owned stored)

/-- Counting does not look at other events than chunks and the status. -/
theorem Counted.append {events extra : List Published} (counted : reader.Counted Known reads stat events)
    (noChunks : chunksOf extra = []) (noStatus : statusesOf extra = []) :
    reader.Counted Known reads stat (events ++ extra) := by
  obtain ⟨known, status, chunks, requested, bounded⟩ := counted
  constructor
  · exact known
  · rw [statusesOf_append, noStatus, List.append_nil, status]
  · rw [chunksOf_append, noChunks, List.append_nil, chunks]
  · exact requested
  · exact bounded

/-- The end of a request whose chunks have all been read. -/
theorem complete_spec (holding : Holding (st.view r) fd) (idle : (st.view r).pending = [])
    (descriptor : ((st.view r).payload n).fileDescriptor = some fd)
    (counted : reader.Counted Known reads stat (st.view r).events)
    (all : reads.length = pieceCount reader.CHUNK_SIZE_IN_BYTES stat.size)
    (count : completed = 2 + reads.length) :
    let st' := FILE_CONTENTS_AVAILABLE ⟨r, n⟩ (st.publish .FILE_CONTENTS_AVAILABLE ⟨r, n⟩)
    reader.Progress Known reads completed r (st'.view r) ∧ Loader.Touches r st st' := by
  intro st'
  have owned : (st.publish .FILE_CONTENTS_AVAILABLE ⟨r, n⟩).descriptors fd = some r :=
    (holding.holds fd).mpr rfl
  have stored : ((st.publish .FILE_CONTENTS_AVAILABLE ⟨r, n⟩).payload ⟨r, n⟩).fileDescriptor =
      some fd := descriptor
  constructor
  · rw [show st' = ((st.publish .FILE_CONTENTS_AVAILABLE ⟨r, n⟩).fsClose ⟨r, n⟩).publish
        .FILE_REQUEST_COMPLETED ⟨r, n⟩ from rfl, Loader.view_publish,
      Loader.view_fsClose owned stored, Loader.view_publish]
    dsimp only
    rw [List.append_assoc]
    have delivered : reader.Counted Known reads stat ((st.view r).events ++
        ([⟨.FILE_CONTENTS_AVAILABLE, r, (st.view r).payload n⟩] ++
          [⟨.FILE_REQUEST_COMPLETED, r, (st.view r).payload n⟩])) := counted.append rfl rfl
    refine holding.close idle _ ?_ ?_ fun _ => ⟨stat, delivered, all⟩
    · rw [← List.append_assoc]
      refine concluded_concat (unconcluded_append holding.unconcluded ?_) rfl
      intro published member
      rw [List.mem_singleton.mp member]
      rfl
    · rw [limit, delivered.status, count, all]
      simp only [List.map_cons, List.map_nil, List.sum_cons, List.sum_nil, Option.map_some,
        Option.getD_some]
      omega
  · exact ((Loader.publish_touches st _ r n).trans (Loader.fsClose_touches owned stored)).trans
      (Loader.publish_touches _ _ r n)

/-- The next chunk is asked for, if there is one. -/
theorem readNextFileChunk_spec (holding : Holding (st.view r) fd) (idle : (st.view r).pending = [])
    (descriptor : ((st.view r).payload n).fileDescriptor = some fd)
    (status : ((st.view r).payload n).stat = some stat)
    (index : ((st.view r).payload n).chunkIndex = reads.length)
    (position : ((st.view r).payload n).cursorPosition = reads.length * reader.CHUNK_SIZE_IN_BYTES)
    (counted : reader.Counted Known reads stat (st.view r).events)
    (count : completed = 2 + reads.length) :
    let st' := reader.ReadNextFileChunk ⟨r, n⟩ st
    reader.Progress Known reads completed r (st'.view r) ∧ Loader.Touches r st st' := by
  intro st'
  let m := st.copies r + 1
  let copied := (st.scopy ⟨r, n⟩).2
  have same : (copied.view r).payload m = (st.view r).payload n := by
    rw [show copied = (st.scopy ⟨r, n⟩).2 from rfl, Loader.view_scopy]
    exact Function.update_self ..
  have touches : Loader.Touches r st copied := Loader.scopy_touches st r n
  have holding' : Holding (copied.view r) fd :=
    ⟨holding.holds, holding.closes, holding.unconcluded, holding.opened⟩
  have unfolded : st' = if min reader.CHUNK_SIZE_IN_BYTES
        ((((copied.view r).payload m).stat.map Stat.size).getD 0 -
          ((copied.view r).payload m).cursorPosition) = 0 then
      FILE_CONTENTS_AVAILABLE ⟨r, m⟩ (copied.publish .FILE_CONTENTS_AVAILABLE ⟨r, m⟩)
    else (copied.submit (.fsRead ((copied.view r).payload m).fileDescriptor
        (min reader.CHUNK_SIZE_IN_BYTES
          ((((copied.view r).payload m).stat.map Stat.size).getD 0 -
            ((copied.view r).payload m).cursorPosition))
        ((copied.view r).payload m).cursorPosition
        ((((copied.view r).payload m).stat.map Stat.size).getD 0) ⟨r, m⟩)).setPayload ⟨r, m⟩
        { (copied.view r).payload m with
          chunkIndex := ((copied.view r).payload m).chunkIndex + 1 } := rfl
  rw [unfolded, same, descriptor, status, index, position, Option.map_some, Option.getD_some]
  split
  case isTrue none_left =>
    -- Nothing is left.
    have beyond : stat.size ≤ reads.length * reader.CHUNK_SIZE_IN_BYTES := by
      have positive := reader.positive
      omega
    have all : reads.length = pieceCount reader.CHUNK_SIZE_IN_BYTES stat.size := by
      have more : ¬reads.length < pieceCount reader.CHUNK_SIZE_IN_BYTES stat.size :=
        (lt_pieceCount_iff reader.positive reads.length).not.mpr (Nat.not_lt.mpr beyond)
      exact Nat.le_antisymm counted.bounded (Nat.not_lt.mp more)
    have ended := complete_spec (n := m) holding' idle (by rw [same, descriptor]) counted all count
    exact ⟨ended.1, touches.trans ended.2⟩
  case isFalse some_left =>
    have own : (FileOperation.fsRead (some fd)
        (min reader.CHUNK_SIZE_IN_BYTES (stat.size - reads.length * reader.CHUNK_SIZE_IN_BYTES))
        (reads.length * reader.CHUNK_SIZE_IN_BYTES) stat.size ⟨r, m⟩).payload.request = r := rfl
    constructor
    · rw [Loader.view_setPayload, Loader.view_submit copied own]
      have stored (payload : Payload) (payloads : Nat → Payload) :
          Function.update payloads m payload m = payload := Function.update_self ..
      refine .reading m fd stat ?_ count counted (by omega) ?_ ?_ ?_
        ⟨holding.holds, holding.closes, holding.unconcluded, holding.opened⟩
      · dsimp only
        rw [show (copied.view r).pending = [] from idle]
        rfl
      · dsimp only
        rw [stored]
        exact descriptor
      · dsimp only
        rw [stored]
        exact status
      · dsimp only
        rw [stored]
        exact ⟨rfl, position⟩
    · exact (touches.trans (Loader.submit_touches copied own)).trans
        (Loader.setPayload_touches _ r m _)

/-! ## Callbacks -/

theorem Holding.setPayload (holding : Holding (st.view r) fd) (n : Nat) (payload : Payload) :
    Holding ((st.setPayload ⟨r, n⟩ payload).view r) fd := by
  rw [Loader.view_setPayload]
  exact ⟨holding.holds, holding.closes, holding.unconcluded, holding.opened⟩

theorem Holding.announce (holding : Holding (st.view r) fd) {event : FileEvent}
    (goesOn : event.isTerminal = false) (n : Nat) (payload : Payload) :
    Holding ((st.announce event r n payload).view r) fd := by
  rw [Loader.view_announce]
  refine ⟨holding.holds, holding.closes, unconcluded_append holding.unconcluded ?_, holding.opened⟩
  intro published member
  rw [List.mem_singleton.mp member]
  exact goesOn

theorem Holding.taken {operation : FileOperation} (holding : Holding (st.view r) fd)
    (waiting : (st.view r).pending = [operation]) :
    Holding ((taken operation st).view r) fd := by
  rw [view_taken waiting]
  exact ⟨holding.holds, holding.closes, holding.unconcluded, holding.opened⟩

section

variable (waiting : (st.view r).pending = [.fsOpen ⟨r, n⟩])
  (unpublished : chunksOf (st.view r).events = [] ∧ statusesOf (st.view r).events = [])
  (unconcluded : Unconcluded (st.view r).events) (unopened : (st.view r).opens = 0)
  (holds : ∀ fd, ¬(st.view r).holds fd) (closes : (st.view r).closes = 0)

include waiting unconcluded unopened holds closes

/-- Without a descriptor the request ends at once. -/
theorem onOpen_error (errorMessage : LuaString) :
    let st' := onOpen ⟨r, n⟩ (.error errorMessage) (taken (.fsOpen ⟨r, n⟩) st)
    reader.Progress Known [] 1 r (st'.view r) ∧ Loader.Touches r st st' := by
  intro st'
  let begun := taken (.fsOpen ⟨r, n⟩) st
  let payload : Payload :=
    { begun.payload ⟨r, n⟩ with errorMessage := some errorMessage, fileDescriptor := none }
  have failed : st' = begun.announce .FILE_REQUEST_FAILED r n payload :=
    if_pos (congrArg Payload.fileDescriptor (begun.payload_announce _ r n payload))
  rw [failed]
  constructor
  · rw [Loader.view_announce, show begun = taken (.fsOpen ⟨r, n⟩) st from rfl, view_taken waiting]
    refine .ended rfl ?_ ⟨concluded_concat unconcluded rfl, holds, ?_, ?_, ?_⟩
    · rw [limit]
      omega
    · exact closes.trans unopened.symm
    · exact unopened.le.trans (Nat.zero_le 1)
    · exact fun completed => absurd completed (not_completed unconcluded r _)
  · exact (taken_touches (.fsOpen ⟨r, n⟩) st rfl).trans (begun.announce_touches _ r n payload)

include unpublished

theorem onOpen_ok (unused : st.descriptors fd = none) :
    let st' := onOpen ⟨r, n⟩ (.ok fd) (openDescriptor r (.ok fd) (taken (.fsOpen ⟨r, n⟩) st))
    reader.Progress Known [] 1 r (st'.view r) ∧ Loader.Touches r st st' := by
  intro st'
  let opened := openDescriptor r (.ok fd) (taken (.fsOpen ⟨r, n⟩) st)
  have touches : Loader.Touches r st opened :=
    (taken_touches (.fsOpen ⟨r, n⟩) st rfl).trans
      (openDescriptor_touches fun fd' same => (Except.ok.inj same) ▸ unused)
  let payload : Payload :=
    { opened.payload ⟨r, n⟩ with errorMessage := none, fileDescriptor := some fd }
  let announced := opened.announce .FILE_DESCRIPTOR_OPENED r n payload
  have own : (FileOperation.fsFstat (some fd) ⟨r, n⟩).payload.request = r := rfl
  have next : st' = announced.submit (.fsFstat (some fd) ⟨r, n⟩) :=
    congrArg (fun stored : Payload => announced.submit (.fsFstat stored.fileDescriptor ⟨r, n⟩))
      (opened.payload_announce _ r n payload)
  rw [next]
  constructor
  · rw [Loader.view_submit _ own, Loader.view_announce,
      show opened = openDescriptor r (.ok fd) (taken _ st) from rfl, view_openDescriptor,
      view_taken waiting]
    refine .statting n fd rfl rfl rfl ?_ ?_ ⟨?_, closes, ?_, ?_⟩
    · rw [chunksOf_append, statusesOf_append, unpublished.1, unpublished.2]
      exact ⟨rfl, rfl⟩
    · dsimp only
      rw [Function.update_self]
    · exact fun other => or_iff_left (holds other)
    · apply unconcluded_append unconcluded
      intro published member
      rw [List.mem_singleton.mp member]
      rfl
    · exact congrArg Nat.succ unopened
  · exact (touches.trans (opened.announce_touches _ r n payload)).trans
      (Loader.submit_touches announced own)

end

theorem onFstat_spec (waiting : (st.view r).pending = [.fsFstat (some fd) ⟨r, n⟩])
    (unpublished : chunksOf (st.view r).events = [] ∧ statusesOf (st.view r).events = [])
    (descriptor : ((st.view r).payload n).fileDescriptor = some fd)
    (holding : Holding (st.view r) fd) (result : Except LuaString Stat)
    (known : ∀ stat, result = .ok stat → Known stat []) :
    let st' := reader.onFstat ⟨r, n⟩ result (taken (.fsFstat (some fd) ⟨r, n⟩) st)
    reader.Progress Known [] 2 r (st'.view r) ∧ Loader.Touches r st st' := by
  intro st'
  let begun := taken (.fsFstat (some fd) ⟨r, n⟩) st
  have touches : Loader.Touches r st begun := taken_touches (.fsFstat (some fd) ⟨r, n⟩) st rfl
  have holding' : Holding (begun.view r) fd := holding.taken waiting
  have idle : (begun.view r).pending = [] := congrArg RequestView.pending (view_taken waiting)
  cases result with
  | error errorMessage =>
    exact And.imp_right touches.trans (fail_spec n _ holding' idle descriptor (by rw [limit]; omega))
  | ok stat =>
    let payload : Payload := { begun.payload ⟨r, n⟩ with errorMessage := none, stat := some stat }
    let announced := begun.announce .FILE_STATUS_AVAILABLE r n payload
    have touches' : Loader.Touches r st announced :=
      touches.trans (begun.announce_touches _ r n payload)
    have holding'' : Holding (announced.view r) fd := holding'.announce rfl n payload
    have events : (announced.view r).events =
        (st.view r).events ++ [⟨.FILE_STATUS_AVAILABLE, r, payload⟩] :=
      congrArg RequestView.events (begun.view_announce _ r n payload)
    have counted : reader.Counted Known [] stat (announced.view r).events := by
      rw [events]
      refine ⟨known stat rfl, ?_, ?_, rfl, Nat.zero_le _⟩
      · rw [statusesOf_append, unpublished.2]
        rfl
      · rw [chunksOf_append, unpublished.1]
        rfl
    rw [show st' = reader.FILE_STATUS_AVAILABLE ⟨r, n⟩ announced from rfl, FILE_STATUS_AVAILABLE,
      begun.payload_announce]
    dsimp only
    split
    case isTrue directory =>
      exact And.imp_right touches'.trans
        (fail_spec n _ holding'' idle descriptor (by rw [limit]; omega))
    case isFalse file =>
      apply And.imp_right (touches'.trans (announced.setPayload_touches r n _)).trans
      apply readNextFileChunk_spec (holding''.setPayload n _) idle _ _ _ _ counted rfl
      all_goals rw [payload_setPayload]
      · exact descriptor
      · rfl
      · exact (Nat.zero_mul _).symm

section

variable (waiting : (st.view r).pending = [.fsRead (some fd)
    (pieceLength reader.CHUNK_SIZE_IN_BYTES stat.size reads.length)
    (reads.length * reader.CHUNK_SIZE_IN_BYTES) stat.size ⟨r, n⟩])
  (counted : reader.Counted Known reads stat (st.view r).events)
  (more : reads.length * reader.CHUNK_SIZE_IN_BYTES < stat.size)
  (descriptor : ((st.view r).payload n).fileDescriptor = some fd) (holding : Holding (st.view r) fd)

include counted more

theorem Counted.few : 2 + reads.length + 1 + 1 ≤ reader.limit (st.view r).events := by
  have fewer := (lt_pieceCount_iff reader.positive reads.length).mpr more
  rw [limit, counted.status, List.map_singleton, List.sum_singleton, Option.map_some,
    Option.getD_some]
  omega

/-- The next chunk is the next piece. -/
theorem Counted.chunk {payload : Payload} {chunk : LuaString}
    (known : Known stat
      (reads ++ [(pieceLength reader.CHUNK_SIZE_IN_BYTES stat.size reads.length, chunk)]))
    (position : payload.chunkIndex = reads.length + 1 ∧
      payload.cursorPosition = reads.length * reader.CHUNK_SIZE_IN_BYTES)
    (delivered : payload.chunk = some chunk) :
    reader.Counted Known
      (reads ++ [(pieceLength reader.CHUNK_SIZE_IN_BYTES stat.size reads.length, chunk)]) stat
      ((st.view r).events ++ [⟨.FILE_CHUNK_AVAILABLE, r, payload⟩]) := by
  constructor
  · exact known
  · rw [statusesOf_append, counted.status]
    rfl
  · rw [chunksOf_append, List.map_append, counted.chunks, List.mapIdx_concat]
    refine congrArg (_ ++ [·]) ?_
    exact Prod.ext position.1 (Prod.ext position.2 delivered)
  · rw [List.map_append, counted.requested, List.length_append, List.length_singleton,
      List.range_succ, List.map_append]
    rfl
  · rw [List.length_append]
    exact (lt_pieceCount_iff reader.positive reads.length).mpr more

include waiting descriptor holding

theorem onRead_error (errorMessage : LuaString) :
    let st' := reader.onRead (pieceLength reader.CHUNK_SIZE_IN_BYTES stat.size reads.length)
      (reads.length * reader.CHUNK_SIZE_IN_BYTES) stat.size ⟨r, n⟩ (.error errorMessage)
      (taken (.fsRead (some fd) (pieceLength reader.CHUNK_SIZE_IN_BYTES stat.size reads.length)
        (reads.length * reader.CHUNK_SIZE_IN_BYTES) stat.size ⟨r, n⟩) st)
    reader.Progress Known reads (2 + reads.length + 1) r (st'.view r) ∧ Loader.Touches r st st' := by
  intro st'
  let begun := taken (.fsRead (some fd)
    (pieceLength reader.CHUNK_SIZE_IN_BYTES stat.size reads.length)
    (reads.length * reader.CHUNK_SIZE_IN_BYTES) stat.size ⟨r, n⟩) st
  have touches : Loader.Touches r st begun := taken_touches _ st rfl
  have idle : (begun.view r).pending = [] := congrArg RequestView.pending (view_taken waiting)
  have few : 2 + reads.length + 1 + 1 ≤ reader.limit (st.view r).events := counted.few more
  exact And.imp_right touches.trans (fail_spec n _ (holding.taken waiting) idle descriptor few)

theorem onRead_ok (status : ((st.view r).payload n).stat = some stat)
    (position : ((st.view r).payload n).chunkIndex = reads.length + 1 ∧
      ((st.view r).payload n).cursorPosition = reads.length * reader.CHUNK_SIZE_IN_BYTES)
    (chunk : LuaString) (known : Known stat
      (reads ++ [(pieceLength reader.CHUNK_SIZE_IN_BYTES stat.size reads.length, chunk)])) :
    let st' := reader.onRead (pieceLength reader.CHUNK_SIZE_IN_BYTES stat.size reads.length)
      (reads.length * reader.CHUNK_SIZE_IN_BYTES) stat.size ⟨r, n⟩ (.ok chunk)
      (taken (.fsRead (some fd) (pieceLength reader.CHUNK_SIZE_IN_BYTES stat.size reads.length)
        (reads.length * reader.CHUNK_SIZE_IN_BYTES) stat.size ⟨r, n⟩) st)
    reader.Progress Known
        (reads ++ [(pieceLength reader.CHUNK_SIZE_IN_BYTES stat.size reads.length, chunk)])
        (2 + reads.length + 1) r (st'.view r) ∧
      Loader.Touches r st st' := by
  intro st'
  let begun := taken (.fsRead (some fd)
    (pieceLength reader.CHUNK_SIZE_IN_BYTES stat.size reads.length)
    (reads.length * reader.CHUNK_SIZE_IN_BYTES) stat.size ⟨r, n⟩) st
  have idle : (begun.view r).pending = [] := congrArg RequestView.pending (view_taken waiting)
  let payload : Payload := { begun.payload ⟨r, n⟩ with errorMessage := none, chunk := some chunk }
  let announced := begun.announce .FILE_CHUNK_AVAILABLE r n payload
  let newOffset := reads.length * reader.CHUNK_SIZE_IN_BYTES +
    pieceLength reader.CHUNK_SIZE_IN_BYTES stat.size reads.length
  let last := announced.setPayload ⟨r, n⟩ { payload with cursorPosition := newOffset }
  have started : Loader.Touches r st begun := taken_touches _ st rfl
  have touches : Loader.Touches r st last :=
    (started.trans (begun.announce_touches _ r n payload)).trans
      (announced.setPayload_touches r n _)
  have holding' : Holding (last.view r) fd :=
    ((holding.taken waiting).announce rfl n payload).setPayload n _
  have stored : (last.view r).payload n = { payload with cursorPosition := newOffset } :=
    payload_setPayload announced r n _
  have events : (last.view r).events =
      (st.view r).events ++ [⟨.FILE_CHUNK_AVAILABLE, r, payload⟩] :=
    congrArg RequestView.events (begun.view_announce _ r n payload)
  have counted' : reader.Counted Known
      (reads ++ [(pieceLength reader.CHUNK_SIZE_IN_BYTES stat.size reads.length, chunk)]) stat
      (last.view r).events := by
    rw [events]
    exact counted.chunk more known position rfl
  have length : (reads ++ [(pieceLength reader.CHUNK_SIZE_IN_BYTES stat.size reads.length,
      chunk)]).length = reads.length + 1 := List.length_append
  have count : 2 + reads.length + 1 = 2 + (reads ++ [(pieceLength reader.CHUNK_SIZE_IN_BYTES
      stat.size reads.length, chunk)]).length := by
    rw [length, Nat.add_assoc]
  have unfolded : st' = if newOffset < stat.size then reader.ReadNextFileChunk ⟨r, n⟩ last
      else FILE_CONTENTS_AVAILABLE ⟨r, n⟩ (last.publish .FILE_CONTENTS_AVAILABLE ⟨r, n⟩) := rfl
  rw [unfolded]
  apply And.imp_right touches.trans
  split
  case isTrue goesOn =>
    apply readNextFileChunk_spec holding' idle _ _ _ _ counted' count
    all_goals rw [stored]
    · exact descriptor
    · exact status
    · rw [length]
      exact position.1
    · rw [length]
      exact piece_end goesOn
  case isFalse ends =>
    apply complete_spec holding' idle _ counted' _ count
    · rw [stored]
      exact descriptor
    · rw [length]
      exact last_piece reader.positive more (Nat.not_lt.mp ends)

end

/-- The completion of closing. -/
theorem onClose_spec (waiting : (st.view r).pending = [.fsClose ⟨r, n⟩])
    (count : completed + 1 ≤ reader.limit (st.view r).events)
    (finished : reader.Finished Known reads (st.view r)) :
    let st' := (taken (.fsClose ⟨r, n⟩) st).publish .FILE_DESCRIPTOR_CLOSED ⟨r, n⟩
    reader.Progress Known reads (completed + 1) r (st'.view r) ∧ Loader.Touches r st st' := by
  intro st'
  constructor
  · rw [Loader.view_publish, view_taken waiting]
    let closed : Published := ⟨.FILE_DESCRIPTOR_CLOSED, r, (st.view r).payload n⟩
    have statuses : statusesOf ((st.view r).events ++ [closed]) = statusesOf (st.view r).events := by
      rw [statusesOf_append]
      exact List.append_nil _
    refine .ended rfl ?_ ⟨concluded_append finished.concluded rfl nofun, finished.holds,
      finished.closes, finished.once, ?_⟩
    · change completed + 1 ≤ reader.limit ((st.view r).events ++ [closed])
      rwa [limit, statuses]
    · intro completed'
      obtain ⟨stat, counted, all⟩ := finished.delivered
        ((exists_event_concat (by simp)).mp completed')
      exact ⟨stat, counted.append rfl rfl, all⟩
  · exact (taken_touches (.fsClose ⟨r, n⟩) st rfl).trans (Loader.publish_touches _ _ r n)

end AsyncFileReader

end EvoRuntime.FileSystem

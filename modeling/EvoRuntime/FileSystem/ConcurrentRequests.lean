import EvoRuntime.FileSystem.FileRequests

/-!
# Concurrent file requests

All requests are in flight at once. A completed operation belongs to a request that has
started, and moves this request on in its chain of callbacks; the others stay where they
are. So every request is somewhere in its chain in every state that a run reaches
(`invariant_of_run`), and `requests_spec` reads off what has become of it.
-/
namespace EvoRuntime.FileSystem.AsyncFileReader

open Lua Library

variable {reader : AsyncFileReader} {events : List LoopEvent} {event : LoopEvent}
  {operation : FileOperation} {st : Loader} {r : RequestId}

/-! ## What is known about a run -/

/-- What the surroundings promise, for any request: the answers of the system keep it. -/
structure Supports (reader : AsyncFileReader) (Answers : Loader → LoopEvent → Prop)
    (Known : RequestId → Stat → List (Nat × LuaString) → Prop) : Prop where
  statted : ∀ st fd r n stat, st.descriptors fd = some r →
    Answers st (.statted (some fd) ⟨r, n⟩ (.ok stat)) → Known r stat []
  read : ∀ st fd r n stat reads chunk, st.descriptors fd = some r → Known r stat reads →
    Answers st (.read (some fd) (pieceLength reader.CHUNK_SIZE_IN_BYTES stat.size reads.length)
      (reads.length * reader.CHUNK_SIZE_IN_BYTES) stat.size ⟨r, n⟩ (.ok chunk)) →
    Known r stat
      (reads ++ [(pieceLength reader.CHUNK_SIZE_IN_BYTES stat.size reads.length, chunk)])

/-- What belongs to a request that has not started. -/
structure Blank (v : RequestView) : Prop where
  pending : v.pending = []
  events : v.events = []
  holds : ∀ fd, ¬v.holds fd
  opens : v.opens = 0
  closes : v.closes = 0

structure Invariant (reader : AsyncFileReader)
    (Known : RequestId → Stat → List (Nat × LuaString) → Prop) (events : List LoopEvent)
    (st : Loader) : Prop where
  started : ∀ r < st.nextRequest,
    reader.Progress (Known r) (returned r events) (completions r events) r (st.view r)
  unstarted : ∀ r, st.nextRequest ≤ r →
    returned r events = [] ∧ completions r events = 0 ∧ Blank (st.view r)
  loads : st.nextRequest = loadCalls events
  closeLog : none ∉ st.closeLog

variable {Known : RequestId → Stat → List (Nat × LuaString) → Prop}
  {Answers : Loader → LoopEvent → Prop}

theorem invariant_initial : reader.Invariant Known [] {} where
  started _ before := absurd before (Nat.not_lt_zero _)
  unstarted _ _ :=
    ⟨rfl, rfl, rfl, rfl, fun _ held => absurd held (Option.some_ne_none _).symm, rfl, rfl⟩
  loads := rfl
  closeLog := List.not_mem_nil

/-! ## The history of a request -/

theorem returned_concat (r : RequestId) (events : List LoopEvent) (event : LoopEvent) :
    returned r (events ++ [event]) = returned r events ++ (event.returned r).toList := by
  rw [returned, List.filterMap_append]
  cases h : event.returned r with
  | none => rw [List.filterMap_cons_none h]; rfl
  | some read => rw [List.filterMap_cons_some h]; rfl

theorem completions_concat_own (own : event.request = some r) :
    completions r (events ++ [event]) = completions r events + 1 := by
  rw [completions, List.countP_append, List.countP_singleton, if_pos (decide_eq_true own)]
  rfl

theorem completions_concat_other (other : event.request ≠ some r) :
    completions r (events ++ [event]) = completions r events := by
  rw [completions, List.countP_append, List.countP_singleton, if_neg (by simpa using other)]
  rfl

theorem loadCalls_concat (events : List LoopEvent) (event : LoopEvent) :
    loadCalls (events ++ [event]) = loadCalls events + if event.operation.isNone then 1 else 0 := by
  rw [loadCalls, List.countP_append, List.countP_singleton]
  rfl

theorem returned_concat_other (other : event.request ≠ some r) :
    returned r (events ++ [event]) = returned r events := by
  have nothing : event.returned r = none := by
    cases event with
    | read fd numLeftoverBytes startOffset total payload result =>
      cases result with
      | error errorMessage => rfl
      | ok chunk => exact if_neg fun same => other (congrArg some same)
    | load fileSystemPath => rfl
    | opened payload result => rfl
    | statted fd payload result => rfl
    | closed payload => rfl
  rw [returned_concat, nothing]
  exact List.append_nil _

/-! ## Steps -/

/-- The event is the completion of the operation. -/
theorem event_of_operation (completed : event.operation = some operation) :
    match operation with
    | .fsOpen payload => ∃ result, event = .opened payload result
    | .fsFstat fd payload => ∃ result, event = .statted fd payload result
    | .fsRead fd numLeftoverBytes startOffset total payload =>
      ∃ result, event = .read fd numLeftoverBytes startOffset total payload result
    | .fsClose payload => event = .closed payload := by
  cases event with
  | load fileSystemPath => cases completed
  | opened payload result => cases completed; exact ⟨result, rfl⟩
  | statted fd payload result => cases completed; exact ⟨result, rfl⟩
  | read fd numLeftoverBytes startOffset total payload result => cases completed; exact ⟨result, rfl⟩
  | closed payload => cases completed; rfl

/-- A completed operation moves its request on. -/
theorem step_spec (supports : Supports reader Answers Known)
    (completed : event.operation = some operation) (own : operation.payload.request = r)
    (possible : Possible st event) (answers : Answers st event)
    (progress : reader.Progress (Known r) (returned r events) (completions r events) r (st.view r)) :
    reader.Progress (Known r) (returned r (events ++ [event])) (completions r (events ++ [event])) r
      ((reader.step st event).view r) ∧ Loader.Touches r st (reader.step st event) := by
  have member : operation ∈ (st.view r).pending :=
    List.mem_filter.mpr ⟨possible.1 operation completed, decide_eq_true own⟩
  -- The operation that has completed is the one that the request waits for.
  have only {waiting : FileOperation} (pending : (st.view r).pending = [waiting]) :
      event.operation = some waiting := by
    rw [pending] at member
    rw [completed, List.mem_singleton.mp member]
  have request : event.request = some r := by rw [LoopEvent.request, completed, Option.map_some, own]
  rw [completions_concat_own request, returned_concat]
  cases progress with
  | opening n pending count unread unpublished unconcluded unopened holds closes =>
    obtain ⟨result, rfl⟩ := event_of_operation (only pending)
    rw [unread, count]
    cases result with
    | error errorMessage => exact onOpen_error pending unconcluded unopened holds closes errorMessage
    | ok fd => exact onOpen_ok pending unpublished unconcluded unopened holds closes possible.2
  | statting n fd pending count unread unpublished descriptor holding =>
    obtain ⟨result, rfl⟩ := event_of_operation (only pending)
    rw [unread, count]
    apply onFstat_spec pending unpublished descriptor holding result
    rintro stat rfl
    exact supports.statted st fd r n stat ((holding.holds fd).mpr rfl) answers
  | reading n fd stat pending count counted more descriptor status position holding =>
    obtain ⟨result, rfl⟩ := event_of_operation (only pending)
    rw [count]
    cases result with
    | error errorMessage =>
      exact (List.append_nil _).symm ▸ onRead_error pending counted more descriptor holding errorMessage
    | ok chunk =>
      have owned : st.descriptors fd = some r := (holding.holds fd).mpr rfl
      have known := supports.read st fd r n stat _ chunk owned counted.known answers
      have returned : LoopEvent.returned r (.read (some fd)
          (pieceLength reader.CHUNK_SIZE_IN_BYTES stat.size (returned r events).length)
          ((returned r events).length * reader.CHUNK_SIZE_IN_BYTES) stat.size ⟨r, n⟩ (.ok chunk)) =
            some (_, chunk) := if_pos rfl
      rw [returned]
      exact onRead_ok pending counted more descriptor holding status position chunk known
  | closing n pending count finished =>
    have closed : event = .closed ⟨r, n⟩ := event_of_operation (only pending)
    subst closed
    exact (List.append_nil _).symm ▸ onClose_spec pending count finished
  | ended pending count finished =>
    rw [pending] at member
    exact absurd member List.not_mem_nil

/-- A call of `LoadFileContents` starts a request. -/
theorem load_spec (fileSystemPath : LuaString) (blank : Blank (st.view st.nextRequest)) :
    let st' := LoadFileContents fileSystemPath st
    reader.Progress (Known st.nextRequest) [] 0 st.nextRequest (st'.view st.nextRequest) ∧
      Loader.Touches st.nextRequest { st with nextRequest := st.nextRequest + 1 } st' := by
  intro st'
  let begun := { st with nextRequest := st.nextRequest + 1 }
  have own : (FileOperation.fsOpen ⟨st.nextRequest, 0⟩).payload.request = st.nextRequest := rfl
  have unfolded : st' = ((begun.setPayload ⟨st.nextRequest, 0⟩ { fileSystemPath }).submit
      (.fsOpen ⟨st.nextRequest, 0⟩)).publish .FILE_REQUEST_STARTED ⟨st.nextRequest, 0⟩ := rfl
  rw [unfolded]
  constructor
  · rw [Loader.view_publish, Loader.view_submit _ own, Loader.view_setPayload,
      show begun.view st.nextRequest = st.view st.nextRequest from rfl]
    refine .opening 0 ?_ rfl rfl ?_ ?_ blank.opens blank.holds blank.closes
    · dsimp only
      rw [blank.pending]
      rfl
    · dsimp only
      rw [blank.events]
      exact ⟨rfl, rfl⟩
    · dsimp only
      rw [blank.events]
      intro published member
      rw [List.mem_singleton.mp member]
      rfl
  · exact ((Loader.setPayload_touches begun _ 0 _).trans (Loader.submit_touches _ own)).trans
      (Loader.publish_touches _ _ _ 0)

/-- Every event of the loop keeps the invariant. -/
theorem Invariant.step (supports : Supports reader Answers Known)
    (inv : reader.Invariant Known events st) (possible : Possible st event)
    (answers : Answers st event) :
    reader.Invariant Known (events ++ [event]) (reader.step st event) := by
  -- The requests other than `q` stay where they are.
  have frame (q : RequestId) (others : ∀ r ≠ q, event.request ≠ some r)
      (views : ∀ r ≠ q, (reader.step st event).view r = st.view r) :
      (∀ r ≠ q, r < st.nextRequest → reader.Progress (Known r) (returned r (events ++ [event]))
        (completions r (events ++ [event])) r ((reader.step st event).view r)) ∧
      ∀ r ≠ q, st.nextRequest ≤ r → returned r (events ++ [event]) = [] ∧
        completions r (events ++ [event]) = 0 ∧ Blank ((reader.step st event).view r) := by
    constructor
    all_goals
      intro r differs number
      rw [returned_concat_other (others r differs), completions_concat_other (others r differs),
        views r differs]
    · exact inv.started r number
    · exact inv.unstarted r number
  cases h : event.operation with
  | none =>
    -- only a call of `LoadFileContents` completes no operation
    cases event with
    | load fileSystemPath =>
      have others (r : RequestId) : (LoopEvent.load fileSystemPath).request ≠ some r := nofun
      obtain ⟨returned, completions, blank⟩ := inv.unstarted st.nextRequest (Nat.le_refl _)
      have loaded : reader.Progress (Known st.nextRequest) [] 0 st.nextRequest _ ∧
          Loader.Touches st.nextRequest _ _ := load_spec fileSystemPath blank
      obtain ⟨progress, touches⟩ := loaded
      obtain ⟨started, unstarted⟩ := frame st.nextRequest (fun r _ => others r) touches.views
      have next : (reader.step st (.load fileSystemPath)).nextRequest = st.nextRequest + 1 :=
        touches.nextRequest
      have counted : (reader.step st (.load fileSystemPath)).nextRequest =
          loadCalls (events ++ [.load fileSystemPath]) := by
        rw [next, inv.loads, loadCalls_concat]
        rfl
      refine ⟨fun r number => ?_, fun r number => ?_, counted, touches.closeLog inv.closeLog⟩
      · rw [next] at number
        rcases Nat.lt_succ_iff_lt_or_eq.mp number with before | rfl
        · exact started r (Nat.ne_of_lt before) before
        · rw [returned_concat_other (others _), completions_concat_other (others _), returned,
            completions]
          exact progress
      · rw [next] at number
        exact unstarted r (Nat.ne_of_gt number) (Nat.le_of_succ_le number)
    | opened payload result => cases h
    | statted fd payload result => cases h
    | read fd numLeftoverBytes startOffset total payload result => cases h
    | closed payload => cases h
  | some operation =>
    let q := operation.payload.request
    have request : event.request = some q := by rw [LoopEvent.request, h, Option.map_some]
    have waits : operation ∈ (st.view q).pending :=
      List.mem_filter.mpr ⟨possible.1 operation h, decide_eq_true rfl⟩
    have number : q < st.nextRequest := by
      by_contra beyond
      rw [(inv.unstarted q (Nat.not_lt.mp beyond)).2.2.pending] at waits
      exact List.not_mem_nil waits
    obtain ⟨progress, touches⟩ :=
      step_spec supports h rfl possible answers (inv.started q number)
    obtain ⟨started, unstarted⟩ := frame q
      (fun r differs same => differs (Option.some.inj (same.symm.trans request))) touches.views
    have counted : (reader.step st event).nextRequest = loadCalls (events ++ [event]) := by
      rw [touches.nextRequest, inv.loads, loadCalls_concat, h]
      rfl
    refine ⟨fun r number' => ?_, fun r number' => ?_, counted, touches.closeLog inv.closeLog⟩
    · rw [touches.nextRequest] at number'
      by_cases same : r = q
      · rw [same]
        exact progress
      · exact started r same number'
    · rw [touches.nextRequest] at number'
      exact unstarted r (Nat.ne_of_gt (Nat.lt_of_lt_of_le number number')) number'

theorem invariant_of_run (supports : Supports reader Answers Known)
    (run : (reader.system Answers).Run {} events st) : reader.Invariant Known events st := by
  induction run with
  | start => exact invariant_initial
  | step before enabled stepped ih =>
    cases stepped
    exact ih.step supports enabled.1 enabled.2

/-! ## The fate of a request -/

/-- An operation of the request other than closing is in flight. -/
def Waiting (st : Loader) (r : RequestId) : Prop :=
  ∃ operation ∈ st.pending, operation.payload.request = r ∧ operation.isClose = false

theorem waiting_iff : Waiting st r ↔ ∃ operation ∈ (st.view r).pending, operation.isClose = false := by
  constructor
  · rintro ⟨operation, member, own, goesOn⟩
    exact ⟨operation, List.mem_filter.mpr ⟨member, decide_eq_true own⟩, goesOn⟩
  · rintro ⟨operation, member, goesOn⟩
    obtain ⟨member, own⟩ := List.mem_filter.mp member
    exact ⟨operation, member, of_decide_eq_true own, goesOn⟩

variable {reads : List (Nat × LuaString)} {completed : Nat} {stat : Stat}
  {Holds : Stat → List (Nat × LuaString) → Prop}

/-- A request is waiting, or it has come to its end. -/
theorem Progress.waiting_or_finished (progress : reader.Progress Holds reads completed r (st.view r)) :
    completed ≤ reader.limit (st.view r).events ∧
      ((Waiting st r ∧ Unconcluded (st.view r).events ∧ (st.view r).opens ≤ 1 ∧ (st.view r).closes = 0) ∨
        (¬Waiting st r ∧ reader.Finished Holds reads (st.view r))) := by
  have waits {operation : FileOperation} (pending : (st.view r).pending = [operation])
      (goesOn : operation.isClose = false) : Waiting st r :=
    waiting_iff.mpr ⟨operation, pending ▸ List.mem_singleton_self _, goesOn⟩
  cases progress with
  | opening n pending count unread unpublished unconcluded unopened holds closes =>
    have once := unopened.le.trans (Nat.zero_le 1)
    exact ⟨by omega, .inl ⟨waits pending rfl, unconcluded, once, closes⟩⟩
  | statting n fd pending count unread unpublished descriptor holding =>
    refine ⟨?_, .inl ⟨waits pending rfl, holding.unconcluded, holding.opened.le, holding.closes⟩⟩
    rw [limit]
    omega
  | reading n fd stat pending count counted more descriptor status position holding =>
    refine ⟨?_, .inl ⟨waits pending rfl, holding.unconcluded, holding.opened.le, holding.closes⟩⟩
    have bounded := counted.bounded
    rw [limit, counted.status, count, List.map_singleton, List.sum_singleton, Option.map_some,
      Option.getD_some]
    omega
  | closing n pending count finished =>
    refine ⟨Nat.le_of_succ_le count, .inr ⟨fun waiting => ?_, finished⟩⟩
    obtain ⟨operation, member, goesOn⟩ := waiting_iff.mp waiting
    rw [pending] at member
    rw [List.mem_singleton.mp member] at goesOn
    cases goesOn
  | ended pending count finished =>
    refine ⟨count, .inr ⟨fun waiting => ?_, finished⟩⟩
    obtain ⟨operation, member, -⟩ := waiting_iff.mp waiting
    rw [pending] at member
    exact List.not_mem_nil member

/-- A completed request has delivered all of its chunks. -/
theorem Progress.delivered (progress : reader.Progress Holds reads completed r (st.view r))
    (event : ∃ published ∈ (st.view r).events, published.event = .FILE_REQUEST_COMPLETED) :
    ∃ stat, reader.Counted Holds reads stat (st.view r).events ∧
      reads.length = pieceCount reader.CHUNK_SIZE_IN_BYTES stat.size := by
  obtain ⟨-, ⟨-, unconcluded, -⟩ | ⟨-, finished⟩⟩ := progress.waiting_or_finished
  · obtain ⟨published, member, completed⟩ := event
    have goesOn := unconcluded published member
    rw [completed] at goesOn
    cases goesOn
  · exact finished.delivered event

theorem Counted.indices {events : List Published} (counted : reader.Counted Holds reads stat events) :
    (chunksOf events).map (·.chunkIndex) = List.range' 1 reads.length := by
  have indices := congrArg (List.map Prod.fst) counted.chunks
  rw [List.map_map] at indices
  refine indices.trans (List.ext_getElem (by simp) fun i _ _ => ?_)
  simp [Nat.add_comm]

/-- The bytes of the file that a chunk is about, as start and length. -/
def chunkRange (payload : Payload) : Nat × Nat :=
  (payload.cursorPosition, (payload.chunk.getD []).length)

theorem Counted.requested_eq {events : List Published} (counted : reader.Counted Holds reads stat events)
    (i : Nat) (inside : i < reads.length) :
    reads[i].1 = pieceLength reader.CHUNK_SIZE_IN_BYTES stat.size i := by
  have requested := congrArg (·[i]?) counted.requested
  simpa [inside] using requested

theorem Counted.ranges {events : List Published} (counted : reader.Counted Holds reads stat events)
    (full : ∀ read ∈ reads, read.2.length = read.1) :
    (chunksOf events).map chunkRange = (List.range reads.length).map fun i =>
      (i * reader.CHUNK_SIZE_IN_BYTES, pieceLength reader.CHUNK_SIZE_IN_BYTES stat.size i) := by
  have ranges := congrArg (List.map fun chunk : Nat × Nat × Option LuaString =>
    (chunk.2.1, (chunk.2.2.getD []).length)) counted.chunks
  rw [List.map_map] at ranges
  refine ranges.trans (List.ext_getElem (by simp) fun i inside _ => ?_)
  have inside' : i < reads.length := by simpa using inside
  simp [← counted.requested_eq i inside', full reads[i] (List.getElem_mem inside')]

/-- Every read returns as many bytes as it was asked for. -/
def FullLength (_ : Loader) : LoopEvent → Prop
  | .read _ numLeftoverBytes _ _ _ (.ok chunk) => chunk.length = numLeftoverBytes
  | _ => True

theorem supports_fullLength :
    Supports reader FullLength fun _ _ reads => ∀ read ∈ reads, read.2.length = read.1 where
  statted _ _ _ _ _ _ _ _ member := absurd member List.not_mem_nil
  read _ _ _ _ _ _ _ _ before full read member := by
    rcases List.mem_append.mp member with old | new
    · exact before read old
    · rw [List.mem_singleton.mp new]
      exact full

/-- Every call of `LoadFileContents` starts a request, and requests do not get in each
other's way. As long as it waits, a request has not concluded, and as it cannot wait for
more than `limit` completions, it comes to its end. There one event has told how it ended,
and its descriptor has been closed once. -/
theorem requests_spec (run : (reader.system FullLength).Run {} events st) :
    st.nextRequest = loadCalls events ∧ none ∉ st.closeLog ∧ ∀ r < st.nextRequest,
      completions r events ≤ reader.limit (st.view r).events ∧
      st.openLog.count r ≤ 1 ∧
      (Waiting st r → Unconcluded (st.view r).events ∧ st.closeLog.count (some r) = 0) ∧
      (¬Waiting st r → Concluded (st.view r).events ∧
        st.closeLog.count (some r) = st.openLog.count r ∧ ∀ fd, st.descriptors fd ≠ some r) ∧
      ((∃ published ∈ (st.view r).events, published.event = .FILE_REQUEST_COMPLETED) →
        ∃ stat, statusesOf (st.view r).events = [some stat] ∧
          (chunksOf (st.view r).events).map (·.chunkIndex) =
            List.range' 1 (pieceCount reader.CHUNK_SIZE_IN_BYTES stat.size) ∧
          Tiles ((chunksOf (st.view r).events).map chunkRange) 0 stat.size) := by
  have inv := invariant_of_run supports_fullLength run
  refine ⟨inv.loads, inv.closeLog, fun r started => ?_⟩
  have progress := inv.started r started
  have delivered (completed : ∃ published ∈ (st.view r).events,
      published.event = .FILE_REQUEST_COMPLETED) :
      ∃ stat, statusesOf (st.view r).events = [some stat] ∧
        (chunksOf (st.view r).events).map (·.chunkIndex) =
          List.range' 1 (pieceCount reader.CHUNK_SIZE_IN_BYTES stat.size) ∧
        Tiles ((chunksOf (st.view r).events).map chunkRange) 0 stat.size := by
    obtain ⟨stat, counted, all⟩ := progress.delivered completed
    refine ⟨stat, counted.status, ?_, ?_⟩
    · rw [counted.indices, all]
    · rw [counted.ranges counted.known, all]
      exact tiles_all reader.positive
  obtain ⟨count, ⟨waits, unconcluded, once, closes⟩ | ⟨idle, finished⟩⟩ :=
    progress.waiting_or_finished
  · exact ⟨count, once, fun _ => ⟨unconcluded, closes⟩, fun idle => absurd waits idle, delivered⟩
  · exact ⟨count, finished.once, fun waits => absurd waits idle,
      fun _ => ⟨finished.concluded, finished.closes, finished.holds⟩, delivered⟩

/-- A file of three bytes that is read in two pieces. -/
def sampleEvents : List LoopEvent :=
  [.load (ascii "f"), .opened ⟨0, 0⟩ (.ok 3), .statted (some 3) ⟨0, 0⟩ (.ok ⟨3, ascii "file"⟩),
    .read (some 3) 2 0 3 ⟨0, 1⟩ (.ok (ascii "ab")), .read (some 3) 1 2 3 ⟨0, 2⟩ (.ok (ascii "c")),
    .closed ⟨0, 2⟩]

def sampleReader : AsyncFileReader := { CHUNK_SIZE_IN_BYTES := 2 }

theorem sampleRun : (sampleReader.system FullLength).Run {} sampleEvents
    (sampleEvents.foldl sampleReader.step {}) :=
  System.run_of_follows ⟨_, ⟨⟨by decide, trivial⟩, trivial⟩, rfl,
    _, ⟨⟨by decide, rfl⟩, trivial⟩, rfl,
    _, ⟨⟨by decide, rfl⟩, trivial⟩, rfl,
    _, ⟨⟨by decide, rfl⟩, rfl⟩, rfl,
    _, ⟨⟨by decide, rfl⟩, rfl⟩, rfl,
    _, ⟨⟨by decide, trivial⟩, trivial⟩, rfl, rfl⟩

theorem requests_spec_sample :
    ∃ stat, statusesOf ((sampleEvents.foldl sampleReader.step {}).view 0).events = [some stat] ∧
      (chunksOf ((sampleEvents.foldl sampleReader.step {}).view 0).events).map (·.chunkIndex) =
        List.range' 1 (pieceCount 2 stat.size) ∧
      Tiles ((chunksOf ((sampleEvents.foldl sampleReader.step {}).view 0).events).map chunkRange)
        0 stat.size :=
  ((requests_spec sampleRun).2.2 0 (by decide)).2.2.2.2 (by decide)

end EvoRuntime.FileSystem.AsyncFileReader

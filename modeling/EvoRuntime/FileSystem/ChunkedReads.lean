import EvoRuntime.FileSystem.ConcurrentRequests

/-!
# Chunked reads

A read may return fewer bytes than it was asked for. The reader moves its cursor by the
bytes that it has asked for, so the bytes behind a short read are left out. The chunks of a
completed request are initial parts of the pieces of the file, and make up the file exactly
if no read was short.
-/
namespace EvoRuntime.FileSystem.AsyncFileReader

open Lua Library

variable {reader : AsyncFileReader} {files : RequestId → LuaString} {events : List LoopEvent}
  {st : Loader} {r : RequestId} {reads : List (Nat × LuaString)} {stat : Stat}

/-- The system tells the sizes of these files, and a read returns at least one byte and at
most as many as it was asked for. -/
def Serves (files : RequestId → LuaString) (st : Loader) : LoopEvent → Prop
  | .statted fd _ (.ok stat) => ∀ r, st.owner fd = some r → stat.size = (files r).length
  | .read fd numLeftoverBytes startOffset _ _ (.ok chunk) => ∀ r, st.owner fd = some r →
    0 < chunk.length ∧ chunk.length ≤ numLeftoverBytes ∧ chunk <+: (files r).drop startOffset
  | _ => True

/-- Every read has returned bytes from the beginning of its piece. -/
def Supplied (reader : AsyncFileReader) (file : LuaString) (stat : Stat)
    (reads : List (Nat × LuaString)) : Prop :=
  stat.size = file.length ∧ ∀ i (inside : i < reads.length),
    reads[i].2 <+: (file.drop (i * reader.CHUNK_SIZE_IN_BYTES)).take reads[i].1

theorem supports_serves : Supports reader (Serves files) fun r => Supplied reader (files r) where
  statted _ fd r _ stat owned answers :=
    ⟨answers r owned, fun i inside => absurd inside (Nat.not_lt_zero i)⟩
  read st fd r n stat reads chunk owned supplied answers := by
    refine ⟨supplied.1, fun i inside => ?_⟩
    rw [List.length_append, List.length_singleton] at inside
    obtain before | rfl := Nat.lt_succ_iff_lt_or_eq.mp inside
    · rw [List.getElem_append_left before]
      exact supplied.2 i before
    · obtain ⟨-, few, initial⟩ := answers r owned
      rw [List.getElem_concat_length rfl]
      exact List.prefix_take_iff.mpr ⟨initial, few⟩

/-- What the chunks make up together. -/
def contents (events : List Published) : LuaString :=
  ((chunksOf events).map fun payload => payload.chunk.getD []).flatten

theorem Counted.contents_eq {Holds : Stat → List (Nat × LuaString) → Prop} {events : List Published}
    (counted : reader.Counted Holds reads stat events) :
    contents events = (reads.map Prod.snd).flatten := by
  have chunks := congrArg (List.map fun chunk : Nat × Nat × Option LuaString => chunk.2.2.getD [])
    counted.chunks
  rw [List.map_map] at chunks
  refine congrArg List.flatten (chunks.trans (List.ext_getElem (by simp) fun i _ _ => ?_))
  simp

variable {file : LuaString}

section

variable {events : List Published} (counted : reader.Counted (Supplied reader file) reads stat events)
  (all : reads.length = pieceCount reader.CHUNK_SIZE_IN_BYTES stat.size)

include counted

/-- A chunk is an initial part of its piece, and was asked for with the length of the piece. -/
theorem Counted.piece (i : Nat) (inside : i < reads.length)
    (inside' : i < (cut reader.CHUNK_SIZE_IN_BYTES file).length) :
    reads[i].2 <+: (cut reader.CHUNK_SIZE_IN_BYTES file)[i] ∧
      reads[i].1 = (cut reader.CHUNK_SIZE_IN_BYTES file)[i].length := by
  obtain ⟨size, initial⟩ := counted.known
  have piece := List.prefix_take_iff.mp (initial i inside)
  rw [counted.requested_eq i inside] at piece ⊢
  simp only [cut, List.getElem_map, List.getElem_range]
  constructor
  · exact List.prefix_take_iff.mpr ⟨piece.1, piece.2.trans (Nat.min_le_left ..)⟩
  · rw [List.length_take, List.length_drop, ← size]
    rfl

include all

theorem Counted.length_eq : reads.length = (cut reader.CHUNK_SIZE_IN_BYTES file).length := by
  rw [length_cut, all, counted.known.1]

theorem Counted.initial :
    List.Forall₂ (· <+: ·) (reads.map Prod.snd) (cut reader.CHUNK_SIZE_IN_BYTES file) := by
  refine List.forall₂_iff_get.mpr ⟨?_, fun i inside inside' => ?_⟩
  · rw [List.length_map]
    exact counted.length_eq all
  · rw [List.get_eq_getElem, List.getElem_map]
    exact (counted.piece i (by simpa using inside) inside').1

theorem Counted.whole_iff :
    reads.map Prod.snd = cut reader.CHUNK_SIZE_IN_BYTES file ↔
      ∀ read ∈ reads, read.2.length = read.1 := by
  have same := counted.length_eq all
  constructor
  · intro whole read member
    obtain ⟨i, inside, rfl⟩ := List.getElem_of_mem member
    have inside' : i < (cut reader.CHUNK_SIZE_IN_BYTES file).length := same ▸ inside
    have chunk : reads[i].2 = (cut reader.CHUNK_SIZE_IN_BYTES file)[i] := by
      simp only [← whole, List.getElem_map]
    rw [(counted.piece i inside inside').2, chunk]
  · intro full
    refine List.ext_getElem (by rw [List.length_map, same]) fun i inside inside' => ?_
    have inside : i < reads.length := same ▸ inside'
    obtain ⟨initial, asked⟩ := counted.piece i inside inside'
    rw [List.getElem_map]
    exact initial.eq_of_length ((full _ (List.getElem_mem inside)).trans asked)

end

/-- The chunks of a completed request make up the file if and only if no read of the request
was short. -/
theorem contents_iff (run : (reader.system (Serves files)).Run {} events st) (r : RequestId)
    (completed : ∃ published ∈ (st.view r).events, published.event = .FILE_REQUEST_COMPLETED) :
    contents (st.view r).events = files r ↔ ∀ read ∈ returned r events, read.2.length = read.1 := by
  have inv := invariant_of_run supports_serves run
  have started : r < st.nextRequest := by
    by_contra beyond
    obtain ⟨published, member, -⟩ := completed
    rw [(inv.unstarted r (Nat.not_lt.mp beyond)).2.2.events] at member
    exact List.not_mem_nil member
  obtain ⟨stat, counted, all⟩ := (inv.started r started).delivered completed
  rw [counted.contents_eq, ← counted.whole_iff all]
  exact flatten_eq_iff reader.positive (counted.initial all)

theorem sampleRun_serves : (sampleReader.system (Serves fun _ => ascii "abc")).Run {} sampleEvents
    (sampleEvents.foldl sampleReader.step {}) :=
  System.run_of_follows ⟨_, ⟨⟨by decide, trivial⟩, trivial⟩, rfl,
    _, ⟨⟨by decide, rfl⟩, trivial⟩, rfl,
    _, ⟨⟨by decide, rfl⟩, fun _ _ => rfl⟩, rfl,
    _, ⟨⟨by decide, rfl⟩, fun _ _ => ⟨by decide, by decide, ascii "c", rfl⟩⟩, rfl,
    _, ⟨⟨by decide, rfl⟩, fun _ _ => ⟨by decide, by decide, [], rfl⟩⟩, rfl,
    _, ⟨⟨by decide, trivial⟩, trivial⟩, rfl, rfl⟩

theorem contents_iff_sample :
    contents ((sampleEvents.foldl sampleReader.step {}).view 0).events = ascii "abc" :=
  (contents_iff sampleRun_serves 0 (by decide)).mpr (by decide)

/-- A file of three bytes. The system is asked for all of them and returns one. -/
def shortRead : List LoopEvent :=
  [.load (ascii "f"), .opened ⟨0, 0⟩ (.ok 3), .statted (some 3) ⟨0, 0⟩ (.ok ⟨3, ascii "file"⟩),
    .read (some 3) 3 0 3 ⟨0, 1⟩ (.ok (ascii "a")), .closed ⟨0, 1⟩]

/-- The request completes with one byte. -/
theorem shortRead_loses_bytes : ¬∀ (reader : AsyncFileReader) (files : RequestId → LuaString)
    (events : List LoopEvent) (st : Loader) (r : RequestId),
    (reader.system (Serves files)).Run {} events st →
    (∃ published ∈ (st.view r).events, published.event = .FILE_REQUEST_COMPLETED) →
    contents (st.view r).events = files r := by
  intro claimed
  have run : (({} : AsyncFileReader).system (Serves fun _ => ascii "abc")).Run {} shortRead
      (shortRead.foldl ({} : AsyncFileReader).step {}) :=
    System.run_of_follows ⟨_, ⟨⟨by decide, trivial⟩, trivial⟩, rfl,
      _, ⟨⟨by decide, rfl⟩, trivial⟩, rfl,
      _, ⟨⟨by decide, rfl⟩, fun _ _ => rfl⟩, rfl,
      _, ⟨⟨by decide, rfl⟩, fun _ _ => ⟨by decide, by decide, ascii "bc", rfl⟩⟩, rfl,
      _, ⟨⟨by decide, trivial⟩, trivial⟩, rfl, rfl⟩
  have whole := claimed _ _ _ _ 0 run (by decide)
  exact absurd whole (by decide)

end EvoRuntime.FileSystem.AsyncFileReader

import EvoRuntime.Library.Runs
import EvoRuntime.Library.Tiling
import EvoRuntime.Lua.Strings
import Mathlib.Logic.Function.Basic

/-!
# The asynchronous file reader

A request is a chain of callbacks that libuv calls when an operation has completed. They
pass along a payload table, which is copied for each chunk. Events are published in
between, and the reader is itself a listener of four of them. Other listeners are left out,
as they do not raise and do not change the payload.

Sizes and offsets are natural numbers. A descriptor may be used again as soon as closing it
has been asked for, and the table of open descriptors says for which request it is open.
-/
namespace EvoRuntime.FileSystem

open Lua Library

abbrev RequestId := Nat

/-- A payload table: the first one of a request, or a later copy. -/
structure PayloadRef where
  request : RequestId
  copy : Nat
  deriving DecidableEq

structure Stat where
  size : Nat
  type : LuaString
  deriving DecidableEq

structure Payload where
  fileSystemPath : LuaString
  errorMessage : Option LuaString := none
  fileDescriptor : Option Nat := none
  stat : Option Stat := none
  lastChunkIndex : Nat := 0
  chunkIndex : Nat := 0
  cursorPosition : Nat := 0
  chunk : Option LuaString := none

inductive FileEvent
  | FILE_REQUEST_STARTED
  | FILE_REQUEST_FAILED
  | FILE_REQUEST_COMPLETED
  | FILE_DESCRIPTOR_OPENED
  | FILE_STATUS_AVAILABLE
  | FILE_CHUNK_AVAILABLE
  | FILE_CONTENTS_AVAILABLE
  | FILE_DESCRIPTOR_CLOSED
  deriving DecidableEq

/-- A published event, with its payload at that time. -/
structure Published where
  event : FileEvent
  request : RequestId
  payload : Payload

/-- An operation in flight, with what its callback has captured. -/
inductive FileOperation
  | fsOpen (payload : PayloadRef)
  | fsFstat (fileDescriptor : Option Nat) (payload : PayloadRef)
  | fsRead (fileDescriptor : Option Nat)
      (numLeftoverBytes startOffset totalFileSizeInBytes : Nat) (payload : PayloadRef)
  | fsClose (payload : PayloadRef)
  deriving DecidableEq

def FileOperation.payload : FileOperation → PayloadRef
  | .fsOpen payload | .fsFstat _ payload | .fsRead _ _ _ _ payload | .fsClose payload => payload

def FileOperation.isClose : FileOperation → Bool
  | .fsClose _ => true
  | _ => false

structure Loader where
  payload : PayloadRef → Payload := fun _ => { fileSystemPath := [] }
  /-- The number of the last table of a request. -/
  copies : RequestId → Nat := fun _ => 0
  nextRequest : RequestId := 0
  pending : List FileOperation := []
  published : List Published := []
  descriptors : Nat → Option RequestId := fun _ => none
  /-- The requests for which a descriptor has been opened. -/
  openLog : List RequestId := []
  /-- For each call of `uv.fs_close`, the request for which the descriptor was open. -/
  closeLog : List (Option RequestId) := []

namespace Loader

def setPayload (ref : PayloadRef) (payload : Payload) (st : Loader) : Loader :=
  { st with payload := Function.update st.payload ref payload }

/-- `EVENT(event, payload)`, without the listener. -/
def publish (event : FileEvent) (ref : PayloadRef) (st : Loader) : Loader :=
  { st with published := st.published ++ [⟨event, ref.request, st.payload ref⟩] }

def submit (operation : FileOperation) (st : Loader) : Loader :=
  { st with pending := st.pending ++ [operation] }

/-- For which request a descriptor is open. -/
def owner (st : Loader) (fileDescriptor : Option Nat) : Option RequestId :=
  fileDescriptor.bind st.descriptors

/-- `uv.fs_close(payload.fileDescriptor, ...)`. -/
def fsClose (ref : PayloadRef) (st : Loader) : Loader :=
  { st with
    closeLog := st.closeLog ++ [st.owner (st.payload ref).fileDescriptor]
    descriptors := fun fd =>
      if (st.payload ref).fileDescriptor = some fd then none else st.descriptors fd
    pending := st.pending ++ [.fsClose ref] }

/-- `table.scopy(payload)`. -/
def scopy (ref : PayloadRef) (st : Loader) : PayloadRef × Loader :=
  let copy : PayloadRef := ⟨ref.request, st.copies ref.request + 1⟩
  (copy, { st with
    payload := Function.update st.payload copy (st.payload ref)
    copies := Function.update st.copies ref.request copy.copy })

end Loader

structure AsyncFileReader where
  CHUNK_SIZE_IN_BYTES : Nat := 1024 * 256
  positive : 0 < CHUNK_SIZE_IN_BYTES := by decide

namespace AsyncFileReader

variable (self : AsyncFileReader)

/-! ## Listeners -/

def FILE_REQUEST_FAILED (ref : PayloadRef) (st : Loader) : Loader :=
  if (st.payload ref).fileDescriptor = none then st else st.fsClose ref

def FILE_CONTENTS_AVAILABLE (ref : PayloadRef) (st : Loader) : Loader :=
  (st.fsClose ref).publish .FILE_REQUEST_COMPLETED ref

/-- Up to `uv.fs_read`, whose callback is `onRead`. -/
def ReadNextFileChunk (ref : PayloadRef) (st : Loader) : Loader :=
  -- Consecutive chunked reads may overwrite the payload unless copied
  let (ref, st) := st.scopy ref
  let payload := st.payload ref
  let totalFileSizeInBytes := (payload.stat.map Stat.size).getD 0
  let startOffset := payload.cursorPosition
  let numLeftoverBytes := min self.CHUNK_SIZE_IN_BYTES (totalFileSizeInBytes - startOffset)
  if numLeftoverBytes = 0 then
    FILE_CONTENTS_AVAILABLE ref (st.publish .FILE_CONTENTS_AVAILABLE ref)
  else
    (st.submit (.fsRead payload.fileDescriptor numLeftoverBytes startOffset totalFileSizeInBytes
      ref)).setPayload ref { payload with chunkIndex := payload.chunkIndex + 1 }

def FILE_STATUS_AVAILABLE (ref : PayloadRef) (st : Loader) : Loader :=
  let payload := st.payload ref
  let size := (payload.stat.map Stat.size).getD 0
  let payload := { payload with
    lastChunkIndex := pieceCount self.CHUNK_SIZE_IN_BYTES size
    chunkIndex := 0
    cursorPosition := 0 }
  if payload.stat.map Stat.type = some (ascii "directory") then
    let errorMessage := ascii "EISDIR: illegal operation on a directory"
    let payload := { payload with errorMessage := some errorMessage }
    FILE_REQUEST_FAILED ref ((st.setPayload ref payload).publish .FILE_REQUEST_FAILED ref)
  else self.ReadNextFileChunk ref (st.setPayload ref payload)

def FILE_DESCRIPTOR_OPENED (ref : PayloadRef) (st : Loader) : Loader :=
  st.submit (.fsFstat (st.payload ref).fileDescriptor ref)

/-! ## Callbacks -/

def LoadFileContents (fileSystemPath : LuaString) (st : Loader) : Loader :=
  let ref : PayloadRef := ⟨st.nextRequest, 0⟩
  let st := { st with nextRequest := st.nextRequest + 1 }
  ((st.setPayload ref { fileSystemPath }).submit (.fsOpen ref)).publish .FILE_REQUEST_STARTED ref

def onOpen (ref : PayloadRef) (result : Except LuaString Nat) (st : Loader) : Loader :=
  match result with
  | .error errorMessage =>
    let payload := { st.payload ref with errorMessage := some errorMessage, fileDescriptor := none }
    FILE_REQUEST_FAILED ref ((st.setPayload ref payload).publish .FILE_REQUEST_FAILED ref)
  | .ok fileDescriptor =>
    let payload := { st.payload ref with errorMessage := none, fileDescriptor := some fileDescriptor }
    FILE_DESCRIPTOR_OPENED ref ((st.setPayload ref payload).publish .FILE_DESCRIPTOR_OPENED ref)

def onFstat (ref : PayloadRef) (result : Except LuaString Stat) (st : Loader) : Loader :=
  match result with
  | .error errorMessage =>
    let payload := { st.payload ref with errorMessage := some errorMessage, stat := none }
    FILE_REQUEST_FAILED ref ((st.setPayload ref payload).publish .FILE_REQUEST_FAILED ref)
  | .ok stat =>
    let payload := { st.payload ref with errorMessage := none, stat := some stat }
    self.FILE_STATUS_AVAILABLE ref ((st.setPayload ref payload).publish .FILE_STATUS_AVAILABLE ref)

def onRead (numLeftoverBytes startOffset totalFileSizeInBytes : Nat) (ref : PayloadRef)
    (result : Except LuaString LuaString) (st : Loader) : Loader :=
  match result with
  | .error errorMessage =>
    let payload := { st.payload ref with errorMessage := some errorMessage, chunk := none }
    FILE_REQUEST_FAILED ref ((st.setPayload ref payload).publish .FILE_REQUEST_FAILED ref)
  | .ok chunk =>
    let payload := { st.payload ref with errorMessage := none, chunk := some chunk }
    let st := (st.setPayload ref payload).publish .FILE_CHUNK_AVAILABLE ref
    let newOffset := startOffset + numLeftoverBytes
    let st := st.setPayload ref { payload with cursorPosition := newOffset }
    if newOffset < totalFileSizeInBytes then self.ReadNextFileChunk ref st
    else FILE_CONTENTS_AVAILABLE ref (st.publish .FILE_CONTENTS_AVAILABLE ref)

/-! ## Runs -/

/-- A call of `LoadFileContents`, or the completion of an operation with what the callback
receives: an error, or a result. -/
inductive LoopEvent
  | load (fileSystemPath : LuaString)
  | opened (payload : PayloadRef) (result : Except LuaString Nat)
  | statted (fileDescriptor : Option Nat) (payload : PayloadRef) (result : Except LuaString Stat)
  | read (fileDescriptor : Option Nat) (numLeftoverBytes startOffset totalFileSizeInBytes : Nat)
      (payload : PayloadRef) (result : Except LuaString LuaString)
  | closed (payload : PayloadRef)

/-- The operation that has completed. -/
def LoopEvent.operation : LoopEvent → Option FileOperation
  | .load _ => none
  | .opened payload _ => some (.fsOpen payload)
  | .statted fd payload _ => some (.fsFstat fd payload)
  | .read fd numLeftoverBytes startOffset total payload _ =>
    some (.fsRead fd numLeftoverBytes startOffset total payload)
  | .closed payload => some (.fsClose payload)

/-- Operations complete in any order. A new descriptor is not open yet, and only an open
one has a status and contents. -/
def Possible (st : Loader) (event : LoopEvent) : Prop :=
  (∀ operation ∈ event.operation, operation ∈ st.pending) ∧
    match event with
    | .opened _ (.ok fd) => st.descriptors fd = none
    | .statted fd _ (.ok _) | .read fd _ _ _ _ (.ok _) => (st.owner fd).isSome
    | _ => True

/-- The system has opened the descriptor before the callback is called. -/
def openDescriptor (request : RequestId) (result : Except LuaString Nat) (st : Loader) : Loader :=
  match result with
  | .error _ => st
  | .ok fd =>
    { st with
      descriptors := Function.update st.descriptors fd (some request)
      openLog := st.openLog ++ [request] }

def step (st : Loader) (event : LoopEvent) : Loader :=
  let st := { st with pending := event.operation.elim st.pending st.pending.erase }
  match event with
  | .load fileSystemPath => LoadFileContents fileSystemPath st
  | .opened ref result => onOpen ref result (openDescriptor ref.request result st)
  | .statted _ ref result => self.onFstat ref result st
  | .read _ numLeftoverBytes startOffset total ref result =>
    self.onRead numLeftoverBytes startOffset total ref result st
  | .closed ref => st.publish .FILE_DESCRIPTOR_CLOSED ref

/-- The runs in which the answers of the system are as `Answers` says. -/
def system (Answers : Loader → LoopEvent → Prop) : System Loader LoopEvent Empty where
  Initial st := st = {}
  Enabled st event := Possible st event ∧ Answers st event
  step st event := .ok (self.step st event)

end AsyncFileReader

end EvoRuntime.FileSystem

import EvoRuntime.Library.Runs
import EvoRuntime.Lua.Strings
import Mathlib.Data.UInt

/-!
# Conversions between encodings

`iconv.convert` prepares one request that all conversions share, and `iconv_convert` opens
a descriptor for it, converts, and closes the descriptor. The encodings, the buffers and
the world in which the library keeps its state and `errno` are parameters.

## Main result

`settled_iff`: no conversion leaves a descriptor behind if and only if each one for which
`iconv_open` succeeds also converts its input.

## Proof strategy

`convert_log` says what a conversion opens and closes. What the library answers decides it.
-/
namespace EvoRuntime.Iconv

open Lua Library

/-- A `char*`, or an `iconv_t`. -/
abbrev Pointer := UInt64

def nullptr : Pointer := 0

def ICONV_INVALID_HANDLE : Pointer := 2 ^ 64 - 1
def ICONV_INVALID_SIZE : UInt64 := 2 ^ 64 - 1

inductive ResultCode
  | ICONV_RESULT_OK
  | ICONV_INVALID_REQUEST
  | ICONV_INVALID_DESCRIPTOR
  | ICONV_INVALID_INPUT
  | ICONV_INVALID_OUTPUT
  | ICONV_CONVERSION_FAILED
  | ICONV_INCOMPLETE_INPUT
  | ICONV_WRITEBUFFER_FULL
  | ICONV_RESULT_LAST
  deriving DecidableEq, Repr

/-- The table `iconv_error_strings`. -/
def ResultCode.errorString : ResultCode → LuaString
  | ICONV_RESULT_OK => ascii "Success: Not an error"
  | ICONV_INVALID_REQUEST => ascii "Failed: Invalid conversion request"
  | ICONV_INVALID_DESCRIPTOR => ascii "Failed: Not a valid conversion descriptor"
  | ICONV_INVALID_INPUT =>
    ascii "Failed: The provided input buffer is invalid, uninitialized, or has been corrupted"
  | ICONV_INVALID_OUTPUT =>
    ascii "Failed: The provided output buffer is invalid, uninitialized, or has been corrupted"
  | ICONV_CONVERSION_FAILED =>
    ascii "Failed: An invalid multibyte sequence was encountered within the input"
  | ICONV_INCOMPLETE_INPUT =>
    ascii "Failed: The input ended prematurely or with an incomplete multibyte sequence"
  | ICONV_WRITEBUFFER_FULL =>
    ascii "Failed: The provided output buffer is too small to store the conversion result"
  | ICONV_RESULT_LAST => ascii "Undefined: This should never happen"

inductive Errno
  | EILSEQ
  | EINVAL
  | E2BIG
  | other (code : Nat)
  deriving DecidableEq, Repr

structure IconvMemory where
  charset : LuaString
  buffer : Pointer
  length : UInt64
  remaining : UInt64

structure IconvRequest where
  input : IconvMemory
  output : IconvMemory
  handle : Pointer

/-- The cursors that `iconv` moves. -/
structure Cursors where
  input : Pointer
  inputRemaining : UInt64
  output : Pointer
  outputRemaining : UInt64

/-- The iconv library. The encodings are C strings. -/
structure IconvLibrary (World : Type) where
  iconv_open : World → (tocode fromcode : LuaString) → Pointer × World
  iconv : World → Pointer → Cursors → (UInt64 × Cursors) × World
  iconv_close : World → Pointer → Int × World
  errno : World → Errno

/-- The two string buffers of the Lua library. -/
structure StringBuffers (World : Type) where
  /-- `readBuffer:reset()`, `readBuffer:put(input)` and `readBuffer:ref()`. -/
  put : World → LuaString → Pointer × World
  /-- `writeBuffer:reset()` and `writeBuffer:reserve(size)`. -/
  reserve : World → Nat → (Pointer × UInt64) × World
  /-- `writeBuffer:commit(count)`, and the text of the buffer after it. -/
  commit : World → UInt64 → Except LuaString LuaString × World

/-- A successful `iconv_open`, or a call of `iconv_close`. -/
inductive Event
  | opened (handle : Pointer)
  | closed (handle : Pointer)
  deriving DecidableEq

/-- The request is made by the first conversion. -/
structure Process (World : Type) where
  world : World
  request : Option IconvRequest
  log : List Event

variable {World : Type} (library : IconvLibrary World) (buffers : StringBuffers World)

/-! ## The C++ side -/

def sanity_check_descriptor (handle : Pointer) : Bool := handle ≠ ICONV_INVALID_HANDLE

def sanity_check_buffer (workload : IconvMemory) : Bool :=
  if workload.buffer = nullptr then false
  else if workload.remaining > workload.length then false
  else true

def iconv_check_errno (world : World) : ResultCode :=
  match library.errno world with
  | .EILSEQ => .ICONV_CONVERSION_FAILED
  | .EINVAL => .ICONV_INCOMPLETE_INPUT
  | .E2BIG => .ICONV_WRITEBUFFER_FULL
  | .other _ => .ICONV_RESULT_LAST

def iconv_try_close (process : Process World) : ResultCode × Process World :=
  match process.request with
  | none => (.ICONV_INVALID_REQUEST, process)
  | some request =>
    if request.handle = nullptr then (.ICONV_INVALID_DESCRIPTOR, process)
    else if ¬sanity_check_descriptor request.handle then (.ICONV_INVALID_DESCRIPTOR, process)
    else
      let close := library.iconv_close process.world request.handle
      let process' :=
        { process with world := close.2, log := process.log ++ [.closed request.handle] }
      if close.1 ≠ 0 then (iconv_check_errno library close.2, process')
      else (.ICONV_RESULT_OK, process')

/-- The request with the cursors where `iconv` has left them. -/
def IconvRequest.moved (request : IconvRequest) (cursors : Cursors) : IconvRequest :=
  { request with
    input := { request.input with
      buffer := cursors.input, remaining := cursors.inputRemaining }
    output := { request.output with
      buffer := cursors.output, remaining := cursors.outputRemaining } }

def IconvRequest.cursors (request : IconvRequest) : Cursors where
  input := request.input.buffer
  inputRemaining := request.input.remaining
  output := request.output.buffer
  outputRemaining := request.output.remaining

def iconv_convert (process : Process World) : ResultCode × Process World :=
  match process.request with
  | none => (.ICONV_INVALID_REQUEST, process)
  | some request =>
    if ¬sanity_check_buffer request.input then (.ICONV_INVALID_INPUT, process)
    else if ¬sanity_check_buffer request.output then (.ICONV_INVALID_OUTPUT, process)
    else
      let descriptor :=
        library.iconv_open process.world request.output.charset request.input.charset
      let request := { request with handle := descriptor.1 }
      if ¬sanity_check_descriptor descriptor.1 then
        (iconv_check_errno library descriptor.2,
          { process with world := descriptor.2, request := some request })
      else
        let conversion := library.iconv descriptor.2 request.handle request.cursors
        let process := { process with
          world := conversion.2
          request := some (request.moved conversion.1.2)
          log := process.log ++ [.opened descriptor.1] }
        if conversion.1.1 = ICONV_INVALID_SIZE then
          (iconv_check_errno library conversion.2, process)
        else if ¬sanity_check_descriptor request.handle then
          (iconv_check_errno library conversion.2, process)
        else iconv_try_close library process

/-! ## The Lua side -/

def UTF_MAX_BYTES_PER_CODEPOINT : Nat := 4

/-- The arguments of `iconv.convert`. -/
structure Conversion where
  input : LuaString
  inputEncoding : LuaString
  outputEncoding : LuaString

/-- The buffers are filled and reserved, and the request describes them. -/
def prepare (conversion : Conversion) (process : Process World) : Process World :=
  let size := UInt64.ofNat conversion.input.length
  let read := buffers.put process.world conversion.input
  let maxRequiredWriteBufferSize :=
    max 1 (conversion.input.length * UTF_MAX_BYTES_PER_CODEPOINT)
  let write := buffers.reserve read.2 maxRequiredWriteBufferSize
  { process with
    world := write.2
    request := some
      { input :=
          { charset := cString conversion.inputEncoding, buffer := read.1
            length := size, remaining := size }
        output :=
          { charset := cString conversion.outputEncoding, buffer := write.1.1
            length := write.1.2, remaining := write.1.2 }
        -- `ffi.new` fills the request with zeros.
        handle := (process.request.map IconvRequest.handle).getD nullptr } }

/-- What `iconv.convert` returns: the text, if there is one, and what it says about it. -/
structure Answer where
  output : Option LuaString
  message : LuaString

def convert (conversion : Conversion) (process : Process World) :
    Except LuaString Answer × Process World :=
  let converted := iconv_convert library (prepare buffers conversion process)
  let numBytesWritten := match converted.2.request with
    | none => 0
    | some request => request.output.length - request.output.remaining
  let commit := buffers.commit converted.2.world numBytesWritten
  let process := { converted.2 with world := commit.2 }
  match commit.1 with
  | .error message => (.error message, process)
  | .ok text =>
    if converted.1 ≠ .ICONV_RESULT_OK then
      (.ok { output := none, message := converted.1.errorString }, process)
    else (.ok { output := some text, message := converted.1.errorString }, process)

/-! ## Descriptors -/

/-- The conversions of a program, one after the other. -/
def program : System (Process World) Conversion Empty where
  Initial process := ∃ world, process = { world := world, request := none, log := [] }
  Enabled _ _ := True
  step process conversion := .ok (convert library buffers conversion process).2

def Event.isOpened : Event → Bool
  | opened _ => true
  | closed _ => false

def Event.isClosed : Event → Bool
  | opened _ => false
  | closed _ => true

/-- The descriptors that are open after these events. -/
def openDescriptors (log : List Event) : List Pointer :=
  log.foldl (fun descriptors event => match event with
    | .opened handle => handle :: descriptors
    | .closed handle => descriptors.erase handle) []

/-- A conversion closes as often as it opens, and no descriptor is open after it. -/
structure Settled (before after : Process World) : Prop where
  balanced : (after.log.drop before.log.length).countP Event.isOpened =
    (after.log.drop before.log.length).countP Event.isClosed
  noneOpen : openDescriptors after.log = []

/-- If `iconv_open` succeeds for the request, then `iconv` converts its input. A null
pointer is no descriptor to close, although `iconv_open` may return one. -/
def Completes (process : Process World) : Prop :=
  ∀ request ∈ process.request,
    let descriptor :=
      library.iconv_open process.world request.output.charset request.input.charset
    sanity_check_buffer request.input → sanity_check_buffer request.output →
      sanity_check_descriptor descriptor.1 → descriptor.1 ≠ nullptr ∧
        (library.iconv descriptor.2 descriptor.1 request.cursors).1.1 ≠ ICONV_INVALID_SIZE

variable {library buffers}

theorem iconv_try_close_log {process : Process World} {request : IconvRequest}
    (given : process.request = some request) (valid : sanity_check_descriptor request.handle) :
    (iconv_try_close library process).2.log =
      process.log ++ (if request.handle = nullptr then [] else [.closed request.handle]) := by
  simp only [iconv_try_close, given]
  by_cases null : request.handle = nullptr
  · simp only [if_pos null, List.append_nil]
  · rw [if_neg null, if_neg (not_not.mpr valid), if_neg null]
    split <;> rfl

/-- What a conversion opens it closes, unless it fails in between. -/
theorem iconv_convert_log (process : Process World) :
    (∃ events, (iconv_convert library process).2.log = process.log ++ events ∧
      (events = [] ∨ ∃ handle, events = [.opened handle, .closed handle]) ∧
      Completes library process) ∨
    ∃ handle, (iconv_convert library process).2.log = process.log ++ [.opened handle] ∧
      ¬Completes library process := by
  unfold iconv_convert Completes
  cases given : process.request with
  | none => exact .inl ⟨[], (List.append_nil _).symm, .inl rfl, fun _ member => nomatch member⟩
  | some request =>
    simp only [Option.mem_def, Option.some.injEq, forall_eq']
    by_cases input : sanity_check_buffer request.input
    swap
    · rw [if_pos input]
      exact .inl ⟨[], (List.append_nil _).symm, .inl rfl, fun sane => absurd sane input⟩
    by_cases output : sanity_check_buffer request.output
    swap
    · rw [if_neg (not_not.mpr input), if_pos output]
      exact .inl ⟨[], (List.append_nil _).symm, .inl rfl, fun _ sane => absurd sane output⟩
    rw [if_neg (not_not.mpr input), if_neg (not_not.mpr output)]
    generalize library.iconv_open process.world request.output.charset request.input.charset =
      descriptor
    by_cases valid : sanity_check_descriptor descriptor.1
    swap
    · rw [if_pos valid]
      exact .inl ⟨[], (List.append_nil _).symm, .inl rfl, fun _ _ sane => absurd sane valid⟩
    rw [if_neg (not_not.mpr valid)]
    -- The cursors do not depend on the descriptor.
    have cursors : IconvRequest.cursors { request with handle := descriptor.1 } =
      request.cursors := rfl
    simp only [cursors]
    generalize library.iconv descriptor.2 descriptor.1 request.cursors = conversion
    by_cases failed : conversion.1.1 = ICONV_INVALID_SIZE
    · rw [if_pos failed]
      exact .inr ⟨descriptor.1, rfl, fun completes => (completes input output valid).2 failed⟩
    rw [if_neg failed, if_neg (not_not.mpr valid), iconv_try_close_log rfl valid]
    by_cases null : descriptor.1 = nullptr
    · -- `iconv_try_close` takes it for the handle of a request that has opened nothing.
      refine .inr ⟨descriptor.1, ?_, fun completes => (completes input output valid).1 null⟩
      exact (congrArg _ (if_pos null)).trans (List.append_nil _)
    · refine .inl ⟨[.opened descriptor.1, .closed descriptor.1], ?_, .inr ⟨_, rfl⟩,
        fun _ _ _ => ⟨null, failed⟩⟩
      exact (congrArg _ (if_neg null)).trans (List.append_assoc ..)

/-- Nothing else in `iconv.convert` opens or closes a descriptor. -/
theorem convert_log (conversion : Conversion) (process : Process World) :
    (convert library buffers conversion process).2.log =
      (iconv_convert library (prepare buffers conversion process)).2.log := by
  simp only [convert]
  split
  · rfl
  · split <;> rfl

theorem settled_append {before after : Process World} {events : List Event}
    (noneOpen : openDescriptors before.log = []) (log : after.log = before.log ++ events) :
    Settled before after ↔
      events.countP Event.isOpened = events.countP Event.isClosed ∧
        openDescriptors events = [] := by
  have caused : after.log.drop before.log.length = events := by rw [log, List.drop_left]
  have descriptors : openDescriptors after.log = openDescriptors events := by
    rw [log, openDescriptors, List.foldl_append]
    exact congrArg (fun start => events.foldl _ start) noneOpen
  constructor
  · rintro ⟨balanced, noneLeft⟩
    exact ⟨caused ▸ balanced, descriptors ▸ noneLeft⟩
  · rintro ⟨balanced, noneLeft⟩
    exact ⟨caused.symm ▸ balanced, descriptors.trans noneLeft⟩

/-- A conversion from a state without open descriptors. -/
theorem settled_step (conversion : Conversion) (process : Process World)
    (noneOpen : openDescriptors process.log = []) :
    Settled process (convert library buffers conversion process).2 ↔
      Completes library (prepare buffers conversion process) := by
  have log := @convert_log World library buffers conversion process
  rcases @iconv_convert_log World library (prepare buffers conversion process) with
    ⟨events, appended, shape, completes⟩ | ⟨handle, appended, fails⟩
  · refine iff_of_true ((settled_append noneOpen (log.trans appended)).mpr ?_) completes
    rcases shape with rfl | ⟨handle, rfl⟩
    · exact ⟨rfl, rfl⟩
    · exact ⟨rfl, List.erase_cons_head handle []⟩
  · refine iff_of_false (fun settled => ?_) fails
    -- One descriptor is opened, and none is closed.
    have settled' := (settled_append noneOpen (log.trans appended)).mp settled
    exact absurd settled'.1 Nat.one_ne_zero

/-- No conversion leaves a descriptor behind if and only if every conversion for which a
descriptor is opened goes through. -/
theorem settled_iff (library : IconvLibrary World) (buffers : StringBuffers World)
    (conversions : List Conversion) (process : Process World)
    (noneOpen : openDescriptors process.log = []) :
    (program library buffers).Each (fun before _ after => Settled before after)
        conversions process ↔
      (program library buffers).Each (fun before conversion _ =>
        Completes library (prepare buffers conversion before)) conversions process := by
  have agree : ∀ before conversion after, openDescriptors before.log = [] →
      (program library buffers).Enabled before conversion →
      (program library buffers).step before conversion = .ok after →
      (Settled before after ↔ Completes library (prepare buffers conversion before)) := by
    intro before conversion after held _ stepped
    obtain rfl := Except.ok.inj stepped
    exact settled_step conversion before held
  exact System.each_congr agree (fun _ _ _ _ _ _ settled => settled.noneOpen) conversions noneOpen

/-- A library that knows the encodings and comes upon an invalid sequence. -/
def rejecting : IconvLibrary Errno where
  iconv_open world _ _ := (1, world)
  iconv _ _ cursors := ((ICONV_INVALID_SIZE, cursors), .EILSEQ)
  iconv_close world _ := (0, world)
  errno world := world

def fixedBuffers : StringBuffers Errno where
  put world _ := (0x1000, world)
  reserve world size := ((0x2000, UInt64.ofNat size), world)
  commit world _ := (.ok [], world)

def fresh : Process Errno := { world := .other 0, request := none, log := [] }

def invalidText : Conversion where
  input := [0xFF]
  inputEncoding := ascii "UTF-8"
  outputEncoding := ascii "UTF-16"

/-- The byte `0xFF` is no UTF-8: the descriptor stays open. -/
theorem invalidText_leaks :
    openDescriptors (convert rejecting fixedBuffers invalidText fresh).2.log = [1] ∧
      ¬Settled fresh (convert rejecting fixedBuffers invalidText fresh).2 := by
  have leaked : openDescriptors (convert rejecting fixedBuffers invalidText fresh).2.log = [1] := by
    decide +kernel
  exact ⟨leaked, fun settled => List.cons_ne_nil _ _ (leaked.symm.trans settled.noneOpen)⟩

/-- A library that copies the text, as between encodings that agree on it. -/
def copying : IconvLibrary Errno where
  iconv_open world _ _ := (1, world)
  iconv world _ cursors :=
    ((0, { input := cursors.input + cursors.inputRemaining
           inputRemaining := 0
           output := cursors.output + cursors.inputRemaining
           outputRemaining := cursors.outputRemaining - cursors.inputRemaining }), world)
  iconv_close world _ := (0, world)
  errno world := world

theorem copying_completes (process : Process Errno) : Completes copying process :=
  have valid : (0 : UInt64) ≠ ICONV_INVALID_SIZE := by decide +kernel
  fun _ _ _ _ _ => ⟨(by decide : (1 : Pointer) ≠ nullptr), valid⟩

def agreeingTexts : List Conversion :=
  [⟨ascii "abc", ascii "UTF-8", ascii "ISO-8859-1"⟩, ⟨ascii "xy", ascii "US-ASCII", ascii "UTF-8"⟩]

/-- Both conversions are settled, and nothing is open in the end. -/
theorem settled_iff_agreeingTexts :
    (program copying fixedBuffers).Each (fun before _ after => Settled before after)
        agreeingTexts fresh ∧
      openDescriptors (agreeingTexts.foldl (fun process conversion =>
        (convert copying fixedBuffers conversion process).2) fresh).log = [] := by
  have settled := (settled_iff copying fixedBuffers agreeingTexts fresh rfl).mpr
    fun _ _ _ => ⟨copying_completes _, fun _ _ _ => ⟨copying_completes _, trivial⟩⟩
  obtain ⟨-, later⟩ := settled _ trivial rfl
  refine ⟨settled, ?_⟩
  rw [agreeingTexts, List.foldl_cons, List.foldl_cons, List.foldl_nil]
  exact (later _ trivial rfl).1.noneOpen

end EvoRuntime.Iconv

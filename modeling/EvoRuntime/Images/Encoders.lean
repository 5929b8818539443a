import EvoRuntime.Library.Packing
import EvoRuntime.Lua.Strings

/-!
# Encoding images into a buffer

The writers of stb image pass an encoded image to a callback, chunk by chunk. The callback
`append_to_buffer` drops a chunk that does not fit and forgets about it, so that chunks
behind it may still be stored. The writers themselves are parameters.

## Main result

`sound_iff`: an encoder returns the size of the whole image or zero if and only if the
image fits, or none of its chunks does.

## Proof strategy

`encode_packed`: the buffer holds the chunks that are packed, first come, first served.
-/
namespace EvoRuntime.Images

open Lua Library

/-- A call of the callback: its size is an `int`. -/
structure Chunk where
  bytes : LuaString
  size_lt : bytes.length < 2 ^ 31

structure Image where
  width : Int
  height : Int
  channels : Int
  data : Option LuaString

/-- Memory for at least `buffer_size` bytes. No object has `2 ^ 63` bytes or more. -/
structure OutputBuffer where
  data : LuaString
  buffer_size : Nat
  room : buffer_size ≤ data.length
  size_lt : buffer_size < 2 ^ 63

/-- `luajit_stringbuffer_t`. -/
structure StringBuffer where
  data : LuaString
  capacity : Nat
  num_bytes_used : Nat

def memcpy (data : LuaString) (offset : Nat) (chunk : LuaString) : LuaString :=
  data.take offset ++ chunk ++ data.drop (offset + chunk.length)

/-- The sum of sizes is a `size_t`. -/
def append_to_buffer (result : StringBuffer) (chunk : Chunk) : StringBuffer :=
  let num_bytes_used := (result.num_bytes_used + chunk.bytes.length) % 2 ^ 64
  if num_bytes_used ≤ result.capacity then
    { result with
      data := memcpy result.data result.num_bytes_used chunk.bytes
      num_bytes_used := num_bytes_used }
  else result

/-- What a writer does: it passes chunks to the callback and returns whether it succeeded. -/
structure Written where
  success : Bool
  chunks : List Chunk

/-- The library's writer for an image of a width, a height and a number of channels. -/
abbrev Writer := (width height channels : Int) → LuaString → Written

structure Writers where
  stbi_write_bmp_to_func : Writer
  stbi_write_png_to_func : (stride : Int) → Writer
  stbi_write_jpg_to_func : (quality : Int) → Writer
  stbi_write_tga_to_func : Writer

/-! ## The encoders -/

/-- What is returned, and the memory of the buffer after the call. -/
structure Encoded where
  numBytesWritten : Nat
  data : Option LuaString

/-- The body that the encoders share. They do not look at the writer's success. -/
def encode (write : Writer) (image : Option Image) (buffer : Option OutputBuffer) : Encoded :=
  match buffer, image with
  | none, _ => { numBytesWritten := 0, data := none }
  | some buffer, none => { numBytesWritten := 0, data := some buffer.data }
  | some buffer, some image =>
    match image.data with
    | none => { numBytesWritten := 0, data := some buffer.data }
    | some data =>
      let written := write image.width image.height image.channels data
      let result := written.chunks.foldl append_to_buffer
        { data := buffer.data, capacity := buffer.buffer_size, num_bytes_used := 0 }
      { numBytesWritten := result.num_bytes_used, data := some result.data }

variable (writers : Writers)

def stbi_encode_bmp : Option Image → Option OutputBuffer → Encoded :=
  encode writers.stbi_write_bmp_to_func

def stbi_encode_png (stride : Int) : Option Image → Option OutputBuffer → Encoded :=
  encode (writers.stbi_write_png_to_func stride)

def stbi_encode_jpg (quality : Int) : Option Image → Option OutputBuffer → Encoded :=
  encode (writers.stbi_write_jpg_to_func (if quality < 0 ∨ quality > 100 then 100 else quality))

def stbi_encode_tga : Option Image → Option OutputBuffer → Encoded :=
  encode writers.stbi_write_tga_to_func

inductive Format
  | bmp
  | png (stride : Int)
  | jpg (quality : Int)
  | tga

def Format.encoder : Format → Option Image → Option OutputBuffer → Encoded
  | bmp => stbi_encode_bmp writers
  | png stride => stbi_encode_png writers stride
  | jpg quality => stbi_encode_jpg writers quality
  | tga => stbi_encode_tga writers

/-- The writer that the encoder of a format calls. -/
def Format.writer : Format → Writer
  | bmp => writers.stbi_write_bmp_to_func
  | png stride => writers.stbi_write_png_to_func stride
  | jpg quality =>
    writers.stbi_write_jpg_to_func (if quality < 0 ∨ quality > 100 then 100 else quality)
  | tga => writers.stbi_write_tga_to_func

variable {writers}

theorem Format.encoder_eq (format : Format) :
    format.encoder writers = encode (format.writer writers) := by
  cases format <;> rfl

/-! ## What the buffer holds -/

def Chunk.size (chunk : Chunk) : Nat := chunk.bytes.length

/-- The bytes of chunks, one after the other. -/
def concatenated (chunks : List Chunk) : LuaString := chunks.flatMap Chunk.bytes

theorem length_concatenated (chunks : List Chunk) :
    (concatenated chunks).length = totalSize Chunk.size chunks := List.length_flatMap

/-- The chunks of an image that is there and has pixels. -/
def chunksOf (write : Writer) (image : Option Image) : List Chunk :=
  match image with
  | none => []
  | some image => match image.data with
    | none => []
    | some data => (write image.width image.height image.channels data).chunks

/-- The bytes that are used are some chunks, and the others are what they were. -/
structure Holds (original : LuaString) (stored : LuaString) (result : StringBuffer) : Prop where
  data : result.data = stored ++ original.drop stored.length
  used : result.num_bytes_used = stored.length
  fits : stored.length ≤ result.capacity
  room : result.capacity ≤ original.length

theorem append_to_buffer_holds {original stored : LuaString} {result : StringBuffer}
    (holds : Holds original stored result) (bound : result.capacity < 2 ^ 63) (chunk : Chunk) :
    (append_to_buffer result chunk).capacity = result.capacity ∧
      Holds original (if stored.length + chunk.size ≤ result.capacity then stored ++ chunk.bytes
        else stored) (append_to_buffer result chunk) := by
  have fits := holds.fits
  have size_lt := chunk.size_lt
  -- The sum of two sizes of objects is not too large for `size_t`.
  have sum : (result.num_bytes_used + chunk.bytes.length) % 2 ^ 64 =
      stored.length + chunk.size := by
    rw [holds.used, Chunk.size]
    exact Nat.mod_eq_of_lt (by omega)
  rw [append_to_buffer]
  simp only [sum]
  split
  next enough =>
    have place : memcpy result.data result.num_bytes_used chunk.bytes =
        (stored ++ chunk.bytes) ++ original.drop (stored ++ chunk.bytes).length := by
      rw [memcpy, holds.used, holds.data, List.take_left, List.drop_append, List.length_append,
        List.drop_of_length_le (Nat.le_add_right ..), Nat.add_sub_cancel_left, List.nil_append,
        List.drop_drop]
    refine ⟨rfl, place, ?_, ?_, holds.room⟩
    · exact List.length_append.symm
    · rw [List.length_append]
      exact enough
  next => exact ⟨rfl, holds⟩

theorem foldl_holds {original stored : LuaString} {result : StringBuffer}
    (holds : Holds original stored result) (bound : result.capacity < 2 ^ 63)
    (chunks : List Chunk) :
    Holds original
      (stored ++ concatenated (packed Chunk.size result.capacity stored.length chunks))
      (chunks.foldl append_to_buffer result) := by
  induction chunks generalizing result stored with
  | nil => exact (List.append_nil stored).symm ▸ holds
  | cons chunk chunks ih =>
    obtain ⟨same, holds'⟩ := append_to_buffer_holds holds bound chunk
    have rest := ih holds' (same ▸ bound)
    rw [same] at rest
    rw [List.foldl_cons, packed]
    split at rest
    next enough =>
      rw [if_pos enough]
      rw [List.length_append, List.append_assoc] at rest
      exact rest
    next full => rwa [if_neg full]

/-- The chunks that an encoder stores. -/
def stored (write : Writer) (image : Option Image) (buffer : OutputBuffer) : LuaString :=
  concatenated (packed Chunk.size buffer.buffer_size 0 (chunksOf write image))

theorem encode_packed (write : Writer) (image : Option Image) (buffer : OutputBuffer) :
    encode write image (some buffer) =
      { numBytesWritten := (stored write image buffer).length
        data := some (stored write image buffer ++
          buffer.data.drop (stored write image buffer).length) } := by
  cases image with
  | none => rfl
  | some image =>
    have chunks : chunksOf write (some image) = match image.data with
      | none => []
      | some data => (write image.width image.height image.channels data).chunks := rfl
    cases pixels : image.data with
    | none => simp [encode, stored, chunks, pixels, packed, concatenated]
    | some data =>
      have start : Holds buffer.data []
          { data := buffer.data, capacity := buffer.buffer_size, num_bytes_used := 0 } :=
        ⟨rfl, rfl, Nat.zero_le _, buffer.room⟩
      have final := foldl_holds start buffer.size_lt
        (write image.width image.height image.channels data).chunks
      rw [pixels] at chunks
      simp only [encode, pixels, stored, chunks]
      exact congrArg₂ Encoded.mk final.used (congrArg some final.data)

theorem stored_fits (write : Writer) (image : Option Image) (buffer : OutputBuffer) :
    (stored write image buffer).length ≤ buffer.buffer_size := by
  have fits : 0 + totalSize Chunk.size (packed Chunk.size buffer.buffer_size 0
      (chunksOf write image)) ≤ buffer.buffer_size := packed_fits (Nat.zero_le _)
  rwa [Nat.zero_add, ← length_concatenated] at fits

/-- An encoder writes no more than the capacity, and it returns either the size of the
chunks, which are then at the start of the buffer, or zero. -/
structure Sound (chunks : List Chunk) (buffer : OutputBuffer) (encoded : Encoded) : Prop where
  fits : encoded.numBytesWritten ≤ buffer.buffer_size
  beyond : encoded.data.map (List.drop buffer.buffer_size) =
    some (buffer.data.drop buffer.buffer_size)
  complete : encoded.numBytesWritten = totalSize Chunk.size chunks ∧
      encoded.data.map (List.take encoded.numBytesWritten) = some (concatenated chunks) ∨
    encoded.numBytesWritten = 0

/-- An encoder is sound if and only if the whole image fits, or not even one of its chunks
does. In between it returns the size of a part. -/
theorem sound_iff (writers : Writers) (format : Format) (image : Option Image)
    (buffer : OutputBuffer) :
    Sound (chunksOf (format.writer writers) image) buffer
        (format.encoder writers image (some buffer)) ↔
      totalSize Chunk.size (chunksOf (format.writer writers) image) ≤ buffer.buffer_size ∨
        ∀ chunk ∈ chunksOf (format.writer writers) image,
          chunk.size = 0 ∨ buffer.buffer_size < chunk.size := by
  rw [format.encoder_eq, encode_packed]
  generalize format.writer writers = write
  have fits := stored_fits write image buffer
  have size := length_concatenated
    (packed Chunk.size buffer.buffer_size 0 (chunksOf write image))
  have empty : totalSize Chunk.size (packed Chunk.size buffer.buffer_size 0
      (chunksOf write image)) = 0 ↔
      ∀ chunk ∈ chunksOf write image, chunk.size = 0 ∨ buffer.buffer_size < 0 + chunk.size :=
    packed_empty_iff
  simp only [Nat.zero_add] at empty
  rw [← empty, ← size]
  constructor
  · rintro ⟨_, _, ⟨total, _⟩ | nothing⟩
    · exact .inl (total ▸ fits)
    · exact .inr nothing
  · intro condition
    refine ⟨fits, ?_, ?_⟩
    · have before : ((stored write image buffer).drop buffer.buffer_size) = [] :=
        List.drop_of_length_le fits
      simp only [Option.map_some, List.drop_append, before, List.nil_append, List.drop_drop]
      congr 2
      omega
    · rcases condition with room | nothing
      · have same : stored write image buffer = concatenated (chunksOf write image) := by
          rw [stored, packed_all ((Nat.zero_add _).trans_le room)]
        refine .inl ⟨?_, ?_⟩
        · rw [same, length_concatenated]
        · simp only [Option.map_some, List.take_left, same]
      · exact .inr nothing

/-- A field of a header, little endian. -/
def field (size value : Nat) : Chunk where
  bytes := ((List.range size).map fun i => UInt8.ofNat (value / 256 ^ i)).take 4
  size_lt := Nat.lt_of_le_of_lt (List.length_take_le ..) (by decide)

/-- The chunks of a bitmap of one pixel, each field of its header by itself. -/
def bitmapChunks : List Chunk :=
  [field 1 0x42, field 1 0x4D, field 4 126, field 2 0, field 2 0, field 4 122, field 4 108,
    field 4 1, field 4 1, field 2 1, field 2 32, field 4 3] ++ List.replicate 5 (field 4 0) ++
    [field 4 0xFF0000, field 4 0xFF00, field 4 0xFF, field 4 0xFF000000] ++
    List.replicate 13 (field 4 0) ++ [field 4 0xFF332211, field 0 0]

def onePixel : Image where
  width := 1
  height := 1
  channels := 4
  data := some [0x33, 0x22, 0x11, 0xFF]

def bitmapWriters : Writers where
  stbi_write_bmp_to_func _ _ _ _ := { success := true, chunks := bitmapChunks }
  stbi_write_png_to_func _ _ _ _ _ := { success := false, chunks := [] }
  stbi_write_jpg_to_func _ _ _ _ _ := { success := false, chunks := [] }
  stbi_write_tga_to_func _ _ _ _ := { success := false, chunks := [] }

def threeBytes : OutputBuffer where
  data := [0, 0, 0]
  buffer_size := 3
  room := Nat.le_refl 3
  size_lt := by decide

/-- Of the 126 bytes of the bitmap only the two that name its format are stored. -/
theorem bitmap_truncated :
    (stbi_encode_bmp bitmapWriters (some onePixel) (some threeBytes)).numBytesWritten = 2 ∧
      ¬Sound (chunksOf bitmapWriters.stbi_write_bmp_to_func (some onePixel)) threeBytes
        (stbi_encode_bmp bitmapWriters (some onePixel) (some threeBytes)) := by
  have written :
      (stbi_encode_bmp bitmapWriters (some onePixel) (some threeBytes)).numBytesWritten = 2 := by
    decide +kernel
  have total : totalSize Chunk.size
      (chunksOf bitmapWriters.stbi_write_bmp_to_func (some onePixel)) = 126 := by
    decide +kernel
  refine ⟨written, fun sound => ?_⟩
  rcases sound.complete with ⟨complete, _⟩ | nothing
  · rw [written, total] at complete
    exact absurd complete (by decide)
  · rw [written] at nothing
    exact absurd nothing (by decide)

/-! ## The callers -/

/-- The sizes of the chunks are added up in a `size_t`. -/
def count_bytes (byte_counter : Nat) (chunk : Chunk) : Nat := (byte_counter + chunk.size) % 2 ^ 64

/-- The body that the functions for the required sizes share. -/
def requiredSize (write : Writer) (image : Option Image) : Nat :=
  match image with
  | none => 0
  | some image => match image.data with
    | none => 0
    | some data =>
      let written := write image.width image.height image.channels data
      if ¬written.success then 0 else written.chunks.foldl count_bytes 0

variable (writers)

def stbi_get_required_bmp_size : Option Image → Nat := requiredSize writers.stbi_write_bmp_to_func

def stbi_get_required_png_size (stride : Int) : Option Image → Nat :=
  requiredSize (writers.stbi_write_png_to_func stride)

/-- The quality is not limited here, unlike in the encoder. -/
def stbi_get_required_jpg_size (quality : Int) : Option Image → Nat :=
  requiredSize (writers.stbi_write_jpg_to_func quality)

def stbi_get_required_tga_size : Option Image → Nat := requiredSize writers.stbi_write_tga_to_func

/-- The body that the functions of `C_ImageProcessing` share. Their output buffer reserves
at least as many bytes as it is asked for. -/
def encodeImage (required : Option Image → Nat)
    (encoder : Option Image → Option OutputBuffer → Encoded) (failure : LuaString)
    (reserve : Nat → OutputBuffer) (rgbaPixelArray : LuaString)
    (imageWidthInPixels imageHeightInPixels : Int) : Except LuaString LuaString :=
  let image : Image :=
    { width := imageWidthInPixels, height := imageHeightInPixels, channels := 4
      data := some rgbaPixelArray }
  let encoded := encoder (some image) (some (reserve (required (some image))))
  if encoded.numBytesWritten > 0 then
    .ok ((encoded.data.getD []).take encoded.numBytesWritten)
  else .error failure

def EncodeBMP : (reserve : Nat → OutputBuffer) → LuaString → Int → Int → Except LuaString LuaString :=
  encodeImage (stbi_get_required_bmp_size writers) (stbi_encode_bmp writers)
    (ascii "Failed to encode BMP image (preallocated buffer too small?)")

def EncodePNG : (reserve : Nat → OutputBuffer) → LuaString → Int → Int → Except LuaString LuaString :=
  encodeImage (stbi_get_required_png_size writers 0) (stbi_encode_png writers 0)
    (ascii "Failed to encode PNG image (preallocated buffer too small?)")

def EncodeJPG : (reserve : Nat → OutputBuffer) → LuaString → Int → Int → Except LuaString LuaString :=
  encodeImage (stbi_get_required_jpg_size writers 100) (stbi_encode_jpg writers 100)
    (ascii "Failed to encode JPG image (preallocated buffer too small?)")

def EncodeTGA : (reserve : Nat → OutputBuffer) → LuaString → Int → Int → Except LuaString LuaString :=
  encodeImage (stbi_get_required_tga_size writers) (stbi_encode_tga writers)
    (ascii "Failed to encode TGA image (preallocated buffer too small?)")

variable {writers}

theorem foldl_count_bytes (chunks : List Chunk) {counted : Nat}
    (fits : counted + totalSize Chunk.size chunks < 2 ^ 64) :
    chunks.foldl count_bytes counted = counted + totalSize Chunk.size chunks := by
  induction chunks generalizing counted with
  | nil => rfl
  | cons chunk chunks ih =>
    rw [totalSize_cons] at fits ⊢
    have next : count_bytes counted chunk = counted + chunk.size :=
      Nat.mod_eq_of_lt (by omega)
    rw [List.foldl_cons, next, ih (by omega), Nat.add_assoc]

/-- The callers get the whole image or an error, since they ask for its size first. -/
theorem encodeImage_complete {write : Writer} {failure : LuaString} {reserve : Nat → OutputBuffer}
    (enough : ∀ size < 2 ^ 64, size ≤ (reserve size).buffer_size)
    (rgbaPixelArray : LuaString) (width height : Int) {encoded : LuaString}
    (successful : (write width height 4 rgbaPixelArray).success)
    (bounded : totalSize Chunk.size (write width height 4 rgbaPixelArray).chunks < 2 ^ 64)
    (returned : encodeImage (requiredSize write) (encode write) failure reserve rgbaPixelArray
      width height = .ok encoded) :
    encoded = concatenated (write width height 4 rgbaPixelArray).chunks := by
  have required : requiredSize write (some ⟨width, height, 4, some rgbaPixelArray⟩) =
      totalSize Chunk.size (write width height 4 rgbaPixelArray).chunks := by
    have counted := foldl_count_bytes (write width height 4 rgbaPixelArray).chunks
      ((Nat.zero_add _).trans_lt bounded)
    rw [Nat.zero_add] at counted
    simp only [requiredSize, successful, not_true_eq_false, if_false, counted]
  simp only [encodeImage, required, encode_packed] at returned
  have whole : stored write (some ⟨width, height, 4, some rgbaPixelArray⟩)
      (reserve (totalSize Chunk.size (write width height 4 rgbaPixelArray).chunks)) =
      concatenated (write width height 4 rgbaPixelArray).chunks := by
    rw [stored, packed_all]
    · rfl
    · exact (Nat.zero_add _).trans_le (enough _ bounded)
  split at returned
  · rw [whole, Option.getD_some, List.take_left] at returned
    exact (Except.ok.inj returned).symm
  · cases returned

end EvoRuntime.Images

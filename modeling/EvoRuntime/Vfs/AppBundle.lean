import EvoRuntime.Lua.Numbers
import EvoRuntime.Lua.Strings

/-!
# Self-contained executables

`evo.buildZipApp` appends an archive and a signature to the runtime, and `vfs.decode`
takes them apart again. The signature has 24 bytes: six magic bytes, two bytes for the
version and two little-endian sizes. The reader of the archive is a parameter.
-/
namespace EvoRuntime.Vfs

open Lua

def LUAZIP_MAGIC_VALUE : LuaString := ascii "LUAZIP"

/-- `lua_zip_signature_t`. -/
structure LuaZipSignature where
  magicValue : LuaString
  versionMajor : UInt8
  versionMinor : UInt8
  executableSize : UInt64
  archiveSize : UInt64
  deriving DecidableEq

def signatureSize : Nat := 24

/-- The bytes of a number below `256 ^ count`, the last significant one first. -/
def littleEndian : (count n : Nat) → LuaString
  | 0, _ => []
  | count + 1, n => UInt8.ofNat (n % 256) :: littleEndian count (n / 256)

def fromLittleEndian : LuaString → Nat
  | [] => 0
  | c :: rest => c.toNat + 256 * fromLittleEndian rest

/-- `ffi.string(signature, ffi.sizeof(signature))`. -/
def LuaZipSignature.bytes (signature : LuaZipSignature) : LuaString :=
  signature.magicValue ++ [signature.versionMajor, signature.versionMinor] ++
    littleEndian 8 signature.executableSize.toNat ++ littleEndian 8 signature.archiveSize.toNat

/-- `ffi_cast("lua_zip_signature_t*", bytes)`. -/
def castSignature (bytes : LuaString) : LuaZipSignature where
  magicValue := bytes.take 6
  versionMajor := bytes.getD 6 0
  versionMinor := bytes.getD 7 0
  executableSize := UInt64.ofNat (fromLittleEndian ((bytes.drop 8).take 8))
  archiveSize := UInt64.ofNat (fromLittleEndian ((bytes.drop 16).take 8))

/-- What `evo.buildZipApp` writes. -/
def standaloneExecutable (runtimeFileContents zipFileContents : LuaString) : LuaString :=
  let signature : LuaZipSignature :=
    { magicValue := LUAZIP_MAGIC_VALUE
      versionMajor := 1
      versionMinor := 0
      executableSize := UInt64.ofNat runtimeFileContents.length
      archiveSize := UInt64.ofNat zipFileContents.length }
  runtimeFileContents ++ zipFileContents ++ signature.bytes

/-- The signature as Lua sees it, with numbers. -/
structure Signature where
  magicValue : LuaString
  versionMajor : Nat
  versionMinor : Nat
  executableSize : Nat
  archiveSize : Nat
  deriving DecidableEq

structure ZipApp (Reader : Type) where
  signature : Signature
  executable : LuaString
  archive : LuaString
  reader : Option Reader

/-- `newReaderMemory` is `miniz.new_reader_memory`, which returns `nil` for an archive
that it cannot open. -/
def decode {Reader : Type} (arguments : IntegerArguments)
    (newReaderMemory : LuaString → Option Reader) (fileContents : LuaString) :
    Except LuaString (ZipApp Reader) :=
  if fileContents.length < signatureSize then
    .error (ascii "Failed to decode LUAZIP buffer (input size is too small)")
  else
    let trailingBytes := sub fileContents (-signatureSize)
    let assumedSignature := castSignature trailingBytes
    let assumedHeader := assumedSignature.magicValue
    if assumedHeader ≠ LUAZIP_MAGIC_VALUE then
      .error (ascii "Failed to decode LUAZIP buffer (magic value is missing)")
    else
      let signature : Signature :=
        { magicValue := assumedHeader
          versionMajor := assumedSignature.versionMajor.toNat
          versionMinor := assumedSignature.versionMinor.toNat
          executableSize := roundToDouble assumedSignature.executableSize.toNat
          archiveSize := roundToDouble assumedSignature.archiveSize.toNat }
      -- offsets of Lua strings start at one
      let executableStartOffset := 1
      let executableEndOffset := signature.executableSize
      let executable := sub fileContents (arguments.toInt executableStartOffset)
        (arguments.toInt executableEndOffset)
      let archiveStartOffset := roundToDouble (signature.executableSize + 1)
      let archiveEndOffset :=
        roundToDouble (roundToDouble (archiveStartOffset + signature.archiveSize) - 1)
      let archive := sub fileContents (arguments.toInt archiveStartOffset)
        (arguments.toInt archiveEndOffset)
      .ok { signature, executable, archive, reader := newReaderMemory archive }

/-! ### The signature -/

theorem length_littleEndian (count n : Nat) : (littleEndian count n).length = count := by
  induction count generalizing n with
  | zero => rfl
  | succ count ih => simp [littleEndian, ih]

theorem fromLittleEndian_littleEndian (count n : Nat) :
    fromLittleEndian (littleEndian count n) = n % 256 ^ count := by
  induction count generalizing n with
  | zero => simp [littleEndian, fromLittleEndian, Nat.mod_one]
  | succ count ih =>
    have byte : (UInt8.ofNat (n % 256)).toNat = n % 256 :=
      UInt8.toNat_ofNat_of_lt' (Nat.mod_lt _ (by decide))
    rw [littleEndian, fromLittleEndian, ih, byte, Nat.pow_succ, Nat.mul_comm (256 ^ count), Nat.mod_mul]

theorem size_littleEndian (size : UInt64) :
    UInt64.ofNat (fromLittleEndian (littleEndian 8 size.toNat)) = size := by
  rw [fromLittleEndian_littleEndian, Nat.mod_eq_of_lt (Nat.lt_of_lt_of_eq size.toNat_lt (by decide)),
    UInt64.ofNat_toNat]

theorem length_bytes (signature : LuaZipSignature) (magic : signature.magicValue.length = 6) :
    signature.bytes.length = signatureSize := by
  simp [LuaZipSignature.bytes, length_littleEndian, magic, signatureSize]

/-- A signature is read as it was written. -/
theorem castSignature_bytes (signature : LuaZipSignature) (magic : signature.magicValue.length = 6) :
    castSignature signature.bytes = signature := by
  obtain ⟨magicValue, versionMajor, versionMinor, executableSize, archiveSize⟩ := signature
  simp only at magic
  have executable := size_littleEndian executableSize
  have archive := size_littleEndian archiveSize
  -- The fields stand at the offsets 0, 6, 7, 8 and 16.
  have header : (magicValue ++ [versionMajor, versionMinor]).length = 8 := by simp [magic]
  have sizes : (magicValue ++ [versionMajor, versionMinor] ++
      littleEndian 8 executableSize.toNat).length = 16 := by
    rw [List.length_append, header, length_littleEndian]
  simp only [LuaZipSignature.bytes, castSignature, LuaZipSignature.mk.injEq]
  refine ⟨?_, ?_, ?_, ?_, ?_⟩
  · rw [List.append_assoc, List.append_assoc, List.take_left' magic]
  · simp [magic]
  · simp [List.getElem?_append_right, magic]
  · rw [List.append_assoc _ (littleEndian 8 _), List.drop_left' header,
      List.take_left' (length_littleEndian 8 _), executable]
  · rw [List.drop_left' sizes, List.take_of_length_le (Nat.le_of_eq (length_littleEndian 8 _)),
      archive]

/-! ### The round trip -/

theorem size_toNumber {n : Nat} (short : n < 2 ^ 31) :
    roundToDouble (UInt64.ofNat n).toNat = n := by
  rw [UInt64.toNat_ofNat_of_lt' (Nat.lt_trans short (by decide)),
    roundToDouble_eq (Nat.lt_trans short (by decide))]

/-- The last offset of the archive, computed with numbers that are exact. -/
theorem archiveEndOffset_eq {start size : Nat} (short : start + size + 1 < 2 ^ 31) :
    roundToDouble (roundToDouble (start + 1 + size) - 1) = start + size := by
  rw [roundToDouble_eq (n := start + 1 + size) (by omega), roundToDouble_eq (by omega)]
  omega

/-- A slice with 32-bit indices. -/
theorem sub_arguments (arguments : IntegerArguments) (before part after : LuaString)
    (short : before.length + part.length + 1 < 2 ^ 31) :
    sub (before ++ part ++ after) (arguments.toInt (before.length + 1 : Nat))
      (arguments.toInt (before.length + part.length : Nat)) = part := by
  rw [arguments.toInt_eq _ (by omega) (by omega), arguments.toInt_eq _ (by omega) (by omega)]
  have range := sub_range (before ++ part ++ after) before.length (before.length + part.length)
  rw [List.take_left' (List.length_append ..), List.drop_left] at range
  exact range

/-- Taking apart what `evo.buildZipApp` writes gives back both parts and their sizes. -/
theorem decode_standaloneExecutable {Reader : Type} (arguments : IntegerArguments)
    (newReaderMemory : LuaString → Option Reader) (exe zip : LuaString)
    (short : (standaloneExecutable exe zip).length < maxStringLength) :
    ∃ app, decode arguments newReaderMemory (standaloneExecutable exe zip) = .ok app ∧
      app.executable = exe ∧ app.archive = zip ∧
      app.signature = ⟨LUAZIP_MAGIC_VALUE, 1, 0, exe.length, zip.length⟩ := by
  let signature : LuaZipSignature :=
    ⟨LUAZIP_MAGIC_VALUE, 1, 0, UInt64.ofNat exe.length, UInt64.ofNat zip.length⟩
  have shape : standaloneExecutable exe zip = exe ++ zip ++ signature.bytes := rfl
  have magic : signature.magicValue.length = 6 := rfl
  have total : (exe ++ zip ++ signature.bytes).length = exe.length + zip.length + signatureSize := by
    rw [List.length_append, List.length_append, length_bytes signature magic]
  have size : signatureSize = 24 := rfl
  rw [shape, total, maxStringLength, size] at short
  -- The last 24 bytes are the signature, whatever stands before it.
  have last : sub (exe ++ zip ++ signature.bytes) (-signatureSize) = signature.bytes := by
    rw [sub_suffix _ signatureSize (by decide) (by omega), total, Nat.add_sub_cancel]
    exact List.drop_left' (List.length_append ..)
  have executable := sub_arguments arguments [] exe (zip ++ signature.bytes) (by simp; omega)
  have archive := sub_arguments arguments exe zip signature.bytes (by omega)
  rw [shape]
  unfold decode
  rw [if_neg (by omega)]
  simp only [last, castSignature_bytes signature magic]
  rw [if_neg (by simp [signature])]
  refine ⟨_, rfl, ?_, ?_, ?_⟩
  · simp only [signature, size_toNumber (show exe.length < 2 ^ 31 by omega)]
    simpa using executable
  · simp only [signature, size_toNumber (show exe.length < 2 ^ 31 by omega),
      size_toNumber (show zip.length < 2 ^ 31 by omega),
      archiveEndOffset_eq (show exe.length + zip.length + 1 < 2 ^ 31 by omega),
      roundToDouble_eq (show exe.length + 1 < 2 ^ 53 by omega)]
    exact archive
  · simp only [signature, size_toNumber (show exe.length < 2 ^ 31 by omega),
      size_toNumber (show zip.length < 2 ^ 31 by omega)]
    rfl

/-- An executable that contains the magic bytes, and an empty archive. -/
theorem decode_standaloneExecutable_magic :
    ∃ app, decode ⟨id, fun _ _ _ => rfl⟩ (fun archive => some archive)
        (standaloneExecutable (ascii "LUAZIP") []) = .ok app ∧
      app.executable = ascii "LUAZIP" ∧ app.archive = [] ∧
      app.signature = ⟨LUAZIP_MAGIC_VALUE, 1, 0, 6, 0⟩ :=
  decode_standaloneExecutable _ _ (ascii "LUAZIP") [] (by decide)

end EvoRuntime.Vfs

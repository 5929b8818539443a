import EvoRuntime.Vfs.AppBundle

/-!
# Decoding arbitrary files

`decode` checks that a file is long enough and that the magic bytes are there. It checks
neither the sizes of the signature nor the reader, so the app that it returns need not
be made of the parts of the file. `decode_sound_iff` says for which files it is.
-/
namespace EvoRuntime.Vfs

open Lua

variable {Reader : Type}

/-- The signature that `decode` reads from the end of a file. -/
def trailingSignature (fileContents : LuaString) : LuaZipSignature :=
  castSignature (fileContents.drop (fileContents.length - signatureSize))

/-- The app is made of the file: its parts and the signature make up the file, their
lengths are the sizes of the signature, and the archive can be read. -/
structure IsMadeOf (app : ZipApp Reader) (fileContents : LuaString) : Prop where
  parts : app.executable ++ app.archive ++
    fileContents.drop (fileContents.length - signatureSize) = fileContents
  executableSize : app.signature.executableSize = app.executable.length
  archiveSize : app.signature.archiveSize = app.archive.length
  reader : app.reader.isSome

/-- The sizes of the signature fill the file, and what they say is the archive is one. -/
def HasParts (newReaderMemory : LuaString → Option Reader) (fileContents : LuaString) : Prop :=
  let executableSize := (trailingSignature fileContents).executableSize.toNat
  let archiveSize := (trailingSignature fileContents).archiveSize.toNat
  executableSize + archiveSize + signatureSize = fileContents.length ∧
    (newReaderMemory ((fileContents.drop executableSize).take archiveSize)).isSome

/-- A file with the magic bytes in place is always decoded. -/
theorem decode_signed (arguments : IntegerArguments) (newReaderMemory : LuaString → Option Reader)
    (fileContents : LuaString) (long : signatureSize ≤ fileContents.length)
    (magic : (trailingSignature fileContents).magicValue = LUAZIP_MAGIC_VALUE) :
    ∃ app, decode arguments newReaderMemory fileContents = .ok app ∧
      app.signature.executableSize =
        roundToDouble (trailingSignature fileContents).executableSize.toNat ∧
      app.signature.archiveSize =
        roundToDouble (trailingSignature fileContents).archiveSize.toNat ∧
      app.executable = sub fileContents (arguments.toInt 1)
        (arguments.toInt app.signature.executableSize) ∧
      app.archive = sub fileContents
        (arguments.toInt (roundToDouble (app.signature.executableSize + 1)))
        (arguments.toInt (roundToDouble (roundToDouble
          (roundToDouble (app.signature.executableSize + 1) + app.signature.archiveSize) - 1))) ∧
      app.reader = newReaderMemory app.archive := by
  have trailing : castSignature (sub fileContents (-signatureSize)) =
      trailingSignature fileContents := by
    rw [sub_suffix fileContents signatureSize (by decide) long, trailingSignature]
  unfold decode
  rw [if_neg (Nat.not_lt.mpr long)]
  simp only [trailing]
  rw [if_neg (not_not.mpr magic)]
  exact ⟨_, rfl, rfl, rfl, rfl, rfl, rfl⟩

theorem decode_unsigned (arguments : IntegerArguments) (newReaderMemory : LuaString → Option Reader)
    {fileContents : LuaString} (long : signatureSize ≤ fileContents.length)
    (missing : (trailingSignature fileContents).magicValue ≠ LUAZIP_MAGIC_VALUE) :
    decode arguments newReaderMemory fileContents =
      .error (ascii "Failed to decode LUAZIP buffer (magic value is missing)") := by
  rw [trailingSignature, ← sub_suffix fileContents signatureSize (by decide) long] at missing
  rw [decode, if_neg (Nat.not_lt.mpr long)]
  exact if_pos missing

/-- Sizes that fill the file are exact, and both parts are cut out where they stand. -/
theorem parts_of_sizes (arguments : IntegerArguments) {fileContents : LuaString}
    (short : fileContents.length < maxStringLength) {executableSize archiveSize : Nat}
    (fill : executableSize + archiveSize + signatureSize = fileContents.length) :
    sub fileContents (arguments.toInt 1) (arguments.toInt (executableSize : Nat)) =
        fileContents.take executableSize ∧
      sub fileContents (arguments.toInt (executableSize + 1 : Nat))
        (arguments.toInt (executableSize + archiveSize : Nat)) =
        (fileContents.drop executableSize).take archiveSize := by
  have size : signatureSize = 24 := rfl
  rw [maxStringLength] at short
  have before : (fileContents.take executableSize).length = executableSize := by
    rw [List.length_take]
    omega
  have between : ((fileContents.drop executableSize).take archiveSize).length = archiveSize := by
    rw [List.length_take, List.length_drop]
    omega
  have whole : fileContents = fileContents.take executableSize ++
      (fileContents.drop executableSize).take archiveSize ++
      (fileContents.drop executableSize).drop archiveSize := by
    rw [List.append_assoc, List.take_append_drop, List.take_append_drop]
  have executable := sub_arguments arguments [] (fileContents.take executableSize)
    (fileContents.drop executableSize) (by rw [before, List.length_nil]; omega)
  have archive := sub_arguments arguments (fileContents.take executableSize)
    ((fileContents.drop executableSize).take archiveSize)
    ((fileContents.drop executableSize).drop archiveSize) (by rw [before, between]; omega)
  rw [List.nil_append, List.take_append_drop, before, List.length_nil, Nat.zero_add,
    Nat.zero_add] at executable
  rw [← whole, before, between] at archive
  exact ⟨executable, archive⟩

/-- The app of a signed file is made of it exactly if the sizes of the signature fill the
file and the archive can be read. -/
theorem isMadeOf_iff (arguments : IntegerArguments) (newReaderMemory : LuaString → Option Reader)
    {fileContents : LuaString} (short : fileContents.length < maxStringLength)
    (long : signatureSize ≤ fileContents.length)
    (magic : (trailingSignature fileContents).magicValue = LUAZIP_MAGIC_VALUE) :
    ∃ app, decode arguments newReaderMemory fileContents = .ok app ∧
      (IsMadeOf app fileContents ↔ HasParts newReaderMemory fileContents) := by
  obtain ⟨app, decoded, executableSize, archiveSize, executable, archive, reader⟩ :=
    decode_signed arguments newReaderMemory fileContents long magic
  refine ⟨app, decoded, ?_⟩
  have size : signatureSize = 24 := rfl
  have limit : maxStringLength = 2 ^ 31 := rfl
  unfold HasParts
  generalize (trailingSignature fileContents).executableSize.toNat = E at executableSize ⊢
  generalize (trailingSignature fileContents).archiveSize.toNat = A at archiveSize ⊢
  -- Either way the sizes fill the file, so that they are not rounded.
  have exact_ (fill : E + A + signatureSize = fileContents.length) :
      app.signature.executableSize = E ∧ app.signature.archiveSize = A ∧
        app.executable = fileContents.take E ∧ app.archive = (fileContents.drop E).take A := by
    rw [roundToDouble_eq (by omega)] at executableSize archiveSize
    obtain ⟨first, second⟩ := parts_of_sizes arguments short fill
    rw [executableSize] at executable archive
    rw [archiveSize, roundToDouble_eq (n := E + 1) (by omega), archiveEndOffset_eq (by omega)]
      at archive
    exact ⟨executableSize, archiveSize, executable.trans first, archive.trans second⟩
  constructor
  · intro made
    have lengths := congrArg List.length made.parts
    rw [List.length_append, List.length_append, List.length_drop, ← made.executableSize,
      ← made.archiveSize] at lengths
    have small := lt_of_roundToDouble_lt (n := E) (by omega)
    have small' := lt_of_roundToDouble_lt (n := A) (by omega)
    rw [executableSize, archiveSize, roundToDouble_eq small, roundToDouble_eq small'] at lengths
    have fill : E + A + signatureSize = fileContents.length := by omega
    have readable := made.reader
    rw [reader, (exact_ fill).2.2.2] at readable
    exact ⟨fill, readable⟩
  · rintro ⟨fill, readable⟩
    obtain ⟨executableSize, archiveSize, executable, archive⟩ := exact_ fill
    constructor
    case parts =>
      have start : fileContents.length - signatureSize = E + A := by omega
      rw [executable, archive, start, ← List.drop_drop, List.append_assoc, List.take_append_drop,
        List.take_append_drop]
    case executableSize =>
      rw [executableSize, executable, List.length_take]
      omega
    case archiveSize =>
      rw [archiveSize, archive, List.length_take, List.length_drop]
      omega
    case reader =>
      rw [reader, archive]
      exact readable

/-- What `decode` returns is an error or made of the file, exactly if the file is too
short, or the magic bytes are missing, or the sizes fill it and the archive can be read. -/
theorem decode_sound_iff (arguments : IntegerArguments)
    (newReaderMemory : LuaString → Option Reader) (fileContents : LuaString)
    (short : fileContents.length < maxStringLength) :
    (∀ app, decode arguments newReaderMemory fileContents = .ok app → IsMadeOf app fileContents) ↔
      fileContents.length < signatureSize ∨
        (trailingSignature fileContents).magicValue ≠ LUAZIP_MAGIC_VALUE ∨
        HasParts newReaderMemory fileContents := by
  by_cases long : signatureSize ≤ fileContents.length
  · by_cases magic : (trailingSignature fileContents).magicValue = LUAZIP_MAGIC_VALUE
    · obtain ⟨app, decoded, made⟩ := isMadeOf_iff arguments newReaderMemory short long magic
      rw [decoded, ← made]
      constructor
      · exact fun sound => Or.inr (Or.inr (sound app rfl))
      · rintro (tooShort | missing | holds) other returned
        · exact absurd tooShort (Nat.not_lt.mpr long)
        · exact absurd magic missing
        · rwa [← Except.ok.inj returned]
    · refine ⟨fun _ => Or.inr (Or.inl magic), fun _ app decoded => ?_⟩
      rw [decode_unsigned arguments newReaderMemory long magic] at decoded
      cases decoded
  · have tooShort := Nat.lt_of_not_le long
    refine ⟨fun _ => Or.inl tooShort, fun _ app decoded => ?_⟩
    rw [decode, if_pos tooShort] at decoded
    cases decoded

/-- A signature with sizes of zero behind nothing: the archive is empty. -/
def emptyBundle : LuaString := ascii "LUAZIP" ++ [1, 0] ++ List.replicate 16 0

theorem emptyBundle_sound_iff :
    (∀ app, decode ⟨id, fun _ _ _ => rfl⟩ (fun archive => if archive = [] then none else some archive)
        emptyBundle = .ok app → IsMadeOf app emptyBundle) ↔
      emptyBundle.length < signatureSize ∨
        (trailingSignature emptyBundle).magicValue ≠ LUAZIP_MAGIC_VALUE ∨
        HasParts (fun archive => if archive = [] then none else some archive) emptyBundle :=
  decode_sound_iff _ _ emptyBundle (by decide)

/-- The empty archive has no reader, and `decode` returns the app all the same. -/
theorem emptyBundle_unsound :
    ∃ app, decode ⟨id, fun _ _ _ => rfl⟩ (fun archive => if archive = [] then none else some archive)
      emptyBundle = .ok app ∧ ¬IsMadeOf app emptyBundle := by
  refine ⟨_, rfl, fun made => ?_⟩
  exact absurd made.reader (by decide)

end EvoRuntime.Vfs

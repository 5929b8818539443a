import EvoRuntime.Lua.Strings

/-!
# `crypto.hash` and `crypto.verify`

OpenSSL is a parameter: a key derivation function of its inputs, and a comparison
of a given number of bytes.

`verify_iff`: `verify` compares as many bytes as the shorter one of the two keys
has, so it takes the stored key for the derived one exactly if one of them is a
prefix of the other.
-/
namespace EvoRuntime.Crypto

open Lua

def KDF_ARGON2D : LuaString := ascii "ARGON2D"
def KDF_ARGON2I : LuaString := ascii "ARGON2I"
def KDF_ARGON2ID : LuaString := ascii "ARGON2ID"

/-- `kdf_parameters_t`. -/
structure KdfParameters where
  kdf : LuaString
  version : UInt32
  kilobytes : UInt32
  threads : UInt32
  lanes : UInt32
  size : UInt64
  iterations : UInt32
  deriving DecidableEq

/-- A Lua table of parameters, in which fields may be missing. -/
structure KdfTable where
  kdf : Option LuaString := none
  version : Option UInt32 := none
  kilobytes : Option UInt32 := none
  threads : Option UInt32 := none
  lanes : Option UInt32 := none
  size : Option UInt64 := none
  iterations : Option UInt32 := none
  deriving DecidableEq

def DEFAULT_KDF_PARAMETERS : KdfParameters where
  kdf := KDF_ARGON2ID
  version := 0x13
  kilobytes := 47104
  threads := 1
  lanes := 1
  size := 32
  iterations := 3

/-- The table with all the fields of `parameters`. -/
def KdfParameters.toTable (parameters : KdfParameters) : KdfTable where
  kdf := some parameters.kdf
  version := some parameters.version
  kilobytes := some parameters.kilobytes
  threads := some parameters.threads
  lanes := some parameters.lanes
  size := some parameters.size
  iterations := some parameters.iterations

def KdfTable.withDefaults (table : KdfTable) : KdfParameters where
  kdf := table.kdf.getD DEFAULT_KDF_PARAMETERS.kdf
  version := table.version.getD DEFAULT_KDF_PARAMETERS.version
  kilobytes := table.kilobytes.getD DEFAULT_KDF_PARAMETERS.kilobytes
  threads := table.threads.getD DEFAULT_KDF_PARAMETERS.threads
  lanes := table.lanes.getD DEFAULT_KDF_PARAMETERS.lanes
  size := table.size.getD DEFAULT_KDF_PARAMETERS.size
  iterations := table.iterations.getD DEFAULT_KDF_PARAMETERS.iterations

structure KdfInput where
  password : LuaString
  salt : LuaString

/-- What is used of OpenSSL. A derived key has the length asked for; `cryptoMemcmp`
looks at the first `len` bytes of both arguments. -/
structure OpenSSL where
  kdfDerive : KdfInput → (parameters : KdfParameters) →
    Except LuaString { key : LuaString // key.length = parameters.size.toNat }
  cryptoMemcmp : (a b : LuaString) → (len : Nat) → Int
  cryptoMemcmp_eq_zero : ∀ a b len, len ≤ a.length → len ≤ b.length →
    (cryptoMemcmp a b len = 0 ↔ a.take len = b.take len)

/-- The derived key, or the message that is returned with `nil`. -/
def hash (openssl : OpenSSL) (plaintextPassword salt : LuaString)
    (kdfParameters : Option KdfTable := none) : Except LuaString LuaString :=
  let parameters := (kdfParameters.getD DEFAULT_KDF_PARAMETERS.toTable).withDefaults
  match openssl.kdfDerive ⟨plaintextPassword, salt⟩ parameters with
  | .error message => .error (ascii "OpenSSL " ++ message)
  | .ok key => .ok key.val

def verify (openssl : OpenSSL) (plaintextPassword salt hash_ : LuaString)
    (kdfParameters : Option KdfTable := none) : Except LuaError Bool :=
  match hash openssl plaintextPassword salt kdfParameters with
  -- `#rehash` raises if there is no key
  | .error _ => .error ⟨"attempt to get length of local 'rehash' (a nil value)"⟩
  | .ok rehash =>
    .ok (openssl.cryptoMemcmp hash_ rehash (min hash_.length rehash.length) == 0)

/-- The default parameters stay what they are when the defaults are filled in. -/
theorem withDefaults_toTable (parameters : KdfParameters) :
    parameters.toTable.withDefaults = parameters := rfl

theorem hash_length {openssl : OpenSSL} {password salt key : LuaString} {table : Option KdfTable}
    (derived : hash openssl password salt table = .ok key) :
    key.length = (table.getD DEFAULT_KDF_PARAMETERS.toTable).withDefaults.size.toNat := by
  unfold hash at derived
  dsimp only at derived
  split at derived
  next => exact absurd derived nofun
  next key' _ =>
    rw [← Except.ok.inj derived]
    exact key'.property

theorem take_min_iff_prefix (a b : LuaString) :
    a.take (min a.length b.length) = b.take (min a.length b.length) ↔ a <+: b ∨ b <+: a := by
  -- As many bytes are compared as the shorter text has: all of its bytes.
  rcases Nat.le_total a.length b.length with shorter | longer
  · rw [Nat.min_eq_left shorter, List.take_length]
    constructor
    · intro same
      exact Or.inl (same ▸ List.take_prefix _ b)
    · rintro (before | after)
      · exact List.prefix_iff_eq_take.mp before
      · rw [after.eq_of_length_le shorter, List.take_length]
  · rw [Nat.min_eq_right longer, List.take_length]
    constructor
    · intro same
      exact Or.inr (same ▸ List.take_prefix _ a)
    · rintro (before | after)
      · rw [before.eq_of_length_le longer, List.take_length]
      · exact (List.prefix_iff_eq_take.mp after).symm

theorem verify_derived {openssl : OpenSSL} {password salt key : LuaString} {table : Option KdfTable}
    (derived : hash openssl password salt table = .ok key) (stored : LuaString) :
    ∃ accepted, verify openssl password salt stored table = .ok accepted ∧
      (accepted = true ↔ stored <+: key ∨ key <+: stored) := by
  refine ⟨openssl.cryptoMemcmp stored key (min stored.length key.length) == 0,
    by simp only [verify, derived], ?_⟩
  rw [beq_iff_eq, openssl.cryptoMemcmp_eq_zero _ _ _ (Nat.min_le_left _ _) (Nat.min_le_right _ _),
    take_min_iff_prefix]

/-- `verify` accepts exactly the derived key, if and only if the stored string is
neither a proper prefix nor a proper extension of that key. -/
theorem verify_iff (openssl : OpenSSL) (password salt key : LuaString) (table : Option KdfTable)
    (derived : hash openssl password salt table = .ok key) (stored : LuaString) :
    (∃ accepted, verify openssl password salt stored table = .ok accepted ∧
        (accepted = true ↔ stored = key)) ↔
      ¬(stored <+: key ∧ stored ≠ key) ∧ ¬(key <+: stored ∧ stored ≠ key) := by
  obtain ⟨accepted, returned, accepts⟩ := verify_derived derived stored
  constructor
  · rintro ⟨accepted', returned', exact_⟩
    rw [returned, Except.ok.injEq] at returned'
    subst returned'
    rw [accepts] at exact_
    exact ⟨fun before => before.2 (exact_.mp (Or.inl before.1)),
      fun after => after.2 (exact_.mp (Or.inr after.1))⟩
  · rintro ⟨notBefore, notAfter⟩
    refine ⟨accepted, returned, accepts.trans ⟨?_, ?_⟩⟩
    · rintro (before | after)
      · exact Classical.not_not.mp fun differ => notBefore ⟨before, differ⟩
      · exact Classical.not_not.mp fun differ => notAfter ⟨after, differ⟩
    · rintro rfl
      exact Or.inl List.prefix_rfl

/-- A key derivation function that always gives zeros. -/
def zeroKeys : OpenSSL where
  kdfDerive _ parameters := .ok ⟨List.replicate parameters.size.toNat 0, List.length_replicate⟩
  cryptoMemcmp a b len := if a.take len = b.take len then 0 else 1
  cryptoMemcmp_eq_zero a b len _ _ := by split <;> simp_all

theorem verify_iff_zeros :
    (∃ accepted, verify zeroKeys (ascii "password") (ascii "saltsalt") (ascii "other") none =
          .ok accepted ∧
        (accepted = true ↔ ascii "other" = List.replicate 32 0)) ↔
      ¬(ascii "other" <+: List.replicate 32 0 ∧ ascii "other" ≠ List.replicate 32 0) ∧
        ¬(List.replicate 32 0 <+: ascii "other" ∧ ascii "other" ≠ List.replicate 32 0) :=
  verify_iff zeroKeys (ascii "password") (ascii "saltsalt") (List.replicate 32 0) none rfl _

/-- The empty string is accepted in the place of the key. -/
theorem verify_accepts_empty :
    hash zeroKeys (ascii "password") (ascii "saltsalt") none = .ok (List.replicate 32 0) ∧
      ¬∃ accepted, verify zeroKeys (ascii "password") (ascii "saltsalt") [] none = .ok accepted ∧
        (accepted = true ↔ [] = (List.replicate 32 0 : LuaString)) := by
  refine ⟨rfl, ?_⟩
  rintro ⟨accepted, returned, exact_⟩
  -- No byte is compared with the empty string, so there is no difference.
  have wrong : verify zeroKeys (ascii "password") (ascii "saltsalt") [] none = .ok true := rfl
  rw [wrong, Except.ok.injEq] at returned
  exact absurd (exact_.mp returned.symm) (by decide)

end EvoRuntime.Crypto

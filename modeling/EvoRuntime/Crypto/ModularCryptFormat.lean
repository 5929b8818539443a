import EvoRuntime.Crypto.CompactBase64
import EvoRuntime.Crypto.KeyDerivation
import EvoRuntime.Library.Joining

/-!
# `crypto.mcf`

The text contains each of its fields between delimiters that do not occur in them,
so it determines them (`mcfText_inj`). One of the fields is not the one that the
format stands for: `t` is the number of threads, and the iterations are missing.
-/
namespace EvoRuntime.Crypto

open Lua Library

/-- The Argon2 variants, by the names of the key derivation functions. -/
inductive Variant where
  | argon2d
  | argon2i
  | argon2id
  deriving DecidableEq

def Variant.kdf : Variant → LuaString
  | argon2d => KDF_ARGON2D
  | argon2i => KDF_ARGON2I
  | argon2id => KDF_ARGON2ID

/-- A field of the table as the argument `position` of a library function. -/
def required {α : Type} (field : Option α) (position : Nat) (function type : String) :
    Except LuaError α :=
  match field with
  | some value => .ok value
  | none => .error ⟨s!"bad argument #{position} to '{function}' ({type} expected, got nil)"⟩

/-- `saltLen` and `hashLen` are the writable lengths of the two encoded fields. -/
def mcf (saltLen hashLen : UInt64) (hash salt : LuaString) (parameters : Option KdfTable := none) :
    Except LuaError LuaString := do
  let parameters := parameters.getD DEFAULT_KDF_PARAMETERS.toTable
  let kdf ← required parameters.kdf 1 "lower" "string"
  let salt ← toCompactBase64 saltLen salt
  let hash ← toCompactBase64 hashLen hash
  let version ← required parameters.version 3 "format" "number"
  let kilobytes ← required parameters.kilobytes 4 "format" "number"
  let threads ← required parameters.threads 5 "format" "number"
  let lanes ← required parameters.lanes 6 "format" "number"
  return ascii "$" ++ lower kdf ++ ascii "$v=" ++ decimal version.toNat ++ ascii "$m=" ++
    decimal kilobytes.toNat ++ ascii ",t=" ++ decimal threads.toNat ++ ascii ",p=" ++
    decimal lanes.toNat ++ ascii "$" ++ salt ++ ascii "$" ++ hash

example : mcf 128 128 (ascii "hash") (ascii "saltsalt") =
    .ok (ascii "$argon2id$v=19$m=47104,t=1,p=1$c2FsdHNhbHQ$aGFzaA") := by decide

/-! ### The text -/

/-- Everything that is needed to recompute a key, and the key. -/
structure KeyRecipe where
  variant : Variant
  version : UInt32
  kilobytes : UInt32
  iterations : UInt32
  lanes : UInt32
  salt : LuaString
  hash : LuaString
  deriving DecidableEq

/-- The parameters as a table. The number of threads and the size are not a part of
the recipe: the threads do not change the key and the size is that of the hash. -/
def KeyRecipe.table (recipe : KeyRecipe) (threads : UInt32) (size : UInt64) : KdfTable where
  kdf := some recipe.variant.kdf
  version := some recipe.version
  kilobytes := some recipe.kilobytes
  threads := some threads
  lanes := some recipe.lanes
  size := some size
  iterations := some recipe.iterations

def mcfText (recipe : KeyRecipe) (threads : UInt32) : LuaString :=
  ascii "$" ++ lower recipe.variant.kdf ++ ascii "$v=" ++ decimal recipe.version.toNat ++
    ascii "$m=" ++ decimal recipe.kilobytes.toNat ++ ascii ",t=" ++ decimal threads.toNat ++
    ascii ",p=" ++ decimal recipe.lanes.toNat ++ ascii "$" ++ base64Text recipe.salt ++
    ascii "$" ++ base64Text recipe.hash

theorem mcf_ok {saltLen hashLen : UInt64} {recipe : KeyRecipe} {threads : UInt32} {size : UInt64}
    {text : LuaString}
    (saltReserved : getSizeOfCompactBase64 recipe.salt ≤ saltLen.toNat)
    (hashReserved : getSizeOfCompactBase64 recipe.hash ≤ hashLen.toNat)
    (returned : mcf saltLen hashLen recipe.hash recipe.salt (some (recipe.table threads size)) =
      .ok text) :
    text = mcfText recipe threads := by
  cases salt : toCompactBase64 saltLen recipe.salt with
  | error e => simp [mcf, KeyRecipe.table, required, salt, bind, Except.bind] at returned
  | ok saltText =>
    cases hash : toCompactBase64 hashLen recipe.hash with
    | error e => simp [mcf, KeyRecipe.table, required, salt, hash, bind, Except.bind] at returned
    | ok hashText =>
      have saltBytes := toCompactBase64_ok saltReserved salt
      have hashBytes := toCompactBase64_ok hashReserved hash
      simp only [mcf, KeyRecipe.table, required, salt, hash, bind, Except.bind, pure, Except.pure,
        Option.getD_some, Except.ok.injEq] at returned
      rw [← returned, saltBytes, hashBytes]
      rfl

theorem variant_inj {v w : Variant} (same : lower v.kdf = lower w.kdf) : v = w := by
  cases v <;> cases w <;> first | rfl | exact absurd same (by decide)

/-- The text determines all of the fields that it is made from. -/
theorem mcfText_inj {recipe recipe' : KeyRecipe} {threads threads' : UInt32}
    (same : mcfText recipe threads = mcfText recipe' threads') :
    threads = threads' ∧ { recipe with iterations := recipe'.iterations } = recipe' := by
  -- None of the fields contains the delimiter that ends it.
  have dollar : ∀ v : Variant, 0x24 ∉ lower v.kdf := by intro v; cases v <;> decide
  have number : ∀ n : UInt32, 0x24 ∉ decimal n.toNat := fun n member =>
    absurd (decimal_byte member).1 (by decide)
  have comma : ∀ n : UInt32, 0x2C ∉ decimal n.toNat := fun n member =>
    absurd (decimal_byte member).1 (by decide)
  have base64 : ∀ s, 0x24 ∉ base64Text s := fun s member =>
    absurd (base64Text_mem_alphabet s _ member) (by decide)
  have delimited : ∀ (r : KeyRecipe) (t : UInt32), mcfText r t =
      0x24 :: (lower r.variant.kdf ++ 0x24 :: 0x76 :: 0x3D :: (decimal r.version.toNat ++
        0x24 :: 0x6D :: 0x3D :: (decimal r.kilobytes.toNat ++ 0x2C :: 0x74 :: 0x3D ::
          (decimal t.toNat ++ 0x2C :: 0x70 :: 0x3D :: (decimal r.lanes.toNat ++
            0x24 :: (base64Text r.salt ++ 0x24 :: base64Text r.hash)))))) := by
    intro r t
    simp only [mcfText, List.append_assoc]
    rfl
  -- The fields are read off from left to right.
  rw [delimited, delimited, List.cons.injEq] at same
  obtain ⟨variants, rest⟩ := delimited_inj (dollar _) (dollar _) same.2
  obtain ⟨versions, rest⟩ := delimited_inj (number _) (number _)
    (List.cons.inj (List.cons.inj rest).2).2
  obtain ⟨kilobytes, rest⟩ := delimited_inj (comma _) (comma _)
    (List.cons.inj (List.cons.inj rest).2).2
  obtain ⟨threadCounts, rest⟩ := delimited_inj (comma _) (comma _)
    (List.cons.inj (List.cons.inj rest).2).2
  obtain ⟨lanes, rest⟩ := delimited_inj (number _) (number _)
    (List.cons.inj (List.cons.inj rest).2).2
  obtain ⟨salts, hashes⟩ := delimited_inj (base64 _) (base64 _) rest
  have numbers : ∀ {m n : UInt32}, decimal m.toNat = decimal n.toNat → m = n := fun same =>
    UInt32.toNat_inj.mp (decimal_injective same)
  refine ⟨numbers threadCounts, ?_⟩
  obtain ⟨variant', version', kilobytes', iterations', lanes', salt', hash'⟩ := recipe'
  simp only [KeyRecipe.mk.injEq]
  exact ⟨variant_inj variants, numbers versions, numbers kilobytes, trivial, numbers lanes,
    base64Text_injective salts, base64Text_injective hashes⟩

/-- Two equal texts come from the same recipe, if and only if the iterations are the
same or another part of the recipe or the number of threads is not. -/
theorem mcf_determines_iff (recipe recipe' : KeyRecipe) (threads threads' : UInt32)
    (size size' saltLen saltLen' hashLen hashLen' : UInt64) (text text' : LuaString)
    (saltReserved : getSizeOfCompactBase64 recipe.salt ≤ saltLen.toNat)
    (saltReserved' : getSizeOfCompactBase64 recipe'.salt ≤ saltLen'.toNat)
    (hashReserved : getSizeOfCompactBase64 recipe.hash ≤ hashLen.toNat)
    (hashReserved' : getSizeOfCompactBase64 recipe'.hash ≤ hashLen'.toNat)
    (returned : mcf saltLen hashLen recipe.hash recipe.salt (some (recipe.table threads size)) =
      .ok text)
    (returned' : mcf saltLen' hashLen' recipe'.hash recipe'.salt
      (some (recipe'.table threads' size')) = .ok text') :
    (text = text' → recipe = recipe') ↔
      recipe.iterations = recipe'.iterations ∨ threads ≠ threads' ∨
        { recipe with iterations := recipe'.iterations } ≠ recipe' := by
  rw [mcf_ok saltReserved hashReserved returned, mcf_ok saltReserved' hashReserved' returned']
  constructor
  · intro determines
    by_contra collision
    simp only [not_or, not_not] at collision
    obtain ⟨differ, sameThreads, rest⟩ := collision
    -- Recipes that differ in the iterations only have the same text.
    refine differ (congrArg KeyRecipe.iterations (determines ?_))
    rw [← rest, sameThreads]
    rfl
  · intro apart same
    obtain ⟨sameThreads, rest⟩ := mcfText_inj same
    rcases apart with iterations | differ | differ
    · rw [← iterations] at rest
      exact rest
    · exact absurd sameThreads differ
    · exact absurd rest differ

theorem mcf_determines_iff_variants :
    let recipe : KeyRecipe := ⟨.argon2id, 0x13, 47104, 3, 1, ascii "saltsalt", ascii "hash"⟩
    let recipe' : KeyRecipe := ⟨.argon2d, 0x13, 47104, 3, 1, ascii "saltsalt", ascii "hash"⟩
    (ascii "$argon2id$v=19$m=47104,t=1,p=1$c2FsdHNhbHQ$aGFzaA" =
        ascii "$argon2d$v=19$m=47104,t=1,p=1$c2FsdHNhbHQ$aGFzaA" → recipe = recipe') ↔
      recipe.iterations = recipe'.iterations ∨ (1 : UInt32) ≠ 1 ∨
        { recipe with iterations := recipe'.iterations } ≠ recipe' :=
  mcf_determines_iff _ _ 1 1 32 32 128 128 128 128 _ _ (by decide) (by decide) (by decide)
    (by decide) (by decide) (by decide)

/-- Three iterations and one iteration give the same text. -/
theorem mcf_ignores_iterations :
    let recipe : KeyRecipe := ⟨.argon2id, 0x13, 47104, 3, 1, ascii "saltsalt", ascii "hash"⟩
    let recipe' : KeyRecipe := { recipe with iterations := 1 }
    ∃ text, mcf 128 128 recipe.hash recipe.salt (some (recipe.table 1 32)) = .ok text ∧
      mcf 128 128 recipe'.hash recipe'.salt (some (recipe'.table 1 32)) = .ok text ∧
      recipe ≠ recipe' := by
  exact ⟨ascii "$argon2id$v=19$m=47104,t=1,p=1$c2FsdHNhbHQ$aGFzaA", by decide, by decide, by decide⟩

end EvoRuntime.Crypto

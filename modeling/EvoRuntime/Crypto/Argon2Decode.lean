import EvoRuntime.Crypto.Argon2Encode
import Mathlib.Data.List.TakeWhile

/-!
# The language of `argon2_from_base64`

The decoder reads digits until it meets a byte that is none. `EQ` answers `0xFF` for
every sign-extended byte from `0x80` on, so that `b64_char_to_byte` takes such a byte
for the digit 63: the decoder accepts the text that has `/` in the place of these
bytes (`argon2FromBase64_accepts`, `argon2FromBase64_rejects`).
-/
namespace EvoRuntime.Crypto

open Lua Library

/-! ### The bytes that are read as digits -/

def digitOf (c : UInt8) : Nat := (b64CharToByte (signedChar c)).toNat

/-- The character whose digit is read in the place of `c`. -/
def readAs (c : UInt8) : UInt8 := if 0x80 ≤ c then character 63 else c

def IsRead (c : UInt8) : Prop := c ∈ alphabet ∨ 0x80 ≤ c

instance (c : UInt8) : Decidable (IsRead c) := inferInstanceAs (Decidable (_ ∨ _))

/-- The longest text of characters of the alphabet at the start. -/
def alphabetRun (text : LuaString) : LuaString := text.takeWhile (· ∈ alphabet)

/-- The text as the decoder reads it. -/
def readText (text : LuaString) : LuaString := (text.takeWhile fun c => IsRead c).map readAs

set_option maxRecDepth 4096 in
theorem classified (n : Nat) (byte : n < 256) :
    (b64CharToByte (signedChar (UInt8.ofNat n)) ≤ 63 ↔ IsRead (UInt8.ofNat n)) ∧
      (IsRead (UInt8.ofNat n) → character (digitOf (UInt8.ofNat n)) = readAs (UInt8.ofNat n)) := by
  -- The comparison macros are evaluated for each of the 256 bytes.
  revert n
  decide +kernel

theorem isRead_iff (c : UInt8) : b64CharToByte (signedChar c) ≤ 63 ↔ IsRead c := by
  have table := (classified c.toNat c.toNat_lt).1
  rwa [UInt8.ofNat_toNat] at table

theorem character_digitOf {c : UInt8} (read : IsRead c) : character (digitOf c) = readAs c := by
  have table := (classified c.toNat c.toNat_lt).2
  rw [UInt8.ofNat_toNat] at table
  exact table read

theorem digitOf_lt {c : UInt8} (read : IsRead c) : digitOf c < 2 ^ 6 :=
  Nat.lt_succ_of_le (UInt32.le_iff_toNat_le.mp ((isRead_iff c).mpr read))

/-- The digits that are read from a text. -/
def digitsRead (text : LuaString) : List Nat := (text.takeWhile fun c => IsRead c).map digitOf

theorem digitsRead_digits (text : LuaString) : DigitsOf 6 (digitsRead text) := by
  intro d member
  obtain ⟨c, run, rfl⟩ := List.mem_map.mp member
  exact digitOf_lt (by simpa using List.mem_takeWhile_imp run)

theorem readText_eq (text : LuaString) : readText text = (digitsRead text).map character := by
  rw [readText, digitsRead, List.map_map]
  refine List.map_congr_left fun c run => ?_
  exact (character_digitOf (by simpa using List.mem_takeWhile_imp run)).symm

theorem digitsRead_eq_iff (text b : LuaString) :
    digitsRead text = sextets (octets b) ↔ readText text = base64Text b := by
  rw [readText_eq, base64Text]
  exact ⟨fun same => by rw [same],
    characters_injective (digitsRead_digits text) (sextets_digits (octets_digits b))⟩

/-! ### The loop -/

/-- The decoder has read the digits `read`. -/
structure Decoding (dstLen : UInt64) (read : List Nat) (state : DecodeState) : Prop where
  few : state.accLen < 8
  count : state.len.toNat = state.buf.length
  within : state.buf.length ≤ dstLen.toNat
  bits : Converting 8 6 read (octets state.buf) state.accLen
    (state.acc.toNat % 2 ^ state.accLen)

namespace Decoding

variable {dstLen len : UInt64} {read : List Nat} {buf : LuaString} {acc d : UInt32} {accLen : Nat}

/-- A digit enters the accumulator. -/
theorem bits_readDigit (state : Decoding dstLen read ⟨buf, len, acc, accLen⟩)
    (small : d.toNat < 2 ^ 6) :
    Converting 8 6 (read ++ [d.toNat]) (octets buf) (accLen + 6)
      (((acc <<< 6) + d).toNat % 2 ^ (accLen + 6)) := by
  have few := state.few
  simp only at few
  -- At most 13 bits are held, and 6 more fit into the accumulator.
  have held : ((acc <<< 6) + d).toNat % 2 ^ (accLen + 6) =
      acc.toNat % 2 ^ accLen * 2 ^ 6 + d.toNat := by
    have shifted := toNat_shiftIn acc d 6 (by decide)
    exact (congrArg (· % 2 ^ (accLen + 6)) shifted).trans (held_shift (by omega) _ _ small)
  rw [held]
  exact state.bits.readDigit d.toNat small

theorem readDigit (state : Decoding dstLen read ⟨buf, len, acc, accLen⟩) (small : d.toNat < 2 ^ 6)
    (room : accLen + 6 < 8) :
    Decoding dstLen (read ++ [d.toNat]) ⟨buf, len, (acc <<< 6) + d, accLen + 6⟩ :=
  ⟨room, state.count, state.within, state.bits_readDigit small⟩

/-- With eight bits in the accumulator the next byte is stored. -/
theorem writeByte (state : Decoding dstLen read ⟨buf, len, acc, accLen⟩) (small : d.toNat < 2 ^ 6)
    (enough : 8 ≤ accLen + 6) (free : len < dstLen) :
    Decoding dstLen (read ++ [d.toNat])
      ⟨buf ++ [((((acc <<< 6) + d) >>> UInt32.ofNat (accLen + 6 - 8)) &&& 0xFF).toUInt8], len + 1,
        (acc <<< 6) + d, accLen + 6 - 8⟩ := by
  have bits := state.bits_readDigit small
  obtain ⟨few, count, within, -⟩ := state
  simp only at few count within
  -- The topmost eight of the bits that are held become the byte.
  obtain ⟨held, holds⟩ : ∃ held, accLen + 6 = held + 8 := ⟨accLen + 6 - 8, by omega⟩
  rw [holds] at bits
  have written := bits.writeDigit
  rw [held_leading, held_remaining] at written
  rw [UInt64.lt_iff_toNat_lt] at free
  -- `len` is below `dst_len`, so it does not wrap.
  have grown : (len + 1).toNat = len.toNat + 1 := by
    have limit := dstLen.toNat_lt
    rw [UInt64.toNat_add]
    change (len.toNat + 1) % 2 ^ 64 = _
    omega
  have byte : ((((acc <<< 6) + d) >>> UInt32.ofNat held) &&& 0xFF).toUInt8.toNat =
      ((acc <<< 6) + d).toNat / 2 ^ held % 2 ^ 8 := by
    rw [UInt32.toNat_toUInt8, toNat_leading _ 0xFF held 8 (by omega) (by decide), Nat.mod_mod]
  rw [holds, Nat.add_sub_cancel]
  refine ⟨by simp only; omega, ?_, ?_, ?_⟩
  · simp only [List.length_append, List.length_singleton]
    omega
  · simp only [List.length_append, List.length_singleton]
    omega
  · simp only [octets, List.map_append, List.map_cons, List.map_nil, byte]
    exact written

end Decoding

/-- The loop reads all digits, or it stops with a full buffer while more bits than
fit into it have been read. -/
theorem decodeChars_decoding (dstLen : UInt64) (src : LuaString) (state : DecodeState)
    {read : List Nat} (decoding : Decoding dstLen read state) :
    (decodeChars dstLen src state).1.buf.length ≤ dstLen.toNat ∧
      ((decodeChars dstLen src state).2 = false →
        Decoding dstLen (read ++ digitsRead src) (decodeChars dstLen src state).1) ∧
      ((decodeChars dstLen src state).2 = true →
        8 * (dstLen.toNat + 1) ≤ 6 * (read ++ digitsRead src).length) := by
  induction src generalizing state read with
  | nil => exact ⟨decoding.within, fun _ => by simpa [decodeChars, digitsRead] using decoding,
      fun stopped => Bool.noConfusion stopped⟩
  | cons c src ih =>
    obtain ⟨buf, len, acc, accLen⟩ := state
    rw [decodeChars]
    by_cases digit : IsRead c
    · have small : (b64CharToByte (signedChar c)).toNat < 2 ^ 6 := digitOf_lt digit
      have head : digitsRead (c :: src) = digitOf c :: digitsRead src := by
        rw [digitsRead, List.takeWhile_cons_of_pos (by simpa using digit)]
        rfl
      -- The digit has been read when the rest of the text is.
      have next_ : ∀ more, read ++ digitOf c :: more = read ++ [digitOf c] ++ more := by simp
      rw [if_neg (UInt32.not_lt.mpr ((isRead_iff c).mpr digit)), head, next_]
      dsimp only
      split
      next enough =>
        split
        next full =>
          -- The buffer is full, and there are eight bits more than it takes.
          have bits := (decoding.bits_readDigit small).bits
          have count := decoding.count
          rw [ge_iff_le, UInt64.le_iff_toNat_le] at full
          refine ⟨decoding.within, fun running => Bool.noConfusion running, fun _ => ?_⟩
          rw [octets, List.length_map] at bits
          rw [List.length_append]
          simp only [digitOf] at bits count ⊢
          omega
        next free => exact ih _ (decoding.writeByte small enough (UInt64.not_le.mp free))
      next room => exact ih _ (decoding.readDigit small (by omega))
    · have none : digitsRead (c :: src) = [] := by
        rw [digitsRead, List.takeWhile_cons_of_neg (by simpa using digit)]
        rfl
      rw [if_pos (UInt32.not_le.mp (mt (isRead_iff c).mp digit)), none, List.append_nil]
      exact ⟨decoding.within, fun _ => decoding, fun stopped => Bool.noConfusion stopped⟩

/-! ### The function -/

theorem trailing_zero_iff (acc : UInt32) {accLen : Nat} (few : accLen < 8) :
    acc &&& ((1 <<< UInt32.ofNat accLen) - 1) = 0 ↔ acc.toNat % 2 ^ accLen = 0 := by
  have ones : ((1 <<< UInt32.ofNat accLen : UInt32) - 1).toNat = 2 ^ accLen - 1 := by
    -- The masks for up to seven bits are a finite table.
    revert accLen
    decide
  rw [← UInt32.toNat_inj, UInt32.toNat_and, ones, Nat.and_two_pow_sub_one_eq_mod]
  rfl

theorem decodeChars_start (dstLen : UInt64) (text : LuaString) :
    (decodeChars dstLen text ⟨[], 0, 0, 0⟩).1.buf.length ≤ dstLen.toNat ∧
      ((decodeChars dstLen text ⟨[], 0, 0, 0⟩).2 = false →
        Decoding dstLen (digitsRead text) (decodeChars dstLen text ⟨[], 0, 0, 0⟩).1) ∧
      ((decodeChars dstLen text ⟨[], 0, 0, 0⟩).2 = true →
        8 * (dstLen.toNat + 1) ≤ 6 * (digitsRead text).length) := by
  have initial : Decoding dstLen [] ⟨[], 0, 0, 0⟩ :=
    ⟨by decide, rfl, Nat.zero_le _, Converting.start 8 6⟩
  simpa using decodeChars_decoding dstLen text _ initial

theorem argon2FromBase64_within (dstLen : UInt64) (text : LuaString) :
    (argon2FromBase64 dstLen text).1.length ≤ dstLen.toNat := by
  have within := (decodeChars_start dstLen text).1
  unfold argon2FromBase64
  dsimp only
  split
  · exact within
  · split <;> exact within

/-- The decoder accepts a text that it reads as the text of bytes that fit. -/
theorem argon2FromBase64_accepts (dstLen : UInt64) (text b : LuaString)
    (fits : b.length ≤ dstLen.toNat) (reads : readText text = base64Text b) :
    argon2FromBase64 dstLen text = (b, some (UInt64.ofNat b.length)) := by
  obtain ⟨-, done, full⟩ := decodeChars_start dstLen text
  have digits := (digitsRead_eq_iff text b).mpr reads
  have regroups := sextets_regroups (octets b)
  rw [← digits] at regroups
  have length : (octets b).length = b.length := List.length_map _
  have small := padding_lt (octets b).length
  unfold argon2FromBase64
  cases stop : (decodeChars dstLen text ⟨[], 0, 0, 0⟩).2 with
  | true =>
    -- A full buffer would mean more bits than those of `b`.
    have many := full stop
    have bits := regroups.bits
    omega
  | false =>
    have decoding := done stop
    -- The bytes that were written are `b`, and the bits that are left are zero.
    obtain ⟨written, held, rest⟩ := decoding.bits.held_of_regroups decoding.few regroups
      (octets_digits b) (octets_digits _) (by omega)
    have stored := octets_injective written
    have count := decoding.count
    rw [stored] at count
    dsimp only
    -- No text of bytes leaves more than four bits.
    have four : padding (octets b).length ≤ 4 := by
      unfold padding
      split
      · decide
      · split <;> decide
    rw [stop, if_neg Bool.false_ne_true, if_neg, stored, ← count, UInt64.ofNat_toNat]
    rw [not_or, not_not]
    exact ⟨by omega, (trailing_zero_iff _ decoding.few).mpr rest⟩

/-- It accepts no other text. -/
theorem argon2FromBase64_rejects (dstLen : UInt64) (text : LuaString)
    (none : ∀ b : LuaString, b.length ≤ dstLen.toNat → readText text ≠ base64Text b) :
    (argon2FromBase64 dstLen text).2 = Option.none := by
  obtain ⟨-, done, -⟩ := decodeChars_start dstLen text
  unfold argon2FromBase64
  cases stop : (decodeChars dstLen text ⟨[], 0, 0, 0⟩).2 with
  | true => simp [stop]
  | false =>
    have decoding := done stop
    dsimp only
    rw [stop, if_neg Bool.false_ne_true]
    split
    next => rfl
    next valid =>
      rw [not_or, not_not] at valid
      have bits := decoding.bits
      rw [(trailing_zero_iff _ decoding.few).mp valid.2] at bits
      -- Only zero bits are left, so the digits are those of the bytes in the buffer.
      have digits := eq_sextets bits.regroups_of_rest (digitsRead_digits text) (by omega)
      exact absurd ((digitsRead_eq_iff text _).mp digits) (none _ decoding.within)

theorem readAs_alphabet {c : UInt8} (member : c ∈ alphabet) : readAs c = c := by
  have low : alphabet.all (· < 0x80) = true := by decide
  have ascii_ : c < 0x80 := of_decide_eq_true (List.all_eq_true.mp low c member)
  exact if_neg (UInt8.not_le.mpr ascii_)

theorem readText_append {run : LuaString} (member : ∀ c ∈ run, c ∈ alphabet) (rest : LuaString) :
    readText (run ++ rest) = run ++ readText rest := by
  have same : run.map readAs = run :=
    (List.map_congr_left fun c run => readAs_alphabet (member c run)).trans (List.map_id _)
  rw [readText, List.takeWhile_append_of_pos, List.map_append, same, readText]
  intro c run
  exact decide_eq_true (Or.inl (member c run))

/-- A text of characters of the alphabet is read as it is, up to its NUL. -/
theorem readText_base64Text (b : LuaString) : readText (base64Text b ++ [0]) = base64Text b := by
  have nul : readText [0] = [] := by decide
  rw [readText_append (base64Text_mem_alphabet b), nul, List.append_nil]

/-- Encoding writes the standard text and a NUL within the buffer, and decoding what
was written restores the bytes. -/
theorem argon2_round_trip (s : LuaString) (dstLen : UInt64)
    (room : 4 * (s.length / 3) + (if s.length % 3 = 0 then 0 else if s.length % 3 = 1 then 2 else 3) <
      dstLen.toNat) (dstLen' : UInt64) (room' : s.length ≤ dstLen'.toNat) :
    let encoded := argon2ToBase64 dstLen s
    encoded.1 = base64Text s ++ [0] ∧ encoded.1.length ≤ dstLen.toNat ∧
      (∃ olen, encoded.2 = some olen ∧ olen.toNat = 4 * (s.length / 3) +
        if s.length % 3 = 0 then 0 else if s.length % 3 = 1 then 2 else 3) ∧
      ∃ len, argon2FromBase64 dstLen' encoded.1 = (s, some len) ∧ len.toNat = s.length := by
  have text := argon2ToBase64_eq dstLen s room
  have accepted := argon2FromBase64_accepts dstLen' _ s room' (readText_base64Text s)
  simp only [text]
  refine ⟨trivial, ?_, ⟨_, rfl, ?_⟩, _, accepted, ?_⟩
  · rw [List.length_append, length_base64Text]
    exact room
  · exact UInt64.toNat_ofNat_of_lt' (Nat.lt_trans room dstLen.toNat_lt)
  · exact UInt64.toNat_ofNat_of_lt' (Nat.lt_of_le_of_lt room' dstLen'.toNat_lt)

theorem argon2_round_trip_salt :
    let encoded := argon2ToBase64 12 (ascii "saltsalt")
    encoded.1 = base64Text (ascii "saltsalt") ++ [0] ∧ encoded.1.length ≤ 12 ∧
      (∃ olen, encoded.2 = some olen ∧ olen.toNat = 11) ∧
      ∃ len, argon2FromBase64 8 encoded.1 = (ascii "saltsalt", some len) ∧ len.toNat = 8 :=
  argon2_round_trip (ascii "saltsalt") 12 (by decide) 8 (by decide)

/-! ### Bytes outside of ASCII -/

/-- The text of at most `capacity` bytes. -/
def IsTextWithin (capacity : UInt64) (u : LuaString) : Prop :=
  ∃ b : LuaString, b.length ≤ capacity.toNat ∧ u = base64Text b

/-- The decoder accepts `text` exactly if its run of characters of the alphabet is the
text of bytes that fit, and stores these. -/
def DecodesRun (dstLen : UInt64) (text : LuaString) : Prop :=
  let decoded := argon2FromBase64 dstLen text
  (decoded.2.isSome ↔ IsTextWithin dstLen (alphabetRun text)) ∧
    (∀ len, decoded.2 = some len →
      alphabetRun text = base64Text decoded.1 ∧ len.toNat = decoded.1.length) ∧
    decoded.1.length ≤ dstLen.toNat

/-- The byte after the run of characters of the alphabet is an ASCII character. -/
def RunEndsInAscii (text : LuaString) : Prop :=
  ∀ c, text[(alphabetRun text).length]? = some c → c < 0x80

theorem run_split (text : LuaString) :
    alphabetRun text ++ text.dropWhile (· ∈ alphabet) = text :=
  List.takeWhile_append_dropWhile

theorem mem_alphabet_of_run {text : LuaString} {c : UInt8} (run : c ∈ alphabetRun text) :
    c ∈ alphabet := by
  simpa using List.mem_takeWhile_imp run

/-- The text is read as its run exactly if the run ends in front of an ASCII character. -/
theorem readText_eq_run_iff (text : LuaString) :
    readText text = alphabetRun text ↔ RunEndsInAscii text := by
  have members : ∀ c ∈ alphabetRun text, c ∈ alphabet := fun c => mem_alphabet_of_run
  have read := readText_append members (text.dropWhile (· ∈ alphabet))
  have after : text[(alphabetRun text).length]? = (text.dropWhile (· ∈ alphabet)).head? := by
    conv_lhs => rw [← run_split text]
    rw [List.getElem?_append_right (by simp [run_split]), run_split, Nat.sub_self,
      List.head?_eq_getElem?]
  rw [run_split] at read
  rw [read, List.append_right_eq_self, RunEndsInAscii, after]
  -- The run is followed by no character of the alphabet; the text goes on
  -- exactly if a byte from 0x80 on follows.
  have outside := List.head?_dropWhile_not (fun c => decide (c ∈ alphabet)) text
  cases rest : text.dropWhile (· ∈ alphabet) with
  | nil => simp [readText]
  | cons c rest' =>
    rw [rest] at outside
    have outside : c ∉ alphabet := by simpa using outside
    by_cases high : 0x80 ≤ c
    · have read : IsRead c := Or.inr high
      simp [readText, List.takeWhile_cons_of_pos, read, high]
    · have unread : ¬IsRead c := not_or.mpr ⟨outside, high⟩
      simp [readText, List.takeWhile_cons_of_neg, unread, UInt8.not_le.mp high]

/-- The decoder is right exactly if the run ends in front of an ASCII character, or
neither the run nor the text that is read is the text of bytes that fit. -/
theorem argon2FromBase64_decodesRun_iff (dstLen : UInt64) (text : LuaString) :
    DecodesRun dstLen text ↔
      RunEndsInAscii text ∨
        ¬IsTextWithin dstLen (alphabetRun text) ∧ ¬IsTextWithin dstLen (readText text) := by
  have accepts : IsTextWithin dstLen (readText text) →
      ∃ b len, argon2FromBase64 dstLen text = (b, some len) ∧ len.toNat = b.length ∧
        readText text = base64Text b := by
    rintro ⟨b, fits, reads⟩
    exact ⟨b, _, argon2FromBase64_accepts dstLen text b fits reads,
      UInt64.toNat_ofNat_of_lt' (Nat.lt_of_le_of_lt fits dstLen.toNat_lt), reads⟩
  have rejects : ¬IsTextWithin dstLen (readText text) → (argon2FromBase64 dstLen text).2 = none :=
    fun outside => argon2FromBase64_rejects dstLen text fun b fits reads => outside ⟨b, fits, reads⟩
  have within := argon2FromBase64_within dstLen text
  rw [← readText_eq_run_iff]
  constructor
  · rintro ⟨accepted, stored, -⟩
    -- What the decoder accepts, it stores as the bytes of the text that it reads.
    by_cases read : IsTextWithin dstLen (readText text)
    · obtain ⟨b, len, decoded, -, reads⟩ := accepts read
      left
      rw [(stored len (by rw [decoded])).1, decoded, reads]
    · refine Or.inr ⟨fun run => ?_, read⟩
      -- The run would have to be accepted, but the text that is read is not.
      have some := accepted.mpr run
      rw [rejects read] at some
      exact absurd some (by decide)
  · rintro (same | ⟨run, read⟩)
    · by_cases read : IsTextWithin dstLen (readText text)
      · obtain ⟨b, len, decoded, length, reads⟩ := accepts read
        refine ⟨?_, ?_, within⟩
        · rw [decoded, ← same]
          exact iff_of_true rfl read
        · intro len' returned
          -- The text that is read is the run itself.
          rw [decoded, Option.some.injEq] at returned
          rw [decoded, ← same, ← returned]
          exact ⟨reads, length⟩
      · refine ⟨?_, ?_, within⟩
        · rw [rejects read, ← same]
          exact iff_of_false (by decide) read
        · rw [rejects read]
          exact nofun
    · refine ⟨?_, ?_, within⟩
      · rw [rejects read]
        exact iff_of_false (by decide) run
      · rw [rejects read]
        exact nofun

/-- `c2FsdA` is the text of `salt`; with two bytes of UTF-8 behind it, six bytes are
returned. -/
theorem argon2FromBase64_not_decodesRun :
    ¬DecodesRun 8 (ascii "c2FsdA" ++ [0xC3, 0xA9]) := by
  intro exact_
  have stored := (exact_.2.1 6 (by decide)).1
  revert stored
  decide

end EvoRuntime.Crypto

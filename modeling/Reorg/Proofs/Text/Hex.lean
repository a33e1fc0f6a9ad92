/-
**Reading hexadecimal digits.**

Every digit is one byte of UTF-8, so the bytes of a hexadecimal form are the codes of its digits two
by two, and the reader takes them apart as the writer put them together. The reader works on bytes,
and no byte of a character that is not a digit is the code of a digit, so what it accepts can be
told by the characters of a text: these are digits of either case, and the form that is written is
the text in lower case.

* `Hex.decodeExactly_encode`: the form of a byte string reads as the byte string;
* `Digest.ofHex_toHex`: the digits that show a digest read as the digest;
* `Hex.IsDigit`, `Hex.RefusedFor`: digits of either case, and why a byte string is refused;
* `Hex.decodeExactly_eq_ok_iff`, `Hex.decodeExactly_eq_error_iff`: what the reader makes of any
  byte string;
* `Digest.ofHex_eq_ok_iff`: a text shows a digest when the digits that show it are the text in lower
  case.
-/

import Reorg.Proofs.Text.Digits

namespace Reorg

namespace Hex

/-- The byte of the digit of a value. -/
def code (value : Nat) : UInt8 := (digit value).val.toUInt8

theorem utf8EncodeChar_digit :
    ∀ value < 16, String.utf8EncodeChar (digit value) = [code value] := by
  decide

theorem digitValue?_code : ∀ value < 16, digitValue? (code value) = some value := by
  decide

/-- The codes of the digits of a byte string. -/
def codes (bytes : Bytes) : Bytes :=
  bytes.flatMap fun byte => [code (byte.toNat / 16), code (byte.toNat % 16)]

theorem length_codes (bytes : Bytes) : (codes bytes).length = 2 * bytes.length := by
  simp only [codes, List.length_flatMap, List.length_cons, List.length_nil, List.map_const',
    List.sum_replicate_nat]
  omega

/-- The bytes of a text are those of its characters in a row. -/
theorem toList_toUTF8 (text : String) :
    text.toUTF8.data.toList = text.toList.flatMap String.utf8EncodeChar := by
  conv_lhs => rw [← String.ofList_toList (s := text)]
  rw [String.toUTF8_eq_toByteArray, String.toByteArray_ofList, List.utf8Encode,
    List.data_toByteArray]

/-- The bytes of a hexadecimal form are the codes of its digits. -/
theorem toUTF8_encode (bytes : Bytes) : (encode bytes).toUTF8.data.toList = codes bytes := by
  have each : ∀ byte : UInt8, (pair byte).flatMap String.utf8EncodeChar =
      [code (byte.toNat / 16), code (byte.toNat % 16)] := by
    intro byte
    have bound := byte.toNat_lt
    rw [pair, List.flatMap_cons, List.flatMap_cons, List.flatMap_nil,
      utf8EncodeChar_digit _ (by omega), utf8EncodeChar_digit _ (by omega)]
    rfl
  rw [toList_toUTF8, encode, String.toList_ofList]
  show ((bytes.flatMap pair).flatMap String.utf8EncodeChar) = _
  rw [List.flatMap_assoc]
  exact List.flatMap_congr fun byte _ => each byte

theorem utf8ByteSize_encode (bytes : Bytes) : (encode bytes).utf8ByteSize = 2 * bytes.length := by
  rw [← length_codes, ← toUTF8_encode]
  rfl

theorem decodePairs_codes (position : Nat) (bytes : Bytes) :
    decodePairs position (codes bytes) = .ok bytes := by
  induction bytes generalizing position with
  | nil => rfl
  | cons byte bytes ih =>
    have bound := byte.toNat_lt
    have whole : UInt8.ofNat (16 * (byte.toNat / 16) + byte.toNat % 16) = byte := by
      rw [Nat.div_add_mod, UInt8.ofNat_toNat]
    show decodePairs position
      (code (byte.toNat / 16) :: code (byte.toNat % 16) :: codes bytes) = .ok (byte :: bytes)
    rw [decodePairs, digitValue?_code _ (by omega), digitValue?_code _ (by omega)]
    simp only [ih, whole]

/-- **The hexadecimal form of a byte string reads as the byte string.** -/
theorem decodeExactly_encode (bytes : Bytes) :
    decodeExactly bytes.length (encode bytes).toUTF8.data.toList = .ok bytes := by
  rw [toUTF8_encode, decodeExactly, length_codes, if_neg (by omega), if_neg (by omega),
    decodePairs_codes]

end Hex

namespace Digest

theorem ofHex_eq_ok_iff_decode {text : String} {digest : Digest} : ofHex text = .ok digest ↔
    Hex.decodeExactly 32 text.toUTF8.data.toList = .ok digest.bytes.reverse := by
  unfold ofHex
  split
  · next problem refused =>
    constructor
    · intro impossible
      cases impossible
    · intro accepted
      rw [refused] at accepted
      cases accepted
  · next bytes found =>
    constructor
    · intro same
      cases same
      exact found.trans (congrArg Except.ok (List.reverse_reverse bytes).symm)
    · intro accepted
      rw [found] at accepted
      cases accepted
      exact congrArg Except.ok (ext_bytes (List.reverse_reverse _))

/-- **The digits that show a digest read as the digest.** -/
theorem ofHex_toHex (digest : Digest) : ofHex digest.toHex = .ok digest := by
  have read := Hex.decodeExactly_encode digest.bytes.reverse
  rw [List.length_reverse, digest.length_bytes] at read
  exact ofHex_eq_ok_iff_decode.mpr read

end Digest

/-! ### Digits of either case -/

namespace Hex

variable {text bytes : Bytes} {byte : UInt8} {char : Char} {position count : Nat}
  {problem : HexError}

/-- A hexadecimal digit, in lower or in upper case. -/
def IsDigit (char : Char) : Prop := char.toLower ∈ digits

instance : DecidablePred IsDigit := fun _ => inferInstanceAs (Decidable (_ ∈ _))

/-- The character whose number is a byte. -/
def charOf (byte : UInt8) : Char := Char.ofNat byte.toNat

/-- A byte has a value when it is the number of a digit, and that digit in lower case is written for
the value. -/
theorem digitValue?_spec (byte : UInt8) : (digitValue? byte).map digit =
    if IsDigit (charOf byte) then some (charOf byte).toLower else none := by
  have table : ∀ number < 256, (digitValue? (UInt8.ofNat number)).map digit =
      if IsDigit (Char.ofNat number) then some (Char.ofNat number).toLower else none := by
    decide +kernel
  have row := table byte.toNat byte.toNat_lt
  rwa [UInt8.ofNat_toNat] at row

theorem digitValue?_lt {value : Nat} (found : digitValue? byte = some value) : value < 16 := by
  have bounds : ∀ low high : UInt8, low ≤ byte ∧ byte ≤ high ↔
      low.toNat ≤ byte.toNat ∧ byte.toNat ≤ high.toNat := fun low high => Iff.rfl
  simp only [digitValue?, bounds, UInt8.reduceToNat] at found
  split_ifs at found
  all_goals
    cases found
    omega

theorem digit_of_digitValue? {value : Nat} (found : digitValue? byte = some value) :
    IsDigit (charOf byte) ∧ (charOf byte).toLower = digit value := by
  have spec := digitValue?_spec byte
  rw [found, Option.map_some] at spec
  by_cases isDigit : IsDigit (charOf byte)
  · rw [if_pos isDigit] at spec
    exact ⟨isDigit, (Option.some.inj spec).symm⟩
  · rw [if_neg isDigit] at spec
    cases spec

theorem not_isDigit_of_digitValue? (missing : digitValue? byte = none) :
    ¬ IsDigit (charOf byte) := by
  intro isDigit
  have spec := digitValue?_spec byte
  rw [missing, if_pos isDigit] at spec
  cases spec

/-- The two digits that are read for a byte are the two that are written for it. -/
theorem pair_of_values {high low : Nat} (highSmall : high < 16) (lowSmall : low < 16) :
    pair (UInt8.ofNat (16 * high + low)) = [digit high, digit low] := by
  have whole : (UInt8.ofNat (16 * high + low)).toNat = 16 * high + low := by simp; omega
  have front : (16 * high + low) / 16 = high := by omega
  have back : (16 * high + low) % 16 = low := by omega
  simp only [pair, whole, front, back]

theorem digit_mem_digits : ∀ value < 16, digit value ∈ digits := by
  decide

/-- Whatever is written as digits, in lower case, are digits. -/
theorem isDigit_of_encodeChars {α : Type} {items : List α} {shown : α → Char}
    (written : encodeChars bytes = items.map fun item => (shown item).toLower) :
    ∀ item ∈ items, IsDigit (shown item) := by
  intro item member
  have inside : (shown item).toLower ∈ encodeChars bytes := by
    rw [written]
    exact List.mem_map_of_mem member
  obtain ⟨byte, -, digits⟩ := List.mem_flatMap.mp inside
  have bound := byte.toNat_lt
  unfold IsDigit
  rcases List.mem_pair.mp digits with same | same
  · rw [same]
    exact digit_mem_digits _ (by omega)
  · rw [same]
    exact digit_mem_digits _ (by omega)

theorem length_encodeChars (bytes : Bytes) : (encodeChars bytes).length = 2 * bytes.length := by
  induction bytes with
  | nil => rfl
  | cons byte bytes ih =>
    show (pair byte ++ encodeChars bytes).length = _
    simp [pair, ih]
    omega

/-! ### What the reader makes of a byte string -/

/-- What is read is written as the text in lower case. -/
theorem encodeChars_of_decodePairs (even : text.length % 2 = 0)
    (accepted : decodePairs position text = .ok bytes) :
    encodeChars bytes = text.map fun byte => (charOf byte).toLower := by
  fun_induction decodePairs position text generalizing bytes with
  | case1 => cases accepted
  | case2 => cases accepted
  | case3 => cases accepted
  | case4 position high low rest highValue lowValue lowFound highFound behind read ih =>
    cases accepted
    have again := ih (by simpa [Nat.add_assoc] using even) read
    show pair _ ++ encodeChars behind = _
    rw [pair_of_values (digitValue?_lt highFound) (digitValue?_lt lowFound), again, List.map_cons,
      List.map_cons, (digit_of_digitValue? highFound).2, (digit_of_digitValue? lowFound).2]
    rfl
  | case5 text position short =>
    cases accepted
    match text, short with
    | [], _ => rfl
    | [_], _ => simp at even
    | high :: low :: rest, short => exact (short high low rest rfl).elim

/-- What is refused has a first byte that is no digit. -/
theorem exists_of_decodePairs_error (refused : decodePairs position text = .error problem) :
    ∃ before byte behind, text = before ++ byte :: behind ∧
      (∀ other ∈ before, IsDigit (charOf other)) ∧ ¬ IsDigit (charOf byte) ∧
        problem = .invalidDigit byte (position + before.length) := by
  fun_induction decodePairs position text with
  | case1 position high low rest missing =>
    cases refused
    exact ⟨[], high, low :: rest, rfl, nofun, not_isDigit_of_digitValue? missing, rfl⟩
  | case2 position high low rest value missing found =>
    cases refused
    refine ⟨[high], low, rest, rfl, ?_, not_isDigit_of_digitValue? missing, rfl⟩
    simpa using (digit_of_digitValue? found).1
  | case3 position high low rest highValue lowValue lowFound highFound other failed ih =>
    cases refused
    obtain ⟨before, byte, behind, rfl, run, ends, rfl⟩ := ih failed
    refine ⟨high :: low :: before, byte, behind, rfl, ?_, ends, ?_⟩
    · simp only [List.forall_mem_cons]
      exact ⟨(digit_of_digitValue? highFound).1, (digit_of_digitValue? lowFound).1, run⟩
    · simp only [List.length_cons]
      congr 1
      omega
  | case4 => cases refused
  | case5 => cases refused

/-- **Digits are refused for the first byte that is none.** -/
theorem decodePairs_eq_error_iff (even : text.length % 2 = 0) :
    decodePairs position text = .error problem ↔
      ∃ before byte behind, text = before ++ byte :: behind ∧
        (∀ other ∈ before, IsDigit (charOf other)) ∧ ¬ IsDigit (charOf byte) ∧
          problem = .invalidDigit byte (position + before.length) := by
  constructor
  · exact exists_of_decodePairs_error
  · rintro ⟨before, byte, behind, split, run, ends, rfl⟩
    cases read : decodePairs position text with
    | ok bytes =>
      have digits := isDigit_of_encodeChars (encodeChars_of_decodePairs even read)
      exact (ends (digits byte (by simp [split]))).elim
    | error problem =>
      obtain ⟨before', byte', behind', split', run', ends', rfl⟩ := exists_of_decodePairs_error read
      -- Both splits are where the run of digits in front ends.
      have agree : AgreeBefore (fun byte => decide (IsDigit (charOf byte))) before before' _ :=
        .of_runs (fun other member => decide_eq_true (run other member))
          fun other member => decide_eq_true (run' other member)
      have same := (agree (byte :: behind) (byte' :: behind') ⟨byte, rfl, decide_eq_false ends⟩
        ⟨byte', rfl, decide_eq_false ends'⟩).mp (split.symm.trans split')
      obtain ⟨rfl, rest⟩ := same
      rw [(List.cons_eq_cons.mp rest).1]

/-- Why a byte string is not read as the digits of `count` bytes: its length first, and then the
first byte that is no digit, with the number of bytes in front of it. -/
def RefusedFor (count : Nat) (text : Bytes) : HexError → Prop
  | .oddLength => text.length % 2 = 1
  | .wrongLength => text.length % 2 = 0 ∧ text.length ≠ 2 * count
  | .invalidDigit byte position => text.length = 2 * count ∧ ∃ before behind,
      text = before ++ byte :: behind ∧ before.length = position ∧
        (∀ other ∈ before, IsDigit (charOf other)) ∧ ¬ IsDigit (charOf byte)

/-- **What the reader refuses, and why.** -/
theorem decodeExactly_eq_error_iff :
    decodeExactly count text = .error problem ↔ RefusedFor count text problem := by
  unfold decodeExactly
  by_cases odd : text.length % 2 = 1
  · rw [if_pos odd]
    cases problem <;> simp [RefusedFor, odd]
    omega
  · have even : text.length % 2 = 0 := by omega
    rw [if_neg odd]
    by_cases long : text.length = 2 * count
    · rw [if_neg (not_not.mpr long), decodePairs_eq_error_iff even]
      cases problem with
      | oddLength => simp [RefusedFor, odd]
      | wrongLength => simp [RefusedFor, long]
      | invalidDigit byte position =>
        simp only [RefusedFor, long, true_and, HexError.invalidDigit.injEq, Nat.zero_add]
        constructor
        · rintro ⟨before, _, behind, split, run, ends, rfl, rfl⟩
          exact ⟨before, behind, split, rfl, run, ends⟩
        · rintro ⟨before, behind, split, rfl, run, ends⟩
          exact ⟨before, byte, behind, split, run, ends, rfl, rfl⟩
    · rw [if_pos long]
      cases problem <;> simp [RefusedFor, even, long]

/-- Digits of the right number are read. -/
theorem exists_of_digits (long : text.length = 2 * count)
    (run : ∀ byte ∈ text, IsDigit (charOf byte)) : ∃ bytes, decodeExactly count text = .ok bytes := by
  cases read : decodeExactly count text with
  | ok bytes => exact ⟨bytes, rfl⟩
  | error problem =>
    have refused := decodeExactly_eq_error_iff.mp read
    cases problem with
    | oddLength =>
      have odd : text.length % 2 = 1 := refused
      omega
    | wrongLength => exact (refused.2 long).elim
    | invalidDigit byte position =>
      obtain ⟨-, before, behind, rfl, -, -, ends⟩ := refused
      exact (ends (run byte (by simp))).elim

/-- **What the reader accepts**: the byte string that is written as the text in lower case. -/
theorem decodeExactly_eq_ok_iff : decodeExactly count text = .ok bytes ↔
    bytes.length = count ∧ encodeChars bytes = text.map fun byte => (charOf byte).toLower := by
  have writes {read : Bytes} (accepted : decodeExactly count text = .ok read) :
      encodeChars read = text.map fun byte => (charOf byte).toLower := by
    unfold decodeExactly at accepted
    split_ifs at accepted with odd other
    exact encodeChars_of_decodePairs (by omega) accepted
  constructor
  · intro accepted
    exact ⟨decodeExactly_length accepted, writes accepted⟩
  · rintro ⟨rfl, written⟩
    have long : text.length = 2 * bytes.length := by
      rw [← length_encodeChars, written, List.length_map]
    obtain ⟨read, accepted⟩ := exists_of_digits long (isDigit_of_encodeChars written)
    have same := (agreeIff_encodeChars (decodeExactly_length accepted)).eq_iff.mp
      ((writes accepted).trans written.symm)
    exact same ▸ accepted

/-! ### Characters and their bytes -/

theorem toNat_lt_of_isDigit (isDigit : IsDigit char) : char.toNat < 128 := by
  have digitsLow : ∀ digit ∈ digits, digit.toNat < 128 := by simp [digits]
  unfold IsDigit Char.toLower at isDigit
  split at isDigit
  · next upper =>
    have last : char.toNat ≤ 90 := upper.2
    omega
  · exact digitsLow char isDigit

/-- A character of ASCII is one byte, its number. -/
theorem utf8EncodeChar_of_lt (low : char.toNat < 128) :
    String.utf8EncodeChar char = [UInt8.ofNat char.toNat] := by
  have small : char.val.toNat ≤ 127 := Nat.le_of_lt_succ low
  unfold String.utf8EncodeChar
  exact if_pos small

theorem charOf_ofNat (low : char.toNat < 128) : charOf (UInt8.ofNat char.toNat) = char := by
  have number : (UInt8.ofNat char.toNat).toNat = char.toNat := by simp; omega
  rw [charOf, number, Char.ofNat_toNat]

/-- Any other character has a byte that is the number of no digit. -/
theorem exists_byte_of_le (high : 128 ≤ char.toNat) :
    ∃ byte ∈ String.utf8EncodeChar char, ¬ IsDigit (charOf byte) := by
  have large : ∃ byte ∈ String.utf8EncodeChar char, 128 ≤ byte.toNat := by
    have beyond : ¬ char.val.toNat ≤ 127 := Nat.not_le.mpr high
    unfold String.utf8EncodeChar
    simp only [if_neg beyond]
    split_ifs
    all_goals
      refine ⟨_, List.mem_cons_self, ?_⟩
      simp
      omega
  have table : ∀ number < 256, 128 ≤ number → ¬ IsDigit (Char.ofNat number) := by
    decide +kernel
  obtain ⟨byte, member, bound⟩ := large
  exact ⟨byte, member, table byte.toNat byte.toNat_lt bound⟩

/-- **The bytes of a text are numbers of digits** when its characters are digits. -/
theorem isDigit_bytes_iff {text : String} : (∀ byte ∈ text.toUTF8.data.toList,
    IsDigit (charOf byte)) ↔ ∀ char ∈ text.toList, IsDigit char := by
  rw [toList_toUTF8]
  constructor
  · intro bytes char member
    by_cases low : char.toNat < 128
    · rw [← charOf_ofNat low]
      apply bytes
      refine List.mem_flatMap.mpr ⟨char, member, ?_⟩
      simp [utf8EncodeChar_of_lt low]
    · obtain ⟨byte, inside, other⟩ := exists_byte_of_le (Nat.le_of_not_lt low)
      exact (other (bytes byte (List.mem_flatMap.mpr ⟨char, member, inside⟩))).elim
  · intro chars byte member
    obtain ⟨char, inside, shown⟩ := List.mem_flatMap.mp member
    have low := toNat_lt_of_isDigit (chars char inside)
    rw [utf8EncodeChar_of_lt low, List.mem_singleton] at shown
    rw [shown, charOf_ofNat low]
    exact chars char inside

/-- A text of digits is the characters of its bytes. -/
theorem map_charOf_toUTF8 {text : String} (chars : ∀ char ∈ text.toList, IsDigit char) :
    text.toUTF8.data.toList.map charOf = text.toList := by
  have each : ∀ char ∈ text.toList, (String.utf8EncodeChar char).map charOf = [char] := by
    intro char member
    have low := toNat_lt_of_isDigit (chars char member)
    simp [utf8EncodeChar_of_lt low, charOf_ofNat low]
  rw [toList_toUTF8, List.map_flatMap, List.flatMap_congr each, List.flatMap_singleton']

/-- The form of a byte string is compared with a text in lower case by the bytes of the text or by
its characters: either way the text has digits only. -/
theorem encodeChars_eq_lower_iff {text : String} :
    encodeChars bytes = (text.toUTF8.data.toList.map fun byte => (charOf byte).toLower) ↔
      encodeChars bytes = text.toList.map Char.toLower := by
  have lower (chars : ∀ char ∈ text.toList, IsDigit char) :
      (text.toUTF8.data.toList.map fun byte => (charOf byte).toLower) =
        text.toList.map Char.toLower := by
    rw [← map_charOf_toUTF8 chars, List.map_map]
    rfl
  constructor
  · intro written
    rw [written]
    apply lower
    apply isDigit_bytes_iff.mp
    exact isDigit_of_encodeChars written
  · intro written
    rw [written]
    exact (lower (isDigit_of_encodeChars written)).symm

end Hex

/-! ### Digests -/

namespace Digest

variable {text : String} {digest : Digest}

theorem toHex_eq_toLower_iff : digest.toHex = text.toLower ↔
    Hex.encodeChars digest.bytes.reverse = text.toList.map Char.toLower := by
  have lower : text.toLower.toList = text.toList.map Char.toLower := String.toList_map
  rw [toHex, Hex.encode, ← String.toList_inj, String.toList_ofList, lower]

/-- **A text shows a digest** when the digits that show the digest are the text in lower case. -/
theorem ofHex_eq_ok_iff : ofHex text = .ok digest ↔ digest.toHex = text.toLower := by
  have long : digest.bytes.reverse.length = 32 := by simp [digest.length_bytes]
  rw [ofHex_eq_ok_iff_decode, Hex.decodeExactly_eq_ok_iff, and_iff_right long,
    Hex.encodeChars_eq_lower_iff, toHex_eq_toLower_iff]

/-- **Why a text shows no digest.** -/
theorem ofHex_eq_error_iff {problem : HexError} : ofHex text = .error problem ↔
    Hex.RefusedFor 32 text.toUTF8.data.toList problem := by
  rw [← Hex.decodeExactly_eq_error_iff]
  unfold ofHex
  split
  · next refused =>
    rw [refused, Except.error.injEq, Except.error.injEq]
  · next found =>
    constructor
    · intro impossible
      cases impossible
    · intro refused
      rw [found] at refused
      cases refused

/-- **The texts that show a digest** are those of sixty-four digits, of either case. -/
theorem exists_ofHex_iff : (∃ digest, ofHex text = .ok digest) ↔
    text.length = 64 ∧ ∀ char ∈ text.toList, Hex.IsDigit char := by
  constructor
  · rintro ⟨digest, accepted⟩
    have characters := toHex_eq_toLower_iff.mp (ofHex_eq_ok_iff.mp accepted)
    constructor
    · rw [← String.length_toList, ← List.length_map (f := Char.toLower), ← characters,
        Hex.length_encodeChars, List.length_reverse, digest.length_bytes]
    · exact Hex.isDigit_of_encodeChars characters
  · rintro ⟨long, chars⟩
    have bytes : text.toUTF8.data.toList.length = 2 * 32 := by
      rw [← List.length_map (f := Hex.charOf), Hex.map_charOf_toUTF8 chars, String.length_toList,
        long]
    obtain ⟨read, accepted⟩ := Hex.exists_of_digits bytes (Hex.isDigit_bytes_iff.mpr chars)
    refine ⟨⟨read.reverse, by simpa using Hex.decodeExactly_length accepted⟩, ?_⟩
    rw [ofHex_eq_ok_iff_decode, accepted, List.reverse_reverse]

end Digest

end Reorg

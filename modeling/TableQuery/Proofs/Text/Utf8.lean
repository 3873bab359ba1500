import TableQuery.Proofs.Except
import TableQuery.Proofs.Text.Lines
import TableQuery.Table.Reader

/-!
# Decoding what has been encoded

The bytes of a text are decoded to this text.  A line feed is one byte that occurs in no
other character, so the lines of the bytes are those of the text.
-/

namespace TableQuery
namespace Text
namespace Utf8

/-- The bytes of a text. -/
def encode (s : List Char) : List UInt8 :=
  s.flatMap String.utf8EncodeChar

@[simp] theorem encode_nil : encode [] = [] :=
  rfl

@[simp] theorem encode_cons (c : Char) (s : List Char) :
    encode (c :: s) = String.utf8EncodeChar c ++ encode s :=
  List.flatMap_cons

theorem toNat_ofNat_of_lt {n : Nat} (h : n < 256) : (UInt8.ofNat n).toNat = n :=
  Nat.mod_eq_of_lt h

/-! ## One byte at a time -/

section

variable {index b : Nat} {bytes : List UInt8} {p : Pending}

theorem decodeFrom_begin (hb : b < 256) (hhigh : 128 ≤ b) (hbegin : begin? index b = some p) :
    decodeFrom index none (UInt8.ofNat b :: bytes) = decodeFrom (index + 1) (some p) bytes := by
  rw [decodeFrom, toNat_ofNat_of_lt hb, if_neg (Nat.not_lt.mpr hhigh), hbegin]

theorem decodeFrom_continue (hb : b < 256) (hlow : p.low ≤ b) (hhigh : b ≤ p.high)
    (howed : p.owed ≠ 1) :
    decodeFrom index (some p) (UInt8.ofNat b :: bytes) =
      decodeFrom (index + 1)
        (some ⟨p.start, p.seen + 1, p.owed - 1, 128, 191, p.value * 64 + b % 64⟩) bytes := by
  rw [decodeFrom, toNat_ofNat_of_lt hb, if_pos ⟨hlow, hhigh⟩, if_neg howed]

theorem decodeFrom_end (hb : b < 256) (hlow : p.low ≤ b) (hhigh : b ≤ p.high)
    (howed : p.owed = 1) {c : Char} (hc : p.value * 64 + b % 64 = c.toNat) :
    decodeFrom index (some p) (UInt8.ofNat b :: bytes) =
      (decodeFrom (index + 1) none bytes).map (c :: ·) := by
  rw [decodeFrom, toNat_ofNat_of_lt hb, if_pos ⟨hlow, hhigh⟩, if_pos howed]
  simp only [hc, Char.ofNat_toNat]

end

/-! ## Characters -/

/-- Code points are not surrogates. -/
theorem toNat_char (c : Char) : c.toNat < 0xd800 ∨ 0xdfff < c.toNat ∧ c.toNat < 0x110000 :=
  c.valid

theorem decodeFrom_two {c : Char} (hlow : 0x80 ≤ c.toNat) (hhigh : c.toNat ≤ 0x7ff) (index : Nat)
    (bytes : List UInt8) :
    decodeFrom index none
        (UInt8.ofNat (c.toNat / 64 % 32 + 192) :: UInt8.ofNat (c.toNat % 64 + 128) :: bytes) =
      (decodeFrom (index + 2) none bytes).map (c :: ·) := by
  have hbegin : begin? index (c.toNat / 64 % 32 + 192) =
      some ⟨index, 1, 1, 128, 191, c.toNat / 64 % 32 + 192 - 192⟩ :=
    if_pos (by omega)
  rw [decodeFrom_begin (by omega) (by omega) hbegin]
  exact decodeFrom_end (by omega) (by dsimp only; omega) (by dsimp only; omega) rfl
    (by dsimp only; omega)

/-- The first byte of a character of three bytes says which second bytes may follow it. -/
theorem begin?_three {c : Char} (hlow : 0x800 ≤ c.toNat) (hhigh : c.toNat ≤ 0xffff) (index : Nat) :
    ∃ low high value, begin? index (c.toNat / 4096 % 16 + 224) =
        some ⟨index, 1, 2, low, high, value⟩ ∧ value = c.toNat / 4096 ∧
      low ≤ c.toNat / 64 % 64 + 128 ∧ c.toNat / 64 % 64 + 128 ≤ high := by
  have hchar := toNat_char c
  unfold begin?
  split
  · omega
  -- Behind 0xe0 a low byte would be overlong, behind 0xed a high one would be a surrogate.
  split
  · exact ⟨_, _, _, rfl, by omega, by omega, by omega⟩
  split
  · exact ⟨_, _, _, rfl, by omega, by omega, by omega⟩
  split
  · exact ⟨_, _, _, rfl, by omega, by omega, by omega⟩
  · omega

theorem decodeFrom_three {c : Char} (hlow : 0x800 ≤ c.toNat) (hhigh : c.toNat ≤ 0xffff)
    (index : Nat) (bytes : List UInt8) :
    decodeFrom index none
        (UInt8.ofNat (c.toNat / 4096 % 16 + 224) :: UInt8.ofNat (c.toNat / 64 % 64 + 128) ::
          UInt8.ofNat (c.toNat % 64 + 128) :: bytes) =
      (decodeFrom (index + 3) none bytes).map (c :: ·) := by
  obtain ⟨low, high, value, hbegin, hvalue, hsecond⟩ := begin?_three hlow hhigh index
  rw [decodeFrom_begin (by omega) (by omega) hbegin,
    decodeFrom_continue (by omega) hsecond.1 hsecond.2 (by simp)]
  exact decodeFrom_end (by omega) (by dsimp only; omega) (by dsimp only; omega) rfl
    (by dsimp only; omega)

/-- The first byte of a character of four bytes says which second bytes may follow it. -/
theorem begin?_four {c : Char} (hlow : 0x10000 ≤ c.toNat) (index : Nat) :
    ∃ low high value, begin? index (c.toNat / 262144 % 8 + 240) =
        some ⟨index, 1, 3, low, high, value⟩ ∧ value = c.toNat / 262144 ∧
      low ≤ c.toNat / 4096 % 64 + 128 ∧ c.toNat / 4096 % 64 + 128 ≤ high := by
  have hchar := toNat_char c
  unfold begin?
  split
  · omega
  split
  · omega
  split
  · omega
  split
  · omega
  split
  · exact ⟨_, _, _, rfl, by omega, by omega, by omega⟩
  split
  · exact ⟨_, _, _, rfl, by omega, by omega, by omega⟩
  split
  · exact ⟨_, _, _, rfl, by omega, by omega, by omega⟩
  · omega

theorem decodeFrom_four {c : Char} (hlow : 0x10000 ≤ c.toNat) (index : Nat) (bytes : List UInt8) :
    decodeFrom index none
        (UInt8.ofNat (c.toNat / 262144 % 8 + 240) :: UInt8.ofNat (c.toNat / 4096 % 64 + 128) ::
          UInt8.ofNat (c.toNat / 64 % 64 + 128) :: UInt8.ofNat (c.toNat % 64 + 128) :: bytes) =
      (decodeFrom (index + 4) none bytes).map (c :: ·) := by
  have hchar := toNat_char c
  obtain ⟨low, high, value, hbegin, hvalue, hsecond⟩ := begin?_four hlow index
  rw [decodeFrom_begin (by omega) (by omega) hbegin,
    decodeFrom_continue (by omega) hsecond.1 hsecond.2 (by simp),
    decodeFrom_continue (by omega) (by dsimp only; omega) (by dsimp only; omega) (by simp)]
  exact decodeFrom_end (by omega) (by dsimp only; omega) (by dsimp only; omega) rfl
    (by dsimp only; omega)

/-- The bytes of a character are decoded to it, whatever follows them. -/
theorem decodeFrom_encodeChar (c : Char) (index : Nat) (bytes : List UInt8) :
    ∃ index', decodeFrom index none (String.utf8EncodeChar c ++ bytes) =
      (decodeFrom index' none bytes).map (c :: ·) := by
  unfold String.utf8EncodeChar
  -- The encoding looks at the code point as a number of its own.
  change ∃ index', decodeFrom index none ((if c.toNat ≤ 127 then [UInt8.ofNat c.toNat] else
    if c.toNat ≤ 2047 then _ else if c.toNat ≤ 65535 then _ else _) ++ bytes) = _
  split
  · refine ⟨index + 1, ?_⟩
    rw [List.singleton_append, decodeFrom, toNat_ofNat_of_lt (by omega), if_pos (by omega),
      Char.ofNat_toNat]
  split
  · exact ⟨index + 2, decodeFrom_two (by omega) (by omega) index bytes⟩
  split
  · exact ⟨index + 3, decodeFrom_three (by omega) (by omega) index bytes⟩
  · exact ⟨index + 4, decodeFrom_four (by omega) index bytes⟩

theorem decodeFrom_encode (s : List Char) (index : Nat) :
    decodeFrom index none (encode s) = .ok s := by
  induction s generalizing index with
  | nil => rfl
  | cons c s ih =>
    obtain ⟨index', hdecode⟩ := decodeFrom_encodeChar c index (encode s)
    rw [encode_cons, hdecode, ih]
    rfl

theorem decode_encode (s : List Char) : decode (encode s) = .ok s :=
  decodeFrom_encode s 0

/-! ## Lines -/

theorem ofNat_beq_ten {n : Nat} (hlt : n < 256) (hne : n ≠ 10) : (UInt8.ofNat n == 10) = false := by
  rw [beq_eq_false_iff_ne]
  intro heq
  have htoNat := congrArg UInt8.toNat heq
  rw [toNat_ofNat_of_lt hlt] at htoNat
  exact hne htoNat

/-- The byte of a line feed is part of no other character. -/
theorem beq_ten_of_mem_encodeChar {c : Char} (hc : c ≠ '\n') :
    ∀ b ∈ String.utf8EncodeChar c, (b == 10) = false := by
  have hten : c.toNat ≠ 10 := fun h => hc (Char.toNat_inj.mp h)
  have hchar := toNat_char c
  unfold String.utf8EncodeChar
  change ∀ b ∈ (if c.toNat ≤ 127 then [UInt8.ofNat c.toNat] else
    if c.toNat ≤ 2047 then _ else if c.toNat ≤ 65535 then _ else _), _
  split
  · simpa using ofNat_beq_ten (by omega) hten
  split
  · simp only [List.forall_mem_cons]
    exact ⟨ofNat_beq_ten (by omega) (by omega), ofNat_beq_ten (by omega) (by omega), nofun⟩
  split
  · simp only [List.forall_mem_cons]
    exact ⟨ofNat_beq_ten (by omega) (by omega), ofNat_beq_ten (by omega) (by omega),
      ofNat_beq_ten (by omega) (by omega), nofun⟩
  · simp only [List.forall_mem_cons]
    exact ⟨ofNat_beq_ten (by omega) (by omega), ofNat_beq_ten (by omega) (by omega),
      ofNat_beq_ten (by omega) (by omega), ofNat_beq_ten (by omega) (by omega), nofun⟩

theorem encodeChar_ne_nil (c : Char) : String.utf8EncodeChar c ≠ [] := by
  intro h
  have hlength := String.length_utf8EncodeChar c
  rw [h, List.length_nil] at hlength
  exact absurd hlength (Nat.ne_of_lt c.utf8Size_pos)

theorem pieces_encode (s : List Char) :
    pieces (· == 10) (encode s) = (pieces (· == '\n') s).map encode := by
  induction s with
  | nil => rfl
  | cons c s ih =>
    by_cases hc : c = '\n'
    · subst hc
      have hfeed : encode ('\n' :: s) = 10 :: encode s := rfl
      rw [hfeed, pieces, pieces, if_pos (by decide), if_pos (by decide), ih]
      rfl
    · rw [encode_cons, pieces_append_of_forall (beq_ten_of_mem_encodeChar hc) (encodeChar_ne_nil c),
        ih, pieces, if_neg (by simpa using hc)]
      cases pieces (· == '\n') s with
      | nil => simp
      | cons piece others => simp

end Utf8
end Text

/-- The lines of the bytes of a text are the lines of the text. -/
theorem InputLine.ofBytes_encode (s : List Char) :
    InputLine.ofBytes (Text.Utf8.encode s) = InputLine.ofText s := by
  rw [InputLine.ofBytes, Text.Utf8.pieces_encode, InputLine.ofText, Text.lines, List.map_map,
    List.map_map]
  refine List.map_congr_left fun line _ => ?_
  rw [Function.comp_apply, Text.Utf8.decode_encode]
  rfl

end TableQuery

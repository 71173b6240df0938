import MiniLisp.Text.Utf8

namespace MiniLisp.Text

/-!
# Decoding what was encoded

Whether bytes are text does not depend on positions, and so not on the windows in
which a stream is decoded.  `Taking` is what one byte does to a decoder, and
`Decodes` is a run of bytes, both without positions.

The bytes of a text decode to the text.  None of its characters begins with a byte
that could continue another character; hence bytes in front of a text that decode
together with it are a text by themselves, and decode with every other text.
-/

/-- Everything that taking a byte can do with a character begun, or with none. -/
inductive Taking : Option Begun → UInt8 → Option Char → Option Begun → Prop where
  | ascii
      {byte : UInt8}
      (isAscii : byte.toNat < 0x80) :
      Taking none byte (some (Char.ofNat byte.toNat)) none
  | first
      {byte : UInt8}
      {begun : Begun}
      (notAscii : ¬byte.toNat < 0x80)
      (begins : Begun.ofFirst? byte = some begun) :
      Taking none byte none (some begun)
  | next
      {begun : Begun}
      {byte : UInt8}
      {count : Nat}
      (more : begun.afterNext = count + 1)
      (fits : begun.low ≤ byte.toNat ∧ byte.toNat ≤ begun.high)
      (plain : begun.isSurrogate = false) :
      Taking (some begun) byte none
        (some ⟨begun.first, begun.seen + 1, count, 0x80, 0xBF,
          begun.bits * 0x40 + (byte.toNat - 0x80)⟩)
  | last
      {begun : Begun}
      {byte : UInt8}
      (noMore : begun.afterNext = 0)
      (fits : begun.low ≤ byte.toNat ∧ byte.toNat ≤ begun.high)
      (plain : begun.isSurrogate = false) :
      Taking (some begun) byte
        (some (Char.ofNat (begun.bits * 0x40 + (byte.toNat - 0x80)))) none

namespace Taking

variable {begun middle : Option Begun} {byte : UInt8} {char? : Option Char}

/-- The decoder takes the byte this way at every position. -/
theorem take
    (taking : Taking begun byte char? middle)
    (position : Nat) :
    Decoder.take ⟨position, begun⟩ byte = .ok (char?, ⟨position + 1, middle⟩) := by
  cases taking with
  | ascii isAscii =>
      simp only [Decoder.take, isAscii, ↓reduceIte]
  | first notAscii begins =>
      simp only [Decoder.take, notAscii, ↓reduceIte, begins]
  | next more fits plain =>
      simp [Decoder.take, more, fits, plain]
  | last noMore fits plain =>
      simp [Decoder.take, noMore, fits, plain]

/-- The decoder takes bytes in no other way. -/
theorem of_take
    {decoder after : Decoder}
    (taken : decoder.take byte = .ok (char?, after)) :
    Taking decoder.begun byte char? after.begun := by
  obtain ⟨position, begun⟩ := decoder
  cases begun with
  | none =>
      simp only [Decoder.take] at taken
      by_cases isAscii : byte.toNat < 0x80
      · simp only [isAscii, ↓reduceIte] at taken
        cases taken
        exact .ascii isAscii
      · simp only [isAscii, ↓reduceIte] at taken
        cases begins : Begun.ofFirst? byte with
        | none =>
            simp only [begins] at taken
            cases taken
        | some begun =>
            simp only [begins] at taken
            cases taken
            exact .first isAscii begins
  | some begun =>
      simp only [Decoder.take] at taken
      by_cases fits : begun.low ≤ byte.toNat ∧ byte.toNat ≤ begun.high ∧ !begun.isSurrogate
      · have plain : begun.isSurrogate = false := by
          simpa using fits.2.2
        rw [if_pos fits] at taken
        cases count : begun.afterNext with
        | zero =>
            simp only [count] at taken
            cases taken
            exact .last count ⟨fits.1, fits.2.1⟩ plain
        | succ more =>
            simp only [count] at taken
            cases taken
            exact .next count ⟨fits.1, fits.2.1⟩ plain
      · rw [if_neg fits] at taken
        cases taken

end Taking

/-- A run of the decoder over bytes, with the characters that they complete. -/
inductive Decodes : Option Begun → List UInt8 → List Char → Option Begun → Prop where
  | nil (begun : Option Begun) : Decodes begun [] [] begun
  | cons
      {begun middle last : Option Begun}
      {byte : UInt8}
      {char? : Option Char}
      {rest : List UInt8}
      {chars : List Char}
      (taking : Taking begun byte char? middle)
      (later : Decodes middle rest chars last) :
      Decodes begun (byte :: rest) (char?.toList ++ chars) last

/-- Beginning a new window changes the position only. -/
theorem Decoder.takeAll_cons
    (size left : Nat)
    (decoder : Decoder)
    (byte : UInt8)
    (rest : List UInt8) :
    ∃ position room,
      decoder.takeAll size left (byte :: rest) =
        take ⟨position, decoder.begun⟩ byte >>= fun taken =>
          taken.2.takeAll size room rest >>= fun later =>
            .ok (taken.1.toList ++ later.1, later.2) := by
  obtain ⟨current, room, sameBegun, window⟩ :
      ∃ current room,
        Decoder.mk current.position decoder.begun = current ∧
          (if left = 0 then (decoder.rewind, size) else (decoder, left)) = (current, room) := by
    by_cases full : left = 0
    · exact ⟨decoder.rewind, size, rfl, if_pos full⟩
    · exact ⟨decoder, left, rfl, if_neg full⟩
  refine ⟨current.position, room - 1, ?_⟩
  rw [sameBegun]
  simp only [takeAll, window]
  cases current.take byte with
  | error malformed =>
      rfl
  | ok taken =>
      obtain ⟨char?, next⟩ := taken
      dsimp only [bind, Except.bind]
      cases next.takeAll size (room - 1) rest with
      | error malformed =>
          rfl
      | ok later =>
          rfl

namespace Decodes

variable {begun middle last : Option Begun} {bytes more : List UInt8} {chars others : List Char}

theorem append
    (first : Decodes begun bytes chars middle)
    (second : Decodes middle more others last) :
    Decodes begun (bytes ++ more) (chars ++ others) last := by
  induction first with
  | nil =>
      exact second
  | cons taking later inductionHypothesis =>
      rw [List.append_assoc]
      exact .cons taking (inductionHypothesis second)

/-- A run splits anywhere. -/
theorem append_inv
    (whole : Decodes begun (bytes ++ more) chars last) :
    ∃ middle front back,
      Decodes begun bytes front middle ∧ Decodes middle more back last := by
  induction bytes generalizing begun chars with
  | nil =>
      exact ⟨begun, [], chars, .nil begun, whole⟩
  | cons byte rest inductionHypothesis =>
      cases whole with
      | cons taking later =>
          obtain ⟨middle, front, back, first, second⟩ := inductionHypothesis later
          exact ⟨middle, _, back, .cons taking first, second⟩

/-- The decoder runs this way whatever its position and its windows. -/
theorem takeAll
    (decodes : Decodes begun bytes chars last)
    (size left position : Nat) :
    ∃ final,
      Decoder.takeAll size left ⟨position, begun⟩ bytes = .ok (chars, final) ∧
        final.begun = last := by
  induction decodes generalizing left position with
  | nil begun =>
      exact ⟨⟨position, begun⟩, rfl, rfl⟩
  | @cons begun middle last byte char? rest chars taking later inductionHypothesis =>
      obtain ⟨start, room, step⟩ := Decoder.takeAll_cons size left ⟨position, begun⟩ byte rest
      obtain ⟨final, run, ends⟩ := inductionHypothesis room (start + 1)
      refine ⟨final, ?_, ends⟩
      rw [step, taking.take]
      change (Decoder.takeAll size room ⟨start + 1, middle⟩ rest >>= fun later =>
        Except.ok (char?.toList ++ later.1, later.2)) = _
      rw [run]
      rfl

/-- The decoder runs in no other way. -/
theorem of_takeAll
    {size left : Nat}
    {decoder final : Decoder}
    (run : decoder.takeAll size left bytes = .ok (chars, final)) :
    Decodes decoder.begun bytes chars final.begun := by
  induction bytes generalizing left decoder chars with
  | nil =>
      cases run
      exact .nil _
  | cons byte rest inductionHypothesis =>
      obtain ⟨start, room, step⟩ := Decoder.takeAll_cons size left decoder byte rest
      rw [step] at run
      cases first : Decoder.take ⟨start, decoder.begun⟩ byte with
      | error malformed =>
          rw [first] at run
          cases run
      | ok taken =>
          rw [first] at run
          change (taken.2.takeAll size room rest >>= fun later =>
            Except.ok (taken.1.toList ++ later.1, later.2)) = _ at run
          cases after : taken.2.takeAll size room rest with
          | error malformed =>
              rw [after] at run
              cases run
          | ok later =>
              rw [after] at run
              cases run
              have taking := Taking.of_take first
              exact .cons taking (inductionHypothesis after)

end Decodes

/-- Bytes decode as a stream, whatever the windows, if they end between characters. -/
theorem decodeStream_eq_ok_iff
    {size : Nat}
    {bytes : List UInt8}
    {chars : List Char} :
    decodeStream size bytes = .ok chars ↔ Decodes none bytes chars none := by
  constructor
  · intro decoded
    rw [decodeStream] at decoded
    cases run : Decoder.takeAll size size ⟨0, none⟩ bytes with
    | error malformed =>
        rw [run] at decoded
        cases decoded
    | ok result =>
        obtain ⟨others, position, begun⟩ := result
        rw [run] at decoded
        cases begun with
        | none =>
            cases decoded
            exact Decodes.of_takeAll run
        | some begun =>
            cases decoded
  · intro decodes
    obtain ⟨⟨position, begun⟩, run, ends⟩ := decodes.takeAll size size 0
    cases ends
    rw [decodeStream, run]
    rfl

/-- A byte that can continue a character. -/
def IsTail (byte : UInt8) : Prop :=
  0x80 ≤ byte.toNat ∧ byte.toNat ≤ 0xBF

section Characters

variable {first second third fourth : UInt8}

theorem decodes_two
    (firstLow : 0xC2 ≤ first.toNat)
    (firstHigh : first.toNat ≤ 0xDF)
    (secondTail : IsTail second) :
    Decodes none [first, second]
      [Char.ofNat ((first.toNat - 0xC0) * 0x40 + (second.toNat - 0x80))] none := by
  have begins : Begun.ofFirst? first = some ⟨first, 1, 0, 0x80, 0xBF, first.toNat - 0xC0⟩ := by
    simp [Begun.ofFirst?, firstLow, firstHigh]
  refine .cons (.first (by omega) begins) (.cons (.last rfl ?_ ?_) (.nil none))
  · exact secondTail
  · simp [Begun.isSurrogate]

theorem decodes_three
    (firstLow : 0xE0 ≤ first.toNat)
    (firstHigh : first.toNat ≤ 0xEF)
    (secondTail : IsTail second)
    (notShort : first.toNat = 0xE0 → 0xA0 ≤ second.toNat)
    (notSurrogate : first.toNat = 0xED → second.toNat < 0xA0)
    (thirdTail : IsTail third) :
    Decodes none [first, second, third]
      [Char.ofNat
        (((first.toNat - 0xE0) * 0x40 + (second.toNat - 0x80)) * 0x40 + (third.toNat - 0x80))]
      none := by
  have begins : Begun.ofFirst? first =
      some ⟨first, 1, 1, if first.toNat = 0xE0 then 0xA0 else 0x80, 0xBF, first.toNat - 0xE0⟩ := by
    have notTwo : ¬(0xC2 ≤ first.toNat ∧ first.toNat ≤ 0xDF) := by
      omega
    simp [Begun.ofFirst?, notTwo, firstLow, firstHigh]
  obtain ⟨secondLow, secondHigh⟩ := secondTail
  refine .cons (.first (by omega) begins)
    (.cons (.next rfl ?_ ?_) (.cons (.last rfl ?_ ?_) (.nil none)))
  · dsimp only
    split
    · next isE0 =>
        exact ⟨notShort isE0, secondHigh⟩
    · exact ⟨secondLow, secondHigh⟩
  · simp [Begun.isSurrogate]
  · exact thirdTail
  · -- Two bytes begin a surrogate if they are ED and then A0 or more.
    by_cases isED : first.toNat = 0xED
    · have below := notSurrogate isED
      have few : ¬864 ≤ (first.toNat - 0xE0) * 0x40 + (second.toNat - 0x80) := by
        omega
      simp [Begun.isSurrogate, few]
    · have different : first ≠ 0xED := fun same => isED (by rw [same]; rfl)
      simp [Begun.isSurrogate, different]

theorem decodes_four
    (firstLow : 0xF0 ≤ first.toNat)
    (firstHigh : first.toNat ≤ 0xF4)
    (secondTail : IsTail second)
    (notShort : first.toNat = 0xF0 → 0x90 ≤ second.toNat)
    (notPast : first.toNat = 0xF4 → second.toNat ≤ 0x8F)
    (thirdTail : IsTail third)
    (fourthTail : IsTail fourth) :
    Decodes none [first, second, third, fourth]
      [Char.ofNat
        ((((first.toNat - 0xF0) * 0x40 + (second.toNat - 0x80)) * 0x40 +
          (third.toNat - 0x80)) * 0x40 + (fourth.toNat - 0x80))]
      none := by
  have begins : Begun.ofFirst? first =
      some ⟨first, 1, 2, if first.toNat = 0xF0 then 0x90 else 0x80,
        if first.toNat = 0xF4 then 0x8F else 0xBF, first.toNat - 0xF0⟩ := by
    have notTwo : ¬(0xC2 ≤ first.toNat ∧ first.toNat ≤ 0xDF) := by
      omega
    have notThree : ¬(0xE0 ≤ first.toNat ∧ first.toNat ≤ 0xEF) := by
      omega
    simp [Begun.ofFirst?, notTwo, notThree, firstLow, firstHigh]
  obtain ⟨secondLow, secondHigh⟩ := secondTail
  have notED : first ≠ 0xED := by
    rintro rfl
    exact absurd firstLow (by decide)
  refine .cons (.first (by omega) begins)
    (.cons (.next rfl ?_ ?_)
      (.cons (.next rfl ?_ ?_) (.cons (.last rfl ?_ ?_) (.nil none))))
  · dsimp only
    split
    · next isF0 =>
        rw [if_neg (by omega)]
        exact ⟨notShort isF0, secondHigh⟩
    · split
      · next isF4 =>
          exact ⟨secondLow, notPast isF4⟩
      · exact ⟨secondLow, secondHigh⟩
  · simp [Begun.isSurrogate]
  · exact thirdTail
  · simp [Begun.isSurrogate, notED]
  · exact fourthTail
  · simp [Begun.isSurrogate]

/-- The bytes of a character decode to the character. -/
theorem decodes_utf8EncodeChar
    (c : Char) :
    Decodes none (String.utf8EncodeChar c) [c] none := by
  have same : Char.ofNat c.val.toNat = c := Char.ofNat_toNat c
  have valid : c.val.toNat < 0xD800 ∨ 0xDFFF < c.val.toNat ∧ c.val.toNat < 0x110000 := c.valid
  have byte (n : Nat) (small : n < 256) : (UInt8.ofNat n).toNat = n := by
    simp [Nat.mod_eq_of_lt small]
  unfold String.utf8EncodeChar
  generalize c.val.toNat = v at same valid ⊢
  dsimp only
  split
  · have firstByte := byte v (by omega)
    have run : Decodes none [UInt8.ofNat v] [Char.ofNat (UInt8.ofNat v).toNat] none :=
      .cons (.ascii (by omega)) (.nil none)
    rwa [firstByte, same] at run
  · split
    · have firstByte := byte (v / 64 % 32 + 192) (by omega)
      have secondByte := byte (v % 64 + 128) (by omega)
      have run : Decodes none
          [UInt8.ofNat (v / 64 % 32 + 192), UInt8.ofNat (v % 64 + 128)] _ none :=
        decodes_two (by omega) (by omega) ⟨by omega, by omega⟩
      rw [firstByte, secondByte] at run
      have value : (v / 64 % 32 + 192 - 0xC0) * 0x40 + (v % 64 + 128 - 0x80) = v := by
        omega
      rwa [value, same] at run
    · split
      · have firstByte := byte (v / 4096 % 16 + 224) (by omega)
        have secondByte := byte (v / 64 % 64 + 128) (by omega)
        have thirdByte := byte (v % 64 + 128) (by omega)
        have run : Decodes none
            [UInt8.ofNat (v / 4096 % 16 + 224), UInt8.ofNat (v / 64 % 64 + 128),
              UInt8.ofNat (v % 64 + 128)] _ none :=
          decodes_three (by omega) (by omega) ⟨by omega, by omega⟩ (by omega) (by omega)
            ⟨by omega, by omega⟩
        rw [firstByte, secondByte, thirdByte] at run
        have value :
            ((v / 4096 % 16 + 224 - 0xE0) * 0x40 + (v / 64 % 64 + 128 - 0x80)) * 0x40 +
              (v % 64 + 128 - 0x80) = v := by
          omega
        rwa [value, same] at run
      · have firstByte := byte (v / 262144 % 8 + 240) (by omega)
        have secondByte := byte (v / 4096 % 64 + 128) (by omega)
        have thirdByte := byte (v / 64 % 64 + 128) (by omega)
        have fourthByte := byte (v % 64 + 128) (by omega)
        have run : Decodes none
            [UInt8.ofNat (v / 262144 % 8 + 240), UInt8.ofNat (v / 4096 % 64 + 128),
              UInt8.ofNat (v / 64 % 64 + 128), UInt8.ofNat (v % 64 + 128)] _ none :=
          decodes_four (by omega) (by omega) ⟨by omega, by omega⟩ (by omega) (by omega)
            ⟨by omega, by omega⟩ ⟨by omega, by omega⟩
        rw [firstByte, secondByte, thirdByte, fourthByte] at run
        have value :
            (((v / 262144 % 8 + 240 - 0xF0) * 0x40 + (v / 4096 % 64 + 128 - 0x80)) * 0x40 +
              (v / 64 % 64 + 128 - 0x80)) * 0x40 + (v % 64 + 128 - 0x80) = v := by
          omega
        rwa [value, same] at run

end Characters

/-- The bytes of a text decode to the text. -/
theorem decodes_encode
    (text : List Char) :
    Decodes none (encode text) text none := by
  induction text with
  | nil =>
      exact .nil none
  | cons c rest inductionHypothesis =>
      exact (decodes_utf8EncodeChar c).append inductionHypothesis

/-- The bytes of a text, decoded as a whole, are the text. -/
theorem decode_encode
    (text : List Char) :
    decode (encode text) = .ok text := by
  obtain ⟨⟨position, begun⟩, run, ends⟩ := (decodes_encode text).takeAll 0 (encode text).length 0
  cases ends
  rw [decode, run]
  rfl

/-- A character begun that takes only bytes that can continue a character. -/
def Begun.TakesTails (begun : Begun) : Prop :=
  0x80 ≤ begun.low ∧ begun.high ≤ 0xBF

/-- What begins a character takes tails, and is no tail itself. -/
theorem Begun.takesTails_of_ofFirst?
    {byte : UInt8}
    {begun : Begun}
    (begins : Begun.ofFirst? byte = some begun) :
    begun.TakesTails ∧ ¬IsTail byte := by
  unfold ofFirst? at begins
  unfold TakesTails IsTail
  dsimp only at begins
  split at begins
  · cases begins
    dsimp only
    omega
  · split at begins
    · cases begins
      dsimp only
      split
      · omega
      · omega
    · split at begins
      · cases begins
        dsimp only
        split
        · rw [if_neg (by omega)]
          omega
        · split
          · omega
          · omega
      · cases begins

namespace Taking

variable {byte : UInt8} {char? : Option Char} {start middle : Option Begun}

/-- Between characters, no byte is taken that could continue one. -/
theorem not_isTail
    (taking : Taking none byte char? middle) :
    ¬IsTail byte := by
  cases taking with
  | ascii isAscii =>
      intro tail
      exact absurd isAscii (Nat.not_lt.mpr tail.1)
  | first notAscii begins =>
      exact (Begun.takesTails_of_ofFirst? begins).2

/-- Within a character, only bytes are taken that can continue one. -/
theorem isTail
    {begun : Begun}
    (tails : begun.TakesTails)
    (taking : Taking (some begun) byte char? middle) :
    IsTail byte := by
  have within (fits : begun.low ≤ byte.toNat ∧ byte.toNat ≤ begun.high) : IsTail byte :=
    ⟨Nat.le_trans tails.1 fits.1, Nat.le_trans fits.2 tails.2⟩
  cases taking with
  | next more fits plain =>
      exact within fits
  | last noMore fits plain =>
      exact within fits

/-- Whatever is begun after a byte takes only bytes that can continue a character. -/
theorem takesTails
    {begun : Begun}
    (taking : Taking start byte char? (some begun)) :
    begun.TakesTails := by
  cases taking with
  | first notAscii begins =>
      exact (Begun.takesTails_of_ofFirst? begins).1
  | next more fits plain =>
      exact ⟨Nat.le_refl _, Nat.le_refl _⟩

end Taking

/-- A run from between characters ends there, or where only tails are taken. -/
theorem Decodes.takesTails
    {start last : Option Begun}
    {bytes : List UInt8}
    {chars : List Char}
    (decodes : Decodes start bytes chars last)
    (startTails : ∀ begun, start = some begun → begun.TakesTails) :
    ∀ begun, last = some begun → begun.TakesTails := by
  induction decodes with
  | nil begun =>
      exact startTails
  | cons taking later inductionHypothesis =>
      apply inductionHypothesis
      rintro begun rfl
      exact taking.takesTails

/-- Bytes in front of a text, decoded together with it, are a text by themselves. -/
theorem Decodes.of_append_encode
    {bytes : List UInt8}
    {text chars : List Char}
    (nonempty : text ≠ [])
    (decodes : Decodes none (bytes ++ encode text) chars none) :
    ∃ front, Decodes none bytes front none := by
  obtain ⟨middle, front, back, first, second⟩ := decodes.append_inv
  cases middle with
  | none =>
      exact ⟨front, first⟩
  | some begun =>
      -- The text would have to continue the character that the bytes before it have begun.
      have tails : begun.TakesTails := first.takesTails nofun begun rfl
      have alone := decodes_encode text
      cases bytesOfText : encode text with
      | nil =>
          rw [bytesOfText] at alone
          cases alone
          exact absurd rfl nonempty
      | cons byte rest =>
          rw [bytesOfText] at alone second
          cases alone with
          | cons takenAlone _ =>
              cases second with
              | cons takenWithin _ =>
                  exact absurd (takenWithin.isTail tails) takenAlone.not_isTail

/-- If bytes decode with a text behind them, then they do so with any other text. -/
theorem decodeStream_append_encode
    {size : Nat}
    {bytes : List UInt8}
    {text chars : List Char}
    (nonempty : text ≠ [])
    (decoded : decodeStream size (bytes ++ encode text) = .ok chars)
    (other : List Char) :
    ∃ others, decodeStream size (bytes ++ encode other) = .ok others := by
  obtain ⟨front, decodes⟩ := Decodes.of_append_encode nonempty (decodeStream_eq_ok_iff.mp decoded)
  exact ⟨front ++ other, decodeStream_eq_ok_iff.mpr (decodes.append (decodes_encode other))⟩

end MiniLisp.Text

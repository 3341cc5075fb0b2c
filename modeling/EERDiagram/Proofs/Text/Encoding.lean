import EERDiagram.Text.Encoding
import EERDiagram.Proofs.Text.Splitting

/-! Text and its bytes. Decoding accepts nothing but what encoding writes, and the byte of a line
feed stands for nothing else, so a text and its bytes have the same lines. -/
namespace EERDiagram.Text

theorem followers?_eq_some (counted : followers? lead = some k) :
    k = 0 ∧ lead < 0x80 ∨ k = 1 ∧ 0xC2 ≤ lead ∧ lead < 0xE0 ∨ k = 2 ∧ 0xE0 ≤ lead ∧ lead < 0xF0 ∨
      k = 3 ∧ 0xF0 ≤ lead ∧ lead < 0xF5 := by
  simp only [followers?] at counted
  split_ifs at counted <;> simp only [Option.some.injEq] at counted <;> omega

/-- What may follow a lead byte keeps its character out of the shorter forms, out of the
surrogates and within the code points. -/
theorem of_mayFollow (follows : mayFollow lead b = true) :
    0x80 ≤ b ∧ b < 0xC0 ∧ (lead = 0xE0 → 0xA0 ≤ b) ∧ (lead = 0xED → b < 0xA0) ∧
      (lead = 0xF0 → 0x90 ≤ b) ∧ (lead = 0xF4 → b < 0x90) := by
  simp only [mayFollow, Bool.and_eq_true, decide_eq_true_eq, Bool.not_eq_true',
    Bool.and_eq_false_iff, beq_eq_false_iff_ne, decide_eq_false_iff_not] at follows
  omega

theorem decodeFollowers_zero (value seen : Nat) (bytes : List UInt8) :
    decodeFollowers 0 value seen bytes = .ok (value, bytes) := by
  cases bytes <;> rfl

theorem decodeFollowers_succ
    (decoded : decodeFollowers (left + 1) value seen bytes = .ok (n, rest)) :
    ∃ b more, bytes = b :: more ∧ 0x80 ≤ b.toNat ∧ b.toNat < 0xC0 ∧
      decodeFollowers left (0x40 * value + b.toNat % 0x40) (seen + 1) more = .ok (n, rest) := by
  cases bytes with
  | nil => simp [decodeFollowers] at decoded
  | cons b more =>
    simp only [decodeFollowers, Nat.add_one_ne_zero, if_false, Nat.add_one_sub_one] at decoded
    split at decoded
    next continued =>
      simp only [continues, Bool.and_eq_true, decide_eq_true_eq] at continued
      exact ⟨b, more, rfl, continued.1, continued.2, decoded⟩
    next => contradiction

theorem encodeChar_ofNat (valid : n.isValidChar) :
    encodeChar (Char.ofNat n) =
      if n < 0x80 then [n.toUInt8]
      else if n < 0x800 then [(0xC0 + n / 0x40).toUInt8, (0x80 + n % 0x40).toUInt8]
      else if n < 0x10000 then
        [(0xE0 + n / 0x1000).toUInt8, (0x80 + n / 0x40 % 0x40).toUInt8, (0x80 + n % 0x40).toUInt8]
      else
        [(0xF0 + n / 0x40000).toUInt8, (0x80 + n / 0x1000 % 0x40).toUInt8,
          (0x80 + n / 0x40 % 0x40).toUInt8, (0x80 + n % 0x40).toUInt8] := by
  have own : (Char.ofNat n).toNat = n := by
    rw [Char.ofNat, dif_pos valid]
    rfl
  rw [encodeChar, own]

theorem toUInt8_eq {b : UInt8} (same : n = b.toNat) : n.toUInt8 = b := by
  rw [same]
  exact UInt8.ofNat_toNat

theorem encodeChar_of_decoded (decoded : decodeCodePoint lead bytes = .ok (n, rest)) :
    encodeChar (Char.ofNat n) ++ rest = lead :: bytes := by
  simp only [decodeCodePoint] at decoded
  split at decoded
  next => contradiction
  next counted =>
    obtain ⟨rfl, rfl⟩ := Prod.mk.inj (Except.ok.inj decoded)
    have small : lead.toNat < 0x80 := by have := followers?_eq_some counted; omega
    rw [encodeChar_ofNat (by omega), if_pos small, toUInt8_eq rfl]
    rfl
  next more counted =>
    have leads := followers?_eq_some counted
    split at decoded
    next => contradiction
    next b others =>
      split at decoded
      next follows =>
        obtain ⟨lower, upper, long, surrogate, longer, last⟩ := of_mayFollow follows
        obtain rfl | rfl | rfl : more = 0 ∨ more = 1 ∨ more = 2 := by omega
        · rw [decodeFollowers_zero] at decoded
          obtain ⟨same, rfl⟩ := Prod.mk.inj (Except.ok.inj decoded)
          simp only [Nat.pow_eq] at same
          rw [encodeChar_ofNat (by omega), if_neg (by omega), if_pos (by omega),
            toUInt8_eq (b := lead) (by omega), toUInt8_eq (b := b) (by omega)]
          rfl
        · obtain ⟨c, tail, rfl, lowerC, upperC, decoded⟩ := decodeFollowers_succ decoded
          rw [decodeFollowers_zero] at decoded
          obtain ⟨same, rfl⟩ := Prod.mk.inj (Except.ok.inj decoded)
          simp only [Nat.pow_eq] at same
          rw [encodeChar_ofNat (by omega), if_neg (by omega), if_neg (by omega), if_pos (by omega),
            toUInt8_eq (b := lead) (by omega), toUInt8_eq (b := b) (by omega),
            toUInt8_eq (b := c) (by omega)]
          rfl
        · obtain ⟨c, tail, rfl, lowerC, upperC, decoded⟩ := decodeFollowers_succ decoded
          obtain ⟨d, tail, rfl, lowerD, upperD, decoded⟩ := decodeFollowers_succ decoded
          rw [decodeFollowers_zero] at decoded
          obtain ⟨same, rfl⟩ := Prod.mk.inj (Except.ok.inj decoded)
          simp only [Nat.pow_eq] at same
          rw [encodeChar_ofNat (by omega), if_neg (by omega), if_neg (by omega), if_neg (by omega),
            toUInt8_eq (b := lead) (by omega), toUInt8_eq (b := b) (by omega),
            toUInt8_eq (b := c) (by omega), toUInt8_eq (b := d) (by omega)]
          rfl
      next => contradiction

theorem length_encodeChar_pos (c : Char) : 0 < (encodeChar c).length := by
  simp only [encodeChar]
  split_ifs <;> simp

theorem encode_of_decodeFrom (short : bytes.length ≤ fuel)
    (decoded : decodeFrom fuel position bytes = .ok s) : encode s = bytes := by
  induction fuel generalizing position bytes s with
  | zero =>
    obtain rfl := List.length_eq_zero_iff.mp (Nat.le_zero.mp short)
    simp only [decodeFrom] at decoded
    obtain rfl := Except.ok.inj decoded
    rfl
  | succ fuel ih =>
    cases bytes with
    | nil =>
      simp only [decodeFrom] at decoded
      obtain rfl := Except.ok.inj decoded
      rfl
    | cons lead more =>
      simp only [decodeFrom] at decoded
      split at decoded
      next => contradiction
      next n rest point =>
        split at decoded
        next => contradiction
        next chars others =>
          obtain rfl := Except.ok.inj decoded
          have front := encodeChar_of_decoded point
          have shorter := congrArg List.length front
          have := length_encodeChar_pos (Char.ofNat n)
          simp only [List.length_append, List.length_cons] at shorter short
          rw [encode, List.flatMap_cons, ← encode, ih (by omega) others, front]

/-- Bytes that are a text are the bytes of that text. -/
theorem encode_decode (decoded : decode bytes = .ok s) : encode s = bytes :=
  encode_of_decodeFrom (Nat.le_refl _) decoded

def feed : UInt8 := 10

theorem feed_ne_toUInt8 (small : n < 256) (other : n ≠ 10) : feed ≠ n.toUInt8 := by
  intro same
  have values := congrArg UInt8.toNat same
  rw [Nat.toUInt8, UInt8.toNat_ofNat', Nat.mod_eq_of_lt small] at values
  exact other values.symm

theorem feed_not_mem_encodeChar (other : c ≠ '\n') : feed ∉ encodeChar c := by
  have different : c.toNat ≠ 10 := by
    intro same
    apply other
    rw [← Char.ofNat_toNat c, same]
  have bound : c.toNat < 0x110000 := by
    rcases c.valid with low | ⟨-, high⟩
    · exact Nat.lt_trans low (by decide)
    · exact high
  simp only [encodeChar]
  split_ifs <;> simp only [List.mem_cons, List.not_mem_nil, or_false, not_or]
  · exact feed_ne_toUInt8 (by omega) different
  · exact ⟨feed_ne_toUInt8 (by omega) (by omega), feed_ne_toUInt8 (by omega) (by omega)⟩
  · exact ⟨feed_ne_toUInt8 (by omega) (by omega), feed_ne_toUInt8 (by omega) (by omega),
      feed_ne_toUInt8 (by omega) (by omega)⟩
  · exact ⟨feed_ne_toUInt8 (by omega) (by omega), feed_ne_toUInt8 (by omega) (by omega),
      feed_ne_toUInt8 (by omega) (by omega), feed_ne_toUInt8 (by omega) (by omega)⟩

theorem feed_not_mem_encode (single : '\n' ∉ s) : feed ∉ encode s := by
  intro member
  obtain ⟨c, inside, byte⟩ := List.mem_flatMap.mp member
  exact feed_not_mem_encodeChar (fun same => single (same ▸ inside)) byte

theorem encode_append (s t : List Char) : encode (s ++ t) = encode s ++ encode t :=
  List.flatMap_append

/-- The lines of the bytes are the bytes of the lines. -/
theorem splitOn_encode_joinLines {lines : List (List Char)} (nonempty : lines ≠ [])
    (single : ∀ line ∈ lines, '\n' ∉ line) :
    (encode (joinLines lines)).splitOn feed = lines.map encode := by
  induction lines with
  | nil => contradiction
  | cons line rest ih =>
    have first := feed_not_mem_encode (single line List.mem_cons_self)
    cases rest with
    | nil => exact List.splitOn_eq_singleton first
    | cons next others =>
      have later := ih (by simp) fun l member => single l (List.mem_cons_of_mem _ member)
      have front : encode (joinLines (line :: next :: others)) =
          encode line ++ feed :: encode (joinLines (next :: others)) := encode_append line _
      rw [front, List.splitOn_append_cons_self_of_not_mem first, later]
      rfl

theorem splitOn_encode (s : List Char) : (encode s).splitOn feed = (splitLines s).map encode := by
  have lines := splitOn_encode_joinLines (splitLines_ne_nil s) (feed_not_mem_of_splitLines s)
  rwa [joinLines_splitLines] at lines

end EERDiagram.Text

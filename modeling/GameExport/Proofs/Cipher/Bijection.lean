import GameExport.Proofs.Cipher.Inverse
import Mathlib.Data.FinEnum
import Mathlib.Data.Finite.Prod

/-! # Encrypting what was decrypted

Blocks are finitely many, so a way to encrypt them that can be undone reaches all of them, and
decrypting is undone as well. Main statement: encrypting fills a byte string up to whole blocks and
chains them, decrypting takes exactly the strings of whole blocks, and each undoes the other up to
the zeros at the end.
-/

namespace GameExport.Cipher

/-! ## Blocks -/

instance : Finite Column := by
  refine Finite.of_injective (fun column : Column =>
    (column.first, column.second, column.third, column.fourth)) ?_
  intro left right same
  cases left
  cases right
  simpa using same

instance : Finite Block := by
  refine Finite.of_injective (fun block : Block =>
    (block.first, block.second, block.third, block.fourth)) ?_
  intro left right same
  cases left
  cases right
  simpa using same

theorem Block.encrypt_decrypt (keys : List Block) (block : Block) :
    (block.decrypt keys).encrypt keys = block := by
  have undone : Function.LeftInverse (decrypt keys) (encrypt keys) := decrypt_encrypt keys
  have reached := Finite.injective_iff_surjective.mp undone.injective
  exact undone.rightInverse_of_surjective reached block

-- the known answer for the key 00 01 .. 17
example : (Block.ofBytes [0x00, 0x11, 0x22, 0x33, 0x44, 0x55, 0x66, 0x77, 0x88, 0x99, 0xAA, 0xBB,
      0xCC, 0xDD, 0xEE, 0xFF]).encrypt (roundKeys ((List.range 24).map UInt8.ofNat)) =
    Block.ofBytes [0xDD, 0xA9, 0x7C, 0xA4, 0x86, 0x4C, 0xDF, 0xE0, 0x6E, 0xAF, 0x70, 0xA0, 0xEC,
      0x0D, 0x71, 0x91] := by
  decide +kernel

/-! ## Chains -/

theorem encryptChain_decryptChain (keys : List Block) (before : Block) (blocks : List Block) :
    encryptChain keys before (decryptChain keys before blocks) = blocks := by
  induction blocks generalizing before with
  | nil => rfl
  | cons block rest induction =>
      rw [decryptChain, encryptChain, Block.add_add, Block.encrypt_decrypt, induction]

/-- Each block is added to the encrypted block before it, and then encrypted. -/
theorem encryptChain_eq_zipWith (keys : List Block) (before : Block) (blocks : List Block) :
    encryptChain keys before blocks =
      List.zipWith (fun block before => (block.add before).encrypt keys) blocks
        (before :: encryptChain keys before blocks) := by
  induction blocks generalizing before with
  | nil => rfl
  | cons block rest induction =>
      rw [encryptChain, List.zipWith_cons_cons, ← induction]

theorem encrypt_ofBlocks_decryptChain {bytes : Bytes} (whole : 16 ∣ bytes.length) :
    encrypt (ofBlocks (decryptChain descriptorKeys startBlock (toBlocks bytes))) = bytes := by
  have unfilled : paddingOf bytes.length = 0 := by
    unfold paddingOf
    omega
  rw [encrypt, toBlocks_ofBlocks, encryptChain_decryptChain, ofBlocks_toBlocks, unfilled,
    List.replicate_zero, List.append_nil]

/-! ## Zeros at the end -/

theorem stripPadding_split (bytes : Bytes) :
    (∃ zeros, bytes = stripPadding bytes ++ List.replicate zeros 0) ∧
      (stripPadding bytes).getLast? ≠ some 0 := by
  induction bytes using List.reverseRecOn with
  | nil => exact ⟨⟨0, rfl⟩, by simp [stripPadding, Bytes.dropTrailing]⟩
  | append_singleton front last induction =>
      by_cases zero : last = 0
      · subst zero
        have shorter : stripPadding (front ++ [0]) = stripPadding front :=
          stripPadding_append front 1
        obtain ⟨⟨zeros, split⟩, ends⟩ := induction
        rw [shorter]
        refine ⟨⟨zeros + 1, ?_⟩, ends⟩
        rw [List.replicate_succ', ← List.append_assoc, ← split]
      · rw [stripPadding_of_last zero]
        refine ⟨⟨0, by simp⟩, ?_⟩
        rw [List.getLast?_concat]
        exact fun same => zero (Option.some.inj same)

theorem stripPadding_eq_self_iff {bytes : Bytes} :
    stripPadding bytes = bytes ↔ bytes.getLast? ≠ some 0 := by
  constructor
  · intro same
    have ends := (stripPadding_split bytes).2
    rwa [same] at ends
  · intro ends
    induction bytes using List.reverseRecOn with
    | nil => rfl
    | append_singleton front last _ =>
        rw [List.getLast?_concat] at ends
        exact stripPadding_of_last (fun zero => ends (congrArg some zero)) front

/-! ## Descriptors -/

theorem paddingOf_lt (length : Nat) : paddingOf length < 16 := Nat.mod_lt _ (by decide)

theorem add_paddingOf (length : Nat) : length + paddingOf length = (length + 15) / 16 * 16 := by
  unfold paddingOf
  omega

theorem decrypt_of_whole {bytes : Bytes} (whole : 16 ∣ bytes.length) :
    decrypt bytes = .ok (ofBlocks (decryptChain descriptorKeys startBlock (toBlocks bytes))) := by
  have fits : bytes.length % Block.size = 0 := Nat.mod_eq_zero_of_dvd whole
  rw [decrypt, decrypt?, if_pos fits]

theorem decrypt_of_not_whole {bytes : Bytes} (cut : ¬ 16 ∣ bytes.length) :
    decrypt bytes = .error (.length bytes.length) := by
  have left : ¬ bytes.length % Block.size = 0 := fun whole => cut (Nat.dvd_of_mod_eq_zero whole)
  rw [decrypt, decrypt?, if_neg left]

/-- Encrypting and decrypting undo each other. What is encrypted is filled up with zeros to whole
blocks, each of which is chained to the encrypted one before it; what is decrypted has to be whole
blocks, and then it is what the result is encrypted to. Stripping gives back what was encrypted
without the zeros at its end. -/
theorem encrypt_invertible (plain bytes : Bytes) :
    ((encrypt plain).length = (plain.length + 15) / 16 * 16 ∧
      toBlocks (encrypt plain) =
        List.zipWith (fun block before => (block.add before).encrypt descriptorKeys)
          (toBlocks plain) (startBlock :: toBlocks (encrypt plain)) ∧
      ∃ filled zeros kept extra, decrypt (encrypt plain) = .ok filled ∧
        filled = plain ++ List.replicate zeros 0 ∧ zeros < 16 ∧
        stripPadding filled = kept ∧ plain = kept ++ List.replicate extra 0 ∧
        kept.getLast? ≠ some 0 ∧ (kept = plain ↔ plain.getLast? ≠ some 0)) ∧
    (decrypt bytes = .error (.length bytes.length) ↔ ¬ 16 ∣ bytes.length) ∧
    (16 ∣ bytes.length ↔
      ∃ decrypted, decrypt bytes = .ok decrypted ∧ encrypt decrypted = bytes) := by
  refine ⟨⟨?_, ?_, ?_⟩, ?_, ?_⟩
  · rw [length_encrypt, add_paddingOf]
  · rw [encrypt, toBlocks_ofBlocks]
    exact encryptChain_eq_zipWith descriptorKeys startBlock (toBlocks plain)
  · obtain ⟨⟨extra, split⟩, ends⟩ := stripPadding_split plain
    exact ⟨_, paddingOf plain.length, stripPadding plain, extra, decrypt_encrypt plain, rfl,
      paddingOf_lt _, stripPadding_append plain _, split, ends, stripPadding_eq_self_iff⟩
  · constructor
    · intro refused whole
      rw [decrypt_of_whole whole] at refused
      cases refused
    · exact decrypt_of_not_whole
  · constructor
    · intro whole
      exact ⟨_, decrypt_of_whole whole, encrypt_ofBlocks_decryptChain whole⟩
    · rintro ⟨decrypted, _, same⟩
      rw [← same, length_encrypt, add_paddingOf]
      exact Nat.dvd_mul_left 16 _

-- the known answer for the key of descriptors and the block that they start with
example : encrypt [0x01] = [0x0E, 0x00, 0x36, 0x22, 0x34, 0xFD, 0xD5, 0x95, 0xBC, 0xE9, 0xE4, 0xF0,
    0xA7, 0x70, 0xBF, 0x09] := by
  decide +kernel

end GameExport.Cipher

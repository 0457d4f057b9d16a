import GameExport.Cipher.Descriptor

/-! # Decrypting what was encrypted

Every step of the cipher is undone by its inverse step. The mixing of columns is the one that
needs an argument: multiplication by a constant is additive, so mixing and unmixing are matrices,
and their product is found entry by entry. Main statement: decrypting an encrypted byte string
gives it back with zeros at the end.
-/

namespace GameExport.Cipher

/-! ## Multiplication is additive -/

def Additive (function : UInt8 → UInt8) : Prop :=
  ∀ left right, function (left ^^^ right) = function left ^^^ function right

theorem xor_swap (a b c d : UInt8) : (a ^^^ b) ^^^ (c ^^^ d) = (a ^^^ c) ^^^ (b ^^^ d) := by
  ac_rfl

theorem le_iff_msb : ∀ byte : UInt8, 128 ≤ byte ↔ byte.toBitVec.msb = true :=
  forall_byte (by decide +kernel)

theorem double_additive : Additive double := by
  intro left right
  have carry : (if 128 ≤ left ^^^ right then (0x1B : UInt8) else 0) =
      (if 128 ≤ left then 0x1B else 0) ^^^ (if 128 ≤ right then 0x1B else 0) := by
    simp only [le_iff_msb, UInt8.toBitVec_xor, BitVec.msb_xor]
    cases left.toBitVec.msb <;> cases right.toBitVec.msb <;> decide
  rw [double, double, double, carry, UInt8.shiftLeft_xor, xor_swap]

theorem times_additive (one two four eight : Bool) : Additive (times one two four eight) := by
  have chosen (choice : Bool) (left right : UInt8) :
      (if choice then left ^^^ right else 0) =
        (if choice then left else 0) ^^^ (if choice then right else 0) := by
    cases choice <;> simp
  intro left right
  simp only [times, double_additive _ _, chosen]
  ac_rfl

/-! ## Mixing columns -/

/-- Four functions, applied to the bytes of a column, and the sum of what they give. -/
def Column.dot (first second third fourth : UInt8 → UInt8) (column : Column) : UInt8 :=
  first column.first ^^^ second column.second ^^^ third column.third ^^^ fourth column.fourth

theorem mixColumn_eq (column : Column) :
    mixColumn column =
      ⟨column.dot double triple id id, column.dot id double triple id,
        column.dot id id double triple, column.dot triple id id double⟩ := rfl

private theorem sumByColumn (a b c d e f g h i j k l m n o p : UInt8) :
    (a ^^^ b ^^^ c ^^^ d) ^^^ (e ^^^ f ^^^ g ^^^ h) ^^^ (i ^^^ j ^^^ k ^^^ l) ^^^
        (m ^^^ n ^^^ o ^^^ p) =
      (a ^^^ e ^^^ i ^^^ m) ^^^ (b ^^^ f ^^^ j ^^^ n) ^^^ (c ^^^ g ^^^ k ^^^ o) ^^^
        (d ^^^ h ^^^ l ^^^ p) := by
  ac_rfl

def rowProduct (first second third fourth : UInt8 → UInt8) (byte : UInt8) : Column :=
  ⟨first (double byte) ^^^ second byte ^^^ third byte ^^^ fourth (triple byte),
    first (triple byte) ^^^ second (double byte) ^^^ third byte ^^^ fourth byte,
    first byte ^^^ second (triple byte) ^^^ third (double byte) ^^^ fourth byte,
    first byte ^^^ second byte ^^^ third (triple byte) ^^^ fourth (double byte)⟩

/-- Four additive functions of a mixed column, as functions of the column. -/
theorem dot_mixColumn {first second third fourth : UInt8 → UInt8} (addFirst : Additive first)
    (addSecond : Additive second) (addThird : Additive third) (addFourth : Additive fourth)
    (column : Column) :
    (mixColumn column).dot first second third fourth =
      column.dot (fun byte => (rowProduct first second third fourth byte).first)
        (fun byte => (rowProduct first second third fourth byte).second)
        (fun byte => (rowProduct first second third fourth byte).third)
        (fun byte => (rowProduct first second third fourth byte).fourth) := by
  simp only [mixColumn_eq, Column.dot, id, addFirst _ _, addSecond _ _, addThird _ _,
    addFourth _ _]
  exact sumByColumn _ _ _ _ _ _ _ _ _ _ _ _ _ _ _ _

def nine : UInt8 → UInt8 := times true false false true

def eleven : UInt8 → UInt8 := times true true false true

def thirteen : UInt8 → UInt8 := times true false true true

def fourteen : UInt8 → UInt8 := times false true true true

theorem unmixColumn_eq (column : Column) :
    unmixColumn column =
      ⟨column.dot fourteen eleven thirteen nine, column.dot nine fourteen eleven thirteen,
        column.dot thirteen nine fourteen eleven, column.dot eleven thirteen nine fourteen⟩ := rfl

theorem firstRow : ∀ byte, rowProduct fourteen eleven thirteen nine byte = ⟨byte, 0, 0, 0⟩ :=
  forall_byte (by decide +kernel)

theorem secondRow : ∀ byte, rowProduct nine fourteen eleven thirteen byte = ⟨0, byte, 0, 0⟩ :=
  forall_byte (by decide +kernel)

theorem thirdRow : ∀ byte, rowProduct thirteen nine fourteen eleven byte = ⟨0, 0, byte, 0⟩ :=
  forall_byte (by decide +kernel)

theorem fourthRow : ∀ byte, rowProduct eleven thirteen nine fourteen byte = ⟨0, 0, 0, byte⟩ :=
  forall_byte (by decide +kernel)

theorem unmixColumn_mixColumn (column : Column) : unmixColumn (mixColumn column) = column := by
  have addNine : Additive nine := times_additive _ _ _ _
  have addEleven : Additive eleven := times_additive _ _ _ _
  have addThirteen : Additive thirteen := times_additive _ _ _ _
  have addFourteen : Additive fourteen := times_additive _ _ _ _
  rw [unmixColumn_eq, dot_mixColumn addFourteen addEleven addThirteen addNine,
    dot_mixColumn addNine addFourteen addEleven addThirteen,
    dot_mixColumn addThirteen addNine addFourteen addEleven,
    dot_mixColumn addEleven addThirteen addNine addFourteen]
  simp [Column.dot, firstRow, secondRow, thirdRow, fourthRow]

/-! ## Blocks -/

theorem Column.add_add (column key : Column) : (column.add key).add key = column := by
  simp only [Column.add, UInt8.xor_assoc, UInt8.xor_self, UInt8.xor_zero]

theorem Column.map_restore (column : Column) :
    (column.map substitute).map restore = column := by
  simp [Column.map, restore_substitute]

theorem Block.add_add (block key : Block) : (block.add key).add key = block := by
  simp [Block.add, Column.add_add]

theorem Block.unshift_shift (block : Block) : block.shift.unshift = block := rfl

theorem Block.map_restore (block : Block) :
    (block.map (Column.map substitute)).map (Column.map restore) = block := by
  simp [Block.map, Column.map_restore]

theorem Block.map_unmix (block : Block) : (block.map mixColumn).map unmixColumn = block := by
  simp [Block.map, unmixColumn_mixColumn]

theorem Block.undoRounds_rounds (keys : List Block) (block : Block) :
    undoRounds keys (rounds keys block) = block := by
  induction keys, block using Block.rounds.induct with
  | case1 => rfl
  | case2 block last => rw [rounds, undoRounds, add_add, unshift_shift, map_restore]
  | case3 block key rest notLast induction =>
      rw [rounds, undoRounds, induction, add_add, map_unmix, unshift_shift, map_restore]
      · exact notLast
      · exact notLast

theorem Block.decrypt_encrypt (keys : List Block) (block : Block) :
    (block.encrypt keys).decrypt keys = block := by
  cases keys with
  | nil => rfl
  | cons first rest => rw [encrypt, decrypt, undoRounds_rounds, add_add]

/-! ## Chains -/

theorem decryptChain_encryptChain (keys : List Block) (before : Block) (blocks : List Block) :
    decryptChain keys before (encryptChain keys before blocks) = blocks := by
  induction blocks generalizing before with
  | nil => rfl
  | cons block rest induction =>
      rw [encryptChain, decryptChain, Block.decrypt_encrypt, Block.add_add, induction]

@[simp] theorem Block.length_bytes (block : Block) : block.bytes.length = 16 := rfl

theorem length_ofBlocks (blocks : List Block) : (ofBlocks blocks).length = 16 * blocks.length := by
  induction blocks with
  | nil => rfl
  | cons block rest induction =>
      rw [ofBlocks] at induction ⊢
      rw [List.flatMap_cons, List.length_append, Block.length_bytes, induction, List.length_cons]
      omega

theorem toBlocks_append (block : Block) (rest : Bytes) :
    toBlocks (block.bytes ++ rest) = block :: toBlocks rest := by
  have shape : block.bytes ++ rest = block.first.first :: (block.bytes.tail ++ rest) := rfl
  rw [shape, toBlocks]
  rfl

theorem toBlocks_ofBlocks (blocks : List Block) : toBlocks (ofBlocks blocks) = blocks := by
  induction blocks with
  | nil => rw [ofBlocks, List.flatMap_nil, toBlocks]
  | cons block rest induction =>
      rw [ofBlocks] at induction ⊢
      rw [List.flatMap_cons, toBlocks_append, induction]

/-! ## Padding -/

def paddingOf (length : Nat) : Nat := (16 - length % 16) % 16

theorem Block.bytes_ofBytes (bytes : Bytes) :
    (ofBytes bytes).bytes = (bytes ++ List.replicate 16 0).take 16 := by
  have listed : (ofBytes bytes).bytes = (List.range 16).map fun index => bytes.getD index 0 := rfl
  rw [listed]
  refine List.ext_getElem (by simp) fun index _ inside => ?_
  have small : index < 16 := by
    rw [List.length_take] at inside
    omega
  rw [List.getElem_map, List.getElem_range, List.getElem_take, List.getElem_append,
    List.getD_eq_getElem?_getD]
  split
  · rename_i present
    rw [List.getElem?_eq_getElem present, Option.getD_some]
  · rename_i absent
    rw [List.getElem_replicate, List.getElem?_eq_none (by omega), Option.getD_none]

theorem ofBlocks_toBlocks (bytes : Bytes) :
    ofBlocks (toBlocks bytes) = bytes ++ List.replicate (paddingOf bytes.length) 0 := by
  induction bytes using toBlocks.induct with
  | case1 => rw [toBlocks, ofBlocks]; rfl
  | case2 byte rest induction =>
      have size : Block.size - 1 = 15 := rfl
      rw [ofBlocks, size] at induction
      rw [ofBlocks, toBlocks, List.flatMap_cons, size, induction, Block.bytes_ofBytes,
        List.length_drop, List.length_cons]
      by_cases enough : 15 ≤ rest.length
      · have samePadding : paddingOf (rest.length - 15) = paddingOf (rest.length + 1) := by
          unfold paddingOf
          omega
        rw [List.take_append_of_le_length (by rw [List.length_cons]; omega), List.take_succ_cons,
          ← List.append_assoc, List.cons_append, List.take_append_drop, samePadding]
      · have nothing : rest.drop 15 = [] := List.drop_eq_nil_of_le (by omega)
        have lastPadding : paddingOf (rest.length + 1) = 15 - rest.length := by
          unfold paddingOf
          omega
        have none : paddingOf (rest.length - 15) = 0 := by
          unfold paddingOf
          omega
        rw [nothing, none, lastPadding, List.take_append, List.length_cons,
          List.take_of_length_le (by rw [List.length_cons]; omega), List.take_replicate]
        simp
        omega

/-! ## Descriptors -/

theorem decrypt_encrypt (bytes : Bytes) :
    decrypt (encrypt bytes) = .ok (bytes ++ List.replicate (paddingOf bytes.length) 0) := by
  have whole : (encrypt bytes).length % Block.size = 0 := by
    rw [encrypt, length_ofBlocks]
    exact Nat.mul_mod_right _ _
  have plain : ofBlocks (decryptChain descriptorKeys startBlock (toBlocks (encrypt bytes))) =
      bytes ++ List.replicate (paddingOf bytes.length) 0 := by
    rw [encrypt, toBlocks_ofBlocks, decryptChain_encryptChain, ofBlocks_toBlocks]
  rw [decrypt, decrypt?, if_pos whole, plain]

theorem length_encryptChain (keys : List Block) (before : Block) (blocks : List Block) :
    (encryptChain keys before blocks).length = blocks.length := by
  induction blocks generalizing before with
  | nil => rfl
  | cons block rest induction =>
      rw [encryptChain, List.length_cons, List.length_cons, induction]

theorem length_encrypt (bytes : Bytes) :
    (encrypt bytes).length = bytes.length + paddingOf bytes.length := by
  have filled := congrArg List.length (ofBlocks_toBlocks bytes)
  rw [List.length_append, List.length_replicate] at filled
  rw [encrypt, length_ofBlocks, length_encryptChain, ← length_ofBlocks, filled]

theorem stripPadding_append (bytes : Bytes) (zeros : Nat) :
    stripPadding (bytes ++ List.replicate zeros 0) = stripPadding bytes := by
  rw [stripPadding, stripPadding, Bytes.dropTrailing, Bytes.dropTrailing, List.reverse_append,
    List.reverse_replicate]
  induction zeros with
  | zero => rfl
  | succ zeros induction =>
      rw [List.replicate_succ, List.cons_append, List.dropWhile_cons_of_pos (by rfl), induction]

theorem stripPadding_of_last {last : UInt8} (nonzero : last ≠ 0) (bytes : Bytes) :
    stripPadding (bytes ++ [last]) = bytes ++ [last] := by
  rw [stripPadding, Bytes.dropTrailing, List.reverse_append, List.reverse_singleton,
    List.singleton_append, List.dropWhile_cons_of_neg (by simpa using nonzero),
    List.reverse_cons, List.reverse_reverse]

end GameExport.Cipher

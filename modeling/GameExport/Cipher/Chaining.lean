import GameExport.Cipher.Block

/-! # Chained blocks

A byte string is cut into blocks, the last one filled up with zeros. Before a block is
encrypted the encrypted block before it is added, so equal blocks do not look equal.
-/

namespace GameExport.Cipher

def toBlocks (bytes : Bytes) : List Block :=
  match bytes with
  | [] => []
  | byte :: rest => Block.ofBytes (byte :: rest) :: toBlocks (rest.drop (Block.size - 1))
  termination_by bytes.length

def ofBlocks (blocks : List Block) : Bytes := blocks.flatMap Block.bytes

def encryptChain (keys : List Block) : (before : Block) → List Block → List Block
  | _, [] => []
  | before, block :: rest =>
      let encrypted := (block.add before).encrypt keys
      encrypted :: encryptChain keys encrypted rest

def decryptChain (keys : List Block) : (before : Block) → List Block → List Block
  | _, [] => []
  | before, block :: rest =>
      (block.decrypt keys).add before :: decryptChain keys block rest

end GameExport.Cipher

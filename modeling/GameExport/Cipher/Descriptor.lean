import GameExport.Cipher.Chaining
import GameExport.Cipher.KeySchedule
import GameExport.FileTree.Operations

/-! # Encrypted descriptors

The descriptor in a game is encrypted with a key that every copy of the runtime knows. An
encrypted descriptor is whole blocks; decrypting gives back the zeros that filled up the
last one, and these are stripped.
-/

namespace GameExport.Cipher

def descriptorKey : Bytes := Bytes.ofText "-P:j$4t&OHIUVM/Z+u4DeDP."

def startBlock : Block :=
  ⟨⟨0, 1, 2, 3⟩, ⟨4, 5, 6, 7⟩, ⟨8, 9, 10, 11⟩, ⟨12, 13, 14, 15⟩⟩

def descriptorKeys : List Block := roundKeys descriptorKey

def encrypt (bytes : Bytes) : Bytes :=
  ofBlocks (encryptChain descriptorKeys startBlock (toBlocks bytes))

def decrypt? (bytes : Bytes) : Option Bytes :=
  if bytes.length % Block.size = 0 then
    some (ofBlocks (decryptChain descriptorKeys startBlock (toBlocks bytes)))
  else none

def stripPadding (bytes : Bytes) : Bytes := Bytes.dropTrailing 0 bytes

end GameExport.Cipher

namespace GameExport

inductive CipherError
  | read (path : Path) (cause : FileError)
  | write (path : Path) (cause : FileError)
  | length (bytes : Nat)
  deriving DecidableEq, Repr

def CipherError.message : CipherError → String
  | .read path cause => s!"failed to read {path.text}: {cause.message}"
  | .write path cause => s!"failed to write {path.text}: {cause.message}"
  | .length bytes => s!"ciphertext length {bytes} is not a multiple of the block size"

end GameExport

namespace GameExport.Cipher

def decrypt (bytes : Bytes) : Except CipherError Bytes :=
  match decrypt? bytes with
  | some plain => .ok plain
  | none => .error (.length bytes.length)

def encryptFile (files : FileTree) (input output : Path) : Except CipherError FileTree :=
  match files.read input with
  | .error cause => .error (.read input cause)
  | .ok plain =>
      match files.write output (encrypt plain) with
      | .error cause => .error (.write output cause)
      | .ok files => .ok files

def decryptFile (files : FileTree) (input : Path) : Except CipherError Bytes :=
  match files.read input with
  | .error cause => .error (.read input cause)
  | .ok bytes => (decrypt bytes).map stripPadding

end GameExport.Cipher

import GameExport.Json.Encoded
import GameExport.Json.Printer
import GameExport.Package.Error

/-! # Containers

A container holds named blobs. Its bytes are a mark, a version, the length of a manifest, the
manifest and the blobs in its order. The manifest is a document that lists names and sizes.
Bytes after the last blob are ignored.
-/

namespace GameExport

structure Container.Entry where
  name : String
  blob : Bytes
  deriving DecidableEq, Repr

structure Container where
  entries : List Container.Entry
  deriving DecidableEq, Repr

namespace Container

def magic : Bytes := Bytes.ofText "GDAT"

def version : Nat := 1

def headerLength : Nat := 12

def manifestEntry (name : String) (size : Nat) : Json :=
  .object [("name", .string name), ("size", Json.nat size)]

def manifestBytes (sizes : List (String × Nat)) : Bytes :=
  Bytes.ofText (Json.compactText (.array (sizes.map fun (name, size) => manifestEntry name size)))

def header (manifestLength : Nat) : Bytes :=
  magic ++ Bytes.littleEndian 4 version ++ Bytes.littleEndian 4 manifestLength

def sizes (container : Container) : List (String × Nat) :=
  container.entries.map fun entry => (entry.name, entry.blob.length)

def totalSize (container : Container) : Nat :=
  container.sizes.foldl (fun total (_, size) => total + size) 0

def encode (container : Container) : Bytes :=
  let manifest := manifestBytes container.sizes
  header manifest.length ++ manifest ++ container.entries.flatMap (·.blob)

def decodeManifestEntry : Json.Decoder (String × Nat)
  | room + 1, source => do
      match ← source.record? ["name", "size"] with
      | [name, size] =>
          pure (← Json.fieldRequired Json.Decoder.text room name,
            ← Json.fieldRequired Json.Decoder.natural room size)
      | _ => none
  | _, _ => none

def readManifest? (bytes : Bytes) : Option (List (String × Nat)) :=
  (Json.Decoder.list decodeManifestEntry).runBytes? bytes

def cut : List (String × Nat) → Bytes → Except ContainerProblem (List Entry)
  | [], _ => .ok []
  | (name, size) :: rest, bytes =>
      if bytes.length < size then .error (.truncatedBlob name)
      else do
        .ok (⟨name, bytes.take size⟩ :: (← cut rest (bytes.drop size)))

def parse (bytes : Bytes) : Except ContainerProblem Container :=
  if bytes.length < headerLength ∨ bytes.startsWith magic = false then .error .badMagic
  else
    let found := Bytes.ofLittleEndian ((bytes.drop 4).take 4)
    if found ≠ version then .error (.unsupportedVersion found)
    else
      let length := Bytes.ofLittleEndian ((bytes.drop 8).take 4)
      let body := bytes.drop headerLength
      if body.length < length then .error .truncatedManifest
      else
        match readManifest? (body.take length) with
        | none => .error .malformedManifest
        | some sizes => do .ok ⟨← cut sizes (body.drop length)⟩

def read? (container : Container) (name : String) : Option Bytes :=
  (container.entries.find? fun entry => entry.name == name).map (·.blob)

end Container

end GameExport

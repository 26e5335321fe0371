import UnitScript.Code.Encoding
import UnitScript.Digest.Blake2b

/-!
# Digests and cache keys

A unit is identified by the digest of its encoded form, and a compilation by the digest of everything
that its result depends on. Which hash the digests are made with is up to the store.
-/

namespace UnitScript

/-- Digests are written in hexadecimal. -/
def hexDigestBy (hash : Bytes → Bytes) (s : Bytes) : Bytes := Bytes.toHex (hash s)

/-- The digest by the usual hash. -/
def hexDigest (s : Bytes) : Bytes := hexDigestBy Blake2b.hash s

def CodeUnit.digestBy (hash : Bytes → Bytes) (u : CodeUnit) : Except UnitEncodeError Bytes :=
  u.encoded.map (hexDigestBy hash)

/-- What the result of a compilation depends on. -/
structure KeyInputs where
  name : Name
  source : Bytes
  prelude : Prelude
  scratch : List Name
  /-- The digests of the imported units in the order of the imports. -/
  deps : List Bytes

namespace KeyInputs

/-- Changes whenever units compiled before must not be used any more. -/
def version : Bytes := Bytes.ofString "myst-unit-2"

/-- Fields end with a zero byte. -/
def field (s : Bytes) : Bytes := s ++ [0]

def kindField (entry : Name × Kind) : Bytes := field (entry.1 ++ "=" ++ entry.2.text)

/-- The bytes whose digest is the key. -/
def preimage (k : KeyInputs) : Bytes :=
  field version ++ field k.name ++ field k.source ++
    k.prelude.entries.flatMap kindField ++ [0] ++
    k.scratch.flatMap field ++ [0] ++
    k.deps.flatMap field

def keyBy (hash : Bytes → Bytes) (k : KeyInputs) : Bytes := hexDigestBy hash k.preimage

def key (k : KeyInputs) : Bytes := k.keyBy Blake2b.hash

end KeyInputs

end UnitScript

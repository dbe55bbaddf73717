import CandyDrop.Base58

/-!
# Addresses

An address is 32 bytes: a public key, or a point derived from seeds. Its text is the base 58 form,
and only that form is read back.
-/

namespace CandyDrop

/-- The name of an account. -/
structure Address where
  bytes : Bytes
  length_bytes : bytes.length = 32
  deriving DecidableEq

namespace Address

/-- The longest text of 32 bytes in base 58. -/
def maxTextLength : Nat := 44

/-- The address of 32 bytes. -/
def ofBytes? (bs : Bytes) : Option Address :=
  if h : bs.length = 32 then some ⟨bs, h⟩ else none

/-- The base 58 form. -/
def text (a : Address) : String := Base58.encode a.bytes

/-- The address of a base 58 text of at most 44 bytes that spells 32 bytes. -/
def ofText? (s : String) : Option Address :=
  if Bytes.sizeOfText s ≤ maxTextLength then (Base58.decode? s).bind ofBytes? else none

/-- The first six characters of the text: the short name of a candy machine. -/
def shortName (a : Address) : String := String.ofList (a.text.toList.take 6)

@[simp] theorem ofBytes?_bytes (a : Address) : ofBytes? a.bytes = some a := by
  simp [ofBytes?, a.length_bytes]

end Address

end CandyDrop

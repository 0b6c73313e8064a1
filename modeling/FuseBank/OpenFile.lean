import FuseBank.Device

/-!
The device as a character device. Reading gives the fuse bytes at the file's offset; writing
takes one address and one value, eight bytes in all; a control request reads or writes one word
through the same eight bytes. A call that fails leaves the offset and the caller's buffer alone.
The offset has 64 bits, and moving it past their end is a fault.
-/

namespace FuseBank

/-- The payload of writes and control requests: an address, then a value. -/
structure AddressedWord where
  addr : Word
  value : Word
deriving DecidableEq

namespace AddressedWord

def encode (a : AddressedWord) : List Byte := a.addr.toBytes ++ a.value.toBytes

def decode? : List Byte → Option (AddressedWord × List Byte)
  | a0 :: a1 :: a2 :: a3 :: v0 :: v1 :: v2 :: v3 :: rest =>
    some (⟨Word.ofBytes a0 a1 a2 a3, Word.ofBytes v0 v1 v2 v3⟩, rest)
  | _ => none

theorem decode?_encode (a : AddressedWord) (rest : List Byte) :
    decode? (a.encode ++ rest) = some (a, rest) := by
  simp only [encode, Word.toBytes, List.cons_append, List.nil_append, decode?, Word.ofBytes_toBytes]

theorem encode_of_decode? {bs rest : List Byte} {a : AddressedWord}
    (h : decode? bs = some (a, rest)) : a.encode ++ rest = bs := by
  unfold decode? at h
  split at h
  · cases h
    simp [encode, Word.toBytes_ofBytes]
  · cases h

end AddressedWord

/-- The code of a control request: direction, argument size, group and number. -/
def requestCode (direction : BitVec 2) (size : BitVec 14) (group number : Byte) : Word :=
  direction ++ size ++ group ++ number

def readRequest : Word := requestCode 2 8 0x45 1

def writeRequest : Word := requestCode 1 8 0x45 2

structure OpenFile where
  position : BitVec 64 := 0
deriving DecidableEq

structure Transfer where
  result : Except DeviceError Nat
  file : OpenFile
  buffer : List Byte

namespace OpenFile

def offset (f : OpenFile) : Nat := f.position.toNat

def advance (f : OpenFile) (count : Nat) : OpenFile := ⟨f.position + BitVec.ofNat 64 count⟩

def offsetLimit : Nat := 0x10000000000000000

theorem offset_advance {f : OpenFile} {count : Nat} (h : f.offset + count < offsetLimit) :
    (f.advance count).offset = f.offset + count := by
  unfold offset advance offsetLimit at *
  rw [BitVec.toNat_add, BitVec.toNat_ofNat]
  omega

def read (f : OpenFile) (buffer : List Byte) : Routine Transfer := do
  if f.offset ≥ fuseBytes then return ⟨.ok 0, f, buffer⟩
  let count := min buffer.length (fuseBytes - f.offset)
  match ← Device.readBuffer (BitVec.ofNat 32 f.offset) (List.replicate count 0) with
  | (.error e, _) => return ⟨.error e, f, buffer⟩
  -- inside the fuse space the offset stays far below its limit
  | (.ok n, page) => return ⟨.ok n, f.advance n, page.take n ++ buffer.drop n⟩

/-- The end of a write that has programmed its word. -/
def written (f : OpenFile) (data : List Byte) : Routine Transfer :=
  if f.offset + data.length < offsetLimit then
    return ⟨.ok data.length, f.advance data.length, data⟩
  else .halt .overflow

def write (f : OpenFile) (d : Device) (data : List Byte) : Routine Transfer :=
  match AddressedWord.decode? data with
  | some (payload, []) => do
    match ← (d.write payload.addr payload.value).run with
    | .error e => return ⟨.error e, f, data⟩
    | .ok _ => f.written data
  | _ => return ⟨.error (.sizeMismatch data.length), f, data⟩

def control (f : OpenFile) (d : Device) (request : Word) (argument : List Byte) : Routine Transfer :=
  match AddressedWord.decode? argument with
  | none => return ⟨.error (.bufferFault argument.length), f, argument⟩
  | some (payload, rest) =>
    if request = readRequest then do
      match ← (Device.readShadow payload.addr).run with
      | .error e => return ⟨.error e, f, argument⟩
      | .ok value => return ⟨.ok 0, f, { payload with value }.encode ++ rest⟩
    else if request = writeRequest then do
      match ← (d.write payload.addr payload.value).run with
      | .error e => return ⟨.error e, f, argument⟩
      | .ok _ => return ⟨.ok 0, f, argument⟩
    else do
      Routine.note .error .charDevice
        s!"Unsupported eFUSE ioctl {Text.Hex.marked request.toNat}"
      return ⟨.error (.unsupportedRequest request), f, argument⟩

end OpenFile

end FuseBank

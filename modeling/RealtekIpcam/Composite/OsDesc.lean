import RealtekIpcam.Composite.Model
import RealtekIpcam.Lib.ByteBuffer

/-!
# Microsoft OS descriptors

With a vendor request Windows asks for the compatible IDs of all functions, and, for one interface,
for its extended properties.  Either response is a header and a row of sections, and is put together
by two passes over the tables of the functions: one counts, for the header, and one fills in the
sections.

The functions that write the parts of a property, `usb_ext_prop_put_size` and the others, are given
as a parameter.
-/

namespace RealtekIpcam.Composite

open ByteBuffer
open Udc (SetupPacket EINVAL)

/-! ## The tables -/

/-- `ext_prop->type`: the `USB_EXT_PROP_*`. -/
inductive ExtPropType where
  | unicode
  | unicodeEnv
  | binary
  | le32
  | be32
  | unicodeLink
  | other (type : UInt8)
  deriving DecidableEq

/-- `struct usb_os_desc_ext_prop`.  The name and the data lie in memory, and `int` has room for
their lengths and for a buffer more. -/
structure ExtProp where
  type : ExtPropType
  name : List UInt8 := []
  nameLen : Nat
  data : List UInt8 := []
  dataLen : Nat
  fits : dataLen + nameLen + 14 + usbCompEp0Bufsiz < 2 ^ 31 := by decide

/-- `ext_prop->data_len + ext_prop->name_len + 14`. -/
def ExtProp.len (p : ExtProp) : Nat := p.dataLen + p.nameLen + 14

/-- `struct usb_os_desc`.  The pointer to the 16 bytes of the compatible ID may be null. -/
structure OsDesc where
  extCompatId : Option (Fin 16 → UInt8) := none
  extProp : List ExtProp := []
  extPropLen : Int32 := 0
  extPropCount : Int32 := 0

/-- `struct usb_os_desc_table`. -/
structure OsDescEntry where
  ifId : Int
  osDesc : Option OsDesc

/-- The `os_desc_table` of the functions. -/
abbrev OsDescTables := FnId → List OsDescEntry

/-- What `usb_ext_prop_put_size` and the others write, at an offset of the buffer; `nameRet` is what
`usb_ext_prop_put_name` returns. -/
structure ExtPropOps where
  putSize : Int → Nat → Buffer → Buffer
  putType : ExtPropType → Nat → Buffer → Buffer
  nameRet : ExtProp → Int
  putName : ExtProp → Nat → Buffer → Buffer
  putUnicode : Int → ExtProp → Nat → Buffer → Buffer
  putBinary : Int → ExtProp → Nat → Buffer → Buffer

section Passes

variable (ops : ExtPropOps) (table : OsDescTables) (c : Configuration)

/-- What the loops over an `os_desc_table` do not skip for an interface. -/
def osDescs (i : Nat) : List (Option OsDesc) :=
  match c.interface i with
  | none => []
  | some f => (table f).filterMap fun e => if (i : Int) = e.ifId then some e.osDesc else none

/-- `d && d->ext_compat_id`. -/
def compatId (d : Option OsDesc) : Option (Fin 16 → UInt8) := d.bind OsDesc.extCompatId

/-- What the passes over all interfaces come to. -/
def compatEntries : List (Nat × Option OsDesc) :=
  (List.range c.nextInterfaceId).flatMap fun i => (osDescs table c i).map fun d => (i, d)

/-! ## The compatible IDs -/

/-- `count_ext_compat`, up to its `BUG_ON`. -/
def countExtCompat : Nat := (compatEntries table c).countP fun e => (compatId e.2).isSome

/-- A response that is being filled in: `count`, and the lengths of its sections. -/
structure Filling where
  buf : Buffer
  count : Nat
  sections : List Nat := []

/-- The bytes of a section, `n` of them, have been written. -/
def Filling.emit (s : Filling) (n : Nat) (buf : Buffer) : Filling :=
  { buf := buf, count := s.count + n, sections := s.sections ++ [n] }

/-- A section of `fill_ext_compat`: without a compatible ID it is blank. -/
def compatSection (i : Nat) (d : Option OsDesc) (a : Nat) (buf : Buffer) : Buffer :=
  match compatId d with
  | some id => put a ([UInt8.ofNat i, 0x01] ++ List.ofFn id) buf
  | none => put (a + 1) [0x01] buf

/-- The loops of `fill_ext_compat`. -/
def fillCompatEntries : List (Nat × Option OsDesc) → Filling → Filling
  | [], s => s
  | (i, d) :: es, s =>
    let s := s.emit 24 (compatSection i d s.count s.buf)
    if usbCompEp0Bufsiz ≤ s.count + 24 then s else fillCompatEntries es s

/-- `fill_ext_compat`, which returns the `count`. -/
def fillExtCompat (buf : Buffer) : Filling :=
  fillCompatEntries (compatEntries table c) { buf := buf, count := 16 }

/-! ## The extended properties of an interface -/

def propDescs (i : Nat) : List OsDesc := (osDescs table c i).reduceOption

def countExtProp (i : Nat) : Int :=
  match (propDescs table c i).find? fun d => d.extCompatId.isSome with
  | some d => d.extPropCount.toInt
  | none => 0

def lenExtProp (i : Nat) : Int :=
  match propDescs table c i with
  | d :: _ => min (10 + d.extPropLen).toInt 4096
  | [] => 10

/-- The size, the type and the name of a property. -/
def putHead (p : ExtProp) (a : Nat) (buf : Buffer) : Buffer :=
  ops.putName p a (ops.putType p.type a (ops.putSize p.len a buf))

/-- The data of a property; two types are not implemented, and others unknown. -/
def putData (p : ExtProp) (a : Nat) (buf : Buffer) : Option Buffer :=
  match p.type with
  | .unicode | .unicodeEnv | .unicodeLink => some (ops.putUnicode (ops.nameRet p) p a buf)
  | .binary => some (ops.putBinary (ops.nameRet p) p a buf)
  | .le32 | .be32 | .other _ => none

/-- The loops of `fill_ext_prop`, with what it returns. -/
def fillProps : List ExtProp → Filling → Int × Filling
  | [], s => (s.count, s)
  | p :: ps, s =>
    if usbCompEp0Bufsiz ≤ s.count + p.len then (s.count, s)
    else
      let buf := putHead ops p s.count s.buf
      if ops.nameRet p < 0 then (ops.nameRet p, { s with buf := buf })
      else
        match putData ops p s.count buf with
        | none => (-EINVAL, { s with buf := buf })
        | some buf => fillProps ps (s.emit p.len buf)

def fillExtProp (i : Nat) (buf : Buffer) : Int × Filling :=
  fillProps ops ((propDescs table c i).flatMap OsDesc.extProp) { buf := buf, count := 10 }

/-- The buffer of `os_desc_req`, and the `value` for `check_value`. -/
structure OsDescResponse where
  buf : Buffer
  value : Int

/-- A number as the unsigned field of `n` bytes holds it. -/
def field (n : Nat) (x : Int) : List UInt8 := leBytes n (x % 256 ^ n).toNat

/-- The part of `composite_setup` under "OS descriptors handling"; `none` is the `BUG_ON` of
`count_ext_compat`. -/
def osDescResponse (ctrl : SetupPacket) (buf : Buffer) : Option OsDescResponse :=
  let buf := put 5 [0x01] (put 0 (List.replicate (wLength ctrl) 0) buf)
  if recipient ctrl = 0 then
    if ctrl.wIndex ≠ 4 ∨ ctrl.wValue >>> 8 ≠ 0 then some ⟨buf, -EOPNOTSUPP⟩
    else
      let buf := put 6 [ctrl.wIndex.toUInt8] buf
      let count := countExtCompat table c
      if 255 < count then none
      else
        let buf := put 0 (field 4 (count * 24 + 16)) (put 8 (field 1 count) buf)
        if 0x10 < wLength ctrl then
          let s := fillExtCompat table c buf
          some ⟨s.buf, cut ctrl s.count⟩
        else some ⟨buf, wLength ctrl⟩
  else if recipient ctrl = 1 then
    if ctrl.wIndex ≠ 5 ∨ ctrl.wValue >>> 8 ≠ 0 then some ⟨buf, -EOPNOTSUPP⟩
    else
      let i := (ctrl.wValue &&& 0xff).toNat
      if maxConfigInterfaces ≤ i ∨ c.interface i = none then some ⟨buf, -EOPNOTSUPP⟩
      else
        let buf := put 6 [ctrl.wIndex.toUInt8] buf
        let buf := put 8 (field 2 (countExtProp table c i)) buf
        let buf := put 0 (field 4 (lenExtProp table c i)) buf
        if 0x0a < wLength ctrl then
          let (ret, s) := fillExtProp ops table c i buf
          some ⟨s.buf, if 0 ≤ ret then cut ctrl ret else ret⟩
        else some ⟨buf, wLength ctrl⟩
  else some ⟨buf, -EOPNOTSUPP⟩

end Passes

end RealtekIpcam.Composite

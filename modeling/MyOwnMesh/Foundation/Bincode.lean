import Mathlib.Algebra.Order.Ring.Nat
import Mathlib.Data.List.Basic

/-!
# Reading back what was written

A decoder takes a value off the front of its input. `Decodes read bytes a` says
that it takes exactly `bytes` and returns `a`, whatever follows; it composes
along `bind`, so a record is read back when its fields are.

The encodings are those of bincode with variable-length integers: a count below
251 is one byte, larger ones are marked by their width and little-endian, and a
sequence is its count and its elements.
-/

namespace MyOwnMesh.Foundation

/-- A reader of values at the front of some bytes. -/
abbrev Decoder (α : Type) := StateT (List UInt8) Option α

section Decodes

variable {α β : Type}

/-- `read` takes exactly `bytes` off the front and returns `a`. -/
def Decodes (read : Decoder α) (bytes : List UInt8) (a : α) : Prop :=
  ∀ rest, read.run (bytes ++ rest) = some (a, rest)

namespace Decodes

variable {read : Decoder α} {next : α → Decoder β} {bytes more : List UInt8} {a : α} {b : β}

theorem pure (a : α) : Decodes (Pure.pure a) [] a := fun _ => rfl

theorem bind (h : Decodes read bytes a) (hNext : Decodes (next a) more b) :
    Decodes (read >>= next) (bytes ++ more) b := by
  intro rest
  have hRun : (read >>= next).run (bytes ++ more ++ rest) =
      (read.run (bytes ++ (more ++ rest))).bind fun p => (next p.1).run p.2 := by
    rw [List.append_assoc]
    rfl
  rw [hRun, h, Option.bind_some]
  exact hNext rest

/-- A reader after which nothing more is taken. -/
theorem last (h : Decodes read bytes a) (hNext : Decodes (next a) [] b) :
    Decodes (read >>= next) bytes b := by
  have hBind := h.bind hNext
  rwa [List.append_nil] at hBind

end Decodes

/-- Read the whole input; bytes left over are an error. -/
def decodeAll (read : Decoder α) (bytes : List UInt8) : Option α :=
  match read.run bytes with
  | some (a, []) => some a
  | _ => none

theorem decodeAll_of_decodes {read : Decoder α} {bytes : List UInt8} {a : α}
    (h : Decodes read bytes a) : decodeAll read bytes = some a := by
  have hRun := h []
  rw [List.append_nil] at hRun
  unfold decodeAll
  rw [hRun]

end Decodes

/-! ## Bytes and numbers -/

def decodeByte : Decoder UInt8 := fun
  | [] => none
  | byte :: rest => some (byte, rest)

theorem decodes_byte (byte : UInt8) : Decodes decodeByte [byte] byte := fun _ => rfl

def decodeMany {α : Type} (read : Decoder α) : Nat → Decoder (List α)
  | 0 => pure []
  | count + 1 => do
      let a ← read
      let rest ← decodeMany read count
      pure (a :: rest)

theorem decodes_many {α : Type} {read : Decoder α} {write : α → List UInt8} {as : List α}
    (h : ∀ a ∈ as, Decodes read (write a) a) :
    Decodes (decodeMany read as.length) (as.flatMap write) as := by
  induction as with
  | nil => exact .pure []
  | cons a as ih =>
    have hHead := h a List.mem_cons_self
    have hTail := ih fun b hb => h b (List.mem_cons_of_mem _ hb)
    exact hHead.bind (hTail.last (.pure _))

def decodeBytes (count : Nat) : Decoder (List UInt8) := decodeMany decodeByte count

theorem decodes_bytes (bytes : List UInt8) : Decodes (decodeBytes bytes.length) bytes bytes := by
  have hMany : Decodes (decodeMany decodeByte bytes.length) (bytes.flatMap fun byte => [byte])
      bytes := decodes_many fun byte _ => decodes_byte byte
  rwa [List.flatMap_singleton'] at hMany

/-- `width` little-endian bytes of a number. -/
def leBytes : Nat → Nat → List UInt8
  | 0, _ => []
  | width + 1, value => UInt8.ofNat value :: leBytes width (value / 256)

/-- The number some little-endian bytes spell. -/
def leValue : List UInt8 → Nat
  | [] => 0
  | byte :: rest => byte.toNat + 256 * leValue rest

theorem leBytes_length (width value : Nat) : (leBytes width value).length = width := by
  induction width generalizing value with
  | zero => rfl
  | succ width ih => rw [leBytes, List.length_cons, ih]

theorem leValue_leBytes (width value : Nat) (h : value < 256 ^ width) :
    leValue (leBytes width value) = value := by
  induction width generalizing value with
  | zero =>
    have hZero : value = 0 := by simpa using h
    rw [hZero]
    rfl
  | succ width ih =>
    have hHigh : value / 256 < 256 ^ width := by
      rw [Nat.pow_succ, Nat.mul_comm] at h
      exact Nat.div_lt_of_lt_mul h
    rw [leBytes, leValue, ih _ hHigh, UInt8.toNat_ofNat']
    exact Nat.mod_add_div value 256

def decodeLe (width : Nat) : Decoder Nat := do
  let bytes ← decodeBytes width
  pure (leValue bytes)

theorem decodes_le {width value : Nat} (h : value < 256 ^ width) :
    Decodes (decodeLe width) (leBytes width value) value := by
  have hBytes := decodes_bytes (leBytes width value)
  rw [leBytes_length] at hBytes
  have hValue : Decodes (decodeLe width) (leBytes width value)
      (leValue (leBytes width value)) := hBytes.last (.pure _)
  rwa [leValue_leBytes width value h] at hValue

/-! ## Counts and sequences -/

/-- A count, in as few bytes as its size needs. -/
def varint (value : Nat) : List UInt8 :=
  if value < 251 then [UInt8.ofNat value]
  else if value < 256 ^ 2 then 251 :: leBytes 2 value
  else if value < 256 ^ 4 then 252 :: leBytes 4 value
  else 253 :: leBytes 8 value

/-- Read a count. Longer forms than needed are accepted. -/
def decodeVarint : Decoder Nat := do
  let byte ← decodeByte
  if byte.toNat < 251 then pure byte.toNat
  else if byte = 251 then decodeLe 2
  else if byte = 252 then decodeLe 4
  else if byte = 253 then decodeLe 8
  else failure

/-- A count that fits its widest form is read back. -/
theorem decodes_varint {value : Nat} (h : value < 256 ^ 8) :
    Decodes decodeVarint (varint value) value := by
  unfold varint
  split_ifs with hByte hShort hWord
  · have hValue : (UInt8.ofNat value).toNat = value := by
      rw [UInt8.toNat_ofNat']
      exact Nat.mod_eq_of_lt (by omega)
    intro rest
    show (if (UInt8.ofNat value).toNat < 251 then (pure (UInt8.ofNat value).toNat : Decoder Nat)
      else _).run rest = _
    rw [hValue, if_pos hByte]
    rfl
  · exact (decodes_byte 251).bind (decodes_le hShort)
  · exact (decodes_byte 252).bind (decodes_le hWord)
  · exact (decodes_byte 253).bind (decodes_le h)

section Sequence

variable {α : Type}

def sequence (write : α → List UInt8) (as : List α) : List UInt8 :=
  varint as.length ++ as.flatMap write

def decodeSequence (read : Decoder α) : Decoder (List α) := do
  let count ← decodeVarint
  decodeMany read count

theorem decodes_sequence {read : Decoder α} {write : α → List UInt8} {as : List α}
    (hCount : as.length < 256 ^ 8) (h : ∀ a ∈ as, Decodes read (write a) a) :
    Decodes (decodeSequence read) (sequence write as) as :=
  (decodes_varint hCount).bind (decodes_many h)

end Sequence

end MyOwnMesh.Foundation

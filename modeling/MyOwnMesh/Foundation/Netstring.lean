import MyOwnMesh.Foundation.Delimited

/-!
# Texts behind their length

The bytes of a text, its length in decimal, and the two put together as a
netstring `len:text`. A netstring can be read off the front of any bytes, so a
sequence of netstrings determines its texts.
-/

namespace MyOwnMesh.Foundation

/-! ## Bytes of a text -/

private theorem loop_eq_drop (bytes : ByteArray) : ∀ (left i : Nat) (r : List UInt8),
    i + left = bytes.size →
    ByteArray.toList.loop bytes i r = r.reverse ++ bytes.data.toList.drop i := by
  intro left
  induction left with
  | zero =>
    intro i r h
    have hEnd : bytes.data.toList.drop i = [] := by
      rw [List.drop_eq_nil_iff, Array.length_toList]
      change bytes.size ≤ i
      omega
    rw [ByteArray.toList.loop, if_neg (by omega), hEnd, List.append_nil]
  | succ left ih =>
    intro i r h
    have hi : i < bytes.data.toList.length := by
      rw [Array.length_toList]
      change i < bytes.size
      omega
    have hGet : bytes.get! i = bytes.data.toList[i] := by
      rw [Array.getElem_toList]
      change bytes.data[i]! = _
      rw [getElem!_pos]
    rw [ByteArray.toList.loop, if_pos (by omega), ih (i + 1) _ (by omega),
      List.drop_eq_getElem_cons hi]
    simp [hGet]

theorem byteArray_toList (bytes : ByteArray) : bytes.toList = bytes.data.toList :=
  loop_eq_drop bytes bytes.size 0 [] (Nat.zero_add _)

def textBytes (text : String) : List UInt8 := text.toUTF8.toList

theorem textBytes_length (text : String) : (textBytes text).length = text.utf8ByteSize := by
  unfold textBytes
  rw [byteArray_toList, Array.length_toList]
  rfl

theorem textBytes_injective : Function.Injective textBytes := by
  intro a b h
  unfold textBytes at h
  rw [byteArray_toList, byteArray_toList] at h
  exact String.toByteArray_inj.mp (ByteArray.ext (Array.toList_inj.mp h))

/-! ## Decimal lengths -/

def decimalBytes (n : Nat) : List UInt8 := textBytes (toString n)

theorem decimalBytes_injective : Function.Injective decimalBytes := by
  intro a b h
  have hText : String.ofList (Nat.toDigits 10 a) = String.ofList (Nat.toDigits 10 b) :=
    textBytes_injective h
  have hDigits := String.ofList_injective hText
  rw [← Nat.ofDigitChars_toDigits (b := 10) (n := a) (by omega) (by omega), hDigits,
    Nat.ofDigitChars_toDigits (by omega) (by omega)]

theorem isDigit_of_mem_decimalBytes {n : Nat} {byte : UInt8} (h : byte ∈ decimalBytes n) :
    48 ≤ byte.toNat ∧ byte.toNat ≤ 57 := by
  unfold decimalBytes textBytes at h
  rw [byteArray_toList, Nat.toString_eq_repr, Nat.repr_eq_ofList_toDigits] at h
  have hBytes : byte ∈ (Nat.toDigits 10 n).flatMap String.utf8EncodeChar := by
    simpa [String.toUTF8_eq_toByteArray, List.utf8Encode] using h
  obtain ⟨c, hc, hByte⟩ := List.mem_flatMap.mp hBytes
  have hDigit := Nat.isDigit_of_mem_toDigits (by omega) (by omega) hc
  have hRange : 48 ≤ c.val.toNat ∧ c.val.toNat ≤ 57 := by
    simpa [Char.isDigit, UInt32.le_iff_toNat_le] using hDigit
  unfold String.utf8EncodeChar at hByte
  rw [if_pos (by omega), List.mem_singleton] at hByte
  subst hByte
  simp only [UInt8.toNat_ofNat']
  omega

/-! ## Netstrings -/

namespace Delimited

variable {α δ : Type} {valid : α → Prop} {encode : α → List δ}

/-- An encoding that does not use the separator, in front of a separator. -/
theorem terminated {separator : δ} (hFree : ∀ a, valid a → separator ∉ encode a)
    (hInjective : ∀ a b, valid a → valid b → encode a = encode b → a = b) :
    Delimited valid fun a => encode a ++ [separator] := by
  intro a b r s ha hb hEq
  simp only [List.append_assoc, List.singleton_append] at hEq
  obtain ⟨hHead, hTail⟩ := append_cons_inj (hFree a ha) (hFree b hb) hEq
  exact ⟨hInjective a b ha hb hHead, hTail⟩
where
  append_cons_inj {separator : δ} {xs ys r s : List δ} (hxs : separator ∉ xs)
      (hys : separator ∉ ys) (hEq : xs ++ separator :: r = ys ++ separator :: s) :
      xs = ys ∧ r = s := by
    induction xs generalizing ys with
    | nil =>
      cases ys with
      | nil => exact ⟨rfl, (List.cons.inj hEq).2⟩
      | cons y ys =>
        have hSame := (List.cons.inj hEq).1
        simp [hSame] at hys
    | cons x xs ih =>
      cases ys with
      | nil =>
        have hSame := (List.cons.inj hEq).1
        simp [← hSame] at hxs
      | cons y ys =>
        obtain ⟨rfl, hRest⟩ := List.cons.inj hEq
        rw [List.mem_cons, not_or] at hxs hys
        obtain ⟨rfl, hEnd⟩ := ih hxs.2 hys.2 hRest
        exact ⟨rfl, hEnd⟩

end Delimited

/-- A decimal number in front of a colon. -/
theorem decimal_delimited : Delimited (fun _ => True) fun n => decimalBytes n ++ [58] := by
  apply Delimited.terminated
  · intro n _ h
    have hDigit := isDigit_of_mem_decimalBytes h
    simp at hDigit
  · exact fun a b _ _ hEq => decimalBytes_injective hEq

/-- A text behind its length in bytes: `len:text`. -/
def netstring (text : String) : List UInt8 :=
  decimalBytes text.utf8ByteSize ++ [58] ++ textBytes text

theorem netstring_delimited : Delimited (fun _ => True) netstring := by
  intro a b r s _ _ hEq
  have hSplit : (decimalBytes a.utf8ByteSize ++ [58]) ++ (textBytes a ++ r) =
      (decimalBytes b.utf8ByteSize ++ [58]) ++ (textBytes b ++ s) := by
    rw [← List.append_assoc, ← List.append_assoc]
    exact hEq
  obtain ⟨hSize, hRest⟩ := decimal_delimited trivial trivial hSplit
  have hLength : (textBytes a).length = (textBytes b).length := by
    rw [textBytes_length, textBytes_length, hSize]
  obtain ⟨hText, hEnd⟩ := List.append_inj hRest hLength
  exact ⟨textBytes_injective hText, hEnd⟩

end MyOwnMesh.Foundation

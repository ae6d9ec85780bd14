import Conduit.Basic
import Mathlib.Data.List.Basic

/-! Text as bytes: what is written in UTF-8 is read back, and a text of ASCII has a byte for each character. -/
namespace Conduit.Text

theorem ofUtf8Utf8 (s : String) : ofUtf8? (utf8 s) = some s := by
  have same : (⟨(utf8 s).toArray⟩ : ByteArray) = s.toByteArray := by
    rw [utf8, Array.toArray_toList, String.toUTF8_eq_toByteArray]
  rw [ofUtf8?, same, String.fromUTF8?, dif_pos s.isValidUTF8]
  rfl

theorem utf8Append (a b : String) : utf8 (a ++ b) = utf8 a ++ utf8 b := by simp [utf8]

theorem utf8Length (s : String) : (utf8 s).length = s.utf8ByteSize := Array.length_toList

theorem ofListCons (c : Char) (cs : List Char) : String.ofList (c :: cs) = String.ofList [c] ++ String.ofList cs := by
  rw [← String.ofList_append, List.singleton_append]

theorem byteCountCons (c : Char) (cs : List Char) : byteCount (c :: cs) = c.utf8Size + byteCount cs := rfl

theorem byteCountAppend (as bs : List Char) : byteCount (as ++ bs) = byteCount as + byteCount bs := by
  simp [byteCount]

theorem byteCountUtf8 (cs : List Char) : (utf8 (String.ofList cs)).length = byteCount cs := by
  induction cs with
  | nil => rfl
  | cons c cs ih =>
    have alone : (utf8 (String.ofList [c])).length = c.utf8Size := by
      rw [utf8Length, ← String.singleton_eq_ofList, String.utf8ByteSize_singleton]
    rw [ofListCons, utf8Append, List.length_append, ih, alone]
    simp [byteCount]

theorem byteCountSublist {as bs : List Char} (sub : as.Sublist bs) : byteCount as ≤ byteCount bs := by
  induction sub with
  | slnil => exact Nat.le_refl _
  | cons c _ ih => simp only [byteCount, List.map_cons, List.sum_cons] at ih ⊢; omega
  | cons_cons c _ ih => simp only [byteCount, List.map_cons, List.sum_cons] at ih ⊢; omega

def asciiBytes (cs : List Char) : Bytes := cs.map fun c => UInt8.ofNat c.toNat

theorem utf8Ascii {cs : List Char} (ascii : ∀ c ∈ cs, c.toNat < 128) :
    utf8 (String.ofList cs) = asciiBytes cs := by
  induction cs with
  | nil => rfl
  | cons c cs ih =>
    obtain ⟨here, others⟩ := List.forall_mem_cons.mp ascii
    have low : c.val.toNat ≤ 127 := Nat.le_of_lt_succ here
    have encoded : String.utf8EncodeChar c = [UInt8.ofNat c.toNat] := by
      rw [String.utf8EncodeChar, if_pos low]
      rfl
    have alone : utf8 (String.ofList [c]) = [UInt8.ofNat c.toNat] := by
      simp [utf8, List.utf8Encode_singleton, encoded]
    rw [ofListCons, utf8Append, ih others, alone]
    rfl

theorem ofUtf8Ascii {cs : List Char} (ascii : ∀ c ∈ cs, c.toNat < 128) :
    ofUtf8? (asciiBytes cs) = some (String.ofList cs) := by
  rw [← utf8Ascii ascii, ofUtf8Utf8]

end Conduit.Text

import Heel.Lib.JsonText

/-! The characters of a text read off its bytes: a literal is checked so without decoding UTF-8. -/
namespace Lib.Literal
open Lib.JsonText

def bytesOf (s : String) : List UInt8 := s.toByteArray.data.toList

def isAsciiByte (b : UInt8) : Bool := b.toNat < 128

/-- The characters of a text of ASCII bytes. -/
def chars (s : String) : List Char :=
  if (bytesOf s).all isAsciiByte then (bytesOf s).map fun b => Char.ofNat b.toNat else s.toList

/-- The code points of a text of ASCII bytes. -/
def codes (s : String) : Text :=
  if (bytesOf s).all isAsciiByte then (bytesOf s).map UInt8.toNat else points s

theorem bytesOf_ofList (l : List Char) :
    bytesOf (String.ofList l) = l.flatMap String.utf8EncodeChar := by
  rw [bytesOf, String.toByteArray_ofList, List.utf8Encode, List.data_toByteArray]

theorem encode_ascii {c : Char} (h : (String.utf8EncodeChar c).all isAsciiByte = true) :
    c.toNat < 128 ∧ String.utf8EncodeChar c = [UInt8.ofNat c.toNat] := by
  have hv : c.val.toNat = c.toNat := rfl
  simp only [String.utf8EncodeChar, hv] at h ⊢
  split_ifs at h ⊢ with h1 h2 h3
  · exact ⟨by omega, rfl⟩
  all_goals
    simp only [List.all_cons, isAsciiByte, UInt8.toNat_ofNat', Bool.and_eq_true,
      decide_eq_true_eq] at h
    omega

theorem encode_map {l : List Char} (h : (l.flatMap String.utf8EncodeChar).all isAsciiByte = true) :
    (l.flatMap String.utf8EncodeChar).map UInt8.toNat = l.map Char.toNat := by
  induction l with
  | nil => rfl
  | cons c l ih =>
    rw [List.flatMap_cons, List.all_append, Bool.and_eq_true] at h
    obtain ⟨hlt, hbyte⟩ := encode_ascii h.1
    have hsmall : c.toNat % 256 = c.toNat := Nat.mod_eq_of_lt (by omega)
    rw [List.flatMap_cons, List.map_append, ih h.2, hbyte]
    simp [hsmall]

theorem points_eq (s : String) : points s = codes s := by
  rw [codes]
  split_ifs with h
  · rw [← String.ofList_toList (s := s), bytesOf_ofList] at h ⊢
    rw [encode_map h, points, String.toList_ofList]
  · rfl

theorem points_codes : points = codes := funext points_eq

theorem toList_eq (s : String) : s.toList = chars s := by
  rw [chars]
  split_ifs with h
  · have hcodes := points_eq s
    rw [codes, if_pos h, points] at hcodes
    have hback := congrArg (List.map Char.ofNat) hcodes
    rw [List.map_map, List.map_map] at hback
    simpa [Function.comp_def] using hback
  · rfl

end Lib.Literal

import DirectoryReconcile.Filter.UnitName
import Mathlib.Tactic.Common

/-!
# Paths in unit names

A unit name is read back byte by byte. It says everything about its path but whether there was one
more slash at the start, and its alphabet is small.
-/

namespace DirectoryReconcile.UnitName

/-- The path without the slash at its start, if there is one. -/
def relative (path : String) : String :=
  match path.toList with
  | '/' :: rest => String.ofList rest
  | _ => path

/-- Letters, digits, underscores, dashes, and escapes with two small hexadecimal digits. -/
inductive IsUnitText : List Char → Prop
  | nil : IsUnitText []
  | plain {c : Char} {rest : List Char} (hc : c.isAlphanum ∨ c = '_' ∨ c = '-')
      (hrest : IsUnitText rest) : IsUnitText (c :: rest)
  | escaped {high low : Char} {rest : List Char} (hhigh : high ∈ "0123456789abcdef".toList)
      (hlow : low ∈ "0123456789abcdef".toList) (hrest : IsUnitText rest) :
      IsUnitText ('\\' :: 'x' :: high :: low :: rest)

/-- The bytes that a unit name says. -/
def unescape : List Char → List UInt8
  | '\\' :: 'x' :: high :: low :: rest =>
    UInt8.ofNat (16 * (Text.hexValue? high).getD 0 + (Text.hexValue? low).getD 0) :: unescape rest
  | c :: rest => (if c = '-' then slash else UInt8.ofNat c.toNat) :: unescape rest
  | [] => []

/-! ## Bytes -/

section

variable {byte : UInt8} {rest : List Char}

theorem toNat_ofNat_toNat (byte : UInt8) : (Char.ofNat byte.toNat).toNat = byte.toNat := by
  have hbound := byte.toNat_lt
  have hvalid : byte.toNat.isValidChar := .inl (by omega)
  have hof : Char.ofNat byte.toNat = Char.ofNatAux byte.toNat hvalid := dif_pos hvalid
  rw [hof]
  rfl

theorem isAlphanum_iff {c : Char} : c.isAlphanum = true ↔
    (65 ≤ c.toNat ∧ c.toNat ≤ 90 ∨ 97 ≤ c.toNat ∧ c.toNat ≤ 122) ∨
      48 ≤ c.toNat ∧ c.toNat ≤ 57 := by
  change (decide (65 ≤ c.val ∧ c.val ≤ 90) || (decide (97 ≤ c.val) && decide (c.val ≤ 122)) ||
    (decide (48 ≤ c.val) && decide (c.val ≤ 57))) = true ↔ _
  simp only [Bool.or_eq_true, Bool.and_eq_true, decide_eq_true_eq, UInt32.le_iff_toNat_le]
  rfl

theorem isPlain_iff : isPlain byte = true ↔
    (Char.ofNat byte.toNat).isAlphanum ∨ Char.ofNat byte.toNat = '_' := by
  have hunderscore : byte = 95 ↔ byte.toNat = 95 := UInt8.toNat_inj.symm
  have hchar : Char.ofNat byte.toNat = '_' ↔ byte.toNat = 95 := by
    rw [← Char.toNat_inj, toNat_ofNat_toNat]
    rfl
  rw [isAlphanum_iff, toNat_ofNat_toNat, hchar]
  simp only [isPlain, Bool.or_eq_true, Bool.and_eq_true, decide_eq_true_eq, UInt8.le_iff_toNat_le,
    hunderscore]
  change ((97 ≤ byte.toNat ∧ byte.toNat ≤ 122 ∨ 65 ≤ byte.toNat ∧ byte.toNat ≤ 90) ∨
    48 ≤ byte.toNat ∧ byte.toNat ≤ 57) ∨ byte.toNat = 95 ↔ _
  omega

theorem unescape_cons {c : Char} (hc : c ≠ '\\') :
    unescape (c :: rest) = (if c = '-' then slash else UInt8.ofNat c.toNat) :: unescape rest := by
  rw [unescape]
  exact fun _ _ _ hbackslash _ ↦ hc hbackslash

/-- Neither a dash nor a backslash stands for itself, so what a byte becomes says which it was. -/
theorem unescape_escapeByte (byte : UInt8) (rest : List Char) :
    unescape (escapeByte byte ++ rest) = byte :: unescape rest := by
  unfold escapeByte
  split_ifs with hslash hplain
  · rw [hslash]
    rfl
  · have hne {c : Char} (hc : ¬(c.isAlphanum ∨ c = '_')) : Char.ofNat byte.toNat ≠ c := by
      rintro rfl
      exact hc (isPlain_iff.1 hplain)
    rw [List.singleton_append, unescape_cons (hne (by decide)), if_neg (hne (by decide)),
      toNat_ofNat_toNat, UInt8.ofNat_toNat]
  · have hbound := byte.toNat_lt
    have hhigh : byte.toNat / 16 < 16 := by omega
    have hlow : byte.toNat % 16 < 16 := by omega
    have hvalue : 16 * (byte.toNat / 16) + byte.toNat % 16 = byte.toNat := by omega
    simp [unescape, Text.hexValue?_hexDigit hhigh, Text.hexValue?_hexDigit hlow, hvalue]

theorem unescape_flatMap (bytes : List UInt8) : unescape (bytes.flatMap escapeByte) = bytes := by
  induction bytes with
  | nil => rfl
  | cons byte rest ih => rw [List.flatMap_cons, unescape_escapeByte, ih]

theorem isUnitText_escapeByte (byte : UInt8) (hrest : IsUnitText rest) :
    IsUnitText (escapeByte byte ++ rest) := by
  unfold escapeByte
  split_ifs with hslash hplain
  · exact .plain (by decide) hrest
  · exact .plain ((isPlain_iff.1 hplain).imp_right .inl) hrest
  · have hbound := byte.toNat_lt
    exact .escaped (Text.hexDigit_mem (by omega)) (Text.hexDigit_mem (by omega)) hrest

theorem isUnitText_flatMap (bytes : List UInt8) : IsUnitText (bytes.flatMap escapeByte) := by
  induction bytes with
  | nil => exact .nil
  | cons byte rest ih =>
    rw [List.flatMap_cons]
    exact isUnitText_escapeByte byte ih

end

/-! ## Paths -/

theorem bytes_inj {p q : String} : bytes p = bytes q ↔ p = q := by
  rw [bytes, bytes, Array.toList_inj, ← ByteArray.ext_iff]
  exact String.toByteArray_inj

theorem bytes_eq_flatMap (path : String) :
    bytes path = path.toList.flatMap String.utf8EncodeChar := by
  have hbytes : path.toUTF8 = (path.toList.flatMap String.utf8EncodeChar).toByteArray :=
    String.utf8Encode_toList.symm
  rw [bytes, hbytes, List.data_toByteArray]

/-- In UTF-8 only a slash starts with the byte of a slash. -/
theorem head?_utf8EncodeChar {c : Char} (h : (String.utf8EncodeChar c).head? = some slash) :
    c = '/' := by
  have hbyte {n : Nat} (hn : some (UInt8.ofNat n) = some slash) : n % 256 = 47 :=
    (UInt8.toNat_ofNat').symm.trans (congrArg UInt8.toNat (Option.some.inj hn))
  rw [String.utf8EncodeChar.eq_1] at h
  split_ifs at h with hone htwo hthree
  all_goals have hnat := hbyte h
  · have hcode : c.val.toNat = 47 := by omega
    exact Char.toNat_inj.1 hcode
  -- A longer encoding starts with a byte from 192 on.
  all_goals omega

theorem dropLeadingSlash_bytes (path : String) :
    dropLeadingSlash (bytes path) = bytes (relative path) := by
  unfold relative
  split
  next rest hpath =>
    rw [bytes_eq_flatMap, bytes_eq_flatMap, hpath, String.toList_ofList]
    rfl
  next hslash =>
    rw [bytes_eq_flatMap]
    cases hpath : path.toList with
    | nil => rfl
    | cons c rest =>
      rw [List.flatMap_cons]
      cases hbytes : String.utf8EncodeChar c with
      | nil => exact absurd hbytes String.utf8EncodeChar_ne_nil
      | cons byte others =>
        refine if_neg ?_
        rintro rfl
        obtain rfl := head?_utf8EncodeChar (by rw [hbytes]; rfl)
        exact hslash rest hpath

theorem unescape_escape (path : String) :
    unescape (escape path).toList = bytes (relative path) := by
  rw [escape, String.toList_ofList, unescape_flatMap, dropLeadingSlash_bytes]

/-- A unit name is read as the bytes of its path without the slash at the start, so two paths have
one unit name exactly if they are the same without it. Nothing stands in a unit name but letters,
digits, underscores, dashes and escapes. -/
theorem escape_loses_leading_slash (p q : String) :
    unescape (escape p).toList = bytes (relative p) ∧
      (escape p = escape q ↔ relative p = relative q) ∧ IsUnitText (escape p).toList := by
  refine ⟨unescape_escape p, ⟨fun h ↦ ?_, fun h ↦ ?_⟩, ?_⟩
  · rw [← bytes_inj, ← unescape_escape, ← unescape_escape, h]
  · rw [escape, escape, dropLeadingSlash_bytes, dropLeadingSlash_bytes, h]
  · rw [escape, String.toList_ofList]
    exact isUnitText_flatMap _

/-- A second slash is not lost, and a dash of a path is not taken for a slash. -/
example : escape "/srv/a-b" = "srv-a\\x2db" ∧ escape "//srv" = "-srv" := by decide +kernel

end DirectoryReconcile.UnitName

import CreatidyKernel.Lib.JsonText
import CreatidyKernel.Routing.Requirements

set_option relaxedAutoImplicit false
set_option autoImplicit false

/-!
# JSON values in bytes

`json.loads` of bytes guesses the encoding of a text from its first bytes. What `json.dumps` writes
is ASCII, so its bytes are always taken for UTF-8 and give the text back.

A dictionary with a repeated key is refused by a hook. The texts of `json.dumps` repeat no key:
outside its strings a text has one colon for each field.

## Main definitions

* `Json.detectEncoding`, `Json.textOf` — the encoding of some bytes, and their text.
* `Json.encode`, `Intake.objectFrom` — `encode` and `object_from` of the intake.

## Main results

* `Json.textOf_encode` — the bytes of a value have its text.
* `Json.count_colons` — a printed value has a colon for each field.
* `Intake.objectFrom_encode` — a dictionary is read back from its bytes.
-/

namespace CreatidyKernel

namespace Json

/-! ## Encodings -/

/-- The encodings of JSON texts. -/
inductive Encoding
  | utf8
  | utf16 (big : Bool)
  | utf32 (big : Bool)
deriving DecidableEq, Repr

/-- `json.detect_encoding`, with the length of the mark at the start of the text. -/
def detectEncoding (b : List UInt8) : Encoding × ℕ :=
  if [0, 0, 0xfe, 0xff] <+: b then (.utf32 true, 4)
  else if [0xff, 0xfe, 0, 0] <+: b then (.utf32 false, 4)
  else if [0xfe, 0xff] <+: b then (.utf16 true, 2)
  else if [0xff, 0xfe] <+: b then (.utf16 false, 2)
  else if [0xef, 0xbb, 0xbf] <+: b then (.utf8, 3)
  else
    match b with
    | b₀ :: b₁ :: b₂ :: b₃ :: _ =>
      if b₀ = 0 then (if b₁ = 0 then .utf32 true else .utf16 true, 0)
      else if b₁ = 0 then (if b₂ = 0 ∧ b₃ = 0 then .utf32 false else .utf16 false, 0)
      else (.utf8, 0)
    | [b₀, b₁] =>
      if b₀ = 0 then (.utf16 true, 0) else if b₁ = 0 then (.utf16 false, 0) else (.utf8, 0)
    | _ => (.utf8, 0)

/-- The number that some bytes write, the greatest place first or last. -/
def number (big : Bool) (b : List UInt8) : ℕ :=
  (if big = true then b else b.reverse).foldl (fun n d => 256 * n + d.toNat) 0

/-- A Unicode scalar value as a character. -/
def scalar (n : ℕ) : Option Char := if h : n.isValidChar then some (Char.ofNatAux n h) else none

/-- The characters in UTF-16. -/
def utf16 (big : Bool) : List UInt8 → Option (List Char)
  | [] => some []
  | a :: b :: c :: d :: r =>
    let high := number big [a, b]
    let low := number big [c, d]
    if 0xd800 ≤ high ∧ high < 0xdc00 then
      if 0xdc00 ≤ low ∧ low < 0xe000 then do
        let char ← scalar (0x10000 + (high - 0xd800) * 0x400 + (low - 0xdc00))
        let rest ← utf16 big r
        return char :: rest
      else none
    else do
      let char ← scalar high
      let rest ← utf16 big (c :: d :: r)
      return char :: rest
  | [a, b] => do
    let char ← scalar (number big [a, b])
    return [char]
  | _ => none

/-- The characters in UTF-32. -/
def utf32 (big : Bool) : List UInt8 → Option (List Char)
  | [] => some []
  | a :: b :: c :: d :: r => do
    let char ← scalar (number big [a, b, c, d])
    let rest ← utf32 big r
    return char :: rest
  | _ => none

/-- The text `json.loads` reads in some bytes. -/
def textOf (raw : ByteArray) : Option String :=
  let (encoding, mark) := detectEncoding raw.data.toList
  let b := raw.data.toList.drop mark
  match encoding with
  | .utf8 => String.fromUTF8? ⟨b.toArray⟩
  | .utf16 big => String.ofList <$> utf16 big b
  | .utf32 big => String.ofList <$> utf32 big b

example : textOf ⟨#[0x7b, 0, 0x7d, 0]⟩ = some "{}" := by decide

/-- `encode`. -/
def encode (v : Json) : ByteArray := (dumps v).toUTF8

theorem fromUTF8_toUTF8 (s : String) : String.fromUTF8? s.toUTF8 = some s :=
  dif_pos s.isValidUTF8

theorem fromUTF8_eq_some {b : ByteArray} {s : String} :
    String.fromUTF8? b = some s ↔ b = s.toUTF8 := by
  constructor
  · intro h
    unfold String.fromUTF8? at h
    split at h
    · cases h
      rfl
    · cases h
  · rintro rfl
    exact fromUTF8_toUTF8 s

/-- Bytes that are neither nulls nor parts of a mark are UTF-8. -/
theorem detectEncoding_of_plain {b : List UInt8} (h : ∀ x ∈ b, x ∉ [0, 0xef, 0xfe, 0xff]) :
    detectEncoding b = (.utf8, 0) := by
  unfold detectEncoding
  rcases b with - | ⟨b₀, b⟩
  · rfl
  · rw [List.forall_mem_cons] at h
    obtain ⟨h₀, h⟩ := h
    simp only [List.mem_cons, List.not_mem_nil, or_false, not_or] at h₀
    obtain ⟨h0, hef, hfe, hff⟩ := h₀
    simp only [List.cons_prefix_cons, Ne.symm h0, Ne.symm hef, Ne.symm hfe, Ne.symm hff, false_and,
      if_false]
    have hnull : ∀ x ∈ b, x ≠ 0 := by
      rintro x hx rfl
      exact h 0 hx (by decide)
    rcases b with - | ⟨b₁, - | ⟨b₂, - | ⟨b₃, b⟩⟩⟩ <;> simp_all

/-! ### Printed values are ASCII -/

/-- The printable ASCII characters. -/
def Plain (c : Char) : Prop := 32 ≤ c.toNat ∧ c.toNat ≤ 126

instance (c : Char) : Decidable (Plain c) := inferInstanceAs (Decidable (_ ∧ _))

theorem escapeUnit_plain (n : ℕ) : ∀ c ∈ escapeUnit n, Plain c := by
  have hdigit : ∀ d < 16, Plain (Nat.digitChar d) := by decide
  have h (m : ℕ) := hdigit (m % 16) (Nat.mod_lt _ (by decide))
  simp only [escapeUnit, List.forall_mem_cons, h, true_and]
  exact ⟨by decide, by decide, by rintro _ ⟨⟩⟩

theorem printChar_plain (c : Char) : ∀ d ∈ printChar c, Plain d := by
  unfold printChar
  split_ifs with h1 h2 h3 h4 h5 h6 h7 h8 h9
  · decide
  · decide
  · decide
  · decide
  · decide
  · decide
  · decide
  · rw [List.forall_mem_singleton]
    exact h8
  · exact escapeUnit_plain _
  · rw [List.forall_mem_append]
    exact ⟨escapeUnit_plain _, escapeUnit_plain _⟩

theorem printChars_plain (cs : List Char) : ∀ c ∈ printChars cs, Plain c := by
  induction cs with
  | nil => decide
  | cons c cs ih =>
    rw [printChars, List.forall_mem_append]
    exact ⟨printChar_plain c, ih⟩

/-- The characters of numbers are printable, and neither quotes nor colons. -/
theorem of_continuesNumber {c : Char} (h : continuesNumber c = true) :
    Plain c ∧ c ≠ '"' ∧ c ≠ ':' := by
  refine ⟨?_, ?_, ?_⟩
  · simp only [continuesNumber, Bool.or_eq_true, decide_eq_true_eq] at h
    rcases h with ((((h | rfl) | rfl) | rfl) | rfl) | rfl
    · simp only [Char.isDigit, ge_iff_le, Bool.and_eq_true, decide_eq_true_eq,
        UInt32.le_iff_toNat_le] at h
      exact ⟨le_trans (by decide) h.1, h.2.trans (by decide)⟩
    all_goals decide
  · rintro rfl
    exact absurd h (by decide)
  · rintro rfl
    exact absurd h (by decide)

theorem printInt_chars (n : ℤ) : ∀ c ∈ printInt n, continuesNumber c = true := by
  have hdigits (n : ℕ) : ∀ c ∈ Nat.toDigits 10 n, continuesNumber c = true := fun c hc => by
    simp [continuesNumber, Nat.isDigit_of_mem_toDigits (by norm_num) (by norm_num) hc]
  cases n with
  | ofNat n => exact hdigits n
  | negSucc n =>
    rw [printInt, List.forall_mem_cons]
    exact ⟨by decide, hdigits _⟩

theorem floatText_chars (f : FloatText) : ∀ c ∈ f.val, continuesNumber c = true := by
  obtain ⟨sign, whole, scale, hf, hsign, -, hwhole, hscale⟩ := floatText_parts f
  intro c hc
  rw [hf, List.mem_append, List.mem_append] at hc
  rcases hc with hc | hc | hc
  · rcases hsign with rfl | rfl
    · cases hc
    · rw [List.mem_singleton.mp hc]
      decide
  · simp [continuesNumber, hwhole c hc]
  · exact (isScale_chars hscale).1 c hc

mutual

/-- A printed value consists of printable ASCII characters. -/
theorem print_plain : ∀ v : Json, ∀ c ∈ v.print, Plain c
  | .null => by rw [print]; decide
  | .bool true => by rw [print]; decide
  | .bool false => by rw [print]; decide
  | .int n => by
    rw [print]
    exact fun c hc => (of_continuesNumber (printInt_chars n c hc)).1
  | .float f => by
    rw [print]
    exact fun c hc => (of_continuesNumber (floatText_chars f c hc)).1
  | .str s => by
    rw [print, List.forall_mem_cons]
    exact ⟨by decide, printChars_plain _⟩
  | .arr [] => by rw [print]; decide
  | .arr (v :: vs) => by
    rw [print, List.forall_mem_cons, List.forall_mem_append]
    exact ⟨by decide, print_plain v, printItems_plain vs⟩
  | .obj [] => by rw [print]; decide
  | .obj ((k, v) :: fs) => by
    rw [print, List.forall_mem_cons, List.forall_mem_cons, List.forall_mem_append,
      List.forall_mem_cons, List.forall_mem_append]
    exact ⟨by decide, by decide, printChars_plain _, by decide, print_plain v,
      printFields_plain fs⟩

theorem printItems_plain : ∀ vs : List Json, ∀ c ∈ printItems vs, Plain c
  | [] => by rw [printItems]; decide
  | v :: vs => by
    rw [printItems, List.forall_mem_cons, List.forall_mem_append]
    exact ⟨by decide, print_plain v, printItems_plain vs⟩

theorem printFields_plain : ∀ fs : List (String × Json), ∀ c ∈ printFields fs, Plain c
  | [] => by rw [printFields]; decide
  | (k, v) :: fs => by
    rw [printFields, List.forall_mem_cons, List.forall_mem_cons, List.forall_mem_append,
      List.forall_mem_cons, List.forall_mem_append]
    exact ⟨by decide, by decide, printChars_plain _, by decide, print_plain v,
      printFields_plain fs⟩

end

/-- The bytes of printable ASCII characters are their codes. -/
theorem utf8_of_plain {cs : List Char} (h : ∀ c ∈ cs, Plain c) :
    (String.ofList cs).toUTF8.data.toList = cs.map fun c => c.val.toUInt8 := by
  rw [String.toUTF8_eq_toByteArray, String.toByteArray_ofList, List.utf8Encode,
    List.toList_data_toByteArray]
  induction cs with
  | nil => rfl
  | cons c cs ih =>
    rw [List.forall_mem_cons] at h
    have hsize : c.utf8Size = 1 := by
      rw [Char.utf8Size_eq_one_iff, UInt32.le_iff_toNat_le]
      exact h.1.2.trans (by decide)
    rw [List.flatMap_cons, String.utf8EncodeChar_eq_singleton hsize, ih h.2]
    rfl

/-- The text of a value is read in its bytes. -/
theorem textOf_encode (v : Json) : textOf (encode v) = some (dumps v) := by
  have hdetect : detectEncoding (encode v).data.toList = (.utf8, 0) := by
    rw [encode, dumps, utf8_of_plain (print_plain v)]
    refine detectEncoding_of_plain fun x hx => ?_
    obtain ⟨c, hc, rfl⟩ := List.mem_map.mp hx
    obtain ⟨hlow, hhigh⟩ := print_plain v c hc
    have hbyte : c.val.toUInt8.toNat = c.toNat := by
      rw [UInt32.toNat_toUInt8]
      exact Nat.mod_eq_of_lt (show c.toNat < 2 ^ 8 by omega)
    simp only [List.mem_cons, List.not_mem_nil, or_false, ← UInt8.toNat_inj, hbyte]
    simp
    omega
  unfold textOf
  simp only [hdetect, List.drop_zero, Array.toArray_toList]
  exact fromUTF8_toUTF8 _

/-! ## Repeated keys -/

/-- How many colons a text has outside its strings. -/
def colons (cs : List Char) : ℕ := (Routing.outside false false cs).count ':'

theorem outside_escapeUnit (n : ℕ) (r : List Char) :
    Routing.outside true false (escapeUnit n ++ r) = Routing.outside true false r := by
  have hdigit : ∀ d < 16, Nat.digitChar d ≠ '\\' ∧ Nat.digitChar d ≠ '"' := by decide
  have h (m : ℕ) := hdigit (m % 16) (Nat.mod_lt _ (by decide))
  simp [escapeUnit, Routing.outside, (h _).1, (h _).2]

/-- A printed character does not end the string. -/
theorem outside_printChar (c : Char) (r : List Char) :
    Routing.outside true false (printChar c ++ r) = Routing.outside true false r := by
  unfold printChar
  split_ifs with h1 h2 h3 h4 h5 h6 h7 h8 h9
  · rfl
  · rfl
  · rfl
  · rfl
  · rfl
  · rfl
  · rfl
  · simp [Routing.outside, h1, h2]
  · exact outside_escapeUnit _ r
  · rw [List.append_assoc, outside_escapeUnit, outside_escapeUnit]

/-- A printed string hides its characters. -/
theorem colons_printChars (cs r : List Char) :
    colons ('"' :: (printChars cs ++ r)) = colons r := by
  have hstring : ∀ cs : List Char, Routing.outside true false (printChars cs ++ r) =
      Routing.outside false false r := by
    intro cs
    induction cs with
    | nil => simp [printChars, Routing.outside]
    | cons c cs ih => rw [printChars, List.append_assoc, outside_printChar, ih]
  simp [colons, Routing.outside, hstring]

theorem colons_cons {c : Char} (hq : c ≠ '"') (hc : c ≠ ':') (r : List Char) :
    colons (c :: r) = colons r := by
  simp [colons, Routing.outside, hq, hc]

theorem colons_colon (r : List Char) : colons (':' :: r) = colons r + 1 := by
  simp [colons, Routing.outside]

/-- Characters that are neither quotes nor colons. -/
theorem colons_append {cs : List Char} (h : ∀ c ∈ cs, c ≠ '"' ∧ c ≠ ':') (r : List Char) :
    colons (cs ++ r) = colons r := by
  induction cs with
  | nil => rfl
  | cons c cs ih =>
    rw [List.forall_mem_cons] at h
    rw [List.cons_append, colons_cons h.1.1 h.1.2, ih h.2]

mutual

/-- A printed value has a colon for each of its fields. -/
theorem colons_print : ∀ (v : Json) (r : List Char),
    colons (v.print ++ r) = Routing.fieldCount v + colons r
  | .null, r => by
    rw [print, colons_append (by decide), Routing.fieldCount, Nat.zero_add]
    all_goals simp
  | .bool true, r => by
    rw [print, colons_append (by decide), Routing.fieldCount, Nat.zero_add]
    all_goals simp
  | .bool false, r => by
    rw [print, colons_append (by decide), Routing.fieldCount, Nat.zero_add]
    all_goals simp
  | .int n, r => by
    rw [print, colons_append fun c hc => (of_continuesNumber (printInt_chars n c hc)).2, Routing.fieldCount, Nat.zero_add]
    all_goals simp
  | .float f, r => by
    rw [print, colons_append fun c hc => (of_continuesNumber (floatText_chars f c hc)).2, Routing.fieldCount, Nat.zero_add]
    all_goals simp
  | .str s, r => by
    rw [print, List.cons_append, colons_printChars, Routing.fieldCount, Nat.zero_add]
    all_goals simp
  | .arr [], r => by
    rw [print, colons_append (by decide), Routing.fieldCount, Routing.fieldCountItems,
      Nat.zero_add]
  | .arr (v :: vs), r => by
    rw [print, List.cons_append, colons_cons (by decide) (by decide), List.append_assoc,
      colons_print v, colons_printItems vs, Routing.fieldCount, Routing.fieldCountItems,
      Nat.add_assoc]
  | .obj [], r => by
    rw [print, colons_append (by decide), Routing.fieldCount, Routing.fieldCountFields,
      Nat.zero_add]
  | .obj ((k, v) :: fs), r => by
    rw [print, List.cons_append, colons_cons (by decide) (by decide), List.cons_append,
      List.append_assoc, colons_printChars, List.cons_append, colons_colon, List.append_assoc,
      colons_print v, colons_printFields fs, Routing.fieldCount, Routing.fieldCountFields]
    omega

theorem colons_printItems : ∀ (vs : List Json) (r : List Char),
    colons (printItems vs ++ r) = Routing.fieldCountItems vs + colons r
  | [], r => by
    rw [printItems, colons_append (by decide), Routing.fieldCountItems, Nat.zero_add]
  | v :: vs, r => by
    rw [printItems, List.cons_append, colons_cons (by decide) (by decide), List.append_assoc,
      colons_print v, colons_printItems vs, Routing.fieldCountItems, Nat.add_assoc]

theorem colons_printFields : ∀ (fs : List (String × Json)) (r : List Char),
    colons (printFields fs ++ r) = Routing.fieldCountFields fs + colons r
  | [], r => by
    rw [printFields, colons_append (by decide), Routing.fieldCountFields, Nat.zero_add]
  | (k, v) :: fs, r => by
    rw [printFields, List.cons_append, colons_cons (by decide) (by decide), List.cons_append,
      List.append_assoc, colons_printChars, List.cons_append, colons_colon, List.append_assoc,
      colons_print v, colons_printFields fs, Routing.fieldCountFields]
    omega

end

/-- A printed value has a colon outside its strings for each of its fields. -/
theorem count_colons (v : Json) : colons (dumps v).toList = Routing.fieldCount v := by
  have h := colons_print v []
  rwa [List.append_nil, show colons [] = 0 from rfl, Nat.add_zero,
    ← String.toList_ofList (l := v.print)] at h

end Json

namespace Intake

open Checked

/-- `object_from`. -/
def objectFrom (raw : ByteArray) : Except Failure (List (String × Json)) := do
  let text ← lookup (refusal "invalid intake encoding") Json.textOf raw
  let value ← lookup (refusal "invalid intake encoding") loads text
  check (Json.colons text.toList = Routing.fieldCount value) (refusal "invalid intake encoding")
  match value with
  | .obj fields => return fields
  | _ => .error (refusal "intake object required")

/-- A dictionary is read from its bytes, and from those of no other value. -/
theorem objectFrom_encode {v : Json} (hv : v.WF) {fields : List (String × Json)} :
    objectFrom (Json.encode v) = .ok fields ↔ v = .obj fields := by
  constructor
  · intro h
    obtain ⟨text, htext, h⟩ := bind_eq_ok.mp h
    obtain ⟨value, hvalue, h⟩ := bind_eq_ok.mp h
    rw [lookup_eq_ok, Json.textOf_encode, Option.some.injEq] at htext
    subst htext
    rw [lookup_eq_ok, loads_dumps hv, Option.some.injEq] at hvalue
    subst hvalue
    obtain ⟨-, h⟩ := check_bind_eq_ok.mp h
    split at h
    · cases h
      rfl
    · cases h
  · rintro rfl
    exact bind_of_ok (lookup_eq_ok.mpr (Json.textOf_encode _)) <|
      bind_of_ok (lookup_eq_ok.mpr (loads_dumps hv)) <|
      bind_of_ok (check_of (Json.count_colons _)) rfl

end Intake

end CreatidyKernel

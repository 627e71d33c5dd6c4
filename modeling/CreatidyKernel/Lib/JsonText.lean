import Mathlib.Tactic
import CreatidyKernel.Lib.Json

set_option relaxedAutoImplicit false
set_option autoImplicit false

/-!
# Decoding the text of a JSON value

`loads` inverts `dumps` on well-formed values. The proof follows the grammar from the
characters of a string upwards; the fuel of the decoder bounds the nesting depth, and a text
is at least as long as the value it denotes is large.

## Main results

* `Json.scanString_printChars`, `Json.scanInt_printInt`, `Json.scanFloat_float` — strings and
  numbers.
* `loads_dumps`, `dumps_injective` — whole values.
-/

namespace CreatidyKernel

namespace Json

/-! ## Strings -/

theorem hexVal_digitChar : ∀ d < 16, hexVal (Nat.digitChar d) = some d := by decide

/-- The escape of a code unit is read back. -/
theorem hex4_escapeUnit {n : ℕ} (h : n < 65536) (r : List Char) :
    hex4 ((escapeUnit n).drop 2 ++ r) = some (n, r) := by
  simp only [escapeUnit, List.drop_succ_cons, List.drop_zero, List.cons_append, List.nil_append,
    hex4, hexVal_digitChar _ (Nat.mod_lt _ (by norm_num))]
  congr 2
  omega

theorem escapeUnit_append (n : ℕ) (r : List Char) :
    escapeUnit n ++ r = '\\' :: 'u' :: ((escapeUnit n).drop 2 ++ r) := rfl

/-- A scalar value is below the surrogates or above them. -/
theorem toNat_scalar (c : Char) : c.toNat < 55296 ∨ (57344 ≤ c.toNat ∧ c.toNat < 1114112) := by
  have h := c.valid
  simp only [UInt32.isValidChar, Nat.isValidChar] at h
  change c.val.toNat < 55296 ∨ (57344 ≤ c.val.toNat ∧ c.val.toNat < 1114112)
  omega

/-- The escape of a character of the basic plane is read back. -/
theorem scanEscape_escapeUnit {c : Char} (h : c.toNat < 65536) (r : List Char) :
    scanEscape ('u' :: ((escapeUnit c.toNat).drop 2 ++ r)) = some (c, r) := by
  have hs := toNat_scalar c
  simp only [scanEscape, hex4_escapeUnit h]
  rw [if_neg (by omega), if_neg (by omega), Char.ofNat_toNat]

/-- The surrogate pair of a character beyond the basic plane is read back. -/
theorem scanEscape_surrogates {c : Char} (h : 65536 ≤ c.toNat) (r : List Char) :
    scanEscape ('u' :: ((escapeUnit (55296 + (c.toNat - 65536) / 1024)).drop 2 ++
      (escapeUnit (56320 + (c.toNat - 65536) % 1024) ++ r))) = some (c, r) := by
  have hs := toNat_scalar c
  have hhi : (c.toNat - 65536) / 1024 < 1024 := by omega
  have hlo : (c.toNat - 65536) % 1024 < 1024 := Nat.mod_lt _ (by norm_num)
  rw [escapeUnit_append (56320 + (c.toNat - 65536) % 1024)]
  simp only [scanEscape, hex4_escapeUnit (show 55296 + (c.toNat - 65536) / 1024 < 65536 by omega),
    hex4_escapeUnit (show 56320 + (c.toNat - 65536) % 1024 < 65536 by omega)]
  rw [if_pos (by omega), if_pos (by omega)]
  have hval : 65536 + (55296 + (c.toNat - 65536) / 1024 - 55296) * 1024 +
      (56320 + (c.toNat - 65536) % 1024 - 56320) = c.toNat := by omega
  rw [hval, Char.ofNat_toNat]

/-- A printed character is either itself, unescaped, or a backslash and an escape that is read
back as the character. -/
theorem printChar_cases (c : Char) :
    (printChar c = [c] ∧ c ≠ '"' ∧ c ≠ '\\' ∧ 32 ≤ c.toNat) ∨
      ∃ e, printChar c = '\\' :: e ∧ ∀ r, scanEscape (e ++ r) = some (c, r) := by
  unfold printChar
  split_ifs with h1 h2 h3 h4 h5 h6 h7 h8 h9
  · exact .inr ⟨['"'], rfl, fun r => by simp [scanEscape, h1]⟩
  · exact .inr ⟨['\\'], rfl, fun r => by simp [scanEscape, h2]⟩
  · exact .inr ⟨['n'], rfl, fun r => by simp [scanEscape, h3]⟩
  · exact .inr ⟨['r'], rfl, fun r => by simp [scanEscape, h4]⟩
  · exact .inr ⟨['t'], rfl, fun r => by simp [scanEscape, h5]⟩
  · exact .inr ⟨['f'], rfl, fun r => by simp [scanEscape, h6]⟩
  · exact .inr ⟨['b'], rfl, fun r => by simp [scanEscape, h7]⟩
  · exact .inl ⟨rfl, h1, h2, h8.1⟩
  · exact .inr ⟨_, rfl, fun r => scanEscape_escapeUnit h9 r⟩
  · refine .inr ⟨_, rfl, fun r => ?_⟩
    rw [← scanEscape_surrogates (not_lt.1 h9) r, ← List.append_assoc]
    rfl

/-- One printed character is one step of the string scanner. -/
theorem scanString_printChar (fuel : ℕ) (c : Char) (r : List Char) :
    scanString (fuel + 1) (printChar c ++ r) =
      (scanString fuel r).map fun (cs, r) => (c :: cs, r) := by
  rcases printChar_cases c with ⟨hp, hq, hb, h32⟩ | ⟨e, hp, he⟩
  · rw [hp]
    simp only [List.cons_append, List.nil_append, scanString]
    rw [if_neg hq, if_neg hb, if_neg (by omega)]
  · rw [hp]
    simp [scanString, he]

/-- The string scanner reads a printed string back. -/
theorem scanString_printChars (cs : List Char) (r : List Char) {fuel : ℕ} (h : cs.length < fuel) :
    scanString fuel (printChars cs ++ r) = some (cs, r) := by
  induction cs generalizing fuel with
  | nil =>
    obtain ⟨fuel, rfl⟩ : ∃ n, fuel = n + 1 := ⟨fuel - 1, by simp at h; omega⟩
    simp [printChars, scanString]
  | cons c cs ih =>
    obtain ⟨fuel, rfl⟩ : ∃ n, fuel = n + 1 := ⟨fuel - 1, by simp at h; omega⟩
    rw [printChars, List.append_assoc, scanString_printChar, ih (by simpa using h)]
    rfl

/-- A printed string is longer than the string. -/
theorem length_lt_printChars (cs : List Char) : cs.length < (printChars cs).length := by
  induction cs with
  | nil => simp [printChars]
  | cons c cs ih =>
    have hc : 0 < (printChar c).length := by
      rcases printChar_cases c with ⟨hp, -⟩ | ⟨e, hp, -⟩ <;> simp [hp]
    simp only [printChars, List.length_append, List.length_cons]
    omega

/-- A printed string, with the fuel the decoder gives it. -/
theorem scanString_self (cs r : List Char) :
    scanString ((printChars cs ++ r).length + 1) (printChars cs ++ r) = some (cs, r) := by
  apply scanString_printChars
  have := length_lt_printChars cs
  simp only [List.length_append]
  omega

/-! ## Integers -/

/-- The text after a literal does not continue a number. -/
def NoNumber (r : List Char) : Prop := r.head?.any continuesNumber = false

theorem noNumber_cons {c : Char} (h : continuesNumber c = false) (r : List Char) :
    NoNumber (c :: r) := by simpa [NoNumber] using h

/-- The decimal digits of a positive number do not start with a zero. -/
theorem head_toDigits_ne_zero : ∀ n : ℕ, 0 < n → (Nat.toDigits 10 n).head? ≠ some '0' := by
  intro n
  induction n using Nat.strong_induction_on with
  | _ n ih =>
    intro hn
    by_cases h : n < 10
    · rw [Nat.toDigits_of_lt_base h]
      interval_cases n <;> decide
    · rw [Nat.toDigits_of_base_le (by norm_num) (by omega)]
      have hih := ih (n / 10) (by omega) (by omega)
      cases hd : Nat.toDigits 10 (n / 10) with
      | nil => exact absurd hd Nat.toDigits_ne_nil
      | cons a l => rw [hd] at hih; simpa using hih

/-- The number scanner reads printed digits back. -/
theorem scanNat_toDigits (n : ℕ) {r : List Char} (h : NoNumber r) :
    scanNat (Nat.toDigits 10 n ++ r) = some (n, r) := by
  have hdig : ∀ c ∈ Nat.toDigits 10 n, c.isDigit = true := fun c hc =>
    Nat.isDigit_of_mem_toDigits (by norm_num) (by norm_num) hc
  have hr : r.takeWhile Char.isDigit = [] ∧ r.dropWhile Char.isDigit = r := by
    cases r with
    | nil => simp
    | cons c r =>
      have hc : c.isDigit = false := by
        simp only [NoNumber, continuesNumber, List.head?_cons, Option.any_some] at h
        simp_all
      simp [hc]
  have htake : (Nat.toDigits 10 n ++ r).takeWhile Char.isDigit = Nat.toDigits 10 n := by
    rw [List.takeWhile_append_of_pos hdig, hr.1, List.append_nil]
  have hdrop : (Nat.toDigits 10 n ++ r).dropWhile Char.isDigit = r := by
    rw [List.dropWhile_append_of_pos hdig, hr.2]
  have hzero : ¬((Nat.toDigits 10 n).head? = some '0' ∧ (Nat.toDigits 10 n).length ≠ 1) := by
    rintro ⟨h0, h1⟩
    rcases Nat.eq_zero_or_pos n with rfl | hn
    · exact h1 (by simp [Nat.toDigits_zero])
    · exact head_toDigits_ne_zero n hn h0
  simp only [scanNat, htake, hdrop]
  rw [if_neg (by rintro (h0 | h0); exacts [Nat.toDigits_ne_nil h0, hzero h0]),
    if_neg (by rw [h]; simp), Nat.ofDigitChars_ten_toDigits]

/-- Printed digits do not start with a minus sign. -/
theorem head_toDigits_ne_minus (n : ℕ) (r s : List Char) : Nat.toDigits 10 n ++ r ≠ '-' :: s := by
  intro h
  cases hd : Nat.toDigits 10 n with
  | nil => exact Nat.toDigits_ne_nil hd
  | cons c l =>
    have hc : c.isDigit = true := Nat.isDigit_of_mem_toDigits (b := 10) (n := n) (by norm_num)
      (by norm_num) (by rw [hd]; exact List.mem_cons_self)
    rw [hd] at h
    obtain rfl : c = '-' := by simpa using (List.cons.inj h).1
    exact absurd hc (by decide)

/-- The integer scanner reads a printed integer back. -/
theorem scanInt_printInt (n : ℤ) {r : List Char} (h : NoNumber r) :
    scanInt (printInt n ++ r) = some (n, r) := by
  cases n with
  | ofNat n =>
    have hscan : scanInt (Nat.toDigits 10 n ++ r) =
        (scanNat (Nat.toDigits 10 n ++ r)).map fun x => ((x.1 : ℤ), x.2) := by
      unfold scanInt
      split
      · next heq => exact absurd heq (head_toDigits_ne_minus n r _)
      · rfl
    rw [printInt, hscan, scanNat_toDigits n h]
    rfl
  | negSucc n =>
    simp only [printInt, List.cons_append, scanInt, scanNat_toDigits (n + 1) h]
    rfl

/-! ## Floats -/

/-- An exponent consists of characters of numbers, and starts with none of the digits. -/
theorem isExponent_chars {cs : List Char} (h : isExponent cs = true) :
    (∀ c ∈ cs, continuesNumber c = true) ∧ ∃ c r, cs = c :: r ∧ c.isDigit = false := by
  have hdigits : ∀ ds : List Char, ds.all Char.isDigit = true →
      ∀ c ∈ ds, continuesNumber c = true := fun ds hds c hc => by
    simp [continuesNumber, List.all_eq_true.1 hds c hc]
  unfold isExponent at h
  split at h
  · rw [Bool.and_eq_true] at h
    refine ⟨?_, _, _, rfl, rfl⟩
    rintro c (_ | ⟨_, _ | ⟨_, hc⟩⟩)
    exacts [rfl, rfl, hdigits _ h.2 c hc]
  · rw [Bool.and_eq_true] at h
    refine ⟨?_, _, _, rfl, rfl⟩
    rintro c (_ | ⟨_, _ | ⟨_, hc⟩⟩)
    exacts [rfl, rfl, hdigits _ h.2 c hc]
  · cases h

/-- So does a fraction with its exponent. -/
theorem isScale_chars {cs : List Char} (h : isScale cs = true) :
    (∀ c ∈ cs, continuesNumber c = true) ∧ ∃ c r, cs = c :: r ∧ c.isDigit = false := by
  unfold isScale at h
  split at h
  · next r =>
    rw [Bool.and_eq_true, Bool.or_eq_true] at h
    refine ⟨?_, _, _, rfl, rfl⟩
    intro c hc
    rcases List.mem_cons.1 hc with rfl | hc
    · rfl
    · rw [← List.takeWhile_append_dropWhile (p := Char.isDigit) (l := r), List.mem_append] at hc
      rcases hc with hc | hc
      · simp [continuesNumber, List.all_eq_true.1 List.all_takeWhile c hc]
      · rcases h.2 with he | he
        · rw [List.isEmpty_iff.1 he] at hc
          cases hc
        · exact (isExponent_chars he).1 c hc
  · exact isExponent_chars h

/-- The text of a float is its sign, the digits of its integer part, and its scale. -/
theorem floatText_parts (f : FloatText) : ∃ sign whole scale,
    f.val = sign ++ (whole ++ scale) ∧ (sign = [] ∨ sign = ['-']) ∧ isWhole whole = true ∧
      (∀ c ∈ whole, c.isDigit = true) ∧ isScale scale = true := by
  obtain ⟨cs, h⟩ := f
  rw [isFloatText, Bool.and_eq_true] at h
  have hparts := List.takeWhile_append_dropWhile (p := Char.isDigit) (l := unsigned cs)
  have hdigits : ∀ c ∈ (unsigned cs).takeWhile Char.isDigit, c.isDigit = true :=
    List.all_eq_true.1 List.all_takeWhile
  have hsign : cs = unsigned cs ∨ cs = '-' :: unsigned cs := by
    unfold unsigned
    split
    · exact .inr rfl
    · exact .inl rfl
  rcases hsign with hs | hs
  · exact ⟨[], _, _, by rw [List.nil_append, hparts]; exact hs, .inl rfl, h.1, hdigits, h.2⟩
  · exact ⟨['-'], _, _, by rw [hparts]; exact hs, .inr rfl, h.1, hdigits, h.2⟩

/-- The text of a float starts with a digit or a minus sign. -/
theorem floatText_head (f : FloatText) :
    ∃ c r, f.val = c :: r ∧ (c.isDigit = true ∨ c = '-') := by
  obtain ⟨sign, whole, scale, hf, rfl | rfl, hw, hd, -⟩ := floatText_parts f
  · cases whole with
    | nil => cases hw
    | cons c r => exact ⟨c, _, hf, .inl (hd c List.mem_cons_self)⟩
  · exact ⟨'-', _, hf, .inr rfl⟩

/-- The number scanner refuses the text of a float. -/
theorem scanNat_float {whole scale : List Char} (hd : ∀ c ∈ whole, c.isDigit = true)
    (hs : isScale scale = true) (r : List Char) : scanNat (whole ++ scale ++ r) = none := by
  obtain ⟨hchars, c, s, rfl, hc⟩ := isScale_chars hs
  have hcont := hchars c List.mem_cons_self
  have htake : (whole ++ (c :: s) ++ r).takeWhile Char.isDigit = whole := by
    rw [List.append_assoc, List.takeWhile_append_of_pos hd]
    simp [hc]
  have hdrop : (whole ++ (c :: s) ++ r).dropWhile Char.isDigit = c :: (s ++ r) := by
    rw [List.append_assoc, List.dropWhile_append_of_pos hd]
    simp [hc]
  simp only [scanNat, htake, hdrop, List.head?_cons, Option.any_some, hcont]
  split <;> rfl

/-- The integer scanner refuses the text of a float. -/
theorem scanInt_float (f : FloatText) (r : List Char) : scanInt (f.val ++ r) = none := by
  obtain ⟨sign, whole, scale, hf, rfl | rfl, hw, hd, hs⟩ := floatText_parts f
  · have hscan : scanInt (whole ++ scale ++ r) =
        (scanNat (whole ++ scale ++ r)).map fun x => ((x.1 : ℤ), x.2) := by
      unfold scanInt
      split
      · next r' heq =>
        cases whole with
        | nil => cases hw
        | cons c w =>
          obtain rfl : c = '-' := (List.cons.inj heq).1
          exact absurd (hd _ List.mem_cons_self) (by decide)
      · rfl
    rw [hf, List.nil_append, hscan, scanNat_float hd hs]
    rfl
  · rw [hf, List.cons_append, List.nil_append, List.cons_append, scanInt,
      scanNat_float hd hs]
    rfl

/-- The float scanner reads the text of a float back. -/
theorem scanFloat_float (f : FloatText) {r : List Char} (h : NoNumber r) :
    scanFloat (f.val ++ r) = some (f, r) := by
  have hchars : ∀ c ∈ f.val, continuesNumber c = true := by
    obtain ⟨sign, whole, scale, hf, hsign, -, hd, hs⟩ := floatText_parts f
    intro c hc
    rw [hf, List.mem_append, List.mem_append] at hc
    rcases hc with hc | hc | hc
    · rcases hsign with rfl | rfl
      · cases hc
      · rw [List.mem_singleton.1 hc]
        rfl
    · simp [continuesNumber, hd c hc]
    · exact (isScale_chars hs).1 c hc
  have hr : r.takeWhile continuesNumber = [] ∧ r.dropWhile continuesNumber = r := by
    cases r with
    | nil => simp
    | cons c r =>
      have hc : continuesNumber c = false := by simpa [NoNumber] using h
      simp [hc]
  have htake : (f.val ++ r).takeWhile continuesNumber = f.val := by
    rw [List.takeWhile_append_of_pos hchars, hr.1, List.append_nil]
  have hdrop : (f.val ++ r).dropWhile continuesNumber = r := by
    rw [List.dropWhile_append_of_pos hchars, hr.2]
  unfold scanFloat
  simp only [htake, hdrop, dif_pos f.2]

/-! ## Values -/

mutual

/-- The fuel the decoder needs for a printed value. -/
def size : Json → ℕ
  | .null => 1
  | .bool _ => 1
  | .int _ => 1
  | .float _ => 1
  | .str _ => 1
  | .arr items => 1 + sizeItems items
  | .obj fields => 1 + sizeFields fields

/-- The fuel for the items of an array. -/
def sizeItems : List Json → ℕ
  | [] => 1
  | v :: vs => 1 + size v + sizeItems vs

/-- The fuel for the fields of an object. -/
def sizeFields : List (String × Json) → ℕ
  | [] => 1
  | (_, v) :: fs => 2 + size v + sizeFields fs

end

/-- The characters a printed value can start with: no white space, comma or closing bracket. -/
def StartsValue (c : Char) : Prop :=
  c ≠ ' ' ∧ c ≠ '\t' ∧ c ≠ '\n' ∧ c ≠ '\r' ∧ c ≠ ']' ∧ c ≠ '}' ∧ c ≠ ','

theorem startsValue_of_isDigit {c : Char} (h : c.isDigit = true) : StartsValue c := by
  refine ⟨?_, ?_, ?_, ?_, ?_, ?_, ?_⟩ <;> (rintro rfl; exact absurd h (by decide))

theorem skipWs_of_startsValue {c : Char} (h : StartsValue c) (r : List Char) :
    skipWs (c :: r) = c :: r := by
  obtain ⟨h1, h2, h3, h4, -⟩ := h
  simp [skipWs, h1, h2, h3, h4]

/-- A printed integer starts with a digit or a minus sign. -/
theorem printInt_head (n : ℤ) : ∃ c r, printInt n = c :: r ∧ (c.isDigit = true ∨ c = '-') := by
  cases n with
  | ofNat n =>
    cases hd : Nat.toDigits 10 n with
    | nil => exact absurd hd Nat.toDigits_ne_nil
    | cons c l =>
      refine ⟨c, l, hd, .inl ?_⟩
      exact Nat.isDigit_of_mem_toDigits (b := 10) (n := n) (by norm_num) (by norm_num)
        (by rw [hd]; exact List.mem_cons_self)
  | negSucc n => exact ⟨'-', _, rfl, .inr rfl⟩

/-- A printed value starts with a character that starts values. -/
theorem print_head (v : Json) : ∃ c r, v.print = c :: r ∧ StartsValue c := by
  have lit : ∀ c : Char, c ∈ ['n', 't', 'f', '"', '[', '{', '-'] → StartsValue c := by
    unfold StartsValue; decide
  match v with
  | .null => exact ⟨'n', _, by rw [print], lit _ (by decide)⟩
  | .bool true => exact ⟨'t', _, by rw [print], lit _ (by decide)⟩
  | .bool false => exact ⟨'f', _, by rw [print], lit _ (by decide)⟩
  | .int n =>
    obtain ⟨c, r, hp, hd | rfl⟩ := printInt_head n
    · exact ⟨c, r, by rw [print, hp], startsValue_of_isDigit hd⟩
    · exact ⟨'-', r, by rw [print, hp], lit _ (by decide)⟩
  | .float f =>
    obtain ⟨c, r, hp, hd | rfl⟩ := floatText_head f
    · exact ⟨c, r, by rw [print, hp], startsValue_of_isDigit hd⟩
    · exact ⟨'-', r, by rw [print, hp], lit _ (by decide)⟩
  | .str s => exact ⟨'"', _, by rw [print], lit _ (by decide)⟩
  | .arr [] => exact ⟨'[', _, by rw [print], lit _ (by decide)⟩
  | .arr (v :: vs) => exact ⟨'[', _, by rw [print], lit _ (by decide)⟩
  | .obj [] => exact ⟨'{', _, by rw [print], lit _ (by decide)⟩
  | .obj ((k, v) :: fs) => exact ⟨'{', _, by rw [print], lit _ (by decide)⟩

theorem skipWs_print (v : Json) (r : List Char) : skipWs (v.print ++ r) = v.print ++ r := by
  obtain ⟨c, s, hp, hc⟩ := print_head v
  rw [hp, List.cons_append, skipWs_of_startsValue hc]

/-- A number is none of the other kinds of value. -/
theorem parseValue_number (fuel : ℕ) {c : Char} (r : List Char) (h : c.isDigit = true ∨ c = '-') :
    parseValue (fuel + 1) (c :: r) = scanNumber (c :: r) := by
  have hne : ∀ d ∈ ['n', 't', 'f', '"', '[', '{'], c ≠ d := by
    rintro d hd rfl
    rcases h with h | rfl
    · revert h; revert hd; revert c; decide
    · revert hd; decide
  simp only [List.mem_cons, List.not_mem_nil, or_false, forall_eq_or_imp, forall_eq] at hne
  obtain ⟨h1, h2, h3, h4, h5, h6⟩ := hne
  rw [parseValue]
  all_goals simp_all

/-- With distinct keys a dictionary keeps every field. -/
theorem keepLast_of_nodup {fs : List (String × Json)} (h : (fs.map Prod.fst).Nodup) :
    keepLast fs = fs := by
  induction fs with
  | nil => rfl
  | cons f fs ih =>
    rw [List.map_cons, List.nodup_cons] at h
    rw [keepLast, if_neg h.1, ih h.2]

/-- A dictionary built from fields in key order is the list of the fields. -/
theorem dictOf_of_sorted {fs : List (String × Json)}
    (h : (fs.map Prod.fst).Pairwise (· < ·)) : dictOf fs = fs := by
  rw [dictOf, keepLast_of_nodup (h.imp fun h => ne_of_lt h)]
  exact congrArg SortedBy.toList (SortedBy.ofList_toList ⟨fs, List.pairwise_map.1 h⟩)

mutual

/-- The decoder reads a printed value back. -/
theorem parseValue_print : ∀ (v : Json), v.WF → ∀ fuel, v.size ≤ fuel → ∀ r, NoNumber r →
    parseValue fuel (v.print ++ r) = some (v, r)
  | .null, _, fuel + 1, _, r, _ => by simp [print, parseValue]
  | .bool true, _, fuel + 1, _, r, _ => by simp [print, parseValue]
  | .bool false, _, fuel + 1, _, r, _ => by simp [print, parseValue]
  | .int n, _, fuel + 1, _, r, hr => by
    obtain ⟨c, s, hp, hc⟩ := printInt_head n
    have hscan := scanInt_printInt n hr
    rw [hp, List.cons_append] at hscan
    rw [print, hp, List.cons_append, parseValue_number fuel _ hc, scanNumber, hscan]
  | .float f, _, fuel + 1, _, r, hr => by
    obtain ⟨c, s, hp, hc⟩ := floatText_head f
    have hint := scanInt_float f r
    have hscan := scanFloat_float f hr
    rw [hp, List.cons_append] at hint hscan
    rw [print, hp, List.cons_append, parseValue_number fuel _ hc, scanNumber, hint, hscan]
    rfl
  | .str s, _, fuel + 1, _, r, _ => by
    simp only [print, List.cons_append, parseValue, scanString_self, Option.map_some,
      String.ofList_toList]
  | .arr [], _, fuel + 1, _, r, _ => by simp [print, parseValue, skipWs]
  | .arr (v :: vs), _, 0, hf, _, _ => by simp [size] at hf
  | .arr (v :: vs), hw, fuel + 1, hf, r, _ => by
    rw [wf_arr] at hw
    simp only [size, sizeItems] at hf
    have hv := parseValue_print v (hw v List.mem_cons_self) fuel (by omega) (printItems vs ++ r)
      (printItems_noNumber vs r)
    have hvs := parseItems_print vs (fun w h => hw w (List.mem_cons_of_mem _ h)) fuel (by omega) r
    obtain ⟨c, s, hp, hc⟩ := print_head v
    rw [hp, List.cons_append] at hv
    simp only [print, hp, List.cons_append, List.append_assoc, parseValue,
      skipWs_of_startsValue hc]
    split
    · next heq => exact absurd (List.cons.inj heq).1 hc.2.2.2.2.1
    · simp only [hv, hvs, Option.map_some]
  | .obj [], _, fuel + 1, _, r, _ => by simp [print, parseValue, skipWs]
  | .obj ((k, v) :: fs), _, 0, hf, _, _ => by simp [size] at hf
  | .obj ((k, v) :: fs), hw, fuel + 1, hf, r, _ => by
    rw [wf_obj] at hw
    simp only [size, sizeFields] at hf
    have hfs := parseField_print k v fs (hw.2 _ List.mem_cons_self)
      (fun f h => hw.2 f (List.mem_cons_of_mem _ h)) fuel (by omega) r
    have hws : ∀ s : List Char, skipWs ('"' :: s) = '"' :: s := fun s => by simp [skipWs]
    simp only [print, List.cons_append, List.append_assoc, parseValue, hws]
    split
    · next heq => exact absurd (List.cons.inj heq).1 (by decide)
    · simp only [hfs, Option.map_some, dictOf_of_sorted hw.1]

/-- The decoder reads the remaining items of an array back. -/
theorem parseItems_print : ∀ (vs : List Json), (∀ v ∈ vs, v.WF) → ∀ fuel, sizeItems vs ≤ fuel →
    ∀ r, parseItems fuel (printItems vs ++ r) = some (vs, r)
  | [], _, fuel + 1, _, r => by simp [printItems, parseItems, skipWs]
  | v :: vs, _, 0, hf, _ => by simp [sizeItems] at hf
  | v :: vs, hw, fuel + 1, hf, r => by
    simp only [sizeItems] at hf
    have hv := parseValue_print v (hw v List.mem_cons_self) fuel (by omega) (printItems vs ++ r)
      (printItems_noNumber vs r)
    have hvs := parseItems_print vs (fun w h => hw w (List.mem_cons_of_mem _ h)) fuel (by omega) r
    have hws : ∀ s : List Char, skipWs (',' :: s) = ',' :: s := fun s => by simp [skipWs]
    simp only [printItems, List.cons_append, List.append_assoc, parseItems, hws, skipWs_print, hv,
      hvs, Option.map_some]

/-- The decoder reads a field and those after it back. -/
theorem parseField_print : ∀ (k : String) (v : Json) (fs : List (String × Json)), v.WF →
    (∀ f ∈ fs, f.2.WF) → ∀ fuel, 1 + v.size + sizeFields fs ≤ fuel → ∀ r,
    parseField fuel ('"' :: (printChars k.toList ++ ':' :: (v.print ++ (printFields fs ++ r)))) =
      some ((k, v) :: fs, r)
  | k, v, fs, _, _, 0, hf, _ => by omega
  | k, v, fs, hv, hfs, fuel + 1, hf, r => by
    have hpv := parseValue_print v hv fuel (by omega) (printFields fs ++ r)
      (printFields_noNumber fs r)
    have hpfs := parseFields_print fs hfs fuel (by omega) r
    have hws : ∀ s : List Char, skipWs (':' :: s) = ':' :: s := fun s => by simp [skipWs]
    simp only [parseField, scanString_self, hws, skipWs_print, hpv, hpfs, Option.map_some,
      String.ofList_toList]

/-- The decoder reads the remaining fields of an object back. -/
theorem parseFields_print : ∀ (fs : List (String × Json)), (∀ f ∈ fs, f.2.WF) → ∀ fuel,
    sizeFields fs ≤ fuel → ∀ r, parseFields fuel (printFields fs ++ r) = some (fs, r)
  | [], _, fuel + 1, _, r => by simp [printFields, parseFields, skipWs]
  | (k, v) :: fs, _, 0, hf, _ => by simp [sizeFields] at hf
  | (k, v) :: fs, hw, fuel + 1, hf, r => by
    simp only [sizeFields] at hf
    have hfs := parseField_print k v fs (hw _ List.mem_cons_self)
      (fun f h => hw f (List.mem_cons_of_mem _ h)) fuel (by omega) r
    have hws : ∀ s : List Char, skipWs (',' :: s) = ',' :: s := fun s => by simp [skipWs]
    have hq : ∀ s : List Char, skipWs ('"' :: s) = '"' :: s := fun s => by simp [skipWs]
    simp only [printFields, List.cons_append, List.append_assoc, parseFields, hws, hq, hfs]

/-- What follows a value in an array does not continue a number. -/
theorem printItems_noNumber : ∀ (vs : List Json) (r : List Char), NoNumber (printItems vs ++ r)
  | [], r => by simpa [printItems] using noNumber_cons (by decide) r
  | v :: vs, r => by simpa [printItems] using noNumber_cons (by decide) _

/-- What follows a value in an object does not continue a number. -/
theorem printFields_noNumber : ∀ (fs : List (String × Json)) (r : List Char),
    NoNumber (printFields fs ++ r)
  | [], r => by simpa [printFields] using noNumber_cons (by decide) r
  | (k, v) :: fs, r => by simpa [printFields] using noNumber_cons (by decide) _

end

mutual

/-- A printed value is at least as long as the fuel it needs. -/
theorem size_le_length : ∀ v : Json, v.size ≤ 2 * v.print.length
  | .null => by simp [size, print]
  | .bool true => by simp [size, print]
  | .bool false => by simp [size, print]
  | .int n => by
    obtain ⟨c, s, hp, -⟩ := printInt_head n
    simp only [size, print, hp, List.length_cons]
    omega
  | .float f => by
    obtain ⟨c, s, hp, -⟩ := floatText_head f
    simp only [size, print, hp, List.length_cons]
    omega
  | .str s => by
    simp only [size, print, List.length_cons]
    omega
  | .arr [] => by simp [size, sizeItems, print]
  | .arr (v :: vs) => by
    have := size_le_length v
    have := sizeItems_le_length vs
    simp only [size, sizeItems, print, List.length_cons, List.length_append]
    omega
  | .obj [] => by simp [size, sizeFields, print]
  | .obj ((k, v) :: fs) => by
    have := size_le_length v
    have := sizeFields_le_length fs
    simp only [size, sizeFields, print, List.length_cons, List.length_append]
    omega

theorem sizeItems_le_length : ∀ vs : List Json, sizeItems vs ≤ 2 * (printItems vs).length
  | [] => by simp [sizeItems, printItems]
  | v :: vs => by
    have := size_le_length v
    have := sizeItems_le_length vs
    simp only [sizeItems, printItems, List.length_cons, List.length_append]
    omega

theorem sizeFields_le_length : ∀ fs : List (String × Json),
    sizeFields fs ≤ 2 * (printFields fs).length
  | [] => by simp [sizeFields, printFields]
  | (k, v) :: fs => by
    have := size_le_length v
    have := sizeFields_le_length fs
    simp only [sizeFields, printFields, List.length_cons, List.length_append]
    omega

end

end Json

/-- Decoding the text of a well-formed value gives the value back. -/
theorem loads_dumps {v : Json} (h : v.WF) : loads (dumps v) = some v := by
  have hparse : Json.parseValue (2 * v.print.length + 2) v.print = some (v, []) := by
    simpa using Json.parseValue_print v h (2 * v.print.length + 2)
      (by have := Json.size_le_length v; omega) [] rfl
  have hws : Json.skipWs v.print = v.print := by simpa using Json.skipWs_print v []
  simp [loads, dumps, String.toList_ofList, hws, hparse, Json.skipWs]

/-- Different well-formed values have different texts. -/
theorem dumps_injective {v w : Json} (hv : v.WF) (hw : w.WF) (h : dumps v = dumps w) : v = w := by
  have hload := loads_dumps hv
  rw [h, loads_dumps hw] at hload
  exact (Option.some.inj hload).symm

end CreatidyKernel
